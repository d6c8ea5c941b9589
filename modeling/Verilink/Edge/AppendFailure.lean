import Verilink.Edge.WalAccounting

/-!
# Appends that fail

`Append` evicts the oldest decisions before it knows that the new one can be stored: the record may
be larger than the whole log, and the acknowledgement of the evicted entries or the line itself may
not be written. Whatever fails, the log stays within its capacity.
-/

namespace Verilink.Edge

open Verilink.Framework

/-! ## Answers of the file system -/

namespace Disk

variable {d : Disk}

def Accepts (d : Disk) : Prop :=
  d.hasPath = true → d.handle ≠ .closed ∧
    (d.writes.headD .done = .done ∨
      (d.writes.headD .done = .unsynced ∧ d.sinceSync + 1 < walSyncEveryN))

def acked (d : Disk) : Disk :=
  if d.hasPath then
    { d with
      writes := d.writes.tail
      sinceSync := if walSyncEveryN ≤ d.sinceSync + 1 then 0 else d.sinceSync + 1 }
  else d

def Reaches (d : Disk) (data : Bytes) : Prop :=
  d.hasPath = true ∧ d.handle ≠ .closed ∧
    ∀ n, d.writes.headD .done = .short n → data.length ≤ n

/-- The next write returns nil, and of the one after it at least `need` bytes reach the file. -/
def EvictionLogged (d : Disk) (need : Int) : Prop :=
  d.Accepts ∧ (d.hasPath = true → ∀ n, d.writes.tail.headD .done = .short n → need ≤ n)

theorem writeBytesLocked_none_iff {data : Bytes} :
    (d.writeBytesLocked data false).2 = none ↔ d.Accepts := by
  unfold writeBytesLocked Accepts
  by_cases hpath : d.hasPath = true
  · by_cases hclosed : d.handle = .closed
    · simp [hpath, hclosed]
    · generalize d.writes.headD .done = answer
      cases answer with
      | done => by_cases hsync : walSyncEveryN ≤ d.sinceSync + 1 <;> simp [hpath, hclosed, hsync]
      | short n => simp [hpath, hclosed]
      | unsynced =>
        by_cases hsync : walSyncEveryN ≤ d.sinceSync + 1
        · simp [hpath, hclosed, hsync, not_lt.mpr hsync]
        · simp [hpath, hclosed, hsync, not_le.mp hsync]
  · simp [hpath]

theorem writeBytesLocked_accepted (h : d.Accepts) (data : Bytes) :
    ∃ content, (d.writeBytesLocked data false).1 = { d.acked with content := content } := by
  unfold writeBytesLocked acked
  by_cases hpath : d.hasPath = true
  · obtain ⟨hopen, hanswer⟩ := h hpath
    refine ⟨(Disk.put { d with writes := d.writes.tail } data).content, ?_⟩
    generalize d.writes.headD .done = answer at hanswer ⊢
    rcases hanswer with rfl | ⟨rfl, hlater⟩
    · by_cases hsync : walSyncEveryN ≤ d.sinceSync + 1 <;> simp [hpath, hopen, hsync]
    · simp [hpath, hopen, not_le.mpr hlater]
  · refine ⟨d.content, ?_⟩
    rw [if_pos (by simp [hpath]), if_neg hpath]

theorem writeLineLocked_eq {l : LogLine} (hl : l.Ok) (force : Bool) :
    d.writeLineLocked l.line force = d.writeBytesLocked (l.line.text ++ [0x0A]) force := by
  unfold writeLineLocked
  rw [hl.data]
  by_cases hpath : d.hasPath = true
  · simp [hpath]
  · simp [writeBytesLocked, hpath]

/-- An error of a write whose bytes all reached the file is one of the sync. -/
theorem reaches_of_none {data : Bytes} (hpath : d.hasPath = true)
    (h : (d.writeBytesLocked data false).2 = none) : d.Reaches data := by
  obtain ⟨hopen, hanswer⟩ := writeBytesLocked_none_iff.mp h hpath
  refine ⟨hpath, hopen, ?_⟩
  intro n hn
  rcases hanswer with hdone | ⟨hsync, -⟩
  · rw [hdone] at hn
    cases hn
  · rw [hsync] at hn
    cases hn

end Disk

/-! ## Entries that leave the queue -/

namespace Queue

variable {q : Queue}

theorem pruned_le (q : Queue) (now : Time) : q.pruned now ≤ q.entries.length := by
  unfold pruned
  split_ifs
  · exact Nat.zero_le _
  · exact (List.takeWhile_sublist _).length_le

theorem removeWhile_done (cond : Queue → Bool) {n : Nat} (hn : q.entries.length ≤ n) :
    (removeWhile cond n q).entries = [] ∨ cond (removeWhile cond n q) = false := by
  induction n generalizing q with
  | zero => exact .inl (List.length_eq_zero_iff.mp (Nat.le_zero.mp hn))
  | succ n ih =>
    rw [removeWhile]
    split_ifs with h
    · apply ih
      rw [entries_removeOldest, List.length_tail]
      omega
    · by_cases hnil : q.entries = []
      · exact .inl hnil
      · exact .inr (by simpa [hnil] using h)

theorem overfull_removeWhile (hq : q.Accounted) (need : Int) :
    (removeWhile (overfull need) q.entries.length q).overfull need = false ↔ need ≤ q.maxBytes := by
  obtain ⟨k, -, hk⟩ := removeWhile_removed (overfull need) q.entries.length hq
  have hacc := hk.accounted hq
  have hbytes : 0 ≤ (removeWhile (overfull need) q.entries.length q).bytes := by
    rw [hacc.bytes]
    exact entrySizes_nonneg hacc.sizes
  constructor
  · intro hfits
    rw [overfull, hk.maxBytes, decide_eq_false_iff_not] at hfits
    omega
  · intro hneed
    rcases removeWhile_done (overfull need) (le_refl q.entries.length) with hnil | hfits
    · rw [overfull, hk.maxBytes, hacc.bytes, hnil, decide_eq_false_iff_not]
      simpa [entrySizes] using hneed
    · exact hfits

end Queue

namespace Wal

variable {w : Wal} {now : Time} {k : Nat} {q : Queue}

theorem ackDropped_zero (h : q.entries = w.queue.entries) :
    w.ackDropped q = ({ w with queue := q }, none) := by
  rw [ackDropped, h, Nat.sub_self]
  rfl

theorem ackDropped_pos (hq : w.queue.Accounted) (h : Queue.Dropped k w.queue q) (hk : 0 < k) :
    ∃ data, w.ackDropped q = onDisk { w with queue := q } (w.disk.writeBytesLocked data false) := by
  have hcount : w.queue.entries.length - q.entries.length = k := by
    have := h.le
    rw [h.entries, List.length_drop]
    omega
  have hne : w.queue.entries.take k ≠ [] := by
    rw [← List.length_pos_iff, List.length_take]
    have := h.le
    omega
  rw [ackDropped, hcount, List.getLast?_eq_getLast_of_ne_nil hne]
  have hmem := List.mem_of_mem_take (List.getLast_mem hne)
  have hok : (LogLine.ack ((w.queue.entries.take k).getLast hne).record.walSeq).Ok :=
    LogLine.ok_ack (hq.int64 _ hmem).walSeq
  exact ⟨_, congrArg (onDisk { w with queue := q }) (Disk.writeLineLocked_eq hok false)⟩

theorem prune_disk (hq : w.queue.Accounted) (now : Time) :
    ((w.pruneExpiredLocked now).2 = none ↔ w.queue.pruned now = 0 ∨ w.disk.Accepts) ∧
      ((w.pruneExpiredLocked now).2 = none → ∃ content, (w.pruneExpiredLocked now).1.disk =
        { (if w.queue.pruned now = 0 then w.disk else w.disk.acked) with content := content }) := by
  have hremoved := prune_removed hq now
  obtain ⟨k, hdropped⟩ := w.pruneExpiredLocked_dropped now
  by_cases hage : w.queue.maxAge < 0
  · rw [pruneExpiredLocked, Queue.pruned, if_pos hage, if_pos hage]
    exact ⟨by simp, fun _ => ⟨w.disk.content, rfl⟩⟩
  · rw [pruneExpiredLocked, if_neg hage] at hremoved hdropped ⊢
    rw [queue_ackDropped] at hremoved hdropped
    generalize w.queue.removeWhile (Queue.headExpired (now - w.queue.maxAge)) w.queue.entries.length =
      q at hremoved hdropped ⊢
    have hk : w.queue.pruned now = k := by
      have hle := w.queue.pruned_le now
      have hlen := congrArg List.length (hremoved.entries.symm.trans hdropped.entries)
      rw [List.length_drop, List.length_drop] at hlen
      have := hdropped.le
      omega
    rw [hk]
    cases k with
    | zero =>
      rw [ackDropped_zero hdropped.entries]
      exact ⟨by simp, fun _ => ⟨w.disk.content, rfl⟩⟩
    | succ k =>
      obtain ⟨data, hdata⟩ := ackDropped_pos hq hdropped k.succ_pos
      rw [hdata]
      refine ⟨?_, ?_⟩
      · simpa [onDisk] using Disk.writeBytesLocked_none_iff
      · intro hnone
        exact Disk.writeBytesLocked_accepted (Disk.writeBytesLocked_none_iff.mp hnone) data

/-- The call has to evict: after age pruning something is pending, and `need` more bytes do not fit.
-/
structure MustEvict (w : Wal) (now : Time) (need : Int) : Prop where
  mayDrop : w.queue.noDrop = false
  pending : w.queue.pruned now < w.queue.entries.length
  overfull : w.queue.maxBytes < entrySizes (w.queue.entries.drop (w.queue.pruned now)) + need

def prunedDisk (w : Wal) (now : Time) : Disk := if w.queue.pruned now = 0 then w.disk else w.disk.acked

variable {need : Int}

theorem queue_capacity_of_room
    (h : ¬ (w.queue.noDrop = false ∧ w.queue.entries ≠ [] ∧ w.queue.overfull need)) :
    (w.dropForCapacityLocked need).1.queue = w.queue := by
  by_cases hfull : w.queue.overfull need ∧ w.queue.entries ≠ [] ∧ w.queue.noDrop
  · rw [dropForCapacityLocked, if_pos hfull]
  · rw [queue_dropForCapacityLocked hfull]
    by_cases hnil : w.queue.entries = []
    · rw [hnil]
      rfl
    · apply Queue.removeWhile_eq_self
      cases hdrop : w.queue.noDrop <;> simp_all

theorem capacity_evicts (hq : w.queue.Accounted) (hdrop : w.queue.noDrop = false)
    (hne : w.queue.entries ≠ []) (hover : w.queue.overfull need = true) :
    (w.dropForCapacityLocked need).1.queue.entries.length < w.queue.entries.length ∧
      ((w.dropForCapacityLocked need).2 = none ↔ need ≤ w.queue.maxBytes ∧ w.disk.Accepts) ∧
      (w.disk.Accepts → ∃ content,
        (w.dropForCapacityLocked need).1.disk = { w.disk.acked with content := content }) := by
  have hnot : ¬ (w.queue.overfull need ∧ w.queue.entries ≠ [] ∧ w.queue.noDrop) := by simp [hdrop]
  obtain ⟨k, hk⟩ := Queue.removeWhile_dropped_of_cond hover hne
  have hfits := Queue.overfull_removeWhile hq need
  rw [queue_dropForCapacityLocked hnot, dropForCapacityLocked, if_neg hnot]
  generalize w.queue.removeWhile (Queue.overfull need) w.queue.entries.length = q at hk hfits ⊢
  obtain ⟨data, hdata⟩ := ackDropped_pos hq hk (Nat.add_pos_left Nat.one_pos k)
  rw [hdata]
  refine ⟨?_, ?_, ?_⟩
  · have := hk.le
    rw [hk.entries, List.length_drop]
    omega
  · rw [Outcome.andThen_eq_none]
    change (w.disk.writeBytesLocked data false).2 = none ∧
      (if q.overfull need = true then _ else _ : WalOutcome).2 = none ↔ _
    rw [Disk.writeBytesLocked_none_iff, ← hfits, and_comm]
    cases q.overfull need <;> simp
  · intro haccepts
    have hnone : (w.disk.writeBytesLocked data false).2 = none :=
      Disk.writeBytesLocked_none_iff.mpr haccepts
    rw [Outcome.andThen_of_none (r := onDisk _ _) hnone, apply_ite Prod.fst, ite_self]
    exact Disk.writeBytesLocked_accepted haccepts data

/-! ## Failed appends -/

def Wrote (w : Wal) (d : Decision) (clock now : Time) : Prop :=
  d.action ∈ ["allow", "deny", "passthrough"] ∧ (w.pruneExpiredLocked now).2 = none ∧
    ∃ data, (decLine (w.stamped d clock)).data = .ok data ∧
      ((w.pruneExpiredLocked now).1.dropForCapacityLocked data.length).2 = none ∧
      ((w.pruneExpiredLocked now).1.dropForCapacityLocked data.length).1.disk.Reaches data

/-- The pending list, the byte count and the counter of dropped decisions are those before the call
or those after age pruning. -/
def SameButPruned (w : Wal) (now : Time) (q : Queue) : Prop :=
  ∃ q₀, (q₀ = w.queue ∨ q₀ = (w.pruneExpiredLocked now).1.queue) ∧
    q.entries = q₀.entries ∧ q.bytes = q₀.bytes ∧ q.dropped = q₀.dropped

theorem sameButPruned_of_eq {q : Queue} (h : q = (w.pruneExpiredLocked now).1.queue) :
    w.SameButPruned now q :=
  ⟨_, .inr rfl, congrArg Queue.entries h, congrArg Queue.bytes h, congrArg Queue.dropped h⟩

theorem not_sameButPruned {q : Queue}
    (h : q.entries.length < (w.pruneExpiredLocked now).1.queue.entries.length) :
    ¬ w.SameButPruned now q := by
  rintro ⟨q₀, hq₀, hentries, -, -⟩
  obtain ⟨k, hk⟩ := w.pruneExpiredLocked_dropped now
  have hle : (w.pruneExpiredLocked now).1.queue.entries.length ≤ w.queue.entries.length := by
    rw [hk.entries, List.length_drop]
    exact Nat.sub_le _ _
  rw [hentries] at h
  rcases hq₀ with rfl | rfl
  · exact absurd (h.trans_le hle) (lt_irrefl _)
  · exact lt_irrefl _ h

variable {d : Decision} {data : Bytes} {clock : Time}

theorem appendEntry_none_of_noPath (hpath : w.disk.hasPath = false) :
    (w.appendEntry d data).2 = none := by
  have hwrite : w.disk.writeBytesLocked data false = (w.disk, none) := by
    rw [Disk.writeBytesLocked, if_pos (by simp [hpath])]
  rw [appendEntry, hwrite, onDisk, Outcome.andThen_none, maybeCompactLocked, if_pos (by simp [hpath])]

theorem appendEntry_keeps (herr : (w.appendEntry d data).2 ≠ none) (hnot : ¬ w.disk.Reaches data) :
    (w.appendEntry d data).1.queue = w.queue := by
  have hpath : w.disk.hasPath = true := by
    by_contra hno
    exact herr (appendEntry_none_of_noPath (by simpa using hno))
  rw [appendEntry] at herr ⊢
  rcases Outcome.andThen_cases (w.onDisk (w.disk.writeBytesLocked data false)) _ with
    ⟨hnone, h⟩ | ⟨e, -, h⟩ <;> rw [h] at herr ⊢
  · exact absurd (Disk.reaches_of_none hpath hnone) hnot
  · rfl

theorem append_of_pruned (haction : d.action ∈ ["allow", "deny", "passthrough"])
    (hprune : (w.pruneExpiredLocked now).2 = none)
    (hdata : (decLine (w.stamped d clock)).data = .ok data) :
    w.append d clock now =
      ((w.pruneExpiredLocked now).1.dropForCapacityLocked data.length).andThen fun w' =>
        w'.appendEntry (w'.stamped d clock) data := by
  obtain ⟨k, hk⟩ := w.pruneExpiredLocked_dropped now
  rw [append, if_neg (not_not_intro haction), Outcome.andThen_of_none hprune,
    stamped_congr hk.nextSeq, hdata]

def Spares (w : Wal) (d : Decision) (clock now : Time) : Prop :=
  d.action ∈ ["allow", "deny", "passthrough"] → (w.queue.pruned now = 0 ∨ w.disk.Accepts) →
    ∀ data, (decLine (w.stamped d clock)).data = .ok data → w.MustEvict now data.length →
      data.length ≤ w.queue.maxBytes ∧ (w.prunedDisk now).EvictionLogged data.length

theorem mustEvict_iff (hq : w.queue.Accounted) :
    w.MustEvict now need ↔ (w.pruneExpiredLocked now).1.queue.noDrop = false ∧
      (w.pruneExpiredLocked now).1.queue.entries ≠ [] ∧
      (w.pruneExpiredLocked now).1.queue.overfull need = true := by
  have hremoved := prune_removed hq now
  have hacc := hremoved.accounted hq
  rw [hremoved.noDrop, ← List.length_pos_iff, Queue.overfull, hremoved.maxBytes, hacc.bytes,
    hremoved.entries, List.length_drop, decide_eq_true_iff]
  constructor
  · rintro ⟨hdrop, hpending, hover⟩
    exact ⟨hdrop, by omega, hover⟩
  · rintro ⟨hdrop, hpending, hover⟩
    exact ⟨hdrop, by omega, hover⟩

theorem append_keeps_of_room (haction : d.action ∈ ["allow", "deny", "passthrough"])
    (hprune : (w.pruneExpiredLocked now).2 = none)
    (hdata : (decLine (w.stamped d clock)).data = .ok data)
    (hroom : ((w.pruneExpiredLocked now).1.dropForCapacityLocked data.length).1.queue =
      (w.pruneExpiredLocked now).1.queue) (herr : (w.append d clock now).2 ≠ none)
    (hnot : ¬ w.Wrote d clock now) :
    (w.append d clock now).1.queue = (w.pruneExpiredLocked now).1.queue := by
  rw [append_of_pruned haction hprune hdata] at herr ⊢
  rcases Outcome.andThen_cases ((w.pruneExpiredLocked now).1.dropForCapacityLocked data.length)
    (fun w' => w'.appendEntry (w'.stamped d clock) data) with ⟨hcap, h⟩ | ⟨e, -, h⟩ <;> rw [h] at herr ⊢
  · rw [appendEntry_keeps herr fun hreach => hnot ⟨haction, hprune, data, hdata, hcap, hreach⟩]
    exact hroom
  · exact hroom

/-- With an eviction the queue is the same exactly if the decision reached the file or there is no
error. -/
theorem append_evicts (hq : w.queue.Accounted) (haction : d.action ∈ ["allow", "deny", "passthrough"])
    (hprune : (w.pruneExpiredLocked now).2 = none)
    (hdata : (decLine (w.stamped d clock)).data = .ok data) (hevict : w.MustEvict now data.length) :
    ((w.append d clock now).2 ≠ none → ¬ w.Wrote d clock now →
      w.SameButPruned now (w.append d clock now).1.queue) ↔
      data.length ≤ w.queue.maxBytes ∧ (w.prunedDisk now).EvictionLogged data.length := by
  obtain ⟨content, hcontent⟩ := (prune_disk hq now).2 hprune
  have hremoved := prune_removed hq now
  have hlogged : (w.prunedDisk now).EvictionLogged data.length ↔
      (w.pruneExpiredLocked now).1.disk.EvictionLogged data.length := by
    rw [hcontent]
    rfl
  obtain ⟨hdrop, hne, hover⟩ := (mustEvict_iff hq).mp hevict
  obtain ⟨hless, hcap, hacked⟩ := capacity_evicts (hremoved.accounted hq) hdrop hne hover
  rw [hlogged, ← hremoved.maxBytes, append_of_pruned haction hprune hdata]
  have hwrote : w.Wrote d clock now →
      ((w.pruneExpiredLocked now).1.dropForCapacityLocked data.length).2 = none ∧
      ((w.pruneExpiredLocked now).1.dropForCapacityLocked data.length).1.disk.Reaches data := by
    rintro ⟨-, -, data', hdata', hboth⟩
    cases hdata.symm.trans hdata'
    exact hboth
  have hwrote' : ((w.pruneExpiredLocked now).1.dropForCapacityLocked data.length).2 = none →
      ((w.pruneExpiredLocked now).1.dropForCapacityLocked data.length).1.disk.Reaches data →
      w.Wrote d clock now := fun hnone hreach => ⟨haction, hprune, data, hdata, hnone, hreach⟩
  have hdiffers : ∀ q : Queue, q =
      ((w.pruneExpiredLocked now).1.dropForCapacityLocked data.length).1.queue →
      ¬ w.SameButPruned now q := by
    rintro q rfl
    exact not_sameButPruned hless
  generalize (w.pruneExpiredLocked now).1.dropForCapacityLocked data.length = r at *
  generalize (w.pruneExpiredLocked now).1 = w₁ at *
  constructor
  · intro hkeeps
    by_cases hnone : r.2 = none
    · obtain ⟨hfits, haccepts⟩ := hcap.mp hnone
      obtain ⟨content', hcontent'⟩ := hacked haccepts
      refine ⟨hfits, haccepts, ?_⟩
      intro hpath n hn
      by_contra hshort
      have hanswer : r.1.disk.writes.headD .done = .short n := by
        rw [hcontent', Disk.acked, if_pos hpath]
        exact hn
      have hpath' : r.1.disk.hasPath = true := by
        rw [hcontent', Disk.acked, if_pos hpath]
        exact hpath
      have hnot : ¬ r.1.disk.Reaches data := fun hreach =>
          hshort (by exact_mod_cast hreach.2.2 n hanswer)
      have herr : (r.1.appendEntry (r.1.stamped d clock) data).2 ≠ none := by
        intro hentry
        obtain ⟨hwrite, -⟩ := Outcome.andThen_eq_none.mp hentry
        exact hnot (Disk.reaches_of_none hpath' hwrite)
      rw [Outcome.andThen_of_none hnone] at hkeeps
      exact hdiffers _ (appendEntry_keeps herr hnot) (hkeeps herr fun h => hnot (hwrote h).2)
    · rcases Outcome.andThen_cases r (fun w' => w'.appendEntry (w'.stamped d clock) data) with
        ⟨h, -⟩ | ⟨e, -, h⟩
      · exact absurd h hnone
      · rw [h] at hkeeps
        exact absurd (hkeeps (Option.some_ne_none e) fun h => hnone (hwrote h).1) (hdiffers _ rfl)
  · rintro ⟨hfits, haccepts, hline⟩ herr hnot
    have hnone := hcap.mpr ⟨hfits, haccepts⟩
    obtain ⟨content', hcontent'⟩ := hacked haccepts
    rw [Outcome.andThen_of_none hnone] at herr
    by_cases hpath : w₁.disk.hasPath = true
    · -- The whole line is in the file, so the error is one of the sync or of a compaction.
      have hreach : r.1.disk.Reaches data := by
        rw [hcontent', Disk.acked, if_pos hpath]
        exact ⟨hpath, (haccepts hpath).1, fun n hn => by exact_mod_cast hline hpath n hn⟩
      exact absurd (hwrote' hnone hreach) hnot
    · refine absurd (appendEntry_none_of_noPath ?_) herr
      rw [hcontent', Disk.acked, if_neg hpath]
      simpa using hpath

theorem failed_append_iff (hq : w.queue.Accounted) (d : Decision) (clock now : Time) :
    ((w.append d clock now).2 ≠ none → ¬ w.Wrote d clock now →
        w.SameButPruned now (w.append d clock now).1.queue) ↔ w.Spares d clock now := by
  by_cases haction : d.action ∈ ["allow", "deny", "passthrough"]
  swap
  · refine iff_of_true (fun _ _ => ?_) fun h => absurd h haction
    rw [append, if_pos haction]
    exact ⟨_, .inl rfl, rfl, rfl, rfl⟩
  obtain ⟨hprune, -⟩ := prune_disk hq now
  by_cases hnone : (w.pruneExpiredLocked now).2 = none
  swap
  · refine iff_of_true (fun _ _ => sameButPruned_of_eq ?_) fun _ h => absurd (hprune.mpr h) hnone
    rw [append, if_neg (not_not_intro haction)]
    rcases Outcome.andThen_cases (w.pruneExpiredLocked now) _ with ⟨h, -⟩ | ⟨e, -, h⟩
    · exact absurd h hnone
    · rw [h]
  cases hdata : (decLine (w.stamped d clock)).data with
  | error err =>
    refine iff_of_true (fun _ _ => sameButPruned_of_eq ?_) fun _ _ data h => ?_
    · obtain ⟨k, hk⟩ := w.pruneExpiredLocked_dropped now
      rw [append, if_neg (not_not_intro haction), Outcome.andThen_of_none hnone,
        stamped_congr hk.nextSeq, hdata]
    · rw [hdata] at h
      cases h
  | ok data =>
    by_cases hevict : w.MustEvict now data.length
    · rw [append_evicts hq haction hnone hdata hevict]
      constructor
      · intro h _ _ data' hdata' _
        cases hdata.symm.trans hdata'
        exact h
      · intro h
        exact h haction (hprune.mp hnone) data hdata hevict
    · refine iff_of_true (fun herr hnot => sameButPruned_of_eq ?_) fun _ _ data' hdata' h => ?_
      · rw [mustEvict_iff hq] at hevict
        exact append_keeps_of_room haction hnone hdata (queue_capacity_of_room hevict) herr hnot
      · cases hdata.symm.trans hdata'
        exact absurd h hevict

end Wal

namespace WalLife

variable {s : WalLife}

/-- A failed append whose decision is not in the file changes only what age pruning takes, exactly
if an eviction it has to make goes through. -/
theorem failed_append_keeps_iff (h : walSystem.Reachable s) (writes : List WriteAnswer)
    (compact : CompactAnswer) (d : Decision) (clock now : Time) :
    (((s.wal.answering writes compact).append d clock now).2 ≠ none →
        ¬ (s.wal.answering writes compact).Wrote d clock now →
        (s.wal.answering writes compact).SameButPruned now
          ((s.wal.answering writes compact).append d clock now).1.queue) ↔
      (s.wal.answering writes compact).Spares d clock now := by
  have hq : (s.wal.answering writes compact).queue.Accounted := accounted_of_reachable h
  exact Wal.failed_append_iff hq d clock now

def nearlyFull : WalLife :=
  WalLife.next { wal := (newDecisionWAL { hasPath := true, maxBytes := 150 } 0 [] none 0).1 }
    (.append { action := "allow", fingerprint := "f", score := 1, decidedAt := 0 } 0 0 [] .done)

theorem reachable_nearlyFull : walSystem.Reachable nearlyFull := by
  have hstart : walSystem.Reachable
      { wal := (newDecisionWAL { hasPath := true, maxBytes := 150 } 0 [] none 0).1 } :=
    .init ⟨_, 0, [], none, 0, by decide +kernel, rfl⟩
  exact hstart.next (.append _ 0 0 [] .done) ⟨⟨⟨by decide, by decide⟩, by decide +kernel⟩, rfl⟩

def oversized : Decision :=
  { action := "deny", fingerprint := String.ofList (List.replicate 100 'f'), score := 1, decidedAt := 0 }

def small : Decision := { action := "deny", fingerprint := "g", score := 1, decidedAt := 0 }

theorem failed_append_keeps_iff_nearlyFull :
    (((nearlyFull.wal.answering [] .done).append oversized 0 0).2 ≠ none →
        ¬ (nearlyFull.wal.answering [] .done).Wrote oversized 0 0 →
        (nearlyFull.wal.answering [] .done).SameButPruned 0
          ((nearlyFull.wal.answering [] .done).append oversized 0 0).1.queue) ↔
      (nearlyFull.wal.answering [] .done).Spares oversized 0 0 :=
  failed_append_keeps_iff reachable_nearlyFull [] .done oversized 0 0

/-- The pending decision is evicted and counted as dropped although the new one is larger than the
log, or although nothing can be written. -/
theorem failed_append_evicts :
    walSystem.Reachable nearlyFull ∧
      (nearlyFull.wal.queue.records.map Decision.fingerprint = ["f"] ∧
        nearlyFull.wal.queue.dropped = 0) ∧
      (let w := nearlyFull.wal.answering [] .done
       (w.append oversized 0 0).2 = some .full ∧ ¬ w.Wrote oversized 0 0 ∧
         (w.append oversized 0 0).1.queue.records = [] ∧ (w.append oversized 0 0).1.queue.dropped = 1 ∧
         ¬ w.SameButPruned 0 (w.append oversized 0 0).1.queue) ∧
      (let w := nearlyFull.wal.answering [.short 0] .done
       (w.append small 0 0).2 = some (.other "write") ∧ ¬ w.Wrote small 0 0 ∧
         (w.append small 0 0).1.queue.records = [] ∧ (w.append small 0 0).1.queue.dropped = 1 ∧
         ¬ w.SameButPruned 0 (w.append small 0 0).1.queue) := by
  have hlarge : ¬ (nearlyFull.wal.answering [] .done).Wrote oversized 0 0 := by
    rintro ⟨-, -, data, hdata, hcap, -⟩
    obtain ⟨-, -, rfl⟩ := data_eq_ok.mp hdata
    exact absurd hcap (by decide +kernel)
  have hunwritten : ¬ (nearlyFull.wal.answering [.short 0] .done).Wrote small 0 0 := by
    rintro ⟨-, -, data, hdata, hcap, -⟩
    obtain ⟨-, -, rfl⟩ := data_eq_ok.mp hdata
    exact absurd hcap (by decide +kernel)
  have hfull : let w := nearlyFull.wal.answering [] .done
      (w.append oversized 0 0).2 = some .full ∧ (w.append oversized 0 0).1.queue.records = [] ∧
        (w.append oversized 0 0).1.queue.dropped = 1 ∧
        (w.append oversized 0 0).1.queue.entries.length <
          (w.pruneExpiredLocked 0).1.queue.entries.length := by
    decide +kernel
  have hwrite : let w := nearlyFull.wal.answering [.short 0] .done
      (w.append small 0 0).2 = some (.other "write") ∧ (w.append small 0 0).1.queue.records = [] ∧
        (w.append small 0 0).1.queue.dropped = 1 ∧
        (w.append small 0 0).1.queue.entries.length <
          (w.pruneExpiredLocked 0).1.queue.entries.length := by
    decide +kernel
  refine ⟨reachable_nearlyFull, by decide +kernel, ?_, ?_⟩
  · exact ⟨hfull.1, hlarge, hfull.2.1, hfull.2.2.1, Wal.not_sameButPruned hfull.2.2.2⟩
  · exact ⟨hwrite.1, hunwritten, hwrite.2.1, hwrite.2.2.1, Wal.not_sameButPruned hwrite.2.2.2⟩

end WalLife

/-! ## The capacity of a log -/

def Queue.Within (q : Queue) : Prop := q.bytes ≤ q.maxBytes

theorem Queue.Removed.within {k : Nat} {q q' : Queue} (h : Removed k q q') (hq : q.Accounted)
    (hw : q.Within) :
    q'.Within := by
  have htaken := entrySizes_nonneg fun e he => hq.sizes e (List.mem_of_mem_take (i := k) he)
  rw [Within, h.bytes, h.maxBytes]
  exact (sub_le_self _ htaken).trans hw

namespace Wal

variable {w : Wal}

theorem append_within (hq : w.queue.Accounted) (hw : w.queue.Within) (d : Decision) (clock now : Time) :
    (w.append d clock now).1.queue.Within := by
  obtain ⟨k, q, hremoved, h | ⟨size, stale, hroom, h⟩⟩ := append_queue hq d clock now
  · rw [h]
    exact hremoved.within hq hw
  · rw [h]
    exact hroom

theorem ackThrough_within (hq : w.queue.Accounted) (hw : w.queue.Within) (seq : Int) :
    (w.ackThrough seq).1.queue.Within := by
  obtain ⟨k, q, hremoved, stale, h⟩ := ackThrough_queue hq seq
  rw [h]
  exact hremoved.within hq hw

theorem newDecisionWAL_within {cfg : WalConfig} {dropped : Nat} {writes : List WriteAnswer}
    {file : Option Bytes} {now : Time} (h : (newDecisionWAL cfg dropped writes file now).2 = none) :
    (newDecisionWAL cfg dropped writes file now).1.queue.Within := by
  have hempty : (cfg.empty dropped writes).queue.Within := by
    unfold WalConfig.empty Queue.Within
    dsimp only
    split_ifs
    · decide
    · decide
    · omega
  unfold newDecisionWAL openAndLoad at h ⊢
  split_ifs at h ⊢
  swap
  · exact hempty
  cases file with
  | none => exact hempty
  | some content =>
    dsimp only at h ⊢
    cases hload : (cfg.empty dropped writes).queue.loadStream content with
    | error err => simp [hload] at h
    | ok q =>
      rw [hload] at h
      dsimp only [enforceLimits] at h ⊢
      by_cases hcontent : content = []
      · subst hcontent
        cases hload
        exact hempty
      · rw [if_neg hcontent] at h ⊢
        have hnone := (Outcome.andThen_eq_none.mp h).1
        rw [Outcome.andThen_of_none hnone] at h ⊢
        split_ifs at h ⊢
        exact (le_add_of_nonneg_right le_rfl).trans (capacity_room h)

end Wal

namespace WalLife

variable {s : WalLife}

/-- Whatever the files hold and the writes answer, a log counts what it holds, and that is never
more than it may hold. -/
theorem within_capacity (h : walSystem.Reachable s) :
    s.wal.queue.bytes = entrySizes s.wal.queue.entries ∧ s.wal.queue.bytes ≤ s.wal.queue.maxBytes := by
  suffices hinv : s.wal.queue.Accounted ∧ s.wal.queue.Within from ⟨hinv.1.bytes, hinv.2⟩
  apply h.invariant
  · rintro s ⟨cfg, dropped, writes, file, now, hopen, rfl⟩
    exact ⟨newDecisionWAL_accounted .., Wal.newDecisionWAL_within hopen⟩
  · rintro s a t ⟨hs, hw⟩ ⟨hen, rfl⟩
    refine ⟨accounted_next hs hen, ?_⟩
    cases a with
    | append d clock now writes compact =>
      exact Wal.append_within (w := s.wal.answering writes compact) hs hw d clock now
    | ack seq writes compact =>
      exact Wal.ackThrough_within (w := s.wal.answering writes compact) hs hw seq
    | setNoDrop v => exact hw
    | close => exact hw
    | reopen cfg file writes now => exact Wal.newDecisionWAL_within hen

theorem within_capacity_nearlyFull : walSystem.Reachable nearlyFull ∧
    nearlyFull.wal.queue.bytes ≤ nearlyFull.wal.queue.maxBytes :=
  ⟨reachable_nearlyFull, (within_capacity reachable_nearlyFull).2⟩

end WalLife

end Verilink.Edge

import Verilink.Edge.WalRun

/-!
# The bytes that the decision log counts

Sizes of queued entries are lengths, and the byte count of the log is their sum: opening any file
establishes this and every operation keeps it, whatever the file system answers.
-/

namespace Verilink.Edge

open Verilink.Framework

/-! ## Bytes of the queue -/

def entrySizes (l : List WalEntry) : Int := (l.map WalEntry.size).sum

theorem entrySizes_nonneg {l : List WalEntry} (h : ∀ e ∈ l, 0 ≤ e.size) : 0 ≤ entrySizes l := by
  apply List.sum_nonneg
  rw [List.forall_mem_map]
  exact h

theorem entrySizes_take_add_drop (k : Nat) (l : List WalEntry) :
    entrySizes (l.take k) + entrySizes (l.drop k) = entrySizes l := by
  rw [entrySizes, entrySizes, ← List.sum_append, ← List.map_append, List.take_append_drop, entrySizes]

theorem entrySizes_take_mono {l : List WalEntry} (h : ∀ e ∈ l, 0 ≤ e.size) {j k : Nat} (hjk : j ≤ k) :
    entrySizes (l.take j) ≤ entrySizes (l.take k) := by
  obtain ⟨i, rfl⟩ := Nat.exists_eq_add_of_le hjk
  have hrest : 0 ≤ entrySizes ((l.drop j).take i) :=
    entrySizes_nonneg fun e he => h e (List.mem_of_mem_drop (List.mem_of_mem_take he))
  rw [List.take_add, entrySizes, entrySizes, List.map_append, List.sum_append]
  exact le_add_of_nonneg_right hrest

/-- What every queue of a running log meets: sizes are lengths, they add up, and the integers of a
decision are of type `int64`. -/
structure Queue.Accounted (q : Queue) : Prop where
  next : 0 ≤ q.nextSeq
  sizes : ∀ e ∈ q.entries, 0 ≤ e.size
  bytes : q.bytes = entrySizes q.entries
  int64 : ∀ e ∈ q.entries, (decLine e.record).Int64

namespace Queue

variable {q q' q'' : Queue} {j k : Nat}

structure Removed (k : Nat) (q q' : Queue) : Prop where
  entries : q'.entries = q.entries.drop k
  bytes : q'.bytes = q.bytes - entrySizes (q.entries.take k)
  stale : q'.staleBytes = q.staleBytes + entrySizes (q.entries.take k)
  maxAge : q'.maxAge = q.maxAge
  nextSeq : q'.nextSeq = q.nextSeq
  maxBytes : q'.maxBytes = q.maxBytes
  noDrop : q'.noDrop = q.noDrop

theorem Removed.refl (q : Queue) : Removed 0 q q :=
  ⟨rfl, by simp [entrySizes], by simp [entrySizes], rfl, rfl, rfl, rfl⟩

theorem Removed.accounted (h : Removed k q q') (hq : q.Accounted) : q'.Accounted where
  next := h.nextSeq ▸ hq.next
  sizes := by
    intro e he
    rw [h.entries] at he
    exact hq.sizes e (List.mem_of_mem_drop he)
  bytes := by
    have := entrySizes_take_add_drop k q.entries
    rw [h.bytes, h.entries, hq.bytes]
    omega
  int64 := by
    intro e he
    rw [h.entries] at he
    exact hq.int64 e (List.mem_of_mem_drop he)

theorem removed_one {e : WalEntry} {rest : List WalEntry} (hq : q.Accounted)
    (he : q.entries = e :: rest) : Removed 1 q q.removeOldestLocked := by
  have hbytes := hq.bytes
  have hrest : 0 ≤ entrySizes rest := entrySizes_nonneg fun x hx => hq.sizes x (by simp [he, hx])
  simp only [he, entrySizes, List.map_cons, List.sum_cons] at hbytes
  have hmax : max 0 (q.bytes - e.size) = q.bytes - e.size := by
    apply max_eq_right
    rw [entrySizes] at hrest
    omega
  refine ⟨?_, ?_, ?_, ?_, ?_, ?_, ?_⟩ <;> simp [removeOldestLocked, he, entrySizes, hmax]

theorem Removed.trans (h : Removed j q q') (h' : Removed k q' q'') : Removed (j + k) q q'' := by
  have htake : entrySizes (q.entries.take (j + k)) =
      entrySizes (q.entries.take j) + entrySizes ((q.entries.drop j).take k) := by
    rw [List.take_add, entrySizes, List.map_append, List.sum_append]
    rfl
  refine ⟨?_, ?_, ?_, h'.maxAge.trans h.maxAge, h'.nextSeq.trans h.nextSeq,
    h'.maxBytes.trans h.maxBytes, h'.noDrop.trans h.noDrop⟩
  · rw [h'.entries, h.entries, List.drop_drop]
  · rw [h'.bytes, h.bytes, h.entries, htake]
    omega
  · rw [h'.stale, h.stale, h.entries, htake]
    omega

theorem removeWhile_removed (cond : Queue → Bool) (n : Nat) (hq : q.Accounted) :
    ∃ k, Dropped k q (removeWhile cond n q) ∧ Removed k q (removeWhile cond n q) := by
  induction n generalizing q with
  | zero => exact ⟨0, .refl q, .refl q⟩
  | succ n ih =>
    rw [removeWhile]
    split
    · rename_i h
      obtain ⟨e, rest, he⟩ := List.exists_cons_of_ne_nil h.1
      have hone := removed_one hq he
      obtain ⟨k, hdropped, hk⟩ := ih (hone.accounted hq)
      exact ⟨1 + k, (dropped_one h.1).trans hdropped, hone.trans hk⟩
    · exact ⟨0, .refl q, .refl q⟩

def isExpired (cutoff : Time) (e : WalEntry) : Bool := e.record.decidedAt < cutoff

def pruned (q : Queue) (now : Time) : Nat :=
  if q.maxAge < 0 then 0 else (q.entries.takeWhile (isExpired (now - q.maxAge))).length

theorem removeWhile_headExpired (cutoff : Time) {n : Nat} (hq : q.Accounted)
    (hn : q.entries.length ≤ n) :
    Removed (q.entries.takeWhile (isExpired cutoff)).length q
      (removeWhile (headExpired cutoff) n q) := by
  induction n generalizing q with
  | zero =>
    have hnil : q.entries = [] := List.length_eq_zero_iff.mp (Nat.le_zero.mp hn)
    rw [hnil]
    exact .refl q
  | succ n ih =>
    rw [removeWhile]
    cases he : q.entries with
    | nil =>
      rw [if_neg (by simp)]
      exact .refl q
    | cons e rest =>
      have hhead : headExpired cutoff q = isExpired cutoff e := by
        rw [headExpired, he]
        rfl
      by_cases hexp : isExpired cutoff e = true
      · have hone := removed_one hq he
        have hrest : q.removeOldestLocked.entries = rest := by rw [hone.entries, he]; rfl
        have hlen : q.removeOldestLocked.entries.length ≤ n := by
          rw [he, List.length_cons] at hn
          rw [hrest]
          omega
        have hih := ih (hone.accounted hq) hlen
        rw [if_pos ⟨List.cons_ne_nil _ _, hhead.trans hexp⟩, List.takeWhile_cons_of_pos hexp,
          List.length_cons, Nat.add_comm, ← hrest]
        exact hone.trans hih
      · rw [if_neg (fun h => hexp (hhead ▸ h.2)), List.takeWhile_cons_of_neg hexp]
        exact .refl q

theorem Accounted.queued (hq : q.Accounted) {d : Decision} (hint : (decLine d).Int64) (size : Nat)
    (stale : Int) : (Wal.queued q d size stale).Accounted where
  next := by
    have := hq.next
    change 0 ≤ q.nextSeq + 1
    omega
  sizes := by
    change ∀ e ∈ q.entries ++ [⟨d, size⟩], 0 ≤ e.size
    rw [List.forall_mem_append, List.forall_mem_singleton]
    exact ⟨hq.sizes, Int.natCast_nonneg size⟩
  bytes := by
    change q.bytes + size = entrySizes (q.entries ++ [⟨d, size⟩])
    rw [hq.bytes, entrySizes, entrySizes, List.map_append, List.sum_append, List.map_singleton,
      List.sum_singleton]
  int64 := by
    change ∀ e ∈ q.entries ++ [⟨d, size⟩], (decLine e.record).Int64
    rw [List.forall_mem_append, List.forall_mem_singleton]
    exact ⟨hq.int64, hint⟩

end Queue

/-! ## Bytes that reach the file -/

namespace Disk

@[simp]
theorem hasPath_put (d : Disk) (data : Bytes) : (d.put data).hasPath = d.hasPath := by
  unfold put
  split_ifs <;> rfl

@[simp]
theorem handle_put (d : Disk) (data : Bytes) : (d.put data).handle = d.handle := by
  unfold put
  split_ifs <;> rfl

@[simp]
theorem writes_put (d : Disk) (data : Bytes) : (d.put data).writes = d.writes := by
  unfold put
  split_ifs <;> rfl

@[simp]
theorem compact_put (d : Disk) (data : Bytes) : (d.put data).compact = d.compact := by
  unfold put
  split_ifs <;> rfl

theorem content_put (d : Disk) (data : Bytes) :
    (d.put data).content = d.content ++ if d.handle = .named then data else [] := by
  unfold put
  split_ifs
  · rfl
  · exact (List.append_nil _).symm

end Disk

/-! ## Queues of a running log -/

namespace Queue

variable {q : Queue}

theorem Accounted.stale (hq : q.Accounted) (stale : Int) :
    Accounted { q with staleBytes := stale } :=
  ⟨hq.next, hq.sizes, hq.bytes, hq.int64⟩

end Queue

namespace Wal

variable {w : Wal}

theorem prune_removed (hq : w.queue.Accounted) (now : Time) :
    Queue.Removed (w.queue.pruned now) w.queue (w.pruneExpiredLocked now).1.queue := by
  unfold pruneExpiredLocked Queue.pruned
  split_ifs
  · exact .refl _
  · rw [queue_ackDropped]
    exact Queue.removeWhile_headExpired _ hq le_rfl

theorem capacity_removed (hq : w.queue.Accounted) (need : Int) :
    ∃ k, Queue.Removed k w.queue (w.dropForCapacityLocked need).1.queue := by
  by_cases h : w.queue.overfull need ∧ w.queue.entries ≠ [] ∧ w.queue.noDrop
  · rw [dropForCapacityLocked, if_pos h]
    exact ⟨0, .refl _⟩
  · rw [queue_dropForCapacityLocked h]
    obtain ⟨k, -, hk⟩ := Queue.removeWhile_removed (Queue.overfull need) w.queue.entries.length hq
    exact ⟨k, hk⟩

/-- All that an append does to the queue: the oldest entries go, and the decision is queued only
where it fits. -/
def AppendsTo (q : Queue) (d : Decision) (q' : Queue) : Prop :=
  ∃ k q₁, Queue.Removed k q q₁ ∧ (q' = q₁ ∨
    ∃ (size : Nat) (stale : Int), q₁.bytes + size ≤ q₁.maxBytes ∧ q' = queued q₁ d size stale)

theorem append_queue (hq : w.queue.Accounted) (d : Decision) (clock now : Time) :
    AppendsTo w.queue (w.stamped d clock) (w.append d clock now).1.queue := by
  refine append_induct (P := fun w' => ∃ k, Queue.Removed k w.queue w'.queue)
    (Q := fun r => AppendsTo w.queue (w.stamped d clock) r.1.queue) ⟨0, .refl _⟩
      ⟨_, prune_removed hq now⟩ ?_ ?_ ?_
  · rintro w' need ⟨j, hj⟩
    obtain ⟨k, hk⟩ := capacity_removed (hj.accounted hq) need
    exact ⟨j + k, hj.trans hk⟩
  · rintro w' e ⟨k, hk⟩
    exact ⟨k, _, hk, .inl rfl⟩
  · rintro w' data ⟨k, hk⟩ - hroom -
    rcases appendEntry_queue w' (w.stamped d clock) data with ⟨hsame, -⟩ | ⟨stale, hqueued⟩
    · exact ⟨k, _, hk, .inl hsame⟩
    · exact ⟨k, _, hk, .inr ⟨data.length, stale, hroom, hqueued⟩⟩

theorem maxAge_append (hq : w.queue.Accounted) (d : Decision) (clock now : Time) :
    (w.append d clock now).1.queue.maxAge = w.queue.maxAge := by
  obtain ⟨k, q, hremoved, h | ⟨size, stale, -, h⟩⟩ := append_queue hq d clock now
  · rw [h]
    exact hremoved.maxAge
  · rw [h]
    exact hremoved.maxAge

theorem append_accounted {d : Decision} {clock now : Time} (hq : w.queue.Accounted)
    (hint : (decLine (w.stamped d clock)).Int64) : (w.append d clock now).1.queue.Accounted := by
  obtain ⟨k, q, hremoved, h | ⟨size, stale, -, h⟩⟩ := append_queue hq d clock now
  · rw [h]
    exact hremoved.accounted hq
  · rw [h]
    exact (hremoved.accounted hq).queued hint size stale

/-- An acknowledgement removes entries, and a compaction may then reset the discarded bytes. -/
theorem ackThrough_queue (hq : w.queue.Accounted) (seq : Int) :
    ∃ k q, Queue.Removed k w.queue q ∧ ∃ stale, (w.ackThrough seq).1.queue =
      { q with staleBytes := stale } := by
  rw [ackThrough]
  split
  · exact ⟨0, _, .refl _, _, rfl⟩
  · generalize hacked : w.queue.entries.takeWhile (fun e => decide (e.record.walSeq ≤ seq)) = acked
    have htake : w.queue.entries.take acked.length = acked := by
      rw [← hacked, ← List.prefix_iff_eq_take.mp (List.takeWhile_prefix _)]
    have hsplit := entrySizes_take_add_drop acked.length w.queue.entries
    have hrest : 0 ≤ entrySizes (w.queue.entries.drop acked.length) :=
      entrySizes_nonneg fun e he => hq.sizes e (List.mem_of_mem_drop he)
    rw [htake] at hsplit
    have hbytes : max 0 (w.queue.bytes - entrySizes acked) = w.queue.bytes - entrySizes acked := by
      apply max_eq_right
      rw [hq.bytes]
      omega
    have hremoved : Queue.Removed acked.length w.queue
        { w.queue with
          entries := w.queue.entries.drop acked.length
          bytes := max 0 (w.queue.bytes - entrySizes acked)
          staleBytes := w.queue.staleBytes + entrySizes acked } := by
      refine ⟨rfl, ?_, ?_, rfl, rfl, rfl, rfl⟩
      · rw [htake]
        exact hbytes
      · rw [htake]
    refine Outcome.andThen_keeps (P := fun w' : Wal => ∃ k q, Queue.Removed k w.queue q ∧
      ∃ stale, w'.queue = { q with staleBytes := stale }) ⟨_, _, hremoved, _, rfl⟩ ?_
    rintro w' ⟨k, q, hk, stale, hw'⟩
    obtain ⟨stale', hstale⟩ := w'.queue_maybeCompactLocked
    rw [hstale, hw']
    exact ⟨k, q, hk, stale', rfl⟩

theorem ackThrough_accounted (hq : w.queue.Accounted) (seq : Int) :
    (w.ackThrough seq).1.queue.Accounted := by
  obtain ⟨k, q, hremoved, stale, h⟩ := ackThrough_queue hq seq
  rw [h]
  exact (hremoved.accounted hq).stale stale

theorem enforceLimits_accounted (hq : w.queue.Accounted) (now : Time) :
    (w.enforceLimits now).1.queue.Accounted := by
  rw [enforceLimits]
  split
  · exact hq
  · have hprune := prune_removed hq now
    refine Outcome.andThen_keeps (P := fun w' : Wal => w'.queue.Accounted) (hprune.accounted hq) ?_
    intro w' hw'
    split
    · exact hw'
    · obtain ⟨k, hdrop⟩ := capacity_removed hw' 0
      exact hdrop.accounted hw'

end Wal

theorem int64_of_decode {raw : Bytes} {line : WalLine} (h : WalLine.decode raw = some line) :
    line.Int64 := by
  obtain ⟨v, -, hv⟩ := Option.bind_eq_some_iff.mp h
  have hdecoded : Json.decodeStruct walLineFields {} v = .ok line := by
    cases hs : Json.decodeStruct walLineFields {} v with
    | error e =>
      rw [hs] at hv
      cases hv
    | ok l =>
      rw [hs] at hv
      cases hv
      rfl
  refine Json.decodeStruct_preserves (P := WalLine.Int64) ?_ ?_ hdecoded
  · exact ⟨LogLine.zero_int64, LogLine.zero_int64, LogLine.zero_int64, LogLine.zero_int64,
      LogLine.zero_int64⟩
  · intro f hf l v l' hl hst
    simp only [walLineFields, List.mem_cons, List.not_mem_nil, or_false] at hf
    rcases hf with rfl | rfl | rfl | rfl | rfl | rfl | rfl | rfl | rfl | rfl | rfl | rfl <;>
      obtain ⟨x, hx, he⟩ := bind_eq_ok.mp hst <;> cases he
    · exact ⟨hl.schemaVersion, hl.nextSeq, hl.through, hl.walSeq, hl.score⟩
    · exact ⟨Json.decodeInt_range hl.schemaVersion hx, hl.nextSeq, hl.through, hl.walSeq, hl.score⟩
    · exact ⟨hl.schemaVersion, Json.decodeInt_range hl.nextSeq hx, hl.through, hl.walSeq, hl.score⟩
    · exact ⟨hl.schemaVersion, hl.nextSeq, Json.decodeInt_range hl.through hx, hl.walSeq, hl.score⟩
    · exact ⟨hl.schemaVersion, hl.nextSeq, hl.through, Json.decodeInt_range hl.walSeq hx, hl.score⟩
    · exact ⟨hl.schemaVersion, hl.nextSeq, hl.through, hl.walSeq, hl.score⟩
    · exact ⟨hl.schemaVersion, hl.nextSeq, hl.through, hl.walSeq, hl.score⟩
    · exact ⟨hl.schemaVersion, hl.nextSeq, hl.through, hl.walSeq, Json.decodeInt_range hl.score hx⟩
    all_goals exact ⟨hl.schemaVersion, hl.nextSeq, hl.through, hl.walSeq, hl.score⟩

theorem WalLine.Int64.decision {line : WalLine} (h : line.Int64) : (decLine line.decision).Int64 :=
  ⟨LogLine.zero_int64, LogLine.zero_int64, LogLine.zero_int64, h.walSeq, h.score⟩

theorem estimateDecisionBytes_nonneg (d : Decision) : 0 ≤ estimateDecisionBytes d := by
  unfold estimateDecisionBytes
  split_ifs <;> omega

theorem Loaded.accounted {ackThrough : Int} {content : Bytes} {s : Loaded}
    (h : walFormat.scanFile (Loaded.step ackThrough) content {} = .ok s) :
    (∀ e ∈ s.entries, 0 ≤ e.size) ∧ s.bytes = entrySizes s.entries := by
  apply foldlM_ok_of_step (Loaded.step ackThrough)
    (fun s _ => (∀ e ∈ s.entries, 0 ≤ e.size) ∧ s.bytes = entrySizes s.entries)
    _ _ {} s ⟨List.forall_mem_nil _, rfl⟩ (LineFormat.foldlM_of_scan h)
  rintro s seen line s' ⟨hsizes, hbytes⟩ hstep
  unfold Loaded.step at hstep
  split_ifs at hstep <;> cases hstep
  · exact ⟨hsizes, hbytes⟩
  · exact ⟨hsizes, hbytes⟩
  · refine ⟨?_, ?_⟩
    · rw [List.forall_mem_append, List.forall_mem_singleton]
      exact ⟨hsizes, estimateDecisionBytes_nonneg _⟩
    · simp [entrySizes, hbytes, reloadedEntry]
  · exact ⟨hsizes, hbytes⟩

theorem loadStream_accounted {q q' : Queue} {content : Bytes}
    (h : q.loadStream content = .ok q') : q'.Accounted := by
  obtain ⟨m, hm, hrest⟩ := bind_eq_ok.mp h
  obtain ⟨s, hs, hq⟩ := bind_eq_ok.mp hrest
  cases hq
  obtain ⟨hsizes, hbytes⟩ := Loaded.accounted hs
  refine ⟨?_, hsizes, hbytes, ?_⟩
  · apply foldlM_ok_of_step (fun m line => .ok (Watermarks.step m line))
      (fun m _ => 0 ≤ m.nextSeq) _ _ {} m (by decide) (LineFormat.foldlM_of_scan hm)
    intro m seen line m' hm' hstep
    cases hstep
    exact hm'.trans (m.nextSeq_le_step line)
  · intro e he
    obtain ⟨line, hline, -, hrec⟩ := Loaded.entries_of_scan hs e he
    obtain ⟨raw, -, hraw⟩ := List.mem_filterMap.mp hline
    rw [LineFormat.record] at hraw
    split_ifs at hraw
    rw [hrec]
    exact (int64_of_decode hraw).decision

theorem newDecisionWAL_accounted (cfg : WalConfig) (dropped : Nat) (writes : List WriteAnswer)
    (file : Option Bytes) (now : Time) :
    (newDecisionWAL cfg dropped writes file now).1.queue.Accounted := by
  have hempty : (cfg.empty dropped writes).queue.Accounted :=
    ⟨show (0 : Int) ≤ 1 by decide, List.forall_mem_nil _, rfl, List.forall_mem_nil _⟩
  rw [newDecisionWAL]
  split
  · unfold Wal.openAndLoad
    split
    · exact Wal.enforceLimits_accounted hempty now
    · split
      · exact hempty
      · rename_i q hq
        exact Wal.enforceLimits_accounted (loadStream_accounted hq) now
  · exact hempty

/-! ## Runs -/

/-- The log, and the time of the last step if that was an append which returned nil. -/
structure WalLife where
  wal : Wal
  appended : Option Time := none

/-- Each step comes with what the system answers. The log is opened with any file. -/
inductive WalOp
  | append (d : Decision) (clock now : Time) (writes : List WriteAnswer) (compact : CompactAnswer)
  | ack (seq : Int) (writes : List WriteAnswer) (compact : CompactAnswer)
  | setNoDrop (v : Bool)
  | close
  | reopen (cfg : WalConfig) (file : Option Bytes) (writes : List WriteAnswer) (now : Time)

namespace WalLife

def next (s : WalLife) : WalOp → WalLife
  | .append d clock now writes compact =>
    let r := (s.wal.answering writes compact).append d clock now
    { wal := r.1, appended := if r.2 = none then some now else none }
  | .ack seq writes compact => { wal := ((s.wal.answering writes compact).ackThrough seq).1 }
  | .setNoDrop v => { wal := s.wal.setNoDrop v }
  | .close => { wal := s.wal.close }
  | .reopen cfg file writes now =>
    { wal := (newDecisionWAL cfg s.wal.queue.dropped writes file now).1 }

/-- Scores and numbers are of type `int64`, and only a log that opens is used. -/
def Enabled (s : WalLife) : WalOp → Prop
  | .append d _ _ _ _ => (-2 ^ 63 ≤ d.score ∧ d.score < 2 ^ 63) ∧ s.wal.queue.nextSeq + 1 < 2 ^ 63
  | .reopen cfg file writes now =>
    (newDecisionWAL cfg s.wal.queue.dropped writes file now).2 = none
  | _ => True

end WalLife

/-- The runs of a log that starts with any file, under any configuration. -/
def walSystem : System WalLife WalOp where
  init s := ∃ cfg dropped writes file now,
    (newDecisionWAL cfg dropped writes file now).2 = none ∧
    s = { wal := (newDecisionWAL cfg dropped writes file now).1 }
  step s a t := s.Enabled a ∧ t = s.next a

namespace WalLife

variable {s t : WalLife} {a : WalOp}

theorem stamped_int64 {w : Wal} (hq : w.queue.Accounted) {d : Decision}
    (hscore : -2 ^ 63 ≤ d.score ∧ d.score < 2 ^ 63) (hnext : w.queue.nextSeq + 1 < 2 ^ 63)
    (clock : Time) :
    (decLine (w.stamped d clock)).Int64 := by
  have hpos := hq.next
  have hseq : -2 ^ 63 ≤ w.queue.nextSeq ∧ w.queue.nextSeq < 2 ^ 63 := by omega
  exact ⟨LogLine.zero_int64, LogLine.zero_int64, LogLine.zero_int64, hseq, hscore⟩

theorem accounted_next (hs : s.wal.queue.Accounted) (hen : s.Enabled a) :
    (s.next a).wal.queue.Accounted := by
  cases a with
  | append d clock now writes compact =>
    have hanswering : (s.wal.answering writes compact).queue.Accounted := hs
    exact Wal.append_accounted hanswering (stamped_int64 hanswering hen.1 hen.2 clock)
  | ack seq writes compact =>
    have hanswering : (s.wal.answering writes compact).queue.Accounted := hs
    exact Wal.ackThrough_accounted hanswering seq
  | setNoDrop v => exact ⟨hs.next, hs.sizes, hs.bytes, hs.int64⟩
  | close => exact hs
  | reopen cfg file writes now => exact newDecisionWAL_accounted cfg _ writes file now

theorem accounted_of_reachable {ok : WalLife → WalOp → Prop}
    (h : walSystem.ReachableVia ok s) : s.wal.queue.Accounted := by
  have hinit : ∀ s, walSystem.init s → s.wal.queue.Accounted := by
    rintro s ⟨cfg, dropped, writes, file, now, -, rfl⟩
    exact newDecisionWAL_accounted cfg dropped writes file now
  apply h.invariant hinit
  rintro s a t hs - ⟨hen, rfl⟩
  exact accounted_next hs hen

end WalLife

end Verilink.Edge

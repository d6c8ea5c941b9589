import Verilink.Edge.WalAccounting

/-!
# How long decisions are kept

`Append` prunes decisions that are older than the retention window from the head of the queue, and
only from there; a pruned decision stays in the file until a compaction rewrites it, which waits for
a megabyte of discarded bytes.
-/

namespace Verilink.Edge

open Verilink.Framework

/-! ## Lines of the file -/

theorem decLines_append {content : Bytes} (h : (splitLines content).2 = []) (rest : Bytes) :
    decLines (content ++ rest) = decLines content ++ decLines rest := by
  simp [decLines, scanLines_append h]

/-- The lines `ls` were written without an error. They are in the file if the descriptor is on the
file that has the name. -/
structure Disk.Took (ls : List LogLine) (d d' : Disk) : Prop where
  hasPath : d'.hasPath = d.hasPath
  handle : d'.handle = d.handle
  ok : d.hasPath = true → ∀ l ∈ ls, l.Ok
  opened : d.hasPath = true → ls ≠ [] → d.handle ≠ .closed
  content : d'.content = d.content ++
    if d.hasPath = true ∧ d.handle = .named then logText ls else []

namespace Disk

variable {d d' d'' : Disk} {ls ls' : List LogLine}

theorem Took.refl (d : Disk) :
    Took [] d d := ⟨rfl, rfl, by simp, by simp, by simp [logText, LineFormat.fileText]⟩

theorem Took.trans (h : Took ls d d') (h' : Took ls' d' d'') : Took (ls ++ ls') d d'' := by
  refine ⟨h'.hasPath.trans h.hasPath, h'.handle.trans h.handle, ?_, ?_, ?_⟩
  · intro hpath
    exact List.forall_mem_append.mpr ⟨h.ok hpath, h'.ok (h.hasPath.trans hpath)⟩
  · intro hpath hne
    by_cases hls : ls = []
    · rw [hls, List.nil_append] at hne
      exact h.handle ▸ h'.opened (h.hasPath.trans hpath) hne
    · exact h.opened hpath hls
  · rw [h'.content, h.content, h.hasPath, h.handle, List.append_assoc]
    split_ifs
    · rw [logText_append]
    · rfl

theorem writeBytesLocked_none {data : Bytes} {force : Bool}
    (h : (d.writeBytesLocked data force).2 = none) :
    (d.writeBytesLocked data force).1.hasPath = d.hasPath ∧
    (d.writeBytesLocked data force).1.handle = d.handle ∧
      (d.hasPath = true → d.handle ≠ .closed) ∧
      (d.writeBytesLocked data force).1.content = d.content ++
        if d.hasPath = true ∧ d.handle = .named then data else [] := by
  unfold writeBytesLocked at h ⊢
  by_cases hpath : d.hasPath = true
  · by_cases hclosed : d.handle = .closed
    · simp [hpath, hclosed] at h
    · simp only [hpath, Bool.not_true, Bool.false_eq_true, if_false, hclosed, true_and] at h ⊢
      generalize d.writes.headD .done = answer at h ⊢
      cases answer with
      | short written => cases h
      | done =>
        simp only [reduceCtorEq, if_false]
        split_ifs <;> simp [content_put, *]
      | unsynced =>
        dsimp only at h ⊢
        split_ifs at h ⊢ <;> simp_all [content_put]
  · simp [hpath]

theorem took_writeBytesLocked {l : LogLine} (hl : d.hasPath = true → l.Ok) {force : Bool}
    (h : (d.writeBytesLocked (l.line.text ++ [0x0A]) force).2 = none) :
    Took [l] d (d.writeBytesLocked (l.line.text ++ [0x0A]) force).1 := by
  obtain ⟨hpath, hhandle, hopened, hcontent⟩ := writeBytesLocked_none h
  refine ⟨hpath, hhandle, fun hp => List.forall_mem_singleton.mpr (hl hp), fun hp _ => hopened hp, ?_⟩
  rw [hcontent, logText_singleton]

theorem took_writeLineLocked {l : LogLine} (hl : l.line.Int64) {force : Bool}
    (h : (d.writeLineLocked l.line force).2 = none) :
    Took (if d.hasPath then [l] else []) d (d.writeLineLocked l.line force).1 := by
  unfold writeLineLocked at h ⊢
  by_cases hpath : d.hasPath = true
  · simp only [hpath, Bool.not_true, Bool.false_eq_true, if_false, if_true] at h ⊢
    cases hdata : l.line.data with
    | error err =>
      rw [hdata] at h
      cases h
    | ok data =>
      rw [hdata] at h
      obtain ⟨hyear, hshort, rfl⟩ := data_eq_ok.mp hdata
      exact took_writeBytesLocked (fun _ => ⟨hl, hyear, hshort⟩) h
  · simp only [hpath, Bool.not_false, if_true, Bool.false_eq_true, if_false]
    exact .refl d

end Disk

/-! ## What an append without an error does -/

namespace Wal

variable {w : Wal} {now : Time}

theorem ackDropped_took {q : Queue} (hint : ∀ e ∈ w.queue.entries, (decLine e.record).Int64)
    (h : (w.ackDropped q).2 = none) :
    ∃ acks, decisions acks = [] ∧ Disk.Took acks w.disk (w.ackDropped q).1.disk := by
  unfold ackDropped at h ⊢
  split at h
  · exact ⟨[], rfl, .refl _⟩
  · rename_i last hlast
    have hmem : last ∈ w.queue.entries := List.mem_of_mem_take (List.mem_of_getLast? hlast)
    have hline : (LogLine.ack last.record.walSeq).line.Int64 :=
      ⟨LogLine.zero_int64, LogLine.zero_int64, (hint last hmem).walSeq, LogLine.zero_int64,
        LogLine.zero_int64⟩
    refine ⟨_, ?_, Disk.took_writeLineLocked hline h⟩
    split_ifs <;> rfl

theorem prune_took (hage : 0 ≤ w.queue.maxAge) (hq : w.queue.Accounted)
    (h : (w.pruneExpiredLocked now).2 = none) :
    Queue.Removed (w.queue.entries.takeWhile (Queue.isExpired (now - w.queue.maxAge))).length w.queue
        (w.pruneExpiredLocked now).1.queue ∧
      ∃ acks, decisions acks = [] ∧ Disk.Took acks w.disk (w.pruneExpiredLocked now).1.disk := by
  unfold pruneExpiredLocked at h ⊢
  rw [if_neg (not_lt.mpr hage)] at h ⊢
  refine ⟨?_, ackDropped_took hq.int64 h⟩
  rw [queue_ackDropped]
  exact Queue.removeWhile_headExpired _ hq le_rfl

theorem capacity_took {need : Int} (hq : w.queue.Accounted)
    (h : (w.dropForCapacityLocked need).2 = none) :
    (∃ k, Queue.Removed k w.queue (w.dropForCapacityLocked need).1.queue) ∧
      ∃ acks, decisions acks = [] ∧ Disk.Took acks w.disk (w.dropForCapacityLocked need).1.disk := by
  refine ⟨capacity_removed hq need, ?_⟩
  unfold dropForCapacityLocked at h ⊢
  split_ifs at h ⊢
  obtain ⟨hack, -⟩ := Outcome.andThen_eq_none.mp h
  rw [Outcome.andThen_of_none hack, apply_ite Prod.fst, ite_self]
  exact ackDropped_took hq.int64 hack

/-- The parts of an append that returns nil: entries were removed, at least the expired head, lines
were written, the decision was queued, and a compaction may follow. -/
structure Appended (w : Wal) (d : Decision) (now : Time) (k : Nat) (acks : List LogLine) (w' : Wal) :
    Prop where
  removed : ∃ q, Queue.Removed k w.queue q ∧
    w'.queue = queued q d ((decLine d).text.length + 1) q.staleBytes
  head : (w.queue.entries.takeWhile (Queue.isExpired (now - w.queue.maxAge))).length ≤ k
  noDecision : decisions acks = []
  took : Disk.Took (acks ++ [.dec d]) w.disk w'.disk

theorem append_eq_compact {d : Decision} {clock : Time} (hage : 0 ≤ w.queue.maxAge)
    (hq : w.queue.Accounted)
    (hint : (decLine (w.stamped d clock)).Int64) (h : (w.append d clock now).2 = none) :
    ∃ k acks w', Appended w (w.stamped d clock) now k acks w' ∧
      w.append d clock now = w'.maybeCompactLocked := by
  unfold append at h ⊢
  split_ifs at h ⊢
  obtain ⟨hprune, hrest⟩ := Outcome.andThen_eq_none.mp h
  obtain ⟨hhead, acks₁, hacks₁, htook₁⟩ := prune_took hage hq hprune
  obtain ⟨j, hdropped⟩ := w.pruneExpiredLocked_dropped now
  rw [Outcome.andThen_of_none hprune]
  generalize (w.pruneExpiredLocked now).1 = w₁ at hhead htook₁ hdropped hrest ⊢
  rw [stamped_congr hdropped.nextSeq] at hrest ⊢
  cases hdata : (decLine (w.stamped d clock)).data with
  | error err =>
    rw [hdata] at hrest
    cases hrest
  | ok data =>
    obtain ⟨hyear, hshort, rfl⟩ := data_eq_ok.mp hdata
    rw [hdata] at hrest
    obtain ⟨hcapacity, hentry⟩ := Outcome.andThen_eq_none.mp hrest
    obtain ⟨⟨k, hremoved⟩, acks₂, hacks₂, htook₂⟩ := capacity_took (hhead.accounted hq) hcapacity
    obtain ⟨i, hdropped₂⟩ :=
      w₁.dropForCapacityLocked_dropped ((decLine (w.stamped d clock)).text ++ [0x0A]).length
    dsimp only
    rw [Outcome.andThen_of_none hcapacity]
    generalize (w₁.dropForCapacityLocked ((decLine (w.stamped d clock)).text ++ [0x0A]).length).1 =
      w₂ at hremoved htook₂ hdropped₂ hentry ⊢
    rw [stamped_congr hdropped₂.nextSeq, stamped_congr hdropped.nextSeq, appendEntry] at hentry ⊢
    obtain ⟨hwrite, -⟩ := Outcome.andThen_eq_none.mp hentry
    rw [Outcome.andThen_of_none hwrite]
    have htook₃ := Disk.took_writeBytesLocked (l := .dec (w.stamped d clock))
        (fun _ => ⟨hint, hyear, hshort⟩) hwrite
    refine ⟨_, acks₁ ++ acks₂, _, ⟨⟨w₂.queue, hhead.trans hremoved, ?_⟩, Nat.le_add_right _ _, ?_,
      ?_⟩, rfl⟩
    · rw [queued]
      simp
    · simp [hacks₁, hacks₂]
    · exact (htook₁.trans htook₂).trans htook₃

theorem maybeCompactLocked_cases (w : Wal) :
    w.maybeCompactLocked = (w, none) ∨ w.maybeCompactLocked = w.compactLocked := by
  unfold maybeCompactLocked
  split_ifs
  · exact .inl rfl
  · exact .inl rfl
  · exact .inl rfl
  · exact .inr rfl

theorem hasPath_maybeCompactLocked (w : Wal) :
    w.maybeCompactLocked.1.disk.hasPath = w.disk.hasPath := by
  rcases maybeCompactLocked_cases w with h | h <;> rw [h]
  unfold compactLocked
  split <;> rfl

theorem compactLocked_none {w : Wal} (hint : ∀ e ∈ w.queue.entries, (decLine e.record).Int64)
    (hnext : -2 ^ 63 ≤ w.queue.nextSeq ∧ w.queue.nextSeq < 2 ^ 63) (h : w.compactLocked.2 = none) :
    decLines w.compactLocked.1.disk.content = w.queue.records := by
  unfold compactLocked at h ⊢
  cases hdata : w.queue.compactedLines.mapM WalLine.data with
  | error err =>
    rw [hdata] at h
    cases h
  | ok data =>
    have hok : ∀ l ∈ compactedLog w.queue, l.Ok := by
      have hline : ∀ l ∈ compactedLog w.queue, l.line.Int64 := by
        refine List.forall_mem_cons.mpr ⟨?_, ?_⟩
        · exact (LogLine.ok_next hnext).int64
        · simp only [List.forall_mem_map, Queue.records]
          exact hint
      intro l hl
      have hmem : l.line ∈ w.queue.compactedLines := by
        have hlines : w.queue.compactedLines = (compactedLog w.queue).map LogLine.line := by
          simp [Queue.compactedLines, compactedLog, LogLine.line, Queue.records]
        rw [hlines]
        exact List.mem_map_of_mem hl
      obtain ⟨text, htext⟩ := exists_of_mapM_eq_ok hdata hmem
      obtain ⟨hyear, hshort, -⟩ := data_eq_ok.mp htext
      exact ⟨hline l hl, hyear, hshort⟩
    obtain ⟨data', hdata', hflat⟩ := mapM_compactedLines hok
    rw [hdata, Except.ok.injEq] at hdata'
    subst hdata'
    have hdec : decLines data.flatten = w.queue.records := by
      rw [hflat, decLines_logText hok]
      exact decisions_compacted _ _
    rw [hdata] at h
    cases hanswer : w.disk.compact with
    | failed =>
      rw [hanswer] at h
      cases h
    | notReopened =>
      rw [hanswer] at h
      cases h
    | done => exact hdec
    | dirUnsynced =>
      rw [hanswer] at h
      cases h

end Wal

/-! ## The retention window -/

namespace Queue

def expiredHead (q : Queue) (now : Time) : List WalEntry :=
  q.entries.takeWhile (isExpired (now - q.maxAge))

/-- An append of a line of `need` bytes compacts: with the expired head, the discarded bytes are at
least 1 MiB and half of what stays. -/
def CompactionDue (q : Queue) (now : Time) (need : Int) : Prop :=
  1048576 ≤ q.staleBytes + entrySizes (q.expiredHead now) ∧
    (q.bytes - entrySizes (q.expiredHead now) + need) / 2 ≤
      q.staleBytes + entrySizes (q.expiredHead now)

end Queue

namespace Wal

def Retained (w : Wal) (now : Time) : Prop :=
  (∀ d ∈ w.queue.records, now - w.queue.maxAge ≤ d.decidedAt) ∧
    (w.disk.hasPath = true → ∀ d ∈ decLines w.disk.content, now - w.queue.maxAge ≤ d.decidedAt)

/-- When an append of the decision `d` keeps the window. -/
structure Timely (w : Wal) (d : Decision) (now : Time) : Prop where
  /-- The decision itself is not expired. -/
  fresh : now - w.queue.maxAge ≤ d.decidedAt
  /-- Behind the expired head of the queue nothing is expired. -/
  ordered : ∀ e ∈ w.queue.entries.dropWhile (Queue.isExpired (now - w.queue.maxAge)),
    now - w.queue.maxAge ≤ e.record.decidedAt
  /-- Nothing in the file is expired and its last line is finished, or the file is rewritten. -/
  file : w.disk.hasPath = true →
    ((splitLines w.disk.content).2 = [] ∧
      ∀ x ∈ decLines w.disk.content, now - w.queue.maxAge ≤ x.decidedAt) ∨
    w.queue.CompactionDue now ((decLine d).text.length + 1)

variable {w w' : Wal} {now : Time} {d : Decision} {k : Nat} {acks : List LogLine}

variable (h : Appended w d now k acks w')
include h

theorem Appended.maxAge : w'.queue.maxAge = w.queue.maxAge := by
  obtain ⟨q, hq, hw'⟩ := h.removed
  rw [hw']
  exact hq.maxAge

theorem Appended.records (ht : w.Timely d now) :
    ∀ x ∈ w'.queue.records, now - w.queue.maxAge ≤ x.decidedAt := by
  obtain ⟨q, hq, hw'⟩ := h.removed
  have hsub : (w.queue.entries.drop k).Sublist
      (w.queue.entries.dropWhile (Queue.isExpired (now - w.queue.maxAge))) := by
    have hdrop : w.queue.entries.dropWhile (Queue.isExpired (now - w.queue.maxAge)) =
        w.queue.entries.drop
          (w.queue.entries.takeWhile (Queue.isExpired (now - w.queue.maxAge))).length := by
      have hsplit := List.takeWhile_append_dropWhile (p := Queue.isExpired (now - w.queue.maxAge))
        (l := w.queue.entries)
      nth_rewrite 3 [← hsplit]
      rw [List.drop_left]
    rw [hdrop]
    exact List.drop_sublist_drop_left _ h.head
  intro x hx
  rw [hw', Queue.records, queued, hq.entries, List.map_append, List.mem_append] at hx
  rcases hx with hx | hx
  · obtain ⟨e, he, rfl⟩ := List.mem_map.mp hx
    exact ht.ordered e (hsub.subset he)
  · rw [List.map_singleton, List.mem_singleton] at hx
    rw [hx]
    exact ht.fresh

theorem Appended.accounted (hq : w.queue.Accounted)
    (hint : (decLine d).Int64) : w'.queue.Accounted := by
  obtain ⟨q, hremoved, hw'⟩ := h.removed
  rw [hw']
  exact (hremoved.accounted hq).queued hint _ _

theorem Appended.decLines (ht : w.Timely d now)
    (hpath : w.disk.hasPath = true) (hwhole : (splitLines w.disk.content).2 = [])
    (hfile : ∀ x ∈ decLines w.disk.content, now - w.queue.maxAge ≤ x.decidedAt) :
    ∀ x ∈ Edge.decLines w'.disk.content, now - w.queue.maxAge ≤ x.decidedAt := by
  rw [h.took.content, decLines_append hwhole]
  split_ifs
  · rw [decLines_logText (h.took.ok hpath), decisions_append, h.noDecision, List.nil_append]
    intro x hx
    rcases List.mem_append.mp hx with hx | hx
    · exact hfile x hx
    · rw [List.mem_singleton.mp hx]
      exact ht.fresh
  · simpa [Edge.decLines, scanLines, splitLines] using hfile

theorem Appended.compacts (hq : w.queue.Accounted)
    (hpath : w.disk.hasPath = true) (hdue : w.queue.CompactionDue now ((decLine d).text.length + 1)) :
    w'.maybeCompactLocked = w'.compactLocked := by
  obtain ⟨q, hremoved, hw'⟩ := h.removed
  have hpath' : w'.disk.hasPath = true := h.took.hasPath.trans hpath
  have hopen : w'.disk.handle ≠ .closed := h.took.handle ▸ h.took.opened hpath (by simp)
  have hmore : entrySizes (w.queue.expiredHead now) ≤ entrySizes (w.queue.entries.take k) := by
    have htake : w.queue.expiredHead now = w.queue.entries.take (w.queue.expiredHead now).length :=
      List.prefix_iff_eq_take.mp (List.takeWhile_prefix _)
    rw [htake]
    exact entrySizes_take_mono hq.sizes h.head
  have hstale : w'.queue.staleBytes = w.queue.staleBytes + entrySizes (w.queue.entries.take k) := by
    rw [hw']
    exact hremoved.stale
  have hbytes : w'.queue.bytes =
      w.queue.bytes - entrySizes (w.queue.entries.take k) + ((decLine d).text.length + 1) := by
    rw [hw', queued, hremoved.bytes]
  obtain ⟨hmega, hhalf⟩ := hdue
  rw [maybeCompactLocked, if_neg (by simp [hpath', hopen]), if_neg (by omega), if_neg (by omega)]

omit h

/-- An append that meets the condition and returns nil keeps the window. -/
theorem append_retained {x : Decision} {clock : Time} (hage : 0 ≤ w.queue.maxAge)
    (hq : w.queue.Accounted)
    (hint : (decLine (w.stamped x clock)).Int64) (hnext : w.queue.nextSeq + 1 < 2 ^ 63)
    (ht : w.Timely (w.stamped x clock) now) (h : (w.append x clock now).2 = none) :
    (w.append x clock now).1.Retained now := by
  obtain ⟨k, acks, w', happ, heq⟩ := append_eq_compact hage hq hint h
  have hacc := happ.accounted hq hint
  rw [heq] at h ⊢
  obtain ⟨stale, hstale⟩ := w'.queue_maybeCompactLocked
  have hrecords : w'.maybeCompactLocked.1.queue.records = w'.queue.records := by rw [hstale]; rfl
  have hsame : w'.maybeCompactLocked.1.queue.maxAge = w.queue.maxAge := by
    rw [hstale]
    exact happ.maxAge
  have hnext' : -2 ^ 63 ≤ w'.queue.nextSeq ∧ w'.queue.nextSeq < 2 ^ 63 := by
    obtain ⟨q, hremoved, hw'⟩ := happ.removed
    have hseq : w'.queue.nextSeq = w.queue.nextSeq + 1 := by rw [hw', queued, hremoved.nextSeq]
    have := hq.next
    omega
  refine ⟨?_, ?_⟩
  · rw [hrecords, hsame]
    exact happ.records ht
  · rw [hsame]
    intro hpath'
    have hcompacted : w'.compactLocked.2 = none →
        ∀ x ∈ decLines w'.compactLocked.1.disk.content, now - w.queue.maxAge ≤ x.decidedAt := by
      intro hnone
      rw [compactLocked_none hacc.int64 hnext' hnone]
      exact happ.records ht
    have hpath : w.disk.hasPath = true := by
      rw [← happ.took.hasPath, ← hasPath_maybeCompactLocked]
      exact hpath'
    rcases ht.file hpath with ⟨hwhole, hfile⟩ | hdue
    · rcases maybeCompactLocked_cases w' with hsame | hcompact
      · rw [hsame]
        exact happ.decLines ht hpath hwhole hfile
      · rw [hcompact] at h ⊢
        exact hcompacted h
    · rw [happ.compacts hq hpath hdue] at h ⊢
      exact hcompacted h

end Wal

/-! ## Runs -/

namespace WalLife

/-- Every append finds the expired decisions at the head of the queue, and none in the file unless
it compacts. -/
def Timely (s : WalLife) : WalOp → Prop
  | .append d clock now _ _ => s.wal.Timely (s.wal.stamped d clock) now
  | _ => True

variable {s t : WalLife} {a : WalOp}

theorem retained_next (hs : s.wal.queue.Accounted) (hen : s.Enabled a) (ht : s.Timely a)
    (hage : 0 ≤ (s.next a).wal.queue.maxAge) :
    ∀ now, (s.next a).appended = some now → (s.next a).wal.Retained now := by
  intro now' happended
  cases a with
  | append d clock now writes compact =>
    have hanswering : (s.wal.answering writes compact).queue.Accounted := hs
    have htimely : (s.wal.answering writes compact).Timely
        ((s.wal.answering writes compact).stamped d clock) now := ⟨ht.fresh, ht.ordered, ht.file⟩
    rw [next] at happended hage ⊢
    rw [Wal.maxAge_append hanswering] at hage
    split_ifs at happended with hnone
    cases happended
    exact Wal.append_retained hage hanswering (stamped_int64 hanswering hen.1 hen.2 clock) hen.2
      htimely hnone
  | _ => cases happended

/-- After every append that returns nil nothing behind the window is pending or in the file. -/
theorem append_keeps_window (h : walSystem.ReachableVia Timely s) (hage : 0 ≤ s.wal.queue.maxAge)
    {now : Time} (hnow : s.appended = some now) : s.wal.Retained now := by
  cases h with
  | init hinit =>
    obtain ⟨cfg, dropped, writes, file, t, -, rfl⟩ := hinit
    cases hnow
  | step hs htimely hstep =>
    obtain ⟨hen, rfl⟩ := hstep
    exact retained_next (accounted_of_reachable hs) hen htimely hage now hnow

def hours (n : Int) : Int := n * 3600 * 1000000000

def newLog : WalLife := { wal := (newDecisionWAL { hasPath := true } 0 [] none 0).1 }

def madeAt (t : Time) : Decision :=
  { action := "allow", fingerprint := "f", score := 1, decidedAt := t }

def appendAt (s : WalLife) (decidedAt now : Time) : WalLife :=
  s.next (.append (madeAt decidedAt) now now [] .done)

theorem reachable_newLog {ok : WalLife → WalOp → Prop} : walSystem.ReachableVia ok newLog :=
  .init ⟨_, 0, [], none, 0, by decide, rfl⟩

theorem score_madeAt (t : Time) : -2 ^ 63 ≤ (madeAt t).score ∧ (madeAt t).score < 2 ^ 63 := by
  simp [madeAt]

theorem reachable_appendAt {ok : WalLife → WalOp → Prop} (h : walSystem.ReachableVia ok s)
    (hnext : s.wal.queue.nextSeq + 1 < 2 ^ 63) {decidedAt now : Time}
    (hok : ok s (.append (madeAt decidedAt) now now [] .done)) :
    walSystem.ReachableVia ok (s.appendAt decidedAt now) :=
  h.next _ hok ⟨⟨score_madeAt decidedAt, hnext⟩, rfl⟩

def sameDay : WalLife := (newLog.appendAt (hours 1) (hours 2)).appendAt (hours 3) (hours 20)

theorem append_keeps_window_sameDay :
    sameDay.wal.queue.records.map Decision.decidedAt = [hours 1, hours 3] ∧
      sameDay.wal.Retained (hours 20) := by
  have hdecided : sameDay.appended = some (hours 20) ∧ 0 ≤ sameDay.wal.queue.maxAge ∧
      sameDay.wal.queue.records.map Decision.decidedAt = [hours 1, hours 3] := by decide +kernel
  have hfirst : newLog.Timely (.append (madeAt (hours 1)) (hours 2) (hours 2) [] .done) :=
    { fresh := by decide
      ordered := by decide
      file := fun _ => .inl (by decide +kernel) }
  have hsecond : (newLog.appendAt (hours 1) (hours 2)).Timely
      (.append (madeAt (hours 3)) (hours 20) (hours 20) [] .done) :=
    { fresh := by decide +kernel
      ordered := by decide +kernel
      file := fun _ => .inl (by decide +kernel) }
  have hreach : walSystem.ReachableVia Timely sameDay :=
    reachable_appendAt
      (reachable_appendAt reachable_newLog (by decide) hfirst) (by decide +kernel) hsecond
  exact ⟨hdecided.2.2, append_keeps_window hreach hdecided.2.1 hdecided.1⟩

def lateArrival : WalLife :=
  ((newLog.appendAt (hours 10) (hours 10)).appendAt (hours 0) (hours 10)).appendAt (hours 25) (hours 25)

def nextDay : WalLife :=
  (newLog.appendAt (hours 0) (hours 0)).appendAt (hours 25) (hours 25)

/-- With a window of 24 hours, at hour 25 a decision of hour 0 is still pending if it arrived late;
if it did not, its line is still in the file. -/
theorem expired_decisions_stay :
    (walSystem.Reachable lateArrival ∧ lateArrival.appended = some (hours 25) ∧
      lateArrival.wal.queue.maxAge = hours 24 ∧
      lateArrival.wal.queue.records.map Decision.decidedAt = [hours 10, hours 0, hours 25]) ∧
    (walSystem.Reachable nextDay ∧ nextDay.appended = some (hours 25) ∧
      nextDay.wal.queue.maxAge = hours 24 ∧
      nextDay.wal.queue.records.map Decision.decidedAt = [hours 25] ∧
      (decLines nextDay.wal.disk.content).map Decision.decidedAt = [hours 0, hours 25]) := by
  have hlate : lateArrival.appended = some (hours 25) ∧ lateArrival.wal.queue.maxAge = hours 24 ∧
      lateArrival.wal.queue.records.map Decision.decidedAt = [hours 10, hours 0, hours 25] := by
    decide +kernel
  have hnext : nextDay.appended = some (hours 25) ∧ nextDay.wal.queue.maxAge = hours 24 ∧
      nextDay.wal.queue.records.map Decision.decidedAt = [hours 25] ∧
      (decLines nextDay.wal.disk.content).map Decision.decidedAt = [hours 0, hours 25] := by
    decide +kernel
  refine ⟨⟨?_, hlate⟩, ?_, hnext⟩
  · refine reachable_appendAt
      (reachable_appendAt ?_ (by decide +kernel) trivial) (by decide +kernel) trivial
    exact reachable_appendAt reachable_newLog (by decide) trivial
  · exact reachable_appendAt
      (reachable_appendAt reachable_newLog (by decide) trivial) (by decide +kernel) trivial

end WalLife

end Verilink.Edge

import Verilink.Edge.SseReader
import Verilink.Edge.WalLine
import Verilink.Framework.Outcome

/-!
# The decision log

`DecisionWAL`: the pending decisions in memory, with their sizes, and the file behind them. Every
exported operation holds the lock from start to end, so it is one step of the log.
-/

namespace Verilink.Edge

open Verilink.Framework

structure WalEntry where
  record : Decision
  size : Int
  deriving DecidableEq

/-- The part of the log that is in memory. `dropped` is the counter `DecisionsDropped`. -/
structure Queue where
  maxBytes : Int
  maxAge : Int
  forcedNoDrop : Bool
  noDrop : Bool
  dropped : Nat := 0
  nextSeq : Int := 1
  entries : List WalEntry := []
  bytes : Int := 0
  staleBytes : Int := 0

/-- A write that goes through, one of which only some bytes reach the file, and one whose data
cannot be synced when a sync is due. -/
inductive WriteAnswer
  | done
  | short (written : Nat)
  | unsynced
  deriving DecidableEq

/-- A compaction that goes through, one that fails before the new file has its name, one whose
directory cannot be synced, and one after which the new file cannot be opened. -/
inductive CompactAnswer
  | done
  | failed
  | dirUnsynced
  | notReopened
  deriving DecidableEq

/-- The descriptor of the log: closed, on the file that has the name, or on one that lost it. -/
inductive Handle
  | closed
  | named
  | detached
  deriving DecidableEq

/-- The file and what the operating system is going to answer. A log without a path writes
nothing. -/
structure Disk where
  hasPath : Bool
  handle : Handle := .closed
  content : Bytes := []
  sinceSync : Nat := 0
  writes : List WriteAnswer := []
  compact : CompactAnswer := .done

structure Wal where
  queue : Queue
  disk : Disk

abbrev WalOutcome := Outcome Wal WalError

def walSyncEveryN : Nat := 32

/-! ## Writing -/

namespace Disk

def put (d : Disk) (data : Bytes) : Disk :=
  if d.handle = .named then { d with content := d.content ++ data } else d

def writeBytesLocked (d : Disk) (data : Bytes) (forceSync : Bool) : Outcome Disk WalError :=
  if !d.hasPath then (d, none)
  else if d.handle = .closed then (d, some (.other "wal file not open"))
  else
    let answer := d.writes.headD .done
    let d := { d with writes := d.writes.tail }
    match answer with
    | .short written => (d.put (data.take written), some (.other "write"))
    | _ =>
      let d := { d.put data with sinceSync := d.sinceSync + 1 }
      if forceSync ∨ walSyncEveryN ≤ d.sinceSync then
        if answer = .unsynced then (d, some (.other "sync"))
        else ({ d with sinceSync := 0 }, none)
      else (d, none)

def writeLineLocked (d : Disk) (line : WalLine) (forceSync : Bool) : Outcome Disk WalError :=
  if !d.hasPath then (d, none)
  else
    match line.data with
    | .error err => (d, some err)
    | .ok data => d.writeBytesLocked data forceSync

end Disk

namespace Wal

def onDisk (w : Wal) (r : Outcome Disk WalError) : WalOutcome := ({ w with disk := r.1 }, r.2)

def writeLineLocked (w : Wal) (line : WalLine) : WalOutcome :=
  w.onDisk (w.disk.writeLineLocked line false)

end Wal

def Queue.compactedLines (q : Queue) : List WalLine :=
  metaLine q.nextSeq :: q.entries.map fun e => decLine e.record

namespace Wal

def compactLocked (w : Wal) : WalOutcome :=
  match w.queue.compactedLines.mapM WalLine.data, w.disk.compact with
  | .error err, _ => (w, some err)
  | .ok _, .failed => (w, some (.other "wal compact"))
  | .ok data, .notReopened =>
    ({ w with disk := { w.disk with content := data.flatten, handle := .detached } },
      some (.other "wal compact reopen"))
  | .ok data, answer =>
    ({ queue := { w.queue with staleBytes := 0 },
       disk := { w.disk with content := data.flatten, handle := .named, sinceSync := 0 } },
      if answer = .dirUnsynced then some (.other "dir sync") else none)

def maybeCompactLocked (w : Wal) : WalOutcome :=
  if !w.disk.hasPath ∨ w.disk.handle = .closed then (w, none)
  else if w.queue.staleBytes < 1048576 then (w, none)
  else if 0 < w.queue.bytes ∧ w.queue.staleBytes < w.queue.bytes / 2 then (w, none)
  else w.compactLocked

end Wal

/-! ## Dropping -/

namespace Queue

def removeOldestLocked (q : Queue) : Queue :=
  match q.entries with
  | [] => q
  | e :: rest =>
    { q with
      entries := rest
      bytes := max 0 (q.bytes - e.size)
      staleBytes := q.staleBytes + e.size
      dropped := q.dropped + 1 }

/-- The loops of `dropForCapacityLocked` and `pruneExpiredLocked`: at most `n` rounds. -/
def removeWhile (cond : Queue → Bool) : Nat → Queue → Queue
  | 0, q => q
  | n + 1, q => if q.entries ≠ [] ∧ cond q then removeWhile cond n q.removeOldestLocked else q

def headExpired (cutoff : Time) (q : Queue) : Bool :=
  match q.entries with
  | [] => false
  | e :: _ => e.record.decidedAt < cutoff

def overfull (need : Int) (q : Queue) : Bool := q.maxBytes < q.bytes + need

end Queue

namespace Wal

/-- Writes one acknowledgement for the entries that `q` no longer has. -/
def ackDropped (w : Wal) (q : Queue) : WalOutcome :=
  match (w.queue.entries.take (w.queue.entries.length - q.entries.length)).getLast? with
  | none => ({ w with queue := q }, none)
  | some last => writeLineLocked { w with queue := q } (ackLine last.record.walSeq)

def pruneExpiredLocked (w : Wal) (now : Time) : WalOutcome :=
  if w.queue.maxAge < 0 then (w, none)
  else
    w.ackDropped (w.queue.removeWhile (Queue.headExpired (now - w.queue.maxAge))
      w.queue.entries.length)

def dropForCapacityLocked (w : Wal) (need : Int) : WalOutcome :=
  if w.queue.overfull need ∧ w.queue.entries ≠ [] ∧ w.queue.noDrop then (w, some .full)
  else
    (w.ackDropped (w.queue.removeWhile (Queue.overfull need) w.queue.entries.length)).andThen
      fun w => if w.queue.overfull need then (w, some .full) else (w, none)

/-! ## The operations -/

/-- What `Append` fills in. The clock is read only for a decision without a time. -/
def stamped (w : Wal) (d : Decision) (clock : Time) : Decision :=
  { d with
    walSeq := w.queue.nextSeq
    decidedAt := if d.decidedAt = zeroTime then clock else d.decidedAt }

/-- The entry is written and queued. -/
def appendEntry (w : Wal) (d : Decision) (data : Bytes) : WalOutcome :=
  (w.onDisk (w.disk.writeBytesLocked data false)).andThen fun w =>
    maybeCompactLocked
      { w with
        queue :=
          { w.queue with
            nextSeq := w.queue.nextSeq + 1
            entries := w.queue.entries ++ [⟨d, data.length⟩]
            bytes := w.queue.bytes + data.length } }

/-- `Append`. The number is taken back on every error before the entry is queued. -/
def append (w : Wal) (d : Decision) (clock now : Time) : WalOutcome :=
  if d.action ∉ ["allow", "deny", "passthrough"] then
    (w, some (.other ("invalid action " ++ quoted d.action)))
  else
    (w.pruneExpiredLocked now).andThen fun w =>
      match (decLine (w.stamped d clock)).data with
      | .error err => (w, some err)
      | .ok data =>
        (w.dropForCapacityLocked data.length).andThen fun w =>
          w.appendEntry (w.stamped d clock) data

def pending (w : Wal) (n : Nat) : List Decision := (w.queue.entries.take n).map WalEntry.record

def ackThrough (w : Wal) (seq : Int) : WalOutcome :=
  let acked := w.queue.entries.takeWhile fun e => e.record.walSeq ≤ seq
  if seq ≤ 0 ∨ acked = [] then (w, none)
  else
    let removed := (acked.map WalEntry.size).sum
    (writeLineLocked
      { w with
        queue :=
          { w.queue with
            entries := w.queue.entries.drop acked.length
            bytes := max 0 (w.queue.bytes - removed)
            staleBytes := w.queue.staleBytes + removed } }
      (ackLine seq)).andThen maybeCompactLocked

def setNoDrop (w : Wal) (v : Bool) : Wal :=
  { w with queue := { w.queue with noDrop := w.queue.forcedNoDrop || v } }

def answering (w : Wal) (writes : List WriteAnswer) (compact : CompactAnswer) : Wal :=
  { w with disk := { w.disk with writes := writes, compact := compact } }

def close (w : Wal) : Wal := { w with disk := { w.disk with handle := .closed } }

end Wal

/-! ## What happens to the queue -/

namespace Queue

@[simp]
theorem entries_removeOldest (q : Queue) : q.removeOldestLocked.entries = q.entries.tail := by
  unfold removeOldestLocked
  split <;> simp_all

@[simp]
theorem nextSeq_removeOldest (q : Queue) : q.removeOldestLocked.nextSeq = q.nextSeq := by
  unfold removeOldestLocked
  split <;> rfl

variable {q : Queue}

theorem dropped_removeOldest (h : q.entries ≠ []) :
    q.removeOldestLocked.dropped = q.dropped + 1 := by
  unfold removeOldestLocked
  split
  · exact absurd ‹_› h
  · rfl

/-- The oldest `k` entries are gone and counted. -/
structure Dropped (k : Nat) (q q' : Queue) : Prop where
  le : k ≤ q.entries.length
  entries : q'.entries = q.entries.drop k
  dropped : q'.dropped = q.dropped + k
  nextSeq : q'.nextSeq = q.nextSeq

theorem Dropped.refl (q : Queue) : Dropped 0 q q := ⟨Nat.zero_le _, rfl, rfl, rfl⟩

theorem Dropped.trans {j k : Nat} {q' q'' : Queue} (h : Dropped j q q') (h' : Dropped k q' q'') :
    Dropped (j + k) q q'' where
  le := by
    have hk := h'.le
    rw [h.entries, List.length_drop] at hk
    have := h.le
    omega
  entries := by rw [h'.entries, h.entries, List.drop_drop]
  dropped := by rw [h'.dropped, h.dropped, Nat.add_assoc]
  nextSeq := h'.nextSeq.trans h.nextSeq

theorem dropped_one (h : q.entries ≠ []) : Dropped 1 q q.removeOldestLocked where
  le := List.length_pos_of_ne_nil h
  entries := by rw [entries_removeOldest, List.drop_one]
  dropped := dropped_removeOldest h
  nextSeq := nextSeq_removeOldest q

theorem removeWhile_dropped (cond : Queue → Bool) (n : Nat) (q : Queue) :
    ∃ k, Dropped k q (removeWhile cond n q) := by
  induction n generalizing q with
  | zero => exact ⟨0, .refl q⟩
  | succ n ih =>
    rw [removeWhile]
    split
    · rename_i h
      obtain ⟨k, hk⟩ := ih q.removeOldestLocked
      exact ⟨1 + k, (dropped_one h.1).trans hk⟩
    · exact ⟨0, .refl q⟩

variable {cond : Queue → Bool}

theorem removeWhile_eq_self (h : cond q = false) (n : Nat) :
    removeWhile cond n q = q := by
  cases n with
  | zero => rfl
  | succ n => simp [removeWhile, h]

theorem removeWhile_dropped_of_cond (h : cond q = true) (hne : q.entries ≠ []) :
    ∃ k, Dropped (1 + k) q (removeWhile cond q.entries.length q) := by
  obtain ⟨n, hn⟩ := Nat.exists_eq_succ_of_ne_zero (List.length_pos_of_ne_nil hne).ne'
  obtain ⟨k, hk⟩ := removeWhile_dropped cond n q.removeOldestLocked
  rw [hn, removeWhile, if_pos ⟨hne, h⟩]
  exact ⟨k, (dropped_one hne).trans hk⟩

end Queue

namespace Wal

@[simp]
theorem queue_onDisk (w : Wal) (r : Outcome Disk WalError) : (w.onDisk r).1.queue = w.queue := rfl

theorem queue_maybeCompactLocked (w : Wal) :
    ∃ stale, w.maybeCompactLocked.1.queue = { w.queue with staleBytes := stale } := by
  have hcompact : ∃ stale, w.compactLocked.1.queue = { w.queue with staleBytes := stale } := by
    unfold compactLocked
    split
    · exact ⟨_, rfl⟩
    · exact ⟨_, rfl⟩
    · exact ⟨_, rfl⟩
    · exact ⟨0, rfl⟩
  unfold maybeCompactLocked
  split_ifs
  · exact ⟨_, rfl⟩
  · exact ⟨_, rfl⟩
  · exact ⟨_, rfl⟩
  · exact hcompact

@[simp]
theorem queue_ackDropped (w : Wal) (q : Queue) : (w.ackDropped q).1.queue = q := by
  unfold ackDropped
  split <;> rfl

theorem ackDropped_self (w : Wal) : w.ackDropped w.queue = (w, none) := by
  rw [ackDropped, Nat.sub_self]
  rfl

variable {w w' : Wal} {need : Int}

theorem dropForCapacityLocked_fits (h : w.queue.overfull need = false) :
    w.dropForCapacityLocked need = (w, none) := by
  rw [dropForCapacityLocked, if_neg (by simp [h]), Queue.removeWhile_eq_self h, ackDropped_self,
    Outcome.andThen_none, if_neg (by simp [h])]

theorem pruneExpiredLocked_dropped (w : Wal) (now : Time) :
    ∃ k, Queue.Dropped k w.queue (w.pruneExpiredLocked now).1.queue := by
  unfold pruneExpiredLocked
  split
  · exact ⟨0, .refl _⟩
  · rw [queue_ackDropped]
    exact Queue.removeWhile_dropped _ _ _

theorem queue_dropForCapacityLocked
    (h : ¬ (w.queue.overfull need ∧ w.queue.entries ≠ [] ∧ w.queue.noDrop)) :
    (w.dropForCapacityLocked need).1.queue =
      w.queue.removeWhile (Queue.overfull need) w.queue.entries.length := by
  rw [dropForCapacityLocked, if_neg h]
  refine Outcome.andThen_keeps (P := fun w' : Wal => w'.queue = _) (queue_ackDropped _ _) ?_
  intro w' hw'
  split <;> exact hw'

theorem dropForCapacityLocked_dropped (w : Wal) (need : Int) :
    ∃ k, Queue.Dropped k w.queue (w.dropForCapacityLocked need).1.queue := by
  by_cases h : w.queue.overfull need ∧ w.queue.entries ≠ [] ∧ w.queue.noDrop
  · rw [dropForCapacityLocked, if_pos h]
    exact ⟨0, .refl _⟩
  · rw [queue_dropForCapacityLocked h]
    exact Queue.removeWhile_dropped _ _ _

/-- What survives the drop of the oldest entries survives pruning. -/
theorem pruneExpiredLocked_induct {Q : WalOutcome → Prop} (hw : Q (w, none))
    (hdrop : ∀ k q, Queue.Dropped k w.queue q → Q (w.ackDropped q)) (now : Time) :
    Q (w.pruneExpiredLocked now) := by
  rw [pruneExpiredLocked]
  split
  · exact hw
  · obtain ⟨k, hk⟩ := Queue.removeWhile_dropped (Queue.headExpired (now - w.queue.maxAge))
      w.queue.entries.length w.queue
    exact hdrop k _ hk

theorem dropForCapacityLocked_keeps {P : Wal → Prop} (hw : P w)
    (hdrop : ∀ k q, Queue.Dropped k w.queue q → P (w.ackDropped q).1) (need : Int) :
    P (w.dropForCapacityLocked need).1 := by
  rw [dropForCapacityLocked]
  split
  · exact hw
  · obtain ⟨k, hk⟩ := Queue.removeWhile_dropped (Queue.overfull need) w.queue.entries.length w.queue
    refine Outcome.andThen_keeps (hdrop k _ hk) ?_
    intro w' hw'
    split <;> exact hw'

theorem capacity_room (h : (w.dropForCapacityLocked need).2 = none) :
    (w.dropForCapacityLocked need).1.queue.bytes + need ≤
    (w.dropForCapacityLocked need).1.queue.maxBytes := by
  unfold dropForCapacityLocked at h ⊢
  split_ifs at h ⊢
  have hnone := (Outcome.andThen_eq_none.mp h).1
  rw [Outcome.andThen_of_none hnone] at h ⊢
  split_ifs at h ⊢ with hover
  simpa [Queue.overfull] using hover

def queued (q : Queue) (d : Decision) (size stale : Int) : Queue :=
  { q with
    nextSeq := q.nextSeq + 1
    entries := q.entries ++ [⟨d, size⟩]
    bytes := q.bytes + size
    staleBytes := stale }

theorem appendEntry_queue (w : Wal) (d : Decision) (data : Bytes) :
    ((w.appendEntry d data).1.queue = w.queue ∧ (w.appendEntry d data).2 ≠ none) ∨
      ∃ stale, (w.appendEntry d data).1.queue = queued w.queue d data.length stale := by
  rw [appendEntry]
  rcases Outcome.andThen_cases (w.onDisk (w.disk.writeBytesLocked data false)) _ with
    ⟨-, h⟩ | ⟨e, -, h⟩
  · rw [h]
    exact .inr (queue_maybeCompactLocked _)
  · rw [h]
    exact .inl ⟨rfl, Option.some_ne_none e⟩

theorem stamped_congr (h : w'.queue.nextSeq = w.queue.nextSeq) (d : Decision) (clock : Time) :
    w'.stamped d clock = w.stamped d clock := by
  rw [stamped, stamped, h]

variable {d : Decision} {clock : Time} {r : WalOutcome} {k : Nat}

/-- To reason along an append: it prunes, evicts, and writes the entry where it fits, and each of
these may be the last step. -/
theorem append_induct {P : Wal → Prop} {Q : WalOutcome → Prop} {now : Time} (hw : P w)
    (hprune : P (w.pruneExpiredLocked now).1)
    (hcapacity : ∀ w' need, P w' → P (w'.dropForCapacityLocked need).1)
    (hfailed : ∀ w' e, P w' → Q (w', some e))
    (hentry : ∀ w' data, P w' → w'.queue.nextSeq = w.queue.nextSeq →
      w'.queue.bytes + data.length ≤ w'.queue.maxBytes → (decLine (w.stamped d clock)).data = .ok data →
      Q (w'.appendEntry (w.stamped d clock) data)) : Q (w.append d clock now) := by
  rw [append]
  split
  · exact hfailed _ _ hw
  obtain ⟨j, hj⟩ := w.pruneExpiredLocked_dropped now
  rcases Outcome.andThen_cases (w.pruneExpiredLocked now) _ with ⟨-, h⟩ | ⟨e, -, h⟩ <;> rw [h]
  swap
  · exact hfailed _ _ hprune
  generalize (w.pruneExpiredLocked now).1 = w₁ at hprune hj ⊢
  rw [stamped_congr hj.nextSeq]
  split
  · exact hfailed _ _ hprune
  · rename_i data hdata
    obtain ⟨k, hk⟩ := w₁.dropForCapacityLocked_dropped data.length
    have hnext := hk.nextSeq.trans hj.nextSeq
    have hdropped := hcapacity w₁ data.length hprune
    rcases Outcome.andThen_cases (w₁.dropForCapacityLocked data.length) _ with
      ⟨hok, h'⟩ | ⟨e, -, h'⟩ <;> rw [h']
    · rw [stamped_congr hnext]
      exact hentry _ data hdropped hnext (capacity_room hok) hdata
    · exact hfailed _ _ hdropped

/-- What `Append` does to the queue: some of the oldest entries are dropped and counted, and the
decision is queued under the next number, or there is an error. -/
structure AppendSpec (w : Wal) (d : Decision) (clock : Time) (r : WalOutcome) (k : Nat)
    (new : List WalEntry) : Prop where
  le : k ≤ w.queue.entries.length
  entries : r.1.queue.entries = w.queue.entries.drop k ++ new
  dropped : r.1.queue.dropped = w.queue.dropped + k
  nextSeq : r.1.queue.nextSeq = w.queue.nextSeq + new.length
  new : (new = [] ∧ r.2 ≠ none) ∨ ∃ size, new = [⟨w.stamped d clock, size⟩]

theorem AppendSpec.of_dropped (h : Queue.Dropped k w.queue r.1.queue) (herr : r.2 ≠ none) :
    AppendSpec w d clock r k [] where
  le := h.le
  entries := by rw [h.entries, List.append_nil]
  dropped := h.dropped
  nextSeq := by simp [h.nextSeq]
  new := .inl ⟨rfl, herr⟩

theorem AppendSpec.of_queued {size stale : Int} (h : Queue.Dropped k w.queue w'.queue)
    (hr : r.1.queue = queued w'.queue (w.stamped d clock) size stale) :
    AppendSpec w d clock r k [⟨w.stamped d clock, size⟩] where
  le := h.le
  entries := by rw [hr, queued, h.entries]
  dropped := by rw [hr, queued, h.dropped]
  nextSeq := by simp [hr, queued, h.nextSeq]
  new := .inr ⟨size, rfl⟩

theorem append_spec (w : Wal) (d : Decision) (clock now : Time) :
    ∃ k new, AppendSpec w d clock (w.append d clock now) k new := by
  refine append_induct (P := fun w' => ∃ k, Queue.Dropped k w.queue w'.queue)
    (Q := fun r => ∃ k new, AppendSpec w d clock r k new) ⟨0, .refl _⟩
      (w.pruneExpiredLocked_dropped now) ?_ ?_ ?_
  · rintro w' need ⟨j, hj⟩
    obtain ⟨k, hk⟩ := w'.dropForCapacityLocked_dropped need
    exact ⟨j + k, hj.trans hk⟩
  · rintro w' e ⟨k, hk⟩
    exact ⟨k, [], .of_dropped hk (Option.some_ne_none e)⟩
  · rintro w' data ⟨k, hk⟩ - - -
    rcases appendEntry_queue w' (w.stamped d clock) data with ⟨hq, herr⟩ | ⟨stale, hq⟩
    · exact ⟨k, [], .of_dropped (hq ▸ hk) herr⟩
    · exact ⟨k, _, .of_queued hk hq⟩

/-- What `AckThrough` does to the queue: the oldest entries up to the watermark leave it. -/
structure AckSpec (w : Wal) (seq : Int) (w' : Wal) (k : Nat) : Prop where
  entries : w'.queue.entries = w.queue.entries.drop k
  acked : ∀ e ∈ w.queue.entries.take k, e.record.walSeq ≤ seq
  dropped : w'.queue.dropped = w.queue.dropped
  nextSeq : w'.queue.nextSeq = w.queue.nextSeq

theorem ackThrough_spec (w : Wal) (seq : Int) : ∃ k, AckSpec w seq (w.ackThrough seq).1 k := by
  rw [ackThrough]
  split
  · exact ⟨0, rfl, by simp, rfl, rfl⟩
  · generalize hacked : w.queue.entries.takeWhile (fun e => decide (e.record.walSeq ≤ seq)) = acked
    have htake : w.queue.entries.take acked.length = acked := by
      rw [← hacked, ← List.prefix_iff_eq_take.mp (List.takeWhile_prefix _)]
    refine ⟨acked.length, Outcome.andThen_keeps (P := fun w' => AckSpec w seq w' acked.length) ?_ ?_⟩
    · refine ⟨rfl, fun e he => ?_, rfl, rfl⟩
      rw [htake, ← hacked] at he
      simpa using List.mem_takeWhile_imp he
    · intro w' h
      obtain ⟨stale, hq⟩ := w'.queue_maybeCompactLocked
      exact ⟨by rw [hq]; exact h.entries, h.acked, by rw [hq]; exact h.dropped,
        by rw [hq]; exact h.nextSeq⟩

end Wal

end Verilink.Edge

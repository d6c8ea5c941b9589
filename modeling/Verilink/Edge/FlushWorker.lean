import Verilink.Edge.Flush
import Verilink.Edge.WalLoad
import Verilink.Framework.Runs
import Verilink.Framework.Watermark

/-!
# The log and its flush worker

Any number of writers append to the log while one worker sends batches from its head.
-/

namespace Verilink.Edge

open Verilink.Framework

/-- Where the worker stands. `head` is there when `FlushAll` has called `FlushOnce`. -/
inductive WorkerState
  | idle
  | draining (lastAcked : Int)
  | flushing (head : Option Int)
  | sending (head : Option Int) (batch : FlushBatch)
  | acking (head : Option Int) (batch : FlushBatch)
  | drained (head : Int)

def WorkerState.returned (head : Option Int) (failed : Bool) : WorkerState :=
  match head with
  | none => .idle
  | some head => if failed then .idle else .drained head

def WorkerState.batch? : WorkerState → Option FlushBatch
  | .sending _ batch => some batch
  | .acking _ batch => some batch
  | _ => none

structure EdgeRun where
  wal : Wal
  worker : WorkerState := .idle
  accepted : List Decision := []
  delivered : List Decision := []
  counted : List Decision := []
  /-- The counter at the start. -/
  droppedBefore : Nat

/-- What the worker meets in one step: whether its context is done, what the transport answers,
and what the operating system does. -/
structure WorkAnswer where
  cancelled : Bool := false
  sent : Bool := true
  writes : List WriteAnswer := []
  compact : CompactAnswer := .done

inductive EdgeAction
  | append (d : Decision) (clock now : Time) (writes : List WriteAnswer) (compact : CompactAnswer)
  | setNoDrop (v : Bool)
  | close
  | flushOnce
  | flushAll
  | work (answer : WorkAnswer)

namespace EdgeRun

def newlyCounted (w w' : Wal) : List Decision :=
  w.pending (w'.queue.dropped - w.queue.dropped)

def append (s : EdgeRun) (d : Decision) (clock now : Time) (writes : List WriteAnswer)
    (compact : CompactAnswer) : EdgeRun :=
  let r := (s.wal.answering writes compact).append d clock now
  { s with
    wal := r.1
    accepted := if r.2 = none then s.accepted ++ [s.wal.stamped d clock] else s.accepted
    counted := s.counted ++ newlyCounted s.wal r.1 }

def work (sha : Sha256) (batchSize : Nat) (s : EdgeRun) (a : WorkAnswer) : EdgeRun :=
  match s.worker with
  | .idle => s
  | .draining lastAcked =>
    if a.cancelled then { s with worker := .idle }
    else
      match s.wal.pending 1 with
      | [] => { s with worker := .idle }
      | d :: _ =>
        if d.walSeq ≤ lastAcked then { s with worker := .idle }
        else { s with worker := .flushing (some d.walSeq) }
  | .flushing head =>
    match s.wal.pending batchSize with
    | [] => { s with worker := .returned head false }
    | d :: ds => { s with worker := .sending head (buildFlushBatch sha d ds) }
  | .sending head batch =>
    if a.sent then
      { s with worker := .acking head batch, delivered := s.delivered ++ batch.decisions }
    else { s with worker := .returned head true }
  | .acking head batch =>
    let r := (s.wal.answering a.writes a.compact).ackThrough batch.lastWalSeq
    { s with wal := r.1, worker := .returned head (r.2 ≠ none) }
  | .drained head =>
    match s.wal.pending 1 with
    | [] => { s with worker := .idle }
    | d :: _ =>
      if d.walSeq ≤ head then { s with worker := .idle }
      else { s with worker := .draining head }

def next (sha : Sha256) (batchSize : Nat) (s : EdgeRun) : EdgeAction → EdgeRun
  | .append d clock now writes compact => s.append d clock now writes compact
  | .setNoDrop v => { s with wal := s.wal.setNoDrop v }
  | .close => { s with wal := s.wal.close }
  | .flushOnce =>
    match s.worker with
    | .idle => { s with worker := .flushing none }
    | _ => s
  | .flushAll =>
    match s.worker with
    | .idle => { s with worker := .draining 0 }
    | _ => s
  | .work answer => s.work sha batchSize answer

/-- The counter of the log is an `int64` and wraps beyond this bound. -/
def Enabled (s : EdgeRun) : EdgeAction → Prop
  | .append .. => s.wal.queue.nextSeq + 1 < 2 ^ 63
  | _ => True

end EdgeRun

def edgeSystem (sha : Sha256) (batchSize : Nat) : System EdgeRun EdgeAction where
  init s := ∃ cfg dropped writes file now,
    (newDecisionWAL cfg dropped writes file now).2 = none ∧
      s = { wal := (newDecisionWAL cfg dropped writes file now).1,
            droppedBefore := (newDecisionWAL cfg dropped writes file now).1.queue.dropped }
  step s a t := s.Enabled a ∧ t = s.next sha batchSize a

/-! ## The invariant -/

def Queue.records (q : Queue) : List Decision := q.entries.map WalEntry.record

namespace EdgeRun

open Watermark

def Accounted (s : EdgeRun) (d : Decision) : Prop :=
  d ∈ s.wal.queue.records ∨ d ∈ s.delivered ∨ d ∈ s.counted

structure Inv (first : Int) (s : EdgeRun) : Prop where
  first_le : first ≤ s.wal.queue.nextSeq
  bound : ∀ d ∈ s.wal.queue.records, d.walSeq < s.wal.queue.nextSeq
  grows : Grows Decision.walSeq first s.wal.queue.records
  last_lt : ∀ b ∈ s.worker.batch?, b.lastWalSeq < s.wal.queue.nextSeq
  covers : ∀ b ∈ s.worker.batch?,
    Covers Decision.walSeq first b.lastWalSeq b.decisions s.wal.queue.records
  delivered : ∀ head b, s.worker = .acking head b → ∀ d ∈ b.decisions, d ∈ s.delivered
  counter : s.wal.queue.dropped = s.droppedBefore + s.counted.length
  accepted : ∀ d ∈ s.accepted, first ≤ d.walSeq ∧ s.Accounted d

variable {first : Int} {s : EdgeRun}

variable {worker : WorkerState} {w : Wal} {k batchSize : Nat} {head : Option Int}
  {batch : FlushBatch} {sha : Sha256}

theorem Inv.of_worker (h : Inv first s) (hw : worker.batch? = none) :
    Inv first { s with worker := worker } where
  first_le := h.first_le
  bound := h.bound
  grows := h.grows
  last_lt := by simp [hw]
  covers := by simp [hw]
  delivered := by
    intro head b hb
    have hsome : worker.batch? = some b := congrArg WorkerState.batch? hb
    rw [hw] at hsome
    cases hsome
  counter := h.counter
  accepted := h.accepted

@[simp]
theorem batch_returned (head : Option Int) (failed : Bool) :
    (WorkerState.returned head failed).batch? = none := by
  cases head with
  | none => rfl
  | some head => cases failed <;> rfl

variable (h : Inv first s)
include h

theorem Inv.of_wal (hentries : w.queue.entries = s.wal.queue.entries)
    (hnext : w.queue.nextSeq = s.wal.queue.nextSeq) (hdropped : w.queue.dropped = s.wal.queue.dropped) :
    Inv first { s with wal := w } := by
  have hrecords : w.queue.records = s.wal.queue.records := congrArg (List.map _) hentries
  refine ⟨?_, ?_, ?_, ?_, ?_, h.delivered, ?_, ?_⟩
  · exact hnext ▸ h.first_le
  · simpa only [hrecords, hnext] using h.bound
  · exact hrecords ▸ h.grows
  · simpa only [hnext] using h.last_lt
  · simpa only [hrecords] using h.covers
  · exact hdropped.trans h.counter
  · simpa only [Accounted, hrecords] using h.accepted

theorem Inv.drop (hk : Queue.Dropped k s.wal.queue w.queue) :
    Inv first { s with wal := w, counted := s.counted ++ s.wal.queue.records.take k } := by
  have hrecords : w.queue.records = s.wal.queue.records.drop k := by
    rw [Queue.records, hk.entries, List.map_drop, Queue.records]
  refine ⟨?_, ?_, ?_, ?_, ?_, h.delivered, ?_, ?_⟩
  · exact hk.nextSeq ▸ h.first_le
  · intro d hd
    rw [hrecords] at hd
    rw [hk.nextSeq]
    exact h.bound d (List.mem_of_mem_drop hd)
  · exact hrecords ▸ h.grows.drop k
  · simpa only [hk.nextSeq] using h.last_lt
  · intro b hb
    rw [hrecords]
    exact (h.covers b hb).drop k
  · have hlen : (s.wal.queue.records.take k).length = k := by
      rw [List.length_take, Queue.records, List.length_map, min_eq_left hk.le]
    rw [hk.dropped, h.counter, List.length_append, hlen, Nat.add_assoc]
  · intro d hd
    obtain ⟨hfirst, hpending | hdelivered | hcounted⟩ := h.accepted d hd
    · rw [← List.take_append_drop k s.wal.queue.records] at hpending
      rcases List.mem_append.mp hpending with htake | hdrop
      · exact ⟨hfirst, .inr (.inr (List.mem_append_right _ htake))⟩
      · exact ⟨hfirst, .inl (hrecords ▸ hdrop)⟩
    · exact ⟨hfirst, .inr (.inl hdelivered)⟩
    · exact ⟨hfirst, .inr (.inr (List.mem_append_left _ hcounted))⟩

theorem Inv.enqueue {x : Decision} (hrecords : w.queue.records = s.wal.queue.records ++ [x])
    (hx : x.walSeq = s.wal.queue.nextSeq) (hnext : w.queue.nextSeq = s.wal.queue.nextSeq + 1)
    (hdropped : w.queue.dropped = s.wal.queue.dropped) :
    Inv first { s with wal := w, accepted := s.accepted ++ [x] } := by
  refine ⟨?_, ?_, ?_, ?_, ?_, h.delivered, hdropped.trans h.counter, ?_⟩
  · have := h.first_le
    change first ≤ w.queue.nextSeq
    omega
  · change ∀ d ∈ w.queue.records, d.walSeq < w.queue.nextSeq
    rw [hrecords, List.forall_mem_append, List.forall_mem_singleton, hnext, hx]
    exact ⟨fun d hd => (h.bound d hd).trans (Int.lt_succ _), Int.lt_succ _⟩
  · change Grows Decision.walSeq first w.queue.records
    rw [hrecords]
    exact h.grows.concat fun d hd => hx ▸ h.bound d hd
  · intro b hb
    have := h.last_lt b hb
    change b.lastWalSeq < w.queue.nextSeq
    omega
  · intro b hb
    change Covers Decision.walSeq first b.lastWalSeq b.decisions w.queue.records
    rw [hrecords]
    exact (h.covers b hb).concat (hx ▸ h.last_lt b hb)
  · change ∀ d ∈ s.accepted ++ [x], first ≤ d.walSeq ∧ (d ∈ w.queue.records ∨ _)
    rw [hrecords, List.forall_mem_append, List.forall_mem_singleton]
    constructor
    · intro d hd
      obtain ⟨hfirst, hpending | hrest⟩ := h.accepted d hd
      · exact ⟨hfirst, .inl (List.mem_append_left _ hpending)⟩
      · exact ⟨hfirst, .inr hrest⟩
    · exact ⟨hx ▸ h.first_le, .inl (by simp)⟩

theorem Inv.of_accepted {l : List Decision} (hl : l ⊆ s.accepted) :
    Inv first { s with accepted := l } :=
  { h with accepted := fun d hd => h.accepted d (hl hd) }

theorem Inv.append (d : Decision) (clock now : Time) (writes : List WriteAnswer)
    (compact : CompactAnswer) : Inv first (s.append d clock now writes compact) := by
  obtain ⟨k, new, hspec⟩ := (s.wal.answering writes compact).append_spec d clock now
  rw [EdgeRun.append]
  generalize (s.wal.answering writes compact).append d clock now = r at hspec
  have hentries : r.1.queue.entries = s.wal.queue.entries.drop k ++ new := hspec.entries
  have hdropped : r.1.queue.dropped = s.wal.queue.dropped + k := hspec.dropped
  have hnext : r.1.queue.nextSeq = s.wal.queue.nextSeq + new.length := hspec.nextSeq
  have hcounted : newlyCounted s.wal r.1 = s.wal.queue.records.take k := by
    rw [newlyCounted, hdropped, Nat.add_sub_cancel_left, Wal.pending, List.map_take, Queue.records]
  -- The log between the drops and the new entry.
  let w : Wal := { s.wal with queue := { s.wal.queue with
    entries := s.wal.queue.entries.drop k, dropped := s.wal.queue.dropped + k } }
  have hdrop : Inv first { s with wal := w, counted := s.counted ++ s.wal.queue.records.take k } :=
    h.drop ⟨hspec.le, rfl, rfl, rfl⟩
  rw [hcounted]
  rcases hspec.new with ⟨rfl, herr⟩ | ⟨size, rfl⟩
  · rw [if_neg herr]
    refine hdrop.of_wal ?_ ?_ hdropped
    · rw [hentries, List.append_nil]
    · simpa using hnext
  · have hqueued : Inv first { s with
        wal := r.1, counted := s.counted ++ s.wal.queue.records.take k,
        accepted := s.accepted ++ [s.wal.stamped d clock] } := by
      refine hdrop.enqueue ?_ rfl (by simpa using hnext) hdropped
      rw [Queue.records, hentries, List.map_append]
      rfl
    split
    · exact hqueued
    · exact hqueued.of_accepted (List.subset_append_left _ _)

theorem Inv.snapshot (sha : Sha256) (head : Option Int) {n : Nat} {d : Decision}
    {ds : List Decision} (hpending : s.wal.pending n = d :: ds) :
    Inv first { s with worker := .sending head (buildFlushBatch sha d ds) } := by
  have htake : s.wal.queue.records.take n = d :: ds := by
    rw [Queue.records, ← List.map_take]
    exact hpending
  have hlast : (s.wal.queue.records.take n).getLast? = some (ds.getLast?.getD d) := by
    rw [htake, List.getLast?_cons]
  refine ⟨h.first_le, h.bound, h.grows, ?_, ?_, nofun, h.counter, h.accepted⟩
  · intro b hb
    cases hb
    exact h.bound _ (List.mem_of_mem_take (List.mem_of_getLast? hlast))
  · intro b hb
    cases hb
    have hcovers := covers_take h.grows hlast
    rwa [htake] at hcovers

theorem Inv.sent (hw : s.worker = .sending head batch) :
    Inv first { s with worker := .acking head batch, delivered := s.delivered ++ batch.decisions } := by
  have hbatch : batch ∈ s.worker.batch? := by rw [hw]; rfl
  refine ⟨h.first_le, h.bound, h.grows, ?_, ?_, ?_, h.counter, ?_⟩
  · intro b hb
    cases hb
    exact h.last_lt batch hbatch
  · intro b hb
    cases hb
    exact h.covers batch hbatch
  · intro _ b hb d hd
    cases hb
    exact List.mem_append_right _ hd
  · intro d hd
    obtain ⟨hfirst, hpending | hdelivered | hcounted⟩ := h.accepted d hd
    · exact ⟨hfirst, .inl hpending⟩
    · exact ⟨hfirst, .inr (.inl (List.mem_append_left _ hdelivered))⟩
    · exact ⟨hfirst, .inr (.inr hcounted)⟩

/-- What the watermark removes from the queue was in the batch that was sent. -/
theorem Inv.ack (hw : s.worker = .acking head batch) (hack : Wal.AckSpec s.wal batch.lastWalSeq w k)
    (hworker : worker.batch? = none) : Inv first { s with wal := w, worker := worker } := by
  have hbatch : batch ∈ s.worker.batch? := by rw [hw]; rfl
  have hrecords : w.queue.records = s.wal.queue.records.drop k := by
    rw [Queue.records, hack.entries, List.map_drop, Queue.records]
  have hidle := h.of_worker hworker
  refine ⟨?_, ?_, ?_, ?_, ?_, hidle.delivered, hack.dropped.trans h.counter, ?_⟩
  · exact hack.nextSeq ▸ h.first_le
  · intro d hd
    rw [hrecords] at hd
    rw [hack.nextSeq]
    exact h.bound d (List.mem_of_mem_drop hd)
  · exact hrecords ▸ h.grows.drop k
  · simp [hworker]
  · simp [hworker]
  · intro d hd
    obtain ⟨hfirst, hpending | hrest⟩ := h.accepted d hd
    · rw [← List.take_append_drop k s.wal.queue.records] at hpending
      rcases List.mem_append.mp hpending with htake | hdrop
      · have hle : d.walSeq ≤ batch.lastWalSeq := by
          rw [Queue.records, ← List.map_take] at htake
          obtain ⟨e, he, rfl⟩ := List.mem_map.mp htake
          exact hack.acked e he
        have hin := h.covers batch hbatch d (List.mem_of_mem_take htake) hfirst hle
        exact ⟨hfirst, .inr (.inl (h.delivered head batch hw d hin))⟩
      · exact ⟨hfirst, .inl (hrecords ▸ hdrop)⟩
    · exact ⟨hfirst, .inr hrest⟩

theorem Inv.work (sha : Sha256) (batchSize : Nat) (a : WorkAnswer) :
    Inv first (s.work sha batchSize a) := by
  rw [EdgeRun.work]
  split
  · exact h
  · split
    · exact h.of_worker rfl
    · split
      · exact h.of_worker rfl
      · split
        · exact h.of_worker rfl
        · exact h.of_worker rfl
  · split
    · exact h.of_worker (batch_returned _ _)
    · exact h.snapshot sha _ ‹_›
  · split
    · exact h.sent ‹_›
    · exact h.of_worker (batch_returned _ _)
  · rename_i batch hw
    obtain ⟨k, hk⟩ := (s.wal.answering a.writes a.compact).ackThrough_spec batch.lastWalSeq
    exact h.ack hw ⟨hk.entries, hk.acked, hk.dropped, hk.nextSeq⟩ (batch_returned _ _)
  · split
    · exact h.of_worker rfl
    · split
      · exact h.of_worker rfl
      · exact h.of_worker rfl

theorem Inv.next (sha : Sha256) (batchSize : Nat) (a : EdgeAction) :
    Inv first (s.next sha batchSize a) := by
  cases a with
  | append d clock now writes compact => exact h.append d clock now writes compact
  | setNoDrop v => exact h.of_wal rfl rfl rfl
  | close => exact h.of_wal rfl rfl rfl
  | flushOnce =>
    rw [EdgeRun.next]
    split
    · exact h.of_worker rfl
    · exact h
  | flushAll =>
    rw [EdgeRun.next]
    split
    · exact h.of_worker rfl
    · exact h
  | work answer => exact h.work sha batchSize answer

omit h

theorem inv_of_reachable (h : (edgeSystem sha batchSize).Reachable s) : ∃ first, Inv first s := by
  have hinit : ∀ s, (edgeSystem sha batchSize).init s → ∃ first, Inv first s := by
    rintro s ⟨cfg, dropped, writes, file, now, -, rfl⟩
    have hbound := newDecisionWAL_bound cfg dropped writes file now
    generalize newDecisionWAL cfg dropped writes file now = r at hbound
    have hrecords : ∀ d ∈ r.1.queue.records, d.walSeq < r.1.queue.nextSeq := by
      intro d hd
      obtain ⟨e, he, rfl⟩ := List.mem_map.mp hd
      exact hbound e he
    exact ⟨r.1.queue.nextSeq, le_rfl, hrecords, grows_of_lt hrecords, nofun, nofun, nofun, rfl,
      List.forall_mem_nil _⟩
  have hstep : ∀ s a t, (∃ first, Inv first s) → (edgeSystem sha batchSize).step s a t →
      ∃ first, Inv first t := by
    rintro s a t ⟨first, hs⟩ ⟨-, rfl⟩
    exact ⟨first, hs.next sha batchSize a⟩
  exact h.invariant hinit hstep

/-- No accepted decision disappears: it is pending, in a batch that the transport took, or one of
those that `DecisionsDropped` counts. -/
theorem accepted_accounted {sha : Sha256} {batchSize : Nat}
    (h : (edgeSystem sha batchSize).Reachable s) :
    s.wal.queue.dropped = s.droppedBefore + s.counted.length ∧ ∀ d ∈ s.accepted, s.Accounted d := by
  obtain ⟨first, hinv⟩ := inv_of_reachable h
  exact ⟨hinv.counter, fun d hd => (hinv.accepted d hd).2⟩

theorem reachable_next (h : (edgeSystem sha batchSize).Reachable s) (a : EdgeAction)
    (ha : s.Enabled a) : (edgeSystem sha batchSize).Reachable (s.next sha batchSize a) :=
  h.next a ⟨ha, rfl⟩

def smallRun : EdgeRun where
  wal := (newDecisionWAL { hasPath := false, maxBytes := 128 } 0 [] none 0).1
  droppedBefore := 0

def smallDecision : Decision := { action := "allow", fingerprint := "f", decidedAt := 0 }

/-- The second append comes between the snapshot of the batch and its acknowledgement, and drops
the decision that is being sent. -/
theorem accepted_accounted_overtaken :
    ∃ s, (edgeSystem zeroSha 100).Reachable s ∧ s.accepted.map Decision.walSeq = [1, 2] ∧
      s.wal.queue.records.map Decision.walSeq = [2] ∧
      s.wal.queue.dropped = s.droppedBefore + s.counted.length ∧ ∀ d ∈ s.accepted, s.Accounted d := by
  have hstart : (edgeSystem zeroSha 100).Reachable smallRun := .start ⟨_, 0, [], none, 0, rfl, rfl⟩
  have happended := reachable_next hstart (.append smallDecision 0 0 [] .done)
    (show (_ : Int) < 2 ^ 63 by decide +kernel)
  have htaken := reachable_next happended .flushOnce trivial
  have hsending := reachable_next htaken (.work {}) trivial
  have hdropped := reachable_next hsending (.append smallDecision 0 0 [] .done)
    (show (_ : Int) < 2 ^ 63 by decide +kernel)
  have hsent := reachable_next hdropped (.work {}) trivial
  have hacked := reachable_next hsent (.work {}) trivial
  exact ⟨_, hacked, by decide +kernel, by decide +kernel, accepted_accounted hacked⟩

end EdgeRun

end Verilink.Edge

import Verilink.Framework.Runs

/-!
# The outbound queue of a stream

`SseWriteQueue`: data frames under a budget of frames and bytes, a lane for one control frame, and a
pump that hands them to the response until a write reports backpressure, throws, or nothing is left.
-/

namespace Verilink.Sync

open Verilink.Framework

structure SseWriteQueueOptions where
  maxFrames : Nat
  maxBytes : Nat
  maxFrameBytes : Nat

structure DataItem where
  frame : String
  cursor : Option Int
  deriving DecidableEq

def DataItem.size (item : DataItem) : Int := item.frame.utf8ByteSize

def bytesOf (items : List DataItem) : Int := (items.map DataItem.size).sum

inductive EnqueueResult
  | ok
  | oversized
  | closed
  | full
  deriving DecidableEq

/-- What `safeWrite` returns: `true`, `false` or `'error'`. -/
inductive WriteResult
  | flushed
  | buffered
  | error
  deriving DecidableEq

inductive Chunk
  | data (item : DataItem)
  | control (frame : String)
  deriving DecidableEq

def Chunk.item? : Chunk → Option DataItem
  | data item => some item
  | control _ => none

structure SseWriteQueue where
  data : List DataItem := []
  dataBytes : Int := 0
  inflightBytes : Int := 0
  control : Option String := none
  pumping : Bool := false
  closed : Bool := false
  waitingForDrain : Bool := false
  lastWrittenCursor : Option Int := none
  deriving DecidableEq

/-- The larger of the last written cursor and the one of a frame, where there is one. -/
def laterCursor (last cursor : Option Int) : Option Int :=
  match cursor, last with
  | none, _ => last
  | some c, none => some c
  | some c, some l => if l < c then some c else some l

namespace SseWriteQueue

def enqueueData (opts : SseWriteQueueOptions) (q : SseWriteQueue) (item : DataItem) :
    SseWriteQueue × EnqueueResult :=
  if q.closed then (q, .closed)
  else if opts.maxFrameBytes < item.size ∨ opts.maxBytes < item.size then (q, .oversized)
  else if opts.maxFrames ≤ q.data.length ∨
      opts.maxBytes < q.dataBytes + q.inflightBytes + item.size then (q, .full)
  else ({ q with data := q.data ++ [item], dataBytes := q.dataBytes + item.size }, .ok)

def enqueueControl (q : SseWriteQueue) (frame : String) : SseWriteQueue × EnqueueResult :=
  if q.closed then (q, .closed) else ({ q with control := some frame }, .ok)

def close (q : SseWriteQueue) : SseWriteQueue := { q with closed := true }

def drain (q : SseWriteQueue) : SseWriteQueue :=
  { q with waitingForDrain := false, inflightBytes := 0 }

def pumpStart (q : SseWriteQueue) : SseWriteQueue :=
  if q.pumping ∨ q.closed ∨ q.waitingForDrain then q else { q with pumping := true }

/-- Leaving the loop: the `finally` block, up to its call of `pump`. -/
def pumpEnd (q : SseWriteQueue) : SseWriteQueue := { q with pumping := false }

/-- A frame of the given size was written and the response is full. -/
def backpressure (q : SseWriteQueue) (size : Int) : SseWriteQueue :=
  { q with inflightBytes := q.inflightBytes + size, waitingForDrain := true }

/-- The control frame goes first. -/
def pumpControl (q : SseWriteQueue) (next : String) (result : WriteResult) :
    SseWriteQueue × Option Chunk :=
  let q := { q with control := none }
  match result with
  | .error => (q.close.pumpEnd, none)
  | .buffered => ((q.backpressure next.utf8ByteSize).pumpEnd, some (.control next))
  | .flushed => (q, some (.control next))

/-- The first data frame leaves the queue before it is written. -/
def pumpData (q : SseWriteQueue) (item : DataItem) (rest : List DataItem) (result : WriteResult) :
    SseWriteQueue × Option Chunk :=
  let q := { q with data := rest, dataBytes := q.dataBytes - item.size }
  let written := { q with lastWrittenCursor := laterCursor q.lastWrittenCursor item.cursor }
  match result with
  | .error => (q.close.pumpEnd, none)
  | .buffered => ((written.backpressure item.size).pumpEnd, some (.data item))
  | .flushed => (written, some (.data item))

/-- One round of the loop, with the result of its write. -/
def pumpRound (q : SseWriteQueue) (result : WriteResult) : SseWriteQueue × Option Chunk :=
  if q.pumping = false then (q, none)
  else if q.closed ∨ q.waitingForDrain then (q.pumpEnd, none)
  else
    match q.control with
    | some next => q.pumpControl next result
    | none =>
      match q.data with
      | [] => (q.pumpEnd, none)
      | item :: rest => q.pumpData item rest result

end SseWriteQueue

/-- A queue with its past: the data frames it accepted, what it handed to the response, and the
data frames that were written into a full response that has not drained since. -/
structure QueueRun where
  queue : SseWriteQueue := {}
  accepted : List DataItem := []
  sent : List Chunk := []
  undrained : List DataItem := []
  deriving DecidableEq

inductive QueueEvent
  | enqueueData (item : DataItem)
  | enqueueControl (frame : String)
  | pumpStart
  | pumpRound (result : WriteResult)
  | drain
  | close

namespace QueueRun

def written (r : QueueRun) : List DataItem := r.sent.filterMap Chunk.item?

def record (r : QueueRun) (result : WriteResult) : SseWriteQueue × Option Chunk → QueueRun
  | (q, none) => { r with queue := q }
  | (q, some chunk) =>
    { r with
      queue := q
      sent := r.sent ++ [chunk]
      undrained := if result = .buffered then r.undrained ++ chunk.item?.toList
        else r.undrained }

def handle (opts : SseWriteQueueOptions) (r : QueueRun) : QueueEvent → QueueRun
  | .enqueueData item =>
    match r.queue.enqueueData opts item with
    | (q, .ok) => { r with queue := q, accepted := r.accepted ++ [item] }
    | (q, _) => { r with queue := q }
  | .enqueueControl frame => { r with queue := (r.queue.enqueueControl frame).1 }
  | .pumpStart => { r with queue := r.queue.pumpStart }
  | .pumpRound result => r.record result (r.queue.pumpRound result)
  | .drain => { r with queue := r.queue.drain, undrained := [] }
  | .close => { r with queue := r.queue.close }

/-- A `'drain'` follows a write that returned `false`. -/
def Enabled (r : QueueRun) : QueueEvent → Prop
  | .drain => r.queue.waitingForDrain = true
  | _ => True

def system (opts : SseWriteQueueOptions) : System QueueRun QueueEvent where
  init r := r = {}
  step r e r' := r.Enabled e ∧ r' = r.handle opts e

/-! ## What every run keeps -/

structure Sound (opts : SseWriteQueueOptions) (r : QueueRun) : Prop where
  bytes : r.queue.dataBytes = bytesOf r.queue.data
  budget : r.queue.dataBytes + bytesOf r.undrained ≤ opts.maxBytes
  inflight : bytesOf r.undrained ≤ r.queue.inflightBytes
  flowing : r.queue.waitingForDrain = false → r.undrained = []
  order : r.queue.closed = false → r.accepted = r.written ++ r.queue.data
  isPrefix : r.written <+: r.accepted
  cursor : r.queue.lastWrittenCursor = (r.written.filterMap DataItem.cursor).max?

end QueueRun

theorem DataItem.size_nonneg (item : DataItem) : 0 ≤ item.size := Int.natCast_nonneg _

theorem bytesOf_concat (items : List DataItem) (item : DataItem) :
    bytesOf (items ++ [item]) = bytesOf items + item.size := by
  simp [bytesOf]

theorem bytesOf_cons (item : DataItem) (items : List DataItem) :
    bytesOf (item :: items) = item.size + bytesOf items := by
  simp [bytesOf]

theorem laterCursor_max? (cursors : List Int) (cursor : Option Int) :
    laterCursor cursors.max? cursor = (cursors ++ cursor.toList).max? := by
  cases cursor with
  | none => simp [laterCursor]
  | some c =>
    cases hmax : cursors.max? with
    | none =>
      rw [List.max?_eq_none_iff] at hmax
      simp [hmax, laterCursor]
    | some m =>
      obtain ⟨hm, hle⟩ := List.max?_eq_some_iff.mp hmax
      symm
      rw [laterCursor]
      split_ifs with hlt
      · rw [List.max?_eq_some_iff]
        refine ⟨by simp, ?_⟩
        intro b hb
        rcases List.mem_append.mp hb with hb | hb
        · exact (hle b hb).trans hlt.le
        · exact (List.mem_singleton.mp hb).le
      · rw [List.max?_eq_some_iff]
        refine ⟨List.mem_append_left _ hm, ?_⟩
        intro b hb
        rcases List.mem_append.mp hb with hb | hb
        · exact hle b hb
        · rw [List.mem_singleton.mp hb]
          exact not_lt.mp hlt

namespace QueueRun

variable {opts : SseWriteQueueOptions} {r : QueueRun}

theorem written_concat (r : QueueRun) (q : SseWriteQueue) (chunk : Chunk) (undrained : List DataItem) :
    ({ r with queue := q, sent := r.sent ++ [chunk], undrained := undrained } : QueueRun).written =
      r.written ++ chunk.item?.toList := by
  cases hitem : chunk.item? <;> simp [written, hitem]

theorem sound_init : Sound opts {} where
  bytes := rfl
  budget := by simp [bytesOf]
  inflight := le_rfl
  flowing _ := rfl
  order _ := rfl
  isPrefix := List.prefix_rfl
  cursor := rfl

variable (h : r.Sound opts)
include h

theorem Sound.enqueueData (item : DataItem) :
    (r.handle opts (.enqueueData item)).Sound opts := by
  rw [handle, SseWriteQueue.enqueueData]
  split_ifs with hclosed hsize hfull
  · exact h
  · exact h
  · exact h
  · rw [not_or, not_lt] at hfull
    have horder := h.order (by simpa using hclosed)
    constructor
    · rw [bytesOf_concat, ← h.bytes]
    · have := h.inflight
      show r.queue.dataBytes + item.size + bytesOf r.undrained ≤ opts.maxBytes
      omega
    · exact h.inflight
    · exact h.flowing
    · intro _
      rw [horder, List.append_assoc]
      rfl
    · exact h.isPrefix.trans (List.prefix_append _ _)
    · exact h.cursor

theorem Sound.enqueueControl (frame : String) :
    (r.handle opts (.enqueueControl frame)).Sound opts := by
  rw [handle, SseWriteQueue.enqueueControl]
  split_ifs
  · exact h
  · exact ⟨h.bytes, h.budget, h.inflight, h.flowing, h.order, h.isPrefix, h.cursor⟩

theorem Sound.pumpStart : (r.handle opts .pumpStart).Sound opts := by
  rw [handle, SseWriteQueue.pumpStart]
  split_ifs
  · exact h
  · exact ⟨h.bytes, h.budget, h.inflight, h.flowing, h.order, h.isPrefix, h.cursor⟩

theorem Sound.drain : (r.handle opts .drain).Sound opts where
  bytes := h.bytes
  budget := by
    have hbudget := h.budget
    have hnonneg : 0 ≤ bytesOf r.undrained := by
      apply List.sum_nonneg
      intro size hsize
      obtain ⟨item, _, rfl⟩ := List.mem_map.mp hsize
      exact item.size_nonneg
    show r.queue.dataBytes + bytesOf [] ≤ opts.maxBytes
    simp only [bytesOf, List.map_nil, List.sum_nil] at hbudget hnonneg ⊢
    omega
  inflight := le_rfl
  flowing _ := rfl
  order := h.order
  isPrefix := h.isPrefix
  cursor := h.cursor

theorem Sound.close : (r.handle opts .close).Sound opts :=
  ⟨h.bytes, h.budget, h.inflight, h.flowing, nofun, h.isPrefix, h.cursor⟩

theorem Sound.pumpControl (next : String) (result : WriteResult) :
    (r.record result (r.queue.pumpControl next result)).Sound opts := by
  cases result with
  | error => exact ⟨h.bytes, h.budget, h.inflight, h.flowing, nofun, h.isPrefix, h.cursor⟩
  | flushed =>
    have hwritten : (r.record .flushed (r.queue.pumpControl next .flushed)).written = r.written :=
      (written_concat _ _ _ _).trans (List.append_nil _)
    constructor
    · exact h.bytes
    · exact h.budget
    · exact h.inflight
    · exact h.flowing
    · rw [hwritten]
      exact h.order
    · rw [hwritten]
      exact h.isPrefix
    · rw [hwritten]
      exact h.cursor
  | buffered =>
    have hwritten : (r.record .buffered (r.queue.pumpControl next .buffered)).written = r.written :=
      (written_concat _ _ _ _).trans (List.append_nil _)
    have hundrained : (r.record .buffered (r.queue.pumpControl next .buffered)).undrained =
        r.undrained :=
      List.append_nil _
    constructor
    · exact h.bytes
    · rw [hundrained]
      exact h.budget
    · rw [hundrained]
      exact h.inflight.trans (le_add_of_nonneg_right (Int.natCast_nonneg _))
    · exact nofun
    · rw [hwritten]
      exact h.order
    · rw [hwritten]
      exact h.isPrefix
    · rw [hwritten]
      exact h.cursor

theorem Sound.pumpData {item : DataItem} {rest : List DataItem}
    (hopen : r.queue.closed = false) (hflowing : r.queue.waitingForDrain = false)
    (hdata : r.queue.data = item :: rest) (result : WriteResult) :
    (r.record result (r.queue.pumpData item rest result)).Sound opts := by
  have hsize := item.size_nonneg
  have hundrained := h.flowing hflowing
  have hbytes : r.queue.dataBytes - item.size = bytesOf rest := by
    rw [h.bytes, hdata, bytesOf_cons]
    omega
  have hbudget := h.budget
  have horder : r.accepted = (r.written ++ [item]) ++ rest := by
    rw [h.order hopen, hdata]
    simp
  have hcursor : laterCursor r.queue.lastWrittenCursor item.cursor =
      ((r.written ++ [item]).filterMap DataItem.cursor).max? := by
    rw [h.cursor, laterCursor_max?, List.filterMap_append]
    cases hitem : item.cursor <;> simp [hitem]
  rw [hundrained] at hbudget
  cases result with
  | error =>
    constructor
    · exact hbytes
    · show r.queue.dataBytes - item.size + bytesOf r.undrained ≤ opts.maxBytes
      rw [hundrained]
      omega
    · exact h.inflight
    · exact h.flowing
    · exact nofun
    · exact h.isPrefix
    · exact h.cursor
  | flushed =>
    have hwritten : (r.record .flushed (r.queue.pumpData item rest .flushed)).written =
        r.written ++ [item] :=
      written_concat _ _ _ _
    constructor
    · exact hbytes
    · show r.queue.dataBytes - item.size + bytesOf r.undrained ≤ opts.maxBytes
      rw [hundrained]
      omega
    · exact h.inflight
    · exact h.flowing
    · rw [hwritten]
      exact fun _ => horder
    · rw [hwritten]
      exact ⟨rest, horder.symm⟩
    · rw [hwritten]
      exact hcursor
  | buffered =>
    have hwritten : (r.record .buffered (r.queue.pumpData item rest .buffered)).written =
        r.written ++ [item] :=
      written_concat _ _ _ _
    have hbuffered : (r.record .buffered (r.queue.pumpData item rest .buffered)).undrained =
        [item] := by
      show r.undrained ++ [item] = [item]
      rw [hundrained, List.nil_append]
    have hitem : bytesOf [item] = item.size := by simp [bytesOf]
    constructor
    · exact hbytes
    · rw [hbuffered, hitem]
      show r.queue.dataBytes - item.size + item.size ≤ opts.maxBytes
      simp only [bytesOf, List.map_nil, List.sum_nil] at hbudget
      omega
    · rw [hbuffered, hitem]
      have hinflight := h.inflight
      rw [hundrained] at hinflight
      show item.size ≤ r.queue.inflightBytes + item.size
      simp only [bytesOf, List.map_nil, List.sum_nil] at hinflight
      omega
    · exact nofun
    · rw [hwritten]
      exact fun _ => horder
    · rw [hwritten]
      exact ⟨rest, horder.symm⟩
    · rw [hwritten]
      exact hcursor

theorem Sound.pumpEnd :
    ({ r with queue := r.queue.pumpEnd } : QueueRun).Sound opts :=
  ⟨h.bytes, h.budget, h.inflight, h.flowing, h.order, h.isPrefix, h.cursor⟩

theorem Sound.pumpRound (result : WriteResult) :
    (r.handle opts (.pumpRound result)).Sound opts := by
  rw [handle, SseWriteQueue.pumpRound]
  split_ifs with hpumping hstopped
  · exact h
  · exact h.pumpEnd
  · rw [not_or, Bool.not_eq_true, Bool.not_eq_true] at hstopped
    cases hcontrol : r.queue.control with
    | some next => exact h.pumpControl next result
    | none =>
      cases hdata : r.queue.data with
      | nil => exact h.pumpEnd
      | cons item rest => exact h.pumpData hstopped.1 hstopped.2 hdata result

omit h

theorem sound_of_reachable (h : (system opts).Reachable r) : r.Sound opts := by
  apply h.invariant
  · rintro _ rfl
    exact sound_init
  · rintro r e _ hr ⟨_, rfl⟩
    cases e with
    | enqueueData item => exact hr.enqueueData item
    | enqueueControl frame => exact hr.enqueueControl frame
    | pumpStart => exact hr.pumpStart
    | pumpRound result => exact hr.pumpRound result
    | drain => exact hr.drain
    | close => exact hr.close

theorem handle_of_closed (opts : SseWriteQueueOptions) (hclosed : r.queue.closed = true)
    (e : QueueEvent) :
    (r.handle opts e).queue.closed = true ∧ (r.handle opts e).sent = r.sent := by
  cases e with
  | enqueueData item => simp [handle, SseWriteQueue.enqueueData, hclosed]
  | enqueueControl frame => simp [handle, SseWriteQueue.enqueueControl, hclosed]
  | pumpStart => simp [handle, SseWriteQueue.pumpStart, hclosed]
  | pumpRound result =>
    by_cases hpumping : r.queue.pumping = false <;>
      simp [handle, SseWriteQueue.pumpRound, SseWriteQueue.pumpEnd, record, hclosed, hpumping]
  | drain => exact ⟨hclosed, rfl⟩
  | close => exact ⟨rfl, rfl⟩

theorem sent_of_closed {r' : QueueRun} (hclosed : r.queue.closed = true)
    (h : (system opts).Leads r r') : r'.sent = r.sent := by
  suffices hboth : r'.queue.closed = true ∧ r'.sent = r.sent from hboth.2
  induction h with
  | refl => exact ⟨hclosed, rfl⟩
  | tail _ hstep ih =>
    obtain ⟨e, _, _, rfl⟩ := hstep
    obtain ⟨hstays, hsent⟩ := handle_of_closed opts ih.1 e
    exact ⟨hstays, hsent.trans ih.2⟩

/-- In every run the bytes are counted right and stay within the budget together with those in
flight, the data frames are written in the order of their acceptance without a gap, the cursor is
the largest one written, and after `close` nothing is written. -/
theorem queue_accounts_for_frames (opts : SseWriteQueueOptions) {r : QueueRun}
    (h : (system opts).Reachable r) :
    r.queue.dataBytes = bytesOf r.queue.data ∧
    r.queue.dataBytes + bytesOf r.undrained ≤ opts.maxBytes ∧
    r.written <+: r.accepted ∧
    r.queue.lastWrittenCursor = (r.written.filterMap DataItem.cursor).max? ∧
    (r.queue.closed = true → ∀ r', (system opts).Leads r r' → r'.sent = r.sent) := by
  have hsound := sound_of_reachable h
  exact ⟨hsound.bytes, hsound.budget, hsound.isPrefix, hsound.cursor,
    fun hclosed r' hlead => sent_of_closed hclosed hlead⟩

/-- Two frames are accepted; the first is written into a full response, and the queue closed. -/
theorem queue_accounts_for_frames_closed :
    ∃ r, (system ⟨8, 64, 32⟩).Reachable r ∧ r.written = [⟨"data: a\n\n", some 7⟩] ∧
      r.queue.closed = true ∧ r.queue.dataBytes = bytesOf r.queue.data ∧
      r.queue.dataBytes + bytesOf r.undrained ≤ 64 ∧ r.written <+: r.accepted ∧
      r.queue.lastWrittenCursor = (r.written.filterMap DataItem.cursor).max? ∧
      (r.queue.closed = true → ∀ r', (system ⟨8, 64, 32⟩).Leads r r' → r'.sent = r.sent) := by
  have h₀ : (system ⟨8, 64, 32⟩).Reachable {} := .start rfl
  have hnext : ∀ r e, (system ⟨8, 64, 32⟩).Reachable r → r.Enabled e →
      (system ⟨8, 64, 32⟩).Reachable (r.handle ⟨8, 64, 32⟩ e) :=
    fun _ e hr henabled => hr.next e ⟨henabled, rfl⟩
  have h₁ := hnext _ (.enqueueData ⟨"data: a\n\n", some 7⟩) h₀ trivial
  have h₂ := hnext _ (.enqueueData ⟨"data: b\n\n", some 8⟩) h₁ trivial
  have h₃ := hnext _ .pumpStart h₂ trivial
  have h₄ := hnext _ (.pumpRound .buffered) h₃ trivial
  have h₅ := hnext _ .close h₄ trivial
  exact ⟨_, h₅, by decide, by decide, queue_accounts_for_frames ⟨8, 64, 32⟩ h₅⟩

end QueueRun

end Verilink.Sync

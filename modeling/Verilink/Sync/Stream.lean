import Verilink.Sync.Replay

/-!
# The sync stream

The control plane's end of `GET /v1/sync/events`.
-/

namespace Verilink.Sync

open Verilink.Framework Verilink.ControlPlane Verilink.Edge

structure SseFrame where
  id : Option Int
  event : String
  data : Json

def eventFrame (e : SyncEventRow) : SseFrame := ⟨some e.syncVersion, e.eventType.text, e.payload⟩

def cursorFrame (highWater : Int) : SseFrame := ⟨some highWater, "cursor", .obj []⟩

def shutdownFrame : SseFrame := ⟨none, "shutdown", .obj []⟩

/-- The limits of a session, and the byte length of a frame. -/
structure SseConfig where
  maxInitialBatch : Nat
  maxFrameBytes : Nat
  writeQueueMaxBytes : Nat
  frameBytes : SseFrame → Nat

/-- The defaults of `config.syncSse`, with frames of 128 bytes. -/
def syncSse : SseConfig where
  maxInitialBatch := 10000
  maxFrameBytes := 1048576
  writeQueueMaxBytes := 8388608
  frameBytes := fun _ => 128

/-- `lastEmittedHw`, the data and control lanes of the write queue, and the abort signal. A
full queue only delays the producer, and so does not show here. -/
structure SseSession where
  lastEmittedHw : Int := -1
  data : List SseFrame := []
  shutdownPending : Bool := false
  aborted : Bool := false

namespace SseSession

variable (cfg : SseConfig)

/-- `enqueueIncremental` with the reaction of its callers: anything but `ok` aborts. -/
def enqueueData (s : SseSession) (f : SseFrame) : SseSession :=
  if s.aborted then s
  else if cfg.maxFrameBytes < cfg.frameBytes f ∨ cfg.writeQueueMaxBytes < cfg.frameBytes f then
    { s with aborted := true }
  else { s with data := s.data ++ [f] }

/-- An event of a poll: one above the frame limit asks the edge to leave. -/
def enqueuePolled (s : SseSession) (e : SyncEventRow) : SseSession :=
  if s.aborted then s
  else if cfg.maxFrameBytes < cfg.frameBytes (eventFrame e) then
    { s with shutdownPending := true, aborted := true }
  else s.enqueueData cfg (eventFrame e)

def enqueueCursor (s : SseSession) (highWater : Int) : SseSession :=
  let s := s.enqueueData cfg (cursorFrame highWater)
  if s.aborted then s else { s with lastEmittedHw := highWater }

def start (initialEvents : List SyncEventRow) (initialHighWater : Int) : SseSession :=
  let s : SseSession := (initialEvents.map eventFrame).foldl (enqueueData cfg) {}
  s.enqueueCursor cfg initialHighWater

def poll (s : SseSession) (db : Database) (tenantId : Uuid) : SseSession :=
  let (events, highWater) :=
    db.getPollBatchWithHighWater s.lastEmittedHw tenantId cfg.maxInitialBatch
  let s' := events.foldl (enqueuePolled cfg) s
  if s.lastEmittedHw < highWater then s'.enqueueCursor cfg highWater else s'

def nextFrame (s : SseSession) : Option (SseFrame × SseSession) :=
  if s.shutdownPending then some (shutdownFrame, { s with shutdownPending := false })
  else
    match s.data with
    | [] => none
    | f :: rest => some (f, { s with data := rest })

end SseSession

end Verilink.Sync

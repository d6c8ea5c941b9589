import Verilink.Edge.Store
import Verilink.Framework.LineLog
import Verilink.Framework.Text

/-!
# Reading the event stream

`readStream` of the edge: the body is read line by line, each line is dispatched into the frame that
is being assembled, and an empty line flushes it.
-/

namespace Verilink.Edge

open Verilink.Framework Text

def maxSSELineBytes : Nat := 256 * 1024

def maxSSEEventBytes : Nat := 1024 * 1024

structure SseTriple where
  id : Bytes
  event : Bytes
  data : Bytes
  deriving DecidableEq

structure SseFrameState where
  eventName : Bytes := []
  idStr : Bytes := []
  dataLines : List Bytes := []
  dataBytes : Nat := 0

def SseFrameState.triple (f : SseFrameState) : SseTriple :=
  ⟨f.idStr, f.eventName, [0x0A].intercalate f.dataLines⟩

/-- The kinds of lines that `dispatch` tells apart. A `retry:` line sets the delay before the
next connection and nothing else. -/
inductive SseField
  | comment
  | retry
  | event (v : Bytes)
  | id (v : Bytes)
  | data (v : Bytes)
  | unknown
  deriving DecidableEq

def sseField (line : Bytes) : SseField :=
  if utf8 ":" <+: line then .comment
  else if utf8 "retry:" <+: line then .retry
  else match cutPrefix (utf8 "event:") line with
    | some v => .event (trimSpace v)
    | none => match cutPrefix (utf8 "id:") line with
      | some v => .id (trimSpace v)
      | none => match cutPrefix (utf8 "data:") line with
        | some v => .data (trimSpace v)
        | none => .unknown

def SseFrameState.accept (f : SseFrameState) : SseField → Except String SseFrameState
  | .event v => .ok { f with eventName := v }
  | .id v => .ok { f with idStr := v }
  | .data v =>
    if maxSSEEventBytes < f.dataBytes + v.length + 1 then .error "sse event exceeds 1048576 bytes"
    else .ok { f with dataLines := f.dataLines ++ [v], dataBytes := f.dataBytes + v.length + 1 }
  | .comment => .ok f
  | .retry => .ok f
  | .unknown => .ok f

/-- What reading does to a state `σ`: `touch` on every line and flush, and `flush`. -/
structure SseSink (σ : Type) where
  touch : σ → σ
  flush : σ → SseTriple → Except String σ

section Reader

variable {σ : Type} (sink : SseSink σ)

def flushFrame (st : σ) (f : SseFrameState) : σ × Except String SseFrameState :=
  match sink.flush (sink.touch st) f.triple with
  | .ok st' => (st', .ok {})
  | .error err => (sink.touch st, .error err)

def dispatch (st : σ) (f : SseFrameState) (line : Bytes) : σ × Except String SseFrameState :=
  if line = [] then flushFrame sink (sink.touch st) f
  else (sink.touch st, f.accept (sseField line))

def lineText (line : Bytes) : Bytes := trimRight [0x0D, 0x0A] line

def lineError : String := "sse line exceeds 262144 bytes"

/-- The end of the body: the last line has no line feed, and may be empty. -/
def readEnd (last : Bytes) (st : σ) (f : SseFrameState) : σ × Option String :=
  if maxSSELineBytes < last.length then (st, some lineError)
  else
    let (st, r) := if lineText last = [] then (st, .ok f) else dispatch sink st f (lineText last)
    match r with
    | .error err => (st, some err)
    | .ok f =>
      match flushFrame sink st f with
      | (st, .ok _) => (st, none)
      | (st, .error err) => (st, some err)

/-- The loop of `readStream`. The buffer of `readSSELine` holds one byte more than a line may
have, so a full buffer is already an error, and so is a longer line. -/
def readLines : List Bytes → Bytes → σ → SseFrameState → σ × Option String
  | [], last, st, f => readEnd sink last st f
  | line :: lines, last, st, f =>
    if maxSSELineBytes < line.length + 1 then (st, some lineError)
    else
      match dispatch sink st f (lineText line) with
      | (st, .ok f) => readLines lines last st f
      | (st, .error err) => (st, some err)

/-- The state and the error with which the read ends; `none` is `io.EOF`. -/
def readStream (body : Bytes) (st : σ) : σ × Option String :=
  readLines sink (splitLines body).1 (splitLines body).2 st {}

end Reader

def collectSink : SseSink (List SseTriple) where
  touch := fun l => l
  flush := fun l t => .ok (if t.event = [] then l else l ++ [t])

/-- Event names are only compared with ASCII names, so each byte stands for one character. -/
def eventText (event : Bytes) : String := String.ofList (Json.asciiChars event)

def parseID (s : Bytes) : Option Int := parseInt64 (trimSpace s)

def payloadTypes : List String :=
  ["score.upsert", "score.delete", "key.upsert", "key.revoke", "policy.replace"]

def applyEventRaw (store : Store) (now : Time) (syncVersion : Int) (eventType : String)
    (payload : Bytes) : Except String Store :=
  match Json.parse payload with
  | some value => applyEvent store now syncVersion eventType value
  | none =>
    if store.highWater < syncVersion ∧ eventType ∈ payloadTypes then
      .error (eventType ++ ": invalid JSON")
    else applyEvent store now syncVersion eventType .null

def flushStore (now : Time) (store : Store) (t : SseTriple) : Except String Store :=
  if t.event = [] then .ok store
  else if t.event = utf8 "shutdown" then .error "shutdown"
  else if t.event = utf8 "cursor" then
    match parseID t.id with
    | none => .ok store
    | some hw => .ok (advanceCursor store now hw)
  else
    match parseID t.id with
    | none => .ok store
    | some hw =>
      if hw ≤ 0 then .ok store
      else
        wrapError ("apply " ++ eventText t.event ++ " id=" ++ toString hw)
          (applyEventRaw store now hw (eventText t.event) t.data)

def storeSink (now : Time) : SseSink Store where
  touch := fun store => store.noteBytes now
  flush := flushStore now

/-! ## Lines -/

theorem lineText_of_last {line : Bytes} (h : ∀ b ∈ line.getLast?, b ≠ 0x0D ∧ b ≠ 0x0A) :
    lineText line = line := by
  rcases List.eq_nil_or_concat' line with rfl | ⟨l, b, rfl⟩
  · rfl
  · obtain ⟨hcr, hlf⟩ := h b (by simp)
    simp [lineText, trimRight, hcr, hlf]

/-! The five names that `dispatch` looks for. -/

theorem utf8_comment : utf8 ":" = [0x3A] := by decide

theorem utf8_retry : utf8 "retry:" = [0x72, 0x65, 0x74, 0x72, 0x79, 0x3A] := by decide

theorem utf8_event : utf8 "event:" = [0x65, 0x76, 0x65, 0x6E, 0x74, 0x3A] := by decide

theorem utf8_id : utf8 "id:" = [0x69, 0x64, 0x3A] := by decide

theorem utf8_data : utf8 "data:" = [0x64, 0x61, 0x74, 0x61, 0x3A] := by decide

theorem sseField_i (q : Bytes) :
    sseField (0x69 :: q) = match cutPrefix (utf8 "id:") (0x69 :: q) with
      | some v => .id (trimSpace v)
      | none => .unknown := by
  simp [sseField, cutPrefix, utf8_comment, utf8_retry, utf8_event, utf8_data]

theorem sseField_e (q : Bytes) :
    sseField (0x65 :: q) = match cutPrefix (utf8 "event:") (0x65 :: q) with
      | some v => .event (trimSpace v)
      | none => .unknown := by
  simp [sseField, cutPrefix, utf8_comment, utf8_retry, utf8_id, utf8_data]

theorem sseField_d (q : Bytes) :
    sseField (0x64 :: q) = match cutPrefix (utf8 "data:") (0x64 :: q) with
      | some v => .data (trimSpace v)
      | none => .unknown := by
  simp [sseField, cutPrefix, utf8_comment, utf8_retry, utf8_id, utf8_event]

end Verilink.Edge

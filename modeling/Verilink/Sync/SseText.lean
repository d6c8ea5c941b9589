import Verilink.Edge.SseReader
import Verilink.Framework.JsonEscape
import Verilink.Sync.Stream

/-!
# The event stream as bytes

What `formatSseEvent` writes and what the edge's reader makes of it.
-/

namespace Verilink.Sync

open Verilink.Framework Verilink.ControlPlane Verilink.Edge Text

def formatSseEvent (id : Option Int) (event : String) (data : Bytes) : Bytes :=
  (match id with
    | some v => utf8 "id: " ++ Json.intText v ++ [0x0A]
    | none => []) ++
  (if event = "" then [] else utf8 "event: " ++ utf8 event ++ [0x0A]) ++
  (utf8 "data: " ++ data ++ [0x0A, 0x0A])

/-- `JSON.stringify`, for a given way of printing numbers that are not integers. -/
def stringify (t : Json.FracText) (v : Json) : Bytes := v.print Json.jsEscape t.text

def sseText (t : Json.FracText) (f : SseFrame) : Bytes :=
  formatSseEvent f.id f.event (stringify t f.data)

def textConfig (t : Json.FracText) : SseConfig :=
  { syncSse with frameBytes := fun f => (sseText t f).length }

def SseConfig.Accepts (cfg : SseConfig) (f : SseFrame) : Prop :=
  cfg.frameBytes f ≤ cfg.maxFrameBytes ∧ cfg.frameBytes f ≤ cfg.writeQueueMaxBytes

/-- The frames of a session: durable events, whose payload is an object, and cursors. Versions
are of type BIGINT. -/
inductive DataFrame : SseFrame → Prop
  | event (e : SyncEventRow) (fields : List (String × Json)) (hpayload : e.payload = .obj fields)
      (hlo : 0 ≤ e.syncVersion) (hhi : e.syncVersion < 2 ^ 63) : DataFrame (eventFrame e)
  | cursor (highWater : Int) (hlo : 0 ≤ highWater) (hhi : highWater < 2 ^ 63) :
      DataFrame (cursorFrame highWater)

def frameTriple (t : Json.FracText) (f : SseFrame) : SseTriple where
  id := match f.id with
    | some v => Json.intText v
    | none => []
  event := utf8 f.event
  data := stringify t f.data

/-! ## The lines of a frame -/

def idLine (v : Int) : Bytes := utf8 "id: " ++ Json.intText v

def eventLine (event : String) : Bytes := utf8 "event: " ++ utf8 event

def dataLine (data : Bytes) : Bytes := utf8 "data: " ++ data

def eventNames : List String :=
  ["score.upsert", "score.delete", "key.upsert", "key.revoke", "policy.replace", "cursor"]

theorem eventNames_graphic : ∀ name ∈ eventNames,
    name ≠ "" ∧ utf8 name ≠ [] ∧ (utf8 name).length ≤ 14 ∧ (utf8 name).all isGraphic = true := by
  decide

theorem eventType_mem (ty : SyncEventType) : ty.text ∈ eventNames := by
  cases ty <;> decide

/-- What the lines of a frame need of it. -/
structure Framed (f : SseFrame) (v : Int) (fields : List (String × Json)) : Prop where
  id : f.id = some v
  lo : 0 ≤ v
  hi : v < 2 ^ 63
  event : f.event ∈ eventNames
  data : f.data = .obj fields

variable {f : SseFrame} {v : Int} {name : String}

theorem DataFrame.framed (h : DataFrame f) : ∃ v fields, Framed f v fields := by
  cases h with
  | event e fields hpayload hlo hhi =>
    exact ⟨_, fields, rfl, hlo, hhi, eventType_mem e.eventType, hpayload⟩
  | cursor highWater hlo hhi =>
    exact ⟨_, [], rfl, hlo, hhi, show "cursor" ∈ eventNames by decide, rfl⟩

theorem intText_graphic (v : Int) : ∀ b ∈ Json.intText v, isGraphic b = true := by
  intro b hb
  have hvisible := Json.isNumberByte_visible (Json.intText_token v b hb)
  simpa [isGraphic] using hvisible

theorem intText_length (hlo : 0 ≤ v) (hhi : v < 2 ^ 63) :
    (Json.intText v).length ≤ 19 := by
  have hchars := congrArg List.length (Json.asciiChars_intText v)
  rw [if_neg (not_lt.mpr hlo), List.nil_append, Json.asciiChars, List.length_map] at hchars
  rw [hchars, Nat.length_toDigits_le_iff (by decide) (by decide)]
  omega

theorem name_graphic (h : name ∈ eventNames) : ∀ b ∈ utf8 name, isGraphic b = true :=
  List.all_eq_true.mp (eventNames_graphic name h).2.2.2

variable {bs : Bytes}

theorem trimSpace_graphic (h : ∀ b ∈ bs, isGraphic b = true) : trimSpace (0x20 :: bs) = bs :=
  trimSpace_cons (fun b hb => h b (List.mem_of_head? hb)) fun b hb => h b (List.mem_of_getLast? hb)

structure IsLine (line : Bytes) : Prop where
  single : 0x0A ∉ line
  text : lineText line = line

theorem isLine_of_ge {line : Bytes} (h : ∀ b ∈ line, 0x20 ≤ b) : IsLine line := by
  have hctl : ∀ b : UInt8, 0x20 ≤ b → b ≠ 0x0D ∧ b ≠ 0x0A := by
    intro b hb
    constructor <;> rintro rfl <;> exact absurd hb (by decide)
  constructor
  · intro hmem
    exact (hctl _ (h _ hmem)).2 rfl
  · exact lineText_of_last fun b hb => hctl b (h b (List.mem_of_getLast? hb))

theorem graphic_ge (h : ∀ b ∈ bs, isGraphic b = true) : ∀ b ∈ bs, 0x20 ≤ b := by
  intro b hb
  have hgraphic := h b hb
  simp only [isGraphic, decide_eq_true_eq] at hgraphic
  exact UInt8.le_trans (by decide) hgraphic.1

theorem utf8_idPrefix : utf8 "id: " = [0x69, 0x64, 0x3A, 0x20] := by decide

theorem utf8_eventPrefix : utf8 "event: " = [0x65, 0x76, 0x65, 0x6E, 0x74, 0x3A, 0x20] := by decide

theorem utf8_dataPrefix : utf8 "data: " = [0x64, 0x61, 0x74, 0x61, 0x3A, 0x20] := by decide

theorem idLine_ge (v : Int) : ∀ b ∈ idLine v, 0x20 ≤ b := by
  simp only [idLine, utf8_idPrefix, List.forall_mem_append]
  exact ⟨by simp, graphic_ge (intText_graphic v)⟩

theorem isLine_idLine (v : Int) : IsLine (idLine v) := isLine_of_ge (idLine_ge v)

theorem eventLine_ge (h : name ∈ eventNames) : ∀ b ∈ eventLine name, 0x20 ≤ b := by
  simp only [eventLine, utf8_eventPrefix, List.forall_mem_append]
  exact ⟨by simp, graphic_ge (name_graphic h)⟩

theorem isLine_eventLine (h : name ∈ eventNames) : IsLine (eventLine name) :=
  isLine_of_ge (eventLine_ge h)

variable (t : Json.FracText)

theorem dataLine_ge (v : Json) :
    ∀ b ∈ dataLine (stringify t v), 0x20 ≤ b := by
  simp only [dataLine, utf8_dataPrefix, List.forall_mem_append]
  exact ⟨by simp, Json.print_ge Json.jsEscaper t v⟩

theorem isLine_dataLine (v : Json) : IsLine (dataLine (stringify t v)) := isLine_of_ge (dataLine_ge t v)

theorem sseField_idLine (v : Int) : sseField (idLine v) = .id (Json.intText v) := by
  have htrim := trimSpace_graphic (intText_graphic v)
  rw [idLine, utf8_idPrefix, List.cons_append, sseField_i]
  simp [cutPrefix, utf8_id, htrim]

theorem sseField_eventLine (h : name ∈ eventNames) :
    sseField (eventLine name) = .event (utf8 name) := by
  have htrim := trimSpace_graphic (name_graphic h)
  rw [eventLine, utf8_eventPrefix, List.cons_append, sseField_e]
  simp [cutPrefix, utf8_event, htrim]

theorem trimSpace_object (fields : List (String × Json)) :
    trimSpace (0x20 :: stringify t (.obj fields)) = stringify t (.obj fields) := by
  apply trimSpace_cons
  · intro b hb
    obtain rfl : b = 0x7B := by simpa [stringify, Json.print] using hb.symm
    decide
  · intro b hb
    rw [stringify, Json.print, ← List.cons_append, List.getLast?_concat] at hb
    obtain rfl : 0x7D = b := by simpa using hb
    decide

theorem sseField_dataLine (fields : List (String × Json)) :
    sseField (dataLine (stringify t (.obj fields))) = .data (stringify t (.obj fields)) := by
  have htrim := trimSpace_object t fields
  rw [dataLine, utf8_dataPrefix, List.cons_append, sseField_d]
  simp [cutPrefix, utf8_data, htrim]

variable {fields : List (String × Json)}

theorem sseText_eq (h : Framed f v fields) :
    sseText t f = idLine v ++ 0x0A :: (eventLine f.event ++ 0x0A ::
      (dataLine (stringify t f.data) ++ 0x0A :: [0x0A])) := by
  have hname : f.event ≠ "" := (eventNames_graphic _ h.event).1
  simp [sseText, formatSseEvent, h.id, hname, idLine, eventLine, dataLine]

theorem splitLines_frame (h : Framed f v fields) (rest : Bytes) : splitLines (sseText t f ++ rest) =
      (idLine v :: eventLine f.event :: dataLine (stringify t f.data) :: [] :: (splitLines rest).1,
        (splitLines rest).2) := by
  rw [sseText_eq t h]
  simp only [List.append_assoc, List.cons_append, List.nil_append]
  rw [splitLines_line (isLine_idLine v).single, splitLines_line (isLine_eventLine h.event).single,
    splitLines_line (isLine_dataLine t f.data).single]
  simp [splitLines]

/-! ## Reading one frame -/

section Frame

variable {σ : Type} (sink : SseSink σ) {st : σ} {fs fs' : SseFrameState} {line : Bytes}

theorem dispatch_field (hne : line ≠ []) (h : fs.accept (sseField line) = .ok fs') :
    dispatch sink st fs line = (sink.touch st, .ok fs') := by
  rw [dispatch, if_neg hne, h]

theorem readLines_field (hline : IsLine line) (hne : line ≠ [])
    (hlen : line.length + 1 ≤ maxSSELineBytes)
    (h : fs.accept (sseField line) = .ok fs') (lines : List Bytes) (last : Bytes) :
    readLines sink (line :: lines) last st fs = readLines sink lines last (sink.touch st) fs' := by
  rw [readLines, if_neg (not_lt.mpr hlen), hline.text, dispatch_field sink hne h]

def namedFrame (f : SseFrame) (v : Int) : SseFrameState :=
  { eventName := utf8 f.event, idStr := Json.intText v }

variable {v : Int}

theorem idLine_length (hlo : 0 ≤ v) (hhi : v < 2 ^ 63) :
    (idLine v).length + 1 ≤ maxSSELineBytes := by
  have := intText_length hlo hhi
  simp only [idLine, utf8_idPrefix, List.length_append, List.length_cons, List.length_nil,
    maxSSELineBytes]
  omega

theorem readLines_idLine (hlo : 0 ≤ v) (hhi : v < 2 ^ 63) (st : σ) (lines : List Bytes) (last : Bytes) :
    readLines sink (idLine v :: lines) last st {} =
      readLines sink lines last (sink.touch st) { idStr := Json.intText v } :=
  readLines_field sink (isLine_idLine v) (by simp [idLine, utf8_idPrefix]) (idLine_length hlo hhi)
    (by rw [sseField_idLine]; rfl) lines last

variable {f : SseFrame} {fields : List (String × Json)}

theorem readLines_header (h : Framed f v fields) (st : σ) (lines : List Bytes) (last : Bytes) :
    readLines sink (idLine v :: eventLine f.event :: lines) last st {} =
      readLines sink lines last (sink.touch (sink.touch st)) (namedFrame f v) := by
  have hevent : (eventLine f.event).length + 1 ≤ maxSSELineBytes := by
    have := (eventNames_graphic f.event h.event).2.2.1
    simp only [eventLine, utf8_eventPrefix, List.length_append, List.length_cons, List.length_nil,
      maxSSELineBytes]
    omega
  rw [readLines_idLine sink h.lo h.hi,
    readLines_field sink (isLine_eventLine h.event) (by simp [eventLine, utf8_eventPrefix]) hevent
      (by rw [sseField_eventLine h.event]; rfl)]
  rfl

/-- The length of a data line with its line feed is what decides whether a frame is read. -/
def dataLineBytes (t : Json.FracText) (f : SseFrame) : Nat :=
  (dataLine (stringify t f.data)).length + 1

/-- A frame is flushed as its triple; what follows is read from the state after that. -/
theorem readStream_frame (t : Json.FracText) (h : Framed f v fields) (rest : Bytes) (st : σ) :
    readStream sink (sseText t f ++ rest) st =
      if maxSSELineBytes < dataLineBytes t f then (sink.touch (sink.touch st), some lineError)
      else
        match sink.flush (sink.touch^[5] st) (frameTriple t f) with
        | .ok st' => readStream sink rest st'
        | .error err => (sink.touch^[5] st, some err) := by
  rw [readStream, splitLines_frame t h, readLines_header sink h, readLines]
  split
  · rename_i hlong
    rw [dataLineBytes, if_pos hlong]
  · rename_i hshort
    rw [dataLineBytes, if_neg hshort]
    have hdata : (dataLine (stringify t f.data)) ≠ [] := by simp [dataLine, utf8_dataPrefix]
    have hfits : ¬ maxSSEEventBytes < (stringify t f.data).length + 1 := by
      simp only [dataLine, utf8_dataPrefix, List.length_append, List.length_cons, List.length_nil,
        maxSSELineBytes] at hshort
      simp only [maxSSEEventBytes]
      omega
    have haccept : (namedFrame f v).accept (sseField (dataLine (stringify t f.data))) =
        .ok { namedFrame f v with
          dataLines := [stringify t f.data], dataBytes := (stringify t f.data).length + 1 } := by
      rw [h.data] at hfits ⊢
      rw [sseField_dataLine]
      simp [SseFrameState.accept, namedFrame, hfits]
    rw [(isLine_dataLine t f.data).text, dispatch_field sink hdata haccept]
    dsimp only
    rw [readLines, if_neg (by simp [maxSSELineBytes])]
    have htriple : SseFrameState.triple { namedFrame f v with
        dataLines := [stringify t f.data], dataBytes := (stringify t f.data).length + 1 } =
        frameTriple t f := by
      simp [SseFrameState.triple, namedFrame, frameTriple, h.id, List.intercalate]
    have hblank : lineText [] = [] := rfl
    have htouch : sink.touch^[5] st =
        sink.touch (sink.touch (sink.touch (sink.touch (sink.touch st)))) := rfl
    rw [hblank, dispatch, if_pos rfl, flushFrame, htriple, htouch]
    split
    · rename_i hflush
      split at hflush <;> simp_all [readStream]
    · rename_i hflush
      split at hflush <;> simp_all

end Frame

/-! ## Reading a session -/

theorem readStream_collect {fs : List SseFrame} (h : ∀ f ∈ fs, DataFrame f) (acc : List SseTriple) :
    readStream collectSink (fs.flatMap (sseText t)) acc = (acc ++ fs.map (frameTriple t), none) ↔
      ∀ f ∈ fs, dataLineBytes t f ≤ maxSSELineBytes := by
  induction fs generalizing acc with
  | nil => simp [readStream, splitLines, readLines, readEnd, lineText, trimRight, flushFrame,
      collectSink, SseFrameState.triple]
  | cons f fs ih =>
    obtain ⟨v, fields, hframed⟩ := (h f (by simp)).framed
    rw [List.flatMap_cons, readStream_frame collectSink t hframed, List.forall_mem_cons]
    by_cases hlong : maxSSELineBytes < dataLineBytes t f
    · simp [hlong, not_le.mpr hlong, lineError]
    · have hevent : (frameTriple t f).event ≠ [] := (eventNames_graphic f.event hframed.event).2.1
      have hflush : collectSink.flush (collectSink.touch^[5] acc) (frameTriple t f) =
          .ok (acc ++ [frameTriple t f]) := by
        show Except.ok (if (frameTriple t f).event = [] then acc else _) = _
        rw [if_neg hevent]
        rfl
      rw [if_neg hlong, hflush]
      have htail := ih (fun g hg => h g (by simp [hg])) (acc ++ [frameTriple t f])
      rw [List.append_assoc, List.singleton_append] at htail
      simpa [not_lt.mp hlong] using htail

/-- The reader gets the frames of a session back, and no error before the end of the stream,
exactly when each data line with its line feed has at most 256 KiB. -/
theorem readStream_sent_iff (t : Json.FracText) (fs : List SseFrame) (h : ∀ f ∈ fs, DataFrame f) :
    readStream collectSink (fs.flatMap (sseText t)) [] = (fs.map (frameTriple t), none) ↔
      ∀ f ∈ fs, dataLineBytes t f ≤ maxSSELineBytes := by
  simpa using readStream_collect t h []

def centText : Json.FracText where
  text := fun _ => utf8 "0.01"
  token := by
    have hbytes : utf8 "0.01" = [0x30, 0x2E, 0x30, 0x31] := by decide
    intro q
    rw [hbytes]
    simp only [List.forall_mem_cons, List.not_mem_nil, false_implies, implies_true, and_true]
    decide
  number := fun _ => by decide

def deletionAndCursor :
    List SseFrame := [eventFrame ⟨1, .scoreDelete, some "p", none, .obj []⟩, cursorFrame 1]

theorem readStream_sent_iff_deletion :
    readStream collectSink (deletionAndCursor.flatMap (sseText centText)) [] =
      (deletionAndCursor.map (frameTriple centText), none) := by
  have hframes : ∀ f ∈ deletionAndCursor, DataFrame f := by
    refine List.forall_mem_cons.mpr ⟨?_, List.forall_mem_singleton.mpr ?_⟩
    · exact .event _ _ rfl (by decide) (by decide)
    · exact .cursor 1 (by decide) (by decide)
  exact (readStream_sent_iff centText _ hframes).mpr (by decide +kernel)

/-! A policy with one long fingerprint. -/

def longFingerprint (n : Nat) : String := String.ofList (List.replicate n 'a')

def denyBody (s : String) : Body := .object [("deny_fingerprints", .array [.string s])]

def denyUpdate (s : String) : PolicyUpdate :=
  ⟨50, .deny, .passthrough, [], [s], false, false, 300, 1 / 100⟩

theorem parsePolicyUpdate_denyBody {s : String} (hs : s ≠ "") :
    parsePolicyUpdate (denyBody s) = .ok (denyUpdate s) := by
  simp [parsePolicyUpdate, denyBody, JsValue.isTruthyObject, JsValue.get, JsValue.orDefault,
    -one_div, asThreshold_default, asMaxSnapshotAge_default, asSampleRate_default,
      asBelowThresholdAction,
    asUnsignedAction, asBoolean, asStringArray, asStringEntry, hs, denyUpdate, bind, Except.bind,
      pure, Except.pure]

def denyEvent (s : String) : SyncEventRow :=
  oneTenant.nextEvent .policyReplace (policyReplacePayload ((denyUpdate s).activeRow sampleTenant
    "default")) none (some sampleTenant)

theorem quoteText_longFingerprint (n : Nat) :
    (Json.quoteText Json.jsEscape (longFingerprint n)).length = n + 2 := by
  have ha : Json.jsEscape 'a' = [0x61] := by decide
  have hchars : (List.replicate n 'a').flatMap Json.jsEscape = List.replicate n 0x61 := by
    induction n with
    | zero => rfl
    | succ n ih => rw [List.replicate_succ, List.flatMap_cons, ih, ha]; rfl
  simp [Json.quoteText, longFingerprint, hchars]

theorem stringify_denyEvent_length (n : Nat) :
    (stringify centText (denyEvent (longFingerprint n)).payload).length =
      (stringify centText (denyEvent (longFingerprint 0)).payload).length + n := by
  have hlong := quoteText_longFingerprint n
  have hzero := quoteText_longFingerprint 0
  simp only [stringify, denyEvent, Database.nextEvent, policyReplacePayload, PolicyUpdate.activeRow,
    denyUpdate, stringsJson, List.map_cons, List.map_nil, Json.print, Json.printMembers,
    Json.printElems, List.length_cons, List.length_append, List.length_nil, hlong, hzero]
  omega

theorem stringify_denyEvent_short :
    (stringify centText (denyEvent (longFingerprint 0)).payload).length ≤ 1000 := by
  decide +kernel

theorem sseText_length (h : Framed f v fields) :
    (sseText t f).length ≤ dataLineBytes t f + 50 := by
  have hid := intText_length h.lo h.hi
  have hname := (eventNames_graphic f.event h.event).2.2.1
  simp only [sseText_eq t h, dataLineBytes, idLine, eventLine, utf8_idPrefix, utf8_eventPrefix,
    List.length_append, List.length_cons, List.length_nil]
  omega

theorem denyEvent_version (s : String) : (denyEvent s).syncVersion = 1 := rfl

variable {n : Nat}

theorem longFingerprint_ne (h : 0 < n) : longFingerprint n ≠ "" := by
  intro hempty
  have hchars := congrArg String.toList hempty
  rw [longFingerprint, String.toList_ofList] at hchars
  have hlen := congrArg List.length hchars
  simp only [List.length_replicate, String.toList_empty, List.length_nil] at hlen
  omega

theorem denyEvent_accepted_unread (hlo : 262144 ≤ n) (hhi : n ≤ 1000000) :
    DataFrame (eventFrame (denyEvent (longFingerprint n))) ∧
      (textConfig centText).Accepts (eventFrame (denyEvent (longFingerprint n))) ∧
      readStream collectSink (sseText centText (eventFrame (denyEvent (longFingerprint n)))) [] =
        ([], some lineError) := by
  have hframe : DataFrame (eventFrame (denyEvent (longFingerprint n))) :=
    .event _ _ rfl (by rw [denyEvent_version]; decide) (by rw [denyEvent_version]; decide)
  have hlen := stringify_denyEvent_length n
  have hshort := stringify_denyEvent_short
  have hbytes : dataLineBytes centText (eventFrame (denyEvent (longFingerprint n))) =
      (stringify centText (denyEvent (longFingerprint n)).payload).length + 7 := by
    simp only [dataLineBytes, dataLine, utf8_dataPrefix, List.length_append, List.length_cons,
      List.length_nil, eventFrame]
    omega
  obtain ⟨v, fields, hframed⟩ := hframe.framed
  refine ⟨hframe, ?_, ?_⟩
  · have hframeLen := sseText_length centText hframed
    simp only [SseConfig.Accepts, textConfig, syncSse]
    omega
  · have hread := readStream_frame collectSink centText hframed [] []
    rw [List.append_nil, if_pos (by simp only [maxSSELineBytes]; omega)] at hread
    exact hread

/-- A fingerprint of 256 KiB passes the validation of the update and the limits of the session,
and the reader stops at its data line. -/
theorem readStream_rejects_policy :
    ∃ (body : Body) (u : PolicyUpdate) (e : SyncEventRow), parsePolicyUpdate body = .ok u ∧
      e.payload = policyReplacePayload (u.activeRow sampleTenant "default") ∧
      DataFrame (eventFrame e) ∧ (textConfig centText).Accepts (eventFrame e) ∧
      readStream collectSink (sseText centText (eventFrame e)) [] = ([], some lineError) := by
  obtain ⟨n, hlo, hhi⟩ : ∃ n : Nat, 262144 ≤ n ∧ n ≤ 1000000 := ⟨262144, by omega, by omega⟩
  exact ⟨denyBody (longFingerprint n), denyUpdate (longFingerprint n), denyEvent (longFingerprint n),
    parsePolicyUpdate_denyBody (longFingerprint_ne (by omega)), rfl,
    denyEvent_accepted_unread hlo hhi⟩

end Verilink.Sync

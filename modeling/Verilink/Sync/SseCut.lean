import Verilink.Sync.SseText

/-!
# A stream that ends anywhere

The body of the event stream may end after any byte. The reader then dispatches what it has of the
last line and flushes the frame.
-/

namespace Verilink.Sync

open Verilink.Framework Verilink.ControlPlane Verilink.Edge Text

def storeCore (s : Store) : Option Snapshot × Int := (s.snapshot, s.highWater)

/-- An event as the log has it: its payload is an object, its version a positive BIGINT. -/
structure Durable (e : SyncEventRow) : Prop where
  payload : ∃ fields, e.payload = .obj fields
  pos : 0 < e.syncVersion
  hi : e.syncVersion < 2 ^ 63

section Cut

variable (t : Json.FracText) (now : Time)

def applyDurable (store : Store) (e : SyncEventRow) : Except String Store :=
  applyEventRaw store now e.syncVersion e.eventType.text (stringify t e.payload)

def eventsText (events : List SyncEventRow) : Bytes :=
  events.flatMap fun e => sseText t (eventFrame e)

/-- The store is that of some prefix of the events, and its high-water mark is no further. -/
def Reflects (store : Store) (events : List SyncEventRow) (result : Store) : Prop :=
  ∃ k ideal, (events.take k).foldlM (applyDurable t now) store = .ok ideal ∧
    storeCore result = storeCore ideal ∧
    (result.highWater = store.highWater ∨ ∃ e ∈ events.take k, result.highWater = e.syncVersion)

def advanced (store : Store) (v : Int) : Option Snapshot × Int :=
  (some { cloneSnapshot store.snapshot with highWaterVersion := v }, v)

/-- A frame up to and with the first `m` bytes of its event name. -/
def nameCut (e : SyncEventRow) (m : Nat) : Bytes :=
  idLine e.syncVersion ++ 0x0A :: (utf8 "event: " ++ (utf8 e.eventType.text).take m)

/-- The body ends inside the event name of an event that is new to the store and says more than
its version; the events before it are all read and applied. -/
def NameCut (store : Store) (events : List SyncEventRow) (body : Bytes) : Prop :=
  ∃ pre e post m st, events = pre ++ e :: post ∧ body = eventsText t pre ++ nameCut e m ∧
    0 < m ∧ m < (utf8 e.eventType.text).length ∧
    (∀ x ∈ pre, dataLineBytes t (eventFrame x) ≤ maxSSELineBytes) ∧
    pre.foldlM (applyDurable t now) store = .ok st ∧ st.highWater < e.syncVersion ∧
    ¬ ∃ whole, applyDurable t now st e = .ok whole ∧ storeCore whole = advanced st e.syncVersion

/-! ## Applying events -/

variable {st store ideal a b st' : Store} {e : SyncEventRow} {events pre : List SyncEventRow} {m : Nat}
  {f : SseFrameState}

theorem applyEvent_core (h : storeCore a = storeCore b) (v : Int) (ty : String) (payload : Json) :
    (applyEvent a now v ty payload).map storeCore = (applyEvent b now v ty payload).map storeCore := by
  obtain ⟨hsnap, hmark⟩ := Prod.mk.inj h
  unfold applyEvent
  rw [hsnap, hmark]
  split_ifs
  · rfl
  · exact congrArg Except.ok h
  · cases mutateSnapshot (cloneSnapshot b.snapshot) ty payload <;> rfl

theorem applyDurable_eq (store : Store) (e : SyncEventRow) : applyDurable t now store e =
      applyEvent store now e.syncVersion e.eventType.text (Json.reread t e.payload) := by
  have hparse : Json.parse (stringify t e.payload) = some (Json.reread t e.payload) :=
    Json.parse_print Json.jsEscaper t e.payload
  rw [applyDurable, applyEventRaw, hparse]

theorem applyDurable_core (h : storeCore a = storeCore b) (e : SyncEventRow) :
    (applyDurable t now a e).map storeCore = (applyDurable t now b e).map storeCore := by
  rw [applyDurable_eq, applyDurable_eq]
  exact applyEvent_core now h _ _ _

theorem foldlM_applyDurable_core (events : List SyncEventRow) (h : storeCore a = storeCore b) :
    (events.foldlM (applyDurable t now) a).map storeCore =
      (events.foldlM (applyDurable t now) b).map storeCore := by
  induction events generalizing a b with
  | nil => exact congrArg Except.ok h
  | cons e events ih =>
    have hstep := applyDurable_core t now h e
    simp only [List.foldlM_cons]
    cases ha : applyDurable t now a e with
    | error err =>
      cases hb : applyDurable t now b e with
      | error err' =>
        rw [ha, hb] at hstep
        exact congrArg Except.error (Except.error.inj hstep)
      | ok b' =>
        rw [ha, hb] at hstep
        cases hstep
    | ok a' =>
      rw [ha] at hstep
      obtain ⟨b', hb, heq⟩ := map_eq_ok.mp hstep.symm
      rw [hb]
      exact ih heq.symm

variable {t now} {store' result : Store} {v : Int}

theorem applyDurable_eq_ok (he : Durable e) (h : applyDurable t now store e = .ok store') :
    (store' = store ∧ e.syncVersion ≤ store.highWater) ∨
      (store.highWater < e.syncVersion ∧ store'.highWater = e.syncVersion) := by
  rw [applyDurable_eq] at h
  rcases Int.lt_or_le store.highWater e.syncVersion with hlt | hle
  · rw [applyEvent_of_lt store now _ _ _ he.pos hlt] at h
    obtain ⟨next, -, rfl⟩ := map_eq_ok.mp h
    exact .inr ⟨hlt, rfl⟩
  · rw [applyEvent_of_le store now _ _ _ he.pos hle] at h
    cases h
    exact .inl ⟨rfl, hle⟩

theorem framed_event (he : Durable e) :
    ∃ fields, Framed (eventFrame e) e.syncVersion fields ∧ e.payload = .obj fields := by
  obtain ⟨fields, hfields⟩ := he.payload
  exact ⟨fields, ⟨rfl, he.pos.le, he.hi, eventType_mem e.eventType, hfields⟩, hfields⟩

theorem foldlM_applyDurable_mark (hevents : ∀ e ∈ events, Durable e)
    (h : events.foldlM (applyDurable t now) store = .ok store') :
    store' = store ∨ (store.highWater < store'.highWater ∧
      ∃ e ∈ events, store'.highWater = e.syncVersion) := by
  induction events generalizing store with
  | nil =>
    cases h
    exact .inl rfl
  | cons e events ih =>
    obtain ⟨mid, hmid, hrest⟩ := bind_eq_ok.mp h
    rcases ih (fun x hx => hevents x (by simp [hx])) hrest with rfl | ⟨hlt, x, hx, hmark⟩
    · rcases applyDurable_eq_ok (hevents e (by simp)) hmid with ⟨rfl, -⟩ | ⟨hlt, hmark⟩
      · exact .inl rfl
      · exact .inr ⟨hmark ▸ hlt, e, by simp, hmark⟩
    · rcases applyDurable_eq_ok (hevents e (by simp)) hmid with ⟨rfl, -⟩ | ⟨hlt', hmark'⟩
      · exact .inr ⟨hlt, x, by simp [hx], hmark⟩
      · exact .inr ⟨hlt'.trans (hmark' ▸ hlt), x, by simp [hx], hmark⟩

/-! ## Flushing what was read of a frame -/

theorem parseID_intText (hlo : 0 ≤ v) (hhi : v < 2 ^ 63) :
    parseID (Json.intText v) = some v := by
  have hgraphic := intText_graphic v
  rw [parseID, trimSpace, trimLeftSpace_of_head fun b hb => hgraphic b (List.mem_of_head? hb),
    trimRightSpace_of_last fun b hb => hgraphic b (List.mem_of_getLast? hb)]
  exact parseInt64_intText hlo hhi

theorem eventText_type (ty : SyncEventType) : eventText (utf8 ty.text) = ty.text ∧
    utf8 ty.text ∉ [[], utf8 "shutdown", utf8 "cursor"] ∧ ty.text ∈ payloadTypes := by
  cases ty <;> decide

theorem flushStore_of_name (hlo : 0 ≤ v) (hhi : v < 2 ^ 63) {event : Bytes}
    (hname : event ∉ [[], utf8 "shutdown", utf8 "cursor"]) (now : Time) (store : Store) (data : Bytes) :
    flushStore now store ⟨Json.intText v, event, data⟩ =
      if v ≤ 0 then .ok store
      else wrapError ("apply " ++ eventText event ++ " id=" ++ toString v)
        (applyEventRaw store now v (eventText event) data) := by
  simp only [List.mem_cons, List.not_mem_nil, or_false, not_or] at hname
  obtain ⟨hempty, hshutdown, hcursor⟩ := hname
  simp only [flushStore, hempty, hshutdown, hcursor, if_false, parseID_intText hlo hhi]

theorem flushStore_event (he : Durable e) (now : Time) (store : Store) (data : Bytes) :
    flushStore now store ⟨Json.intText e.syncVersion, utf8 e.eventType.text, data⟩ =
      wrapError ("apply " ++ e.eventType.text ++ " id=" ++ toString e.syncVersion)
        (applyEventRaw store now e.syncVersion e.eventType.text data) := by
  obtain ⟨htext, hname, -⟩ := eventText_type e.eventType
  rw [flushStore_of_name he.pos.le he.hi hname, if_neg (not_le.mpr he.pos), htext]

theorem eventText_take {name : String} (hname : name ∈ eventNames) (hpos : 0 < m)
    (hlt : m < (utf8 name).length) :
    eventText ((utf8 name).take m) ∉ payloadTypes ∧
      (utf8 name).take m ∉ [[], utf8 "shutdown", utf8 "cursor"] := by
  have hall : ∀ name ∈ eventNames, ∀ m < (utf8 name).length, 0 < m →
      eventText ((utf8 name).take m) ∉ payloadTypes ∧
        (utf8 name).take m ∉ [[], utf8 "shutdown", utf8 "cursor"] := by
    decide
  exact hall name hname m hlt hpos

theorem flushStore_whole (t : Json.FracText) (now : Time) (he : Durable e) (store : Store) :
    flushStore now store (frameTriple t (eventFrame e)) =
      wrapError ("apply " ++ e.eventType.text ++ " id=" ++ toString e.syncVersion)
        (applyDurable t now store e) :=
  flushStore_event he now store (stringify t e.payload)

theorem flushFrame_core_of_error {err : String}
    (h : flushStore now (st.noteBytes now) f.triple = .error err) :
    storeCore (flushFrame (storeSink now) st f).1 = storeCore st := by
  have hflush : (storeSink now).flush ((storeSink now).touch st) f.triple = .error err := h
  rw [flushFrame, hflush]
  rfl

theorem flushFrame_core_of_ok (h : flushStore now (st.noteBytes now) f.triple = .ok st') :
    storeCore (flushFrame (storeSink now) st f).1 = storeCore st' := by
  have hflush : (storeSink now).flush ((storeSink now).touch st) f.triple = .ok st' := h
  rw [flushFrame, hflush]

theorem flushFrame_core_of_nameless (st : Store) (h : f.eventName = []) :
    storeCore (flushFrame (storeSink now) st f).1 = storeCore st := by
  have hflush : flushStore now (st.noteBytes now) f.triple = .ok (st.noteBytes now) := by
    simp [flushStore, SseFrameState.triple, h]
  rw [flushFrame_core_of_ok hflush]
  rfl

theorem flushFrame_core_of_half (he : Durable e) (st : Store) {data : Bytes}
    (hf : f.triple = ⟨Json.intText e.syncVersion, utf8 e.eventType.text, data⟩)
    (hdata : Json.parse data = none) :
    storeCore (flushFrame (storeSink now) st f).1 = storeCore st := by
  obtain ⟨-, -, htype⟩ := eventText_type e.eventType
  have hflush := flushStore_event he now (st.noteBytes now) data
  rcases Int.lt_or_le st.highWater e.syncVersion with hlt | hle
  · have hraw : applyEventRaw (st.noteBytes now) now e.syncVersion e.eventType.text data =
        .error (e.eventType.text ++ ": invalid JSON") := by
      unfold applyEventRaw
      rw [hdata]
      exact if_pos ⟨hlt, htype⟩
    rw [hraw] at hflush
    exact flushFrame_core_of_error (by rw [hf, hflush]; rfl)
  · have hraw : applyEventRaw (st.noteBytes now) now e.syncVersion e.eventType.text data =
        .ok (st.noteBytes now) := by
      unfold applyEventRaw
      rw [hdata]
      exact (if_neg fun h => absurd h.1 (not_lt.mpr hle)).trans (applyEvent_of_le _ now _ _ _ he.pos hle)
    rw [hraw] at hflush
    rw [flushFrame_core_of_ok (by rw [hf, hflush]; rfl)]
    rfl

theorem flushFrame_core_of_part {g : SseFrame} {fields : List (String × Json)}
    (h : Framed g v fields) (st : Store) (hpos : 0 < m) (hm : m < (utf8 g.event).length)
    (hf : f.triple = ⟨Json.intText v, (utf8 g.event).take m, []⟩) :
    storeCore (flushFrame (storeSink now) st f).1 =
      if 0 < v ∧ st.highWater < v then advanced st v else storeCore st := by
  obtain ⟨htype, hname⟩ := eventText_take h.event hpos hm
  have hflush := flushStore_of_name h.lo h.hi hname now (st.noteBytes now) []
  have hraw : applyEventRaw (st.noteBytes now) now v (eventText ((utf8 g.event).take m)) [] =
      applyEvent (st.noteBytes now) now v (eventText ((utf8 g.event).take m)) .null := by
    unfold applyEventRaw
    rw [show Json.parse [] = none by decide]
    exact if_neg fun h => htype h.2
  rw [hraw] at hflush
  rcases Int.lt_or_le 0 v with hv | hv
  · rw [if_neg (not_le.mpr hv)] at hflush
    rcases Int.lt_or_le st.highWater v with hlt | hle
    · have hchange : parseChange (eventText ((utf8 g.event).take m)) .null = .ok .nothing := by
        simp only [payloadTypes, List.mem_cons, List.not_mem_nil, or_false, not_or] at htype
        simp [parseChange, htype]
      rw [applyEvent_of_lt (st.noteBytes now) now _ _ _ hv hlt, mutateSnapshot, hchange] at hflush
      rw [if_pos ⟨hv, hlt⟩, flushFrame_core_of_ok (by rw [hf, hflush]; rfl)]
      rfl
    · rw [applyEvent_of_le (st.noteBytes now) now _ _ _ hv hle] at hflush
      rw [if_neg fun h => absurd h.2 (not_lt.mpr hle), flushFrame_core_of_ok (by rw [hf, hflush]; rfl)]
      rfl
  · rw [if_pos hv] at hflush
    rw [if_neg fun h => absurd h.1 (not_lt.mpr hv), flushFrame_core_of_ok (by rw [hf, hflush])]
    rfl

/-- What a read makes of an event that it has in full: it is applied, or the store stays. -/
def AppliesOrStays (t : Json.FracText) (now : Time) (st : Store) (e : SyncEventRow)
    (core : Option Snapshot × Int) : Prop :=
  core = storeCore st ∨ ∃ whole, applyDurable t now st e = .ok whole ∧ core = storeCore whole

theorem flushFrame_core_of_whole (he : Durable e) (hst : storeCore st' = storeCore st)
    (hf : f.triple = frameTriple t (eventFrame e)) :
    AppliesOrStays t now st e (storeCore (flushFrame (storeSink now) st' f).1) := by
  have hflush := flushStore_whole t now he (st'.noteBytes now)
  have hcore := applyDurable_core t now (show storeCore (st'.noteBytes now) = storeCore st from hst) e
  cases happly : applyDurable t now (st'.noteBytes now) e with
  | error err =>
    rw [happly] at hflush
    exact .inl ((flushFrame_core_of_error (by rw [hf, hflush]; rfl)).trans hst)
  | ok whole' =>
    rw [happly] at hflush hcore
    obtain ⟨whole, hwhole, heq⟩ := map_eq_ok.mp hcore.symm
    refine .inr ⟨whole, hwhole, ?_⟩
    rw [flushFrame_core_of_ok (by rw [hf, hflush]; rfl), heq]

/-! ## The cut frame -/

variable {q r body : Bytes} {g : SseFrame} {fields : List (String × Json)}

theorem isPrefix_append {a b : Bytes} (h : q <+: a ++ b) :
    q <+: a ∨ ∃ r, r ≠ [] ∧ r <+: b ∧ q = a ++ r := by
  rcases Nat.lt_or_ge a.length q.length with hlt | hle
  · obtain ⟨r, rfl⟩ : a <+: q := List.prefix_of_prefix_length_le (List.prefix_append _ _) h hlt.le
    rw [List.prefix_append_right_inj] at h
    exact .inr ⟨r, by rintro rfl; simp at hlt, h, rfl⟩
  · exact .inl (List.prefix_of_prefix_length_le h (List.prefix_append _ _) hle)

theorem isPrefix_line {a b : Bytes} (h : q <+: a ++ 0x0A :: b) :
    q <+: a ∨ ∃ r, r <+: b ∧ q = a ++ 0x0A :: r := by
  rcases isPrefix_append h with h | ⟨r, hne, hr, rfl⟩
  · exact .inl h
  · obtain ⟨c, r, rfl⟩ := List.exists_cons_of_ne_nil hne
    rw [List.cons_prefix_cons] at hr
    exact .inr ⟨r, hr.2, by rw [hr.1]⟩

theorem ge_of_isPrefix {line : Bytes} (hline : ∀ b ∈ line, 0x20 ≤ b) (h : q <+: line) :
    ∀ b ∈ q, 0x20 ≤ b := fun b hb => hline b (h.subset hb)

theorem readEnd_core {σ : Type} (sink : SseSink σ) {last : Bytes} (hlast : ∀ b ∈ last, 0x20 ≤ b)
    (st : σ) (f : SseFrameState) :
    (readEnd sink last st f).1 =
      if maxSSELineBytes < last.length then st
      else if last = [] then (flushFrame sink st f).1
      else
        match f.accept (sseField last) with
        | .ok f' => (flushFrame sink (sink.touch st) f').1
        | .error _ => sink.touch st := by
  unfold readEnd
  rw [(isLine_of_ge hlast).text]
  split
  · rfl
  · by_cases hnil : last = []
    · simp only [hnil, if_true]
      split <;> simp_all
    · simp only [hnil, if_false, dispatch]
      cases f.accept (sseField last) with
      | error err => rfl
      | ok f' =>
        dsimp only
        split <;> simp_all

theorem readStream_cut_id (h : q <+: idLine v) (st : Store) :
    storeCore (readStream (storeSink now) q st).1 = storeCore st := by
  have hge := ge_of_isPrefix (idLine_ge v) h
  rw [readStream, splitLines_of_no_newline (isLine_of_ge hge).single]
  simp only [readLines, readEnd_core _ hge]
  split
  · rfl
  · split
    · exact flushFrame_core_of_nameless st rfl
    · rename_i hne
      obtain ⟨c, q', rfl⟩ := List.exists_cons_of_ne_nil hne
      obtain rfl : c = 0x69 := by
        rw [idLine, utf8_idPrefix, List.cons_append, List.cons_prefix_cons] at h
        exact h.1
      rw [sseField_i]
      cases cutPrefix (utf8 "id:") (0x69 :: q') with
      | none => exact flushFrame_core_of_nameless _ rfl
      | some w => exact flushFrame_core_of_nameless _ rfl

/-! Cut in the event line. -/

theorem sseField_eventCut (h : q <+: utf8 "event: ") (hne : q ≠ []) :
    sseField q = .unknown ∨ sseField q = .event [] := by
  have hall : ∀ q ∈ (utf8 "event: ").inits, q ≠ [] →
      sseField q = .unknown ∨ sseField q = .event [] := by
    decide
  exact hall q ((List.mem_inits q _).mpr h) hne

theorem sseField_eventPart {name : String} (hname : name ∈ eventNames) (hr : r <+: utf8 name) :
    sseField (utf8 "event: " ++ r) = .event r := by
  have htrim := trimSpace_graphic fun b hb => name_graphic hname b (hr.subset hb)
  rw [utf8_eventPrefix, List.cons_append, sseField_e]
  simp [cutPrefix, utf8_event, htrim]

theorem readStream_afterId (h : Framed g v fields) (hq : ∀ b ∈ q, 0x20 ≤ b) (st : Store) :
    readStream (storeSink now) (idLine v ++ 0x0A :: q) st =
      readEnd (storeSink now) q (st.noteBytes now) { idStr := Json.intText v } := by
  rw [readStream, splitLines_line (isLine_idLine _).single,
    splitLines_of_no_newline (isLine_of_ge hq).single, readLines_idLine _ h.lo h.hi]
  rfl

theorem readStream_eventPart (h : Framed g v fields) (hne : r ≠ []) (hr : r <+: utf8 g.event)
    (st : Store) :
    (readStream (storeSink now) (idLine v ++ 0x0A :: (utf8 "event: " ++ r)) st).1 =
      (flushFrame (storeSink now) ((st.noteBytes now).noteBytes now)
        { eventName := r, idStr := Json.intText v }).1 := by
  have hpre : utf8 "event: " ++ r <+: eventLine g.event := (List.prefix_append_right_inj _).mpr hr
  have hge := ge_of_isPrefix (eventLine_ge h.event) hpre
  have hlen : ¬ maxSSELineBytes < (utf8 "event: " ++ r).length := by
    have hshort := (eventNames_graphic _ h.event).2.2.1
    have := hr.length_le
    simp only [utf8_eventPrefix, List.length_append, List.length_cons, List.length_nil, maxSSELineBytes]
    omega
  rw [readStream_afterId h hge, readEnd_core _ hge, if_neg hlen, if_neg (by simp [hne]),
    sseField_eventPart h.event hr]
  rfl

theorem readStream_nameCut (he : Durable e) (hpos : 0 < m) (hm : m < (utf8 e.eventType.text).length)
    (st : Store) :
    storeCore (readStream (storeSink now) (nameCut e m) st).1 =
      if st.highWater < e.syncVersion then advanced st e.syncVersion else storeCore st := by
  obtain ⟨fields, hframed, -⟩ := framed_event he
  have hne : (utf8 e.eventType.text).take m ≠ [] := by
    rw [Ne, List.take_eq_nil_iff]
    rintro (rfl | hnil)
    · exact absurd hpos (lt_irrefl 0)
    · rw [hnil] at hm
      exact absurd hm (Nat.not_lt_zero m)
  rw [nameCut, readStream_eventPart hframed hne (List.take_prefix _ _),
    flushFrame_core_of_part hframed _ hpos hm rfl]
  simp only [he.pos, true_and]
  rfl

/-- What the reader may have of a frame when it flushes it: part of the name, or the name and
part of the data. -/
inductive PartOf (t : Json.FracText) (g : SseFrame) (v : Int) : Bytes → SseTriple → Prop
  | name (m : Nat) (hpos : 0 < m) (hm : m < (utf8 g.event).length) :
      PartOf t g v (idLine v ++ 0x0A :: (utf8 "event: " ++ (utf8 g.event).take m))
        ⟨Json.intText v, (utf8 g.event).take m, []⟩
  | data (q d : Bytes) (hd : d <+: stringify t g.data) :
      PartOf t g v q ⟨Json.intText v, utf8 g.event, d⟩

/-- A read of the first bytes of a frame leaves the store, or flushes what it has of the frame. -/
def ReadsPart (t : Json.FracText) (now : Time) (st : Store) (g : SseFrame) (v : Int)
    (q : Bytes) : Prop :=
  storeCore (readStream (storeSink now) q st).1 = storeCore st ∨
    ∃ st' f, storeCore st' = storeCore st ∧ PartOf t g v q f.triple ∧
      storeCore (readStream (storeSink now) q st).1 = storeCore (flushFrame (storeSink now) st' f).1

theorem readStream_cut_event (h : Framed g v fields) (hq : q <+: eventLine g.event) (st : Store) :
    ReadsPart t now st g v (idLine v ++ 0x0A :: q) := by
  have hge := ge_of_isPrefix (eventLine_ge h.event) hq
  rcases isPrefix_append hq with hpre | ⟨r, hne, hr, rfl⟩
  · left
    rw [readStream_afterId h hge, readEnd_core _ hge]
    split
    · rfl
    · split
      · exact flushFrame_core_of_nameless _ rfl
      · rename_i hne
        rcases sseField_eventCut hpre hne with hfield | hfield <;> rw [hfield] <;>
          exact flushFrame_core_of_nameless _ rfl
  · right
    refine ⟨_, _, rfl, ?_, congrArg storeCore (readStream_eventPart h hne hr st)⟩
    rcases hr.length_le.lt_or_eq with hlt | heq
    · rw [List.prefix_iff_eq_take.mp hr]
      exact .name r.length (List.length_pos_of_ne_nil hne) hlt
    · rw [hr.eq_of_length heq]
      exact .data _ [] List.nil_prefix

/-! Cut in the data line. -/

theorem sseField_dataCut (h : q <+: utf8 "data: ") (hne : q ≠ []) :
    sseField q = .unknown ∨ sseField q = .data [] := by
  have hall : ∀ q ∈ (utf8 "data: ").inits, q ≠ [] →
      sseField q = .unknown ∨ sseField q = .data [] := by
    decide
  exact hall q ((List.mem_inits q _).mpr h) hne

theorem sseField_dataPart (t : Json.FracText) {fields : List (String × Json)}
    (hr : r <+: stringify t (.obj fields)) :
    ∃ d, d <+: r ∧ sseField (utf8 "data: " ++ r) = .data d := by
  refine ⟨trimSpace (0x20 :: r), isPrefix_trimSpace_cons ?_, ?_⟩
  · intro b hb
    obtain ⟨rest, rfl⟩ := List.head?_eq_some_iff.mp hb
    obtain rfl : b = 0x7B := by
      rw [stringify, Json.print, List.cons_prefix_cons] at hr
      exact hr.1
    decide
  · rw [utf8_dataPrefix, List.cons_append, sseField_d]
    simp [cutPrefix, utf8_data]

def headerText (g : SseFrame) (v : Int) : Bytes :=
  idLine v ++ 0x0A :: (eventLine g.event ++ [0x0A])

theorem sseText_header (t : Json.FracText) (h : Framed g v fields) : sseText t g =
      headerText g v ++ (dataLine (stringify t g.data) ++ 0x0A :: [0x0A]) := by
  rw [sseText_eq t h]
  simp [headerText]

theorem readStream_afterHeader (h : Framed g v fields) (rest : Bytes) (st : Store) :
    readStream (storeSink now) (headerText g v ++ rest) st =
      readLines (storeSink now) (splitLines rest).1 (splitLines rest).2
        ((st.noteBytes now).noteBytes now) (namedFrame g v) := by
  have hsplit : splitLines (headerText g v ++ rest) =
      (idLine v :: eventLine g.event :: (splitLines rest).1, (splitLines rest).2) := by
    simp only [headerText, List.append_assoc, List.cons_append, List.nil_append]
    rw [splitLines_line (isLine_idLine _).single, splitLines_line (isLine_eventLine h.event).single]
  rw [readStream, hsplit, readLines_header _ h]
  rfl

theorem readStream_cut_data (h : Framed g v fields) (hq : q <+: dataLine (stringify t g.data))
    (st : Store) :
    ReadsPart t now st g v (headerText g v ++ q) := by
  have hge := ge_of_isPrefix (dataLine_ge t g.data) hq
  have hflush : ∀ st' f d, d <+: stringify t g.data → storeCore st' = storeCore st →
      f.triple = ⟨Json.intText v, utf8 g.event, d⟩ →
      (readStream (storeSink now) (headerText g v ++ q) st).1 = (flushFrame (storeSink now) st' f).1 →
      ReadsPart t now st g v (headerText g v ++ q) :=
    fun st' f d hd hst' hf hread => .inr ⟨st', f, hst', hf ▸ .data _ d hd, congrArg storeCore hread⟩
  have hread : readStream (storeSink now) (headerText g v ++ q) st = _ := readStream_afterHeader h q st
  rw [splitLines_of_no_newline (isLine_of_ge hge).single, readLines] at hread
  replace hread := congrArg Prod.fst hread
  rw [readEnd_core _ hge] at hread
  split at hread
  · exact .inl ((congrArg storeCore hread).trans rfl)
  · split at hread
    · exact hflush _ _ [] List.nil_prefix rfl rfl hread
    · rename_i hne
      rcases isPrefix_append hq with hpre | ⟨r, -, hr, rfl⟩
      · rcases sseField_dataCut hpre hne with hfield | hfield <;> rw [hfield] at hread <;>
          exact hflush _ _ [] List.nil_prefix rfl rfl hread
      · obtain ⟨d, hd, hfield⟩ := sseField_dataPart t (h.data ▸ hr)
        rw [hfield, SseFrameState.accept] at hread
        split at hread
        · rename_i haccept
          split at haccept
          · cases haccept
          · cases haccept
            refine hflush _ _ d (hd.trans hr) rfl ?_ hread
            simp [SseFrameState.triple, namedFrame, List.intercalate]
        · exact .inl ((congrArg storeCore hread).trans rfl)

theorem readStream_cut_blank (h : Framed g v fields) (st : Store) :
    ReadsPart t now st g v (headerText g v ++ (dataLine (stringify t g.data) ++ [0x0A])) := by
  have hline := isLine_dataLine t g.data
  have hne : dataLine (stringify t g.data) ≠ [] := by simp [dataLine, utf8_dataPrefix]
  unfold ReadsPart
  rw [readStream_afterHeader h, splitLines_line hline.single, readLines]
  split
  · exact .inl rfl
  · rw [hline.text, dispatch, if_neg hne, h.data, sseField_dataLine, SseFrameState.accept]
    split
    · rename_i haccept
      split at haccept
      · cases haccept
      · cases haccept
        simp only [splitLines, readLines, readEnd_core (storeSink now) (List.forall_mem_nil _)]
        refine .inr ⟨_, _, rfl, ?_, rfl⟩
        have hpart := PartOf.data (t := t) (g := g) (v := v)
          (headerText g v ++ (dataLine (stringify t g.data) ++ [0x0A]))
            (stringify t g.data) List.prefix_rfl
        rw [h.data] at hpart
        simpa [SseFrameState.triple, namedFrame, List.intercalate] using hpart
    · rename_i haccept
      split at haccept
      · cases haccept
        exact .inl rfl
      · cases haccept

theorem readStream_whole (h : Framed g v fields) (st : Store) :
    ReadsPart t now st g v (sseText t g) := by
  have hread := readStream_frame (storeSink now) t h [] st
  rw [List.append_nil] at hread
  split at hread
  · exact .inl (congrArg (storeCore ∘ Prod.fst) hread)
  · refine .inr ⟨(storeSink now).touch^[4] st,
      { namedFrame g v with dataLines := [stringify t g.data] }, rfl, ?_, ?_⟩
    · have hpart :=
        PartOf.data (t := t) (g := g) (v := v) (sseText t g) (stringify t g.data) List.prefix_rfl
      simpa [SseFrameState.triple, namedFrame, List.intercalate] using hpart
    · rw [hread, flushFrame]
      have htriple : SseFrameState.triple { namedFrame g v with dataLines := [stringify t g.data] } =
          frameTriple t g := by
        simp [SseFrameState.triple, namedFrame, frameTriple, h.id, List.intercalate]
      have htouch : (storeSink now).touch ((storeSink now).touch^[4] st) =
          (storeSink now).touch^[5] st := rfl
      rw [htriple, htouch]
      cases (storeSink now).flush ((storeSink now).touch^[5] st) (frameTriple t g) <;> rfl

theorem readStream_prefix (h : Framed g v fields) (hq : q <+: sseText t g) (st : Store) :
    ReadsPart t now st g v q := by
  have htext : ∀ r, headerText g v ++ r =
      idLine v ++ 0x0A :: (eventLine g.event ++ 0x0A :: r) := by
    simp [headerText]
  rw [sseText_header t h, htext] at hq
  rcases isPrefix_line hq with hid | ⟨q₂, h₂, rfl⟩
  · exact .inl (readStream_cut_id hid st)
  · rcases isPrefix_line h₂ with hevent | ⟨q₃, h₃, rfl⟩
    · exact readStream_cut_event h hevent st
    · rw [← htext]
      rcases isPrefix_line h₃ with hdata | ⟨q₄, h₄, rfl⟩
      · exact readStream_cut_data h hdata st
      · cases q₄ with
        | nil => exact readStream_cut_blank h st
        | cons c rest =>
          rw [List.cons_prefix_cons, List.prefix_nil] at h₄
          rw [h₄.1, h₄.2, ← sseText_header t h]
          exact readStream_whole h st

/-! An event that is cut. -/

theorem flushFrame_core_of_data (he : Durable e) (hst : storeCore st' = storeCore st) {d : Bytes}
    (hd : d <+: stringify t e.payload)
    (hf : f.triple = ⟨Json.intText e.syncVersion, utf8 e.eventType.text, d⟩) :
    AppliesOrStays t now st e (storeCore (flushFrame (storeSink now) st' f).1) := by
  obtain ⟨fields, hfields⟩ := he.payload
  obtain ⟨rest, hrest⟩ := hd
  rcases eq_or_ne rest [] with rfl | hne
  · rw [List.append_nil] at hrest
    exact flushFrame_core_of_whole he hst (by rw [hf, hrest]; rfl)
  · left
    rw [hfields] at hrest
    rw [flushFrame_core_of_half he st' hf (Json.parse_cut Json.jsEscaper t hrest hne), hst]

/-- What a read makes of the first bytes of an event. -/
def CutOutcome (t : Json.FracText) (now : Time) (st : Store) (e : SyncEventRow) (q : Bytes) : Prop :=
  AppliesOrStays t now st e (storeCore (readStream (storeSink now) q st).1) ∨
    ∃ m, 0 < m ∧ m < (utf8 e.eventType.text).length ∧ q = nameCut e m ∧
      st.highWater < e.syncVersion

theorem readStream_cut (he : Durable e) (hq : q <+: sseText t (eventFrame e)) (st : Store) :
    CutOutcome t now st e q := by
  obtain ⟨fields, hframed, -⟩ := framed_event he
  rcases readStream_prefix hframed hq st with hstay | ⟨st', f, hst, hpart, hread⟩
  · exact .inl (.inl hstay)
  · generalize htriple : f.triple = triple at hpart
    cases hpart with
    | name m hpos hm =>
      rcases Int.lt_or_le st.highWater e.syncVersion with hlt | hle
      · exact .inr ⟨m, hpos, hm, rfl, hlt⟩
      · exact .inl (.inl ((readStream_nameCut he hpos hm st).trans (if_neg (not_lt.mpr hle))))
    | data q d hd =>
      left
      rw [hread]
      exact flushFrame_core_of_data he hst hd htriple

/-! ## The frames before the cut -/

/-- The reader accepts the frame of the event and applies it. -/
def ReadAs (t : Json.FracText) (now : Time) (st : Store) (e : SyncEventRow) (whole : Store) : Prop :=
  dataLineBytes t (eventFrame e) ≤ maxSSELineBytes ∧ applyDurable t now st e = .ok whole

theorem readStream_event_applied (he : Durable e) {whole : Store} (h : ReadAs t now st e whole) :
    ∃ st', storeCore st' = storeCore whole ∧ ∀ rest, readStream (storeSink now)
      (sseText t (eventFrame e) ++ rest) st =
        readStream (storeSink now) rest st' := by
  obtain ⟨fields, hframed, -⟩ := framed_event he
  have htouch : storeCore st = storeCore ((storeSink now).touch^[5] st) := rfl
  have hcore := applyDurable_core t now htouch e
  rw [h.2] at hcore
  obtain ⟨st', happly, heq⟩ := map_eq_ok.mp hcore.symm
  have hflush : (storeSink now).flush ((storeSink now).touch^[5] st) (frameTriple t (eventFrame e)) =
      .ok st' := by
    refine (flushStore_whole t now he _).trans ?_
    rw [happly]
    rfl
  refine ⟨st', heq, fun rest => ?_⟩
  rw [readStream_frame _ t hframed, if_neg (not_lt.mpr h.1), hflush]

theorem readStream_event_refused (he : Durable e) (h : ¬ ∃ whole, ReadAs t now st e whole) :
    ∃ st' err, storeCore st' = storeCore st ∧ ∀ rest, readStream (storeSink now)
      (sseText t (eventFrame e) ++ rest) st =
        (st', some err) := by
  obtain ⟨fields, hframed, -⟩ := framed_event he
  have htouch : storeCore ((storeSink now).touch^[5] st) = storeCore st := rfl
  rcases Nat.lt_or_ge maxSSELineBytes (dataLineBytes t (eventFrame e)) with hlong | hfits
  · refine ⟨(storeSink now).touch ((storeSink now).touch st), lineError, rfl, fun rest => ?_⟩
    rw [readStream_frame _ t hframed, if_pos hlong]
  · cases happly : applyDurable t now ((storeSink now).touch^[5] st) e with
    | error err =>
      obtain ⟨err', hflush⟩ : ∃ err', (storeSink now).flush ((storeSink now).touch^[5] st)
          (frameTriple t (eventFrame e)) = .error err' :=
        ⟨_, (flushStore_whole t now he _).trans (by rw [happly]; rfl)⟩
      refine ⟨(storeSink now).touch^[5] st, err', htouch, fun rest => ?_⟩
      rw [readStream_frame _ t hframed, if_neg (not_lt.mpr hfits), hflush]
    | ok st' =>
      have hcore := applyDurable_core t now htouch e
      rw [happly] at hcore
      obtain ⟨whole, hwhole, -⟩ := map_eq_ok.mp hcore.symm
      exact absurd ⟨whole, hfits, hwhole⟩ h

theorem foldlM_applyDurable_transfer {a' : Store} (h : storeCore a = storeCore b)
    (ha : events.foldlM (applyDurable t now) a = .ok a') :
    ∃ b', events.foldlM (applyDurable t now) b = .ok b' ∧ storeCore b' = storeCore a' := by
  have hcore := foldlM_applyDurable_core t now events h
  rw [ha] at hcore
  exact map_eq_ok.mp hcore.symm

theorem readStream_events_applied (hpre : ∀ e ∈ pre, Durable e)
    (hfits : ∀ e ∈ pre, dataLineBytes t (eventFrame e) ≤ maxSSELineBytes)
    (h : pre.foldlM (applyDurable t now) store = .ok ideal) :
    ∃ st, storeCore st = storeCore ideal ∧ ∀ rest, readStream (storeSink now)
      (eventsText t pre ++ rest) store =
        readStream (storeSink now) rest st := by
  induction pre generalizing store ideal with
  | nil =>
    cases h
    exact ⟨store, rfl, fun rest => rfl⟩
  | cons e pre ih =>
    rw [List.forall_mem_cons] at hpre hfits
    obtain ⟨whole, hwhole, hrest⟩ := bind_eq_ok.mp h
    obtain ⟨mid, hmid, hread⟩ := readStream_event_applied hpre.1 ⟨hfits.1, hwhole⟩
    obtain ⟨ideal', hideal, heq⟩ := foldlM_applyDurable_transfer hmid.symm hrest
    obtain ⟨st, hst, hreads⟩ := ih hpre.2 hfits.2 hideal
    refine ⟨st, hst.trans heq, fun rest => ?_⟩
    rw [eventsText, List.flatMap_cons, List.append_assoc, hread]
    exact hreads rest

/-- The frames before the cut are all applied, or the read ends in one of them. -/
theorem readStream_events (hpre : ∀ e ∈ pre, Durable e) (store : Store) :
    (∃ ideal, (∀ e ∈ pre, dataLineBytes t (eventFrame e) ≤ maxSSELineBytes) ∧
        pre.foldlM (applyDurable t now) store = .ok ideal) ∨
      ∃ done ideal st err, done <+: pre ∧ done.foldlM (applyDurable t now) store = .ok ideal ∧
        storeCore st = storeCore ideal ∧
        ∀ rest, readStream (storeSink now) (eventsText t pre ++ rest) store = (st, some err) := by
  induction pre generalizing store with
  | nil => exact .inl ⟨store, by simp, rfl⟩
  | cons e pre ih =>
    rw [List.forall_mem_cons] at hpre
    have htext : ∀ rest, eventsText t (e :: pre) ++ rest =
        sseText t (eventFrame e) ++ (eventsText t pre ++ rest) := by
      simp [eventsText]
    by_cases hread : ∃ whole, ReadAs t now store e whole
    · obtain ⟨whole, hwhole⟩ := hread
      obtain ⟨mid, hmid, hreads⟩ := readStream_event_applied hpre.1 hwhole
      rcases ih hpre.2 mid with
        ⟨ideal, hfits, hideal⟩ | ⟨done, ideal, st, err, hdone, hideal, hst, hstop⟩
      · obtain ⟨ideal', hideal', -⟩ := foldlM_applyDurable_transfer hmid hideal
        exact .inl ⟨ideal', List.forall_mem_cons.mpr ⟨hwhole.1, hfits⟩,
          bind_eq_ok.mpr ⟨whole, hwhole.2, hideal'⟩⟩
      · obtain ⟨ideal', hideal', heq⟩ := foldlM_applyDurable_transfer hmid hideal
        refine .inr ⟨e :: done, ideal', st, err, List.cons_prefix_cons.mpr ⟨rfl, hdone⟩,
          bind_eq_ok.mpr ⟨whole, hwhole.2, hideal'⟩, hst.trans heq.symm, fun rest => ?_⟩
        rw [htext, hreads, hstop]
    · obtain ⟨st, err, hst, hstop⟩ := readStream_event_refused hpre.1 hread
      exact .inr ⟨[], store, st, err, List.nil_prefix, rfl, hst, fun rest => by rw [htext, hstop]⟩

/-! ## A body that ends anywhere -/

theorem isPrefix_eventsText (h : body <+: eventsText t events) : body = eventsText t events ∨
      ∃ pre e post q, events = pre ++ e :: post ∧ body = eventsText t pre ++ q ∧
        q <+: sseText t (eventFrame e) := by
  induction events generalizing body with
  | nil => exact .inl (List.prefix_nil.mp h)
  | cons e events ih =>
    rw [eventsText, List.flatMap_cons] at h
    rcases isPrefix_append h with hcut | ⟨r, -, hr, rfl⟩
    · exact .inr ⟨[], e, events, body, rfl, rfl, hcut⟩
    · rcases ih hr with rfl | ⟨pre, x, post, q, rfl, rfl, hcut⟩
      · exact .inl rfl
      · refine .inr ⟨e :: pre, x, post, q, rfl, ?_, hcut⟩
        rw [eventsText, eventsText, List.flatMap_cons, List.append_assoc]

theorem reflects_of_core {done : List SyncEventRow} (hevents : ∀ e ∈ events, Durable e)
    (hdone : done <+: events)
    (h : done.foldlM (applyDurable t now) store = .ok ideal)
    (hcore : storeCore result = storeCore ideal) :
    Reflects t now store events result := by
  have htake : events.take done.length = done := (List.prefix_iff_eq_take.mp hdone).symm
  have hmark : result.highWater = ideal.highWater := (Prod.mk.inj hcore).2
  refine ⟨done.length, ideal, by rw [htake]; exact h, hcore, ?_⟩
  rw [hmark, htake]
  rcases foldlM_applyDurable_mark (fun e he => hevents e (hdone.subset he)) h with rfl | ⟨-, hlast⟩
  · exact .inl rfl
  · exact .inr hlast

theorem AppliesOrStays.congr (hst : storeCore st = storeCore ideal) {core : Option Snapshot × Int}
    (h : AppliesOrStays t now st e core) :
    AppliesOrStays t now ideal e core := by
  rcases h with hstay | ⟨whole, hwhole, hcore⟩
  · exact .inl (hstay.trans hst)
  · have htransfer := applyDurable_core t now hst e
    rw [hwhole] at htransfer
    obtain ⟨whole', hwhole', heq⟩ := map_eq_ok.mp htransfer.symm
    exact .inr ⟨whole', hwhole', hcore.trans heq.symm⟩

theorem advanced_congr (h : storeCore st = storeCore ideal) (v : Int) :
    advanced st v = advanced ideal v := by
  rw [advanced, advanced, (Prod.mk.inj h).1]

theorem reflects_of_appliesOrStays {post : List SyncEventRow}
    (hevents : ∀ x ∈ pre ++ e :: post, Durable x)
    (hpre : pre.foldlM (applyDurable t now) store = .ok ideal)
    (h : AppliesOrStays t now ideal e (storeCore result)) :
    Reflects t now store (pre ++ e :: post) result := by
  rcases h with hstay | ⟨whole, hwhole, hcore⟩
  · exact reflects_of_core hevents (List.prefix_append _ _) hpre hstay
  · have hone : (pre ++ [e]).foldlM (applyDurable t now) store = .ok whole := by
      rw [List.foldlM_append]
      exact bind_eq_ok.mpr ⟨ideal, hpre, bind_eq_ok.mpr ⟨whole, hwhole, rfl⟩⟩
    have hdone : pre ++ [e] <+: pre ++ e :: post := by simp
    exact reflects_of_core hevents hdone hone hcore

theorem reflects_of_not_nameCut (hevents : ∀ e ∈ events, Durable e)
    (hbody : body <+: eventsText t events) (h : ¬ NameCut t now store events body) :
    Reflects t now store events (readStream (storeSink now) body store).1 := by
  rcases isPrefix_eventsText hbody with rfl | ⟨pre, e, post, q, rfl, rfl, hq⟩
  · rw [← List.append_nil (eventsText t events)]
    rcases readStream_events hevents store with
      ⟨ideal, hfits, hideal⟩ | ⟨done, ideal, st, err, hdone, hideal, hst, hstop⟩
    · obtain ⟨st, hst, hread⟩ := readStream_events_applied hevents hfits hideal
      refine reflects_of_core hevents List.prefix_rfl hideal ?_
      rw [hread]
      exact (readStream_cut_id (List.nil_prefix (l := idLine 0)) st).trans hst
    · rw [hstop]
      exact reflects_of_core hevents hdone hideal hst
  · have hpre : ∀ x ∈ pre, Durable x := fun x hx => hevents x (by simp [hx])
    rcases readStream_events hpre store with
      ⟨ideal, hfits, hideal⟩ | ⟨done, ideal, st, err, hdone, hideal, hst, hstop⟩
    · obtain ⟨st, hst, hread⟩ := readStream_events_applied hpre hfits hideal
      have he : Durable e := hevents e (by simp)
      rw [hread]
      rcases readStream_cut he hq st with happlies | ⟨m, hpos, hm, rfl, hmark⟩
      · exact reflects_of_appliesOrStays hevents hideal (happlies.congr hst)
      · -- The cut is inside a name; the event must say no more than its version.
        by_contra hnot
        have hideal_mark : ideal.highWater < e.syncVersion := (Prod.mk.inj hst).2 ▸ hmark
        refine h ⟨pre, e, post, m, ideal, rfl, rfl, hpos, hm, hfits, hideal, hideal_mark, ?_⟩
        rintro ⟨whole, hwhole, hcore⟩
        refine hnot (reflects_of_appliesOrStays hevents hideal (.inr ⟨whole, hwhole, ?_⟩))
        rw [readStream_nameCut he hpos hm, if_pos hmark, hcore, advanced_congr hst]
    · rw [hstop]
      exact reflects_of_core hevents (hdone.trans (List.prefix_append _ _)) hideal hst

/-- A cut inside the name of a new event moves the mark past an event that is not applied. -/
theorem not_reflects_of_nameCut (hevents : ∀ e ∈ events, Durable e)
    (h : NameCut t now store events body) :
    ¬ Reflects t now store events (readStream (storeSink now) body store).1 := by
  obtain ⟨pre, e, post, m, st, rfl, rfl, hpos, hm, hfits, hst, hmark, hmore⟩ := h
  have hpre : ∀ x ∈ pre, Durable x := fun x hx => hevents x (by simp [hx])
  have hpost : ∀ x ∈ post, Durable x := fun x hx => hevents x (by simp [hx])
  obtain ⟨st', hst', hread⟩ := readStream_events_applied hpre hfits hst
  have hresult : storeCore (readStream (storeSink now) (eventsText t pre ++ nameCut e m) store).1 =
      advanced st e.syncVersion := by
    rw [hread, readStream_nameCut (hevents e (by simp)) hpos hm, (Prod.mk.inj hst').2, if_pos hmark,
      advanced_congr hst']
  rintro ⟨k, ideal, hideal, hcore, -⟩
  rw [hresult] at hcore
  have hversion : ideal.highWater = e.syncVersion := (Prod.mk.inj hcore).2.symm
  rcases Nat.lt_or_ge pre.length k with hlt | hle
  · -- The events up to the cut one are applied: the mark is at its version from then on.
    obtain ⟨j, rfl⟩ : ∃ j, k = pre.length + (j + 1) := ⟨k - pre.length - 1, by omega⟩
    rw [List.take_length_add_append, List.take_succ_cons, List.foldlM_append, hst] at hideal
    obtain ⟨whole, hwhole, hrest⟩ := bind_eq_ok.mp
      (show (e :: post.take j).foldlM (applyDurable t now) st = .ok ideal from hideal)
    have hwhole_mark : whole.highWater = e.syncVersion := by
      rcases applyDurable_eq_ok (hevents e (by simp)) hwhole with ⟨-, hle⟩ | ⟨-, hmark'⟩
      · exact absurd hle (not_le.mpr hmark)
      · exact hmark'
    rcases foldlM_applyDurable_mark (fun x hx => hpost x (List.mem_of_mem_take hx)) hrest with
      rfl | ⟨hlt', -⟩
    · exact hmore ⟨ideal, hwhole, hcore.symm⟩
    · rw [hversion, hwhole_mark] at hlt'
      exact lt_irrefl _ hlt'
  · -- Fewer events are applied: the mark is not past the last of them.
    rw [List.take_append_of_le_length hle] at hideal
    rw [← List.take_append_drop k pre, List.foldlM_append, hideal] at hst
    have hgrow := foldlM_applyDurable_mark (fun x hx => hpre x (List.mem_of_mem_drop hx)) hst
    have hle' : ideal.highWater ≤ st.highWater := by
      rcases hgrow with rfl | ⟨hlt', -⟩
      · exact le_rfl
      · exact hlt'.le
    exact absurd (hversion ▸ hle') (not_le.mpr hmark)

/-- However the stream ends, the store reflects a prefix of the events, unless it ends inside an
event name. -/
theorem readStream_reflects_iff (t : Json.FracText) (now : Time) (store : Store)
    (events : List SyncEventRow) (hevents : ∀ e ∈ events, Durable e) (body : Bytes)
    (hbody : body <+: eventsText t events) :
    Reflects t now store events (readStream (storeSink now) body store).1 ↔
      ¬ NameCut t now store events body :=
  ⟨fun h hcut => not_reflects_of_nameCut hevents hcut h, reflects_of_not_nameCut hevents hbody⟩

end Cut

variable {e : SyncEventRow}

theorem isPrefix_nameCut (t : Json.FracText) (he : Durable e) (m : Nat) :
    nameCut e m <+: sseText t (eventFrame e) := by
  obtain ⟨fields, hframed, -⟩ := framed_event he
  rw [sseText_header t hframed, headerText, nameCut, List.append_assoc, List.prefix_append_right_inj,
    List.cons_append, List.cons_prefix_cons, eventLine]
  refine ⟨rfl, ?_⟩
  rw [List.append_assoc, List.append_assoc, List.prefix_append_right_inj]
  exact (List.take_prefix _ _).trans (List.prefix_append _ _)

theorem durable_denyEvent (s : String) : Durable (denyEvent s) where
  payload := ⟨_, rfl⟩
  pos := by rw [denyEvent_version]; decide
  hi := by rw [denyEvent_version]; decide

theorem readStream_reflects_iff_denyEvent :
    Reflects centText 0 {} [denyEvent "evil"]
        (readStream (storeSink 0) (nameCut (denyEvent "evil") 1) {}).1 ↔
      ¬ NameCut centText 0 {} [denyEvent "evil"] (nameCut (denyEvent "evil") 1) :=
  readStream_reflects_iff centText 0 {} [denyEvent "evil"]
    (by simpa using durable_denyEvent "evil") _
    (by simpa [eventsText] using isPrefix_nameCut centText (durable_denyEvent "evil") 1)

theorem applyDurable_policy {t : Json.FracText} {now : Time} {st whole : Store} (he : Durable e)
    (htype : e.eventType = .policyReplace) (hmark : st.highWater < e.syncVersion)
    (h : applyDurable t now st e = .ok whole) : ∃ pol, whole.activePolicy = some pol := by
  have hname : e.eventType.text = "policy.replace" := by rw [htype]; rfl
  rw [applyDurable_eq, hname, applyEvent_of_lt st now _ _ _ he.pos hmark] at h
  obtain ⟨next, hnext, rfl⟩ := map_eq_ok.mp h
  obtain ⟨change, hchange, rfl⟩ := map_eq_ok.mp hnext
  obtain ⟨pol, -, hpol⟩ := bind_eq_ok.mp (show (parsePolicyPayload _ >>= fun pol =>
      Except.ok (SyncChange.setPolicy pol)) = .ok change from hchange)
  cases hpol
  exact ⟨pol, rfl⟩

/-- The stream ends after the `p` of `policy.replace`: the edge has no policy, and asks for the
events after it when it reconnects. -/
theorem readStream_skips_policy :
    ∃ body, body <+: eventsText centText [denyEvent "evil"] ∧
      (readStream (storeSink 0) body {}).1.activePolicy = none ∧
      (readStream (storeSink 0) body {}).1.highWater = (denyEvent "evil").syncVersion ∧
      ¬ Reflects centText 0 {} [denyEvent "evil"] (readStream (storeSink 0) body {}).1 := by
  have he := durable_denyEvent "evil"
  have hcore : storeCore (readStream (storeSink 0) (nameCut (denyEvent "evil") 1) {}).1 = _ :=
    readStream_nameCut he (by decide) (by decide) {}
  rw [if_pos he.pos] at hcore
  obtain ⟨hsnap, hmark⟩ := Prod.mk.inj hcore
  refine ⟨nameCut (denyEvent "evil") 1, ?_, ?_, hmark, ?_⟩
  · simpa [eventsText] using isPrefix_nameCut centText he 1
  · rw [Store.activePolicy, hsnap]
    rfl
  · refine not_reflects_of_nameCut (by simpa using he) ⟨[], denyEvent "evil", [], 1, {}, rfl, rfl,
      by decide, by decide, by simp, rfl, he.pos, ?_⟩
    rintro ⟨whole, hwhole, hadvanced⟩
    obtain ⟨pol, hpol⟩ := applyDurable_policy he rfl he.pos hwhole
    rw [Store.activePolicy, (Prod.mk.inj hadvanced).1] at hpol
    cases hpol

end Verilink.Sync

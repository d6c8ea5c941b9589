import Verilink.Edge.StoreMemory
import Verilink.Sync.SseCut

/-!
# The two ends of a stream

The control plane's database and one edge of a tenant. The edge reads the text of the frames; the
body of a session may end after any byte, and the read may fail.
-/

namespace Verilink.Sync

open Verilink.Framework Verilink.ControlPlane Verilink.Edge Text

/-- Where the edge is in `Run`: between sessions, answered with 429, or reading a stream. -/
inductive Phase
  | idle
  | recovering
  | streaming (s : SseSession)

/-- The control plane's database and one edge of a tenant. `base` is the snapshot the edge
last loaded. -/
structure Link where
  db : Database
  store : Store
  phase : Phase
  base : Snapshot

/-- `close` is the end of the body, after the bytes `cut` of the next frame; `disconnect` is any
other error of the read, which drops them. -/
inductive Action
  | append (eventType : SyncEventType) (fields : List (String × Json)) (principalId : Option String)
      (tenantId : Option Uuid)
  | connect
  | recover (now : Timestamp) (t : Time)
  | poll
  | deliver (t : Time)
  | close (t : Time) (cut : Bytes)
  | disconnect

/-- The text that the session sends next. -/
def SseSession.pending (ft : Json.FracText) (s : SseSession) : Bytes :=
  match s.nextFrame with
  | some (f, _) => sseText ft f
  | none => []

namespace Link

variable (cfg : SseConfig) (ft : Json.FracText) (tenantId : Uuid)

def connect (l : Link) : Link :=
  let batch := l.db.getInitialBatchWithHighWater l.store.highWater tenantId cfg.maxInitialBatch
  if batch.backlogExceeded then { l with phase := .recovering }
  else { l with phase := .streaming (SseSession.start cfg batch.events batch.highWater) }

/-- `recoverSnapshot`: the store is replaced only by a snapshot that parses. -/
def recover (l : Link) (now : Timestamp) (t : Time) : Link :=
  match parseSnapshotJSON (l.db.getSnapshot tenantId now).body with
  | .error _ => { l with phase := .idle }
  | .ok snap => { l with store := applySnapshot l.store t snap, base := snap, phase := .idle }

/-- Between two frames the reader holds nothing, so it reads each as if the body ended after it. -/
def receive (l : Link) (t : Time) (f : SseFrame) (rest : SseSession) : Link :=
  match readStream (storeSink t) (sseText ft f) l.store with
  | (store, none) => { l with store := store, phase := .streaming rest }
  | (store, some _) => { l with store := store, phase := .idle }

def close (l : Link) (t : Time) (cut : Bytes) : Link :=
  { l with store := (readStream (storeSink t) cut l.store).1, phase := .idle }

def step (l : Link) (a : Action) : Option Link :=
  match a, l.phase with
  | .append eventType fields principalId eventTenant, _ =>
    match l.db.appendEventWithClient eventType (.obj fields) principalId eventTenant with
    | .error _ => none
    | .ok (db, _) => some { l with db := db }
  | .connect, .idle => some (l.connect cfg tenantId)
  | .recover now t, .recovering => some (l.recover tenantId now t)
  | .poll, .streaming s =>
    if s.aborted then none
    else some { l with phase := .streaming (s.poll cfg l.db tenantId) }
  | .deliver t, .streaming s =>
    s.nextFrame.map fun (f, rest) => l.receive ft t f rest
  | .close t cut, .streaming s => if cut <+: s.pending ft then some (l.close t cut) else none
  | .disconnect, _ => some { l with phase := .idle }
  | _, _ => none

end Link

def streaming (cfg : SseConfig) (ft : Json.FracText) (tenantId : Uuid) : System Link Action where
  init l := (l.db.LogOrdered ∧ ∀ e ∈ l.db.syncEvents.rows, Durable e) ∧ l.phase = .idle ∧
    l.store.snapshot = some l.base ∧ l.store.highWater = l.base.highWaterVersion ∧
    0 ≤ l.base.highWaterVersion ∧ l.base.highWaterVersion ≤ l.db.highWater
  step l a l' := l.step cfg ft tenantId a = some l'

/-! ## Stores with the same scores, keys and policy -/

def SameState (a b : Store) : Prop :=
  (cloneSnapshot a.snapshot).scores = (cloneSnapshot b.snapshot).scores ∧
  (cloneSnapshot a.snapshot).keys = (cloneSnapshot b.snapshot).keys ∧
  a.activePolicy = b.activePolicy

variable {a b c a' st : Store} {e : SyncEventRow} {t : Json.FracText} {now : Time} {v : Int}

theorem SameState.symm (h : SameState a b) : SameState b a := ⟨h.1.symm, h.2.1.symm, h.2.2.symm⟩

theorem SameState.trans (h : SameState a b) (h' : SameState b c) : SameState a c :=
  ⟨h.1.trans h'.1, h.2.1.trans h'.2.1, h.2.2.trans h'.2.2⟩

theorem sameState_of_core (h : storeCore a = storeCore b) : SameState a b := by
  have hsnap : a.snapshot = b.snapshot := (Prod.mk.inj h).1
  simp [SameState, Store.activePolicy, hsnap]

theorem activePolicy_eq (s : Store) : s.activePolicy = (cloneSnapshot s.snapshot).policy := by
  cases h : s.snapshot <;> simp [Store.activePolicy, cloneSnapshot, h]

theorem sameState_of_advanced (h : storeCore a = advanced b v) : SameState a b := by
  have hsnap : a.snapshot = some { cloneSnapshot b.snapshot with highWaterVersion := v } :=
    (Prod.mk.inj h).1
  rw [SameState, activePolicy_eq, activePolicy_eq, hsnap]
  exact ⟨rfl, rfl, rfl⟩

/-- What an event changes does not depend on the store, so stores that agree still agree after it.
-/
theorem SameState.applyDurable (h : SameState a b) (now' : Time) (he : Durable e)
    (ha : a.highWater < e.syncVersion)
    (hb : b.highWater < e.syncVersion) (happly : applyDurable t now a e = .ok a') :
    ∃ b', Sync.applyDurable t now' b e = .ok b' ∧ SameState a' b' ∧ a'.highWater = e.syncVersion ∧
      b'.highWater = e.syncVersion := by
  rw [Sync.applyDurable, applyEventRaw_of_lt _ _ _ _ he.pos ha] at happly
  obtain ⟨change, hchange, rfl⟩ := map_eq_ok.mp happly
  obtain ⟨hscores, hkeys, hpolicy⟩ := h
  rw [activePolicy_eq, activePolicy_eq] at hpolicy
  have happly' : Sync.applyDurable t now' b e =
      .ok ((b.swap { change.apply (cloneSnapshot b.snapshot) with
      highWaterVersion := e.syncVersion }).noteBytes now') := by
    rw [Sync.applyDurable, applyEventRaw_of_lt _ _ _ _ he.pos hb, hchange]
    rfl
  refine ⟨_, happly', ?_, rfl, rfl⟩
  rw [SameState, activePolicy_eq, activePolicy_eq]
  show (change.apply _).scores = (change.apply _).scores ∧
      (change.apply _).keys = (change.apply _).keys ∧
    (change.apply _).policy = (change.apply _).policy
  cases change <;> simp [SyncChange.apply, hscores, hkeys, hpolicy]

/-! ## Events -/

theorem readStream_event (t : Json.FracText) (now : Time) (he : Durable e) (st : Store) :
    (∃ st' whole, readStream (storeSink now) (sseText t (eventFrame e)) st = (st', none) ∧
        applyDurable t now st e = .ok whole ∧ storeCore st' = storeCore whole) ∨
      ∃ st' err, readStream (storeSink now) (sseText t (eventFrame e)) st = (st', some err) ∧
        storeCore st' = storeCore st := by
  by_cases hread : ∃ whole, ReadAs t now st e whole
  · obtain ⟨whole, hwhole⟩ := hread
    obtain ⟨st', hcore, hread⟩ := readStream_event_applied he hwhole
    have htext := hread []
    rw [List.append_nil] at htext
    exact .inl ⟨_, whole, htext, hwhole.2, hcore⟩
  · obtain ⟨st', err, hcore, hread⟩ := readStream_event_refused he hread
    have htext := hread []
    rw [List.append_nil] at htext
    exact .inr ⟨st', err, htext, hcore⟩

/-! ## Cursor frames -/

variable {q : Bytes}

theorem framed_cursor (hlo : 0 ≤ v) (hhi : v < 2 ^ 63) : Framed (cursorFrame v) v [] :=
  ⟨rfl, hlo, hhi, show "cursor" ∈ eventNames by decide, rfl⟩

theorem advanceHighWater_mark (st : Store) (v : Int) :
    (st.advanceHighWater v).snapshot = st.snapshot ∧
      ((st.advanceHighWater v).highWater = st.highWater ∨
        st.highWater < v ∧ (st.advanceHighWater v).highWater = v) := by
  unfold Store.advanceHighWater
  split_ifs with hskip
  · exact ⟨rfl, .inl rfl⟩
  · exact ⟨rfl, .inr ⟨not_le.mp (not_or.mp hskip).2, rfl⟩⟩

theorem flushStore_cursor (hlo : 0 ≤ v) (hhi : v < 2 ^ 63) (now : Time) (st : Store) (data : Bytes) :
    flushStore now st ⟨Json.intText v, utf8 "cursor", data⟩ = .ok (advanceCursor st now v) := by
  simp only [flushStore, show utf8 "cursor" ≠ [] by decide,
    show utf8 "cursor" ≠ utf8 "shutdown" by decide, if_false, if_true, parseID_intText hlo hhi]

/-- However much of a cursor frame is read, only the mark moves, and only to its version. -/
theorem readStream_cursor_prefix (now : Time) (hlo : 0 ≤ v) (hhi : v < 2 ^ 63)
    (hq : q <+: sseText t (cursorFrame v)) (st : Store) :
    SameState (readStream (storeSink now) q st).1 st ∧
      ((readStream (storeSink now) q st).1.highWater = st.highWater ∨
        st.highWater < v ∧ (readStream (storeSink now) q st).1.highWater = v) := by
  have hframed := framed_cursor hlo hhi
  rcases readStream_prefix hframed hq st with hstay | ⟨st', f, hst, hpart, hread⟩
  · exact ⟨sameState_of_core hstay, .inl (Prod.mk.inj hstay).2⟩
  · generalize htriple : f.triple = triple at hpart
    have hmark : st'.highWater = st.highWater := (Prod.mk.inj hst).2
    cases hpart with
    | name m hpos hm =>
      rw [flushFrame_core_of_part hframed st' hpos hm htriple] at hread
      split_ifs at hread with hnew
      · rw [advanced_congr hst] at hread
        exact ⟨sameState_of_advanced hread, .inr ⟨hmark ▸ hnew.2, (Prod.mk.inj hread).2⟩⟩
      · rw [hst] at hread
        exact ⟨sameState_of_core hread, .inl (Prod.mk.inj hread).2⟩
    | data q d hd =>
      have hflush := flushStore_cursor hlo hhi now (st'.noteBytes now) d
      rw [flushFrame_core_of_ok (by rw [htriple]; exact hflush)] at hread
      obtain ⟨hsnap, hmoved⟩ := advanceHighWater_mark (st'.noteBytes now) v
      have hsnap' : (readStream (storeSink now) q st).1.snapshot = st.snapshot :=
        ((Prod.mk.inj hread).1.trans hsnap).trans (Prod.mk.inj hst).1
      have hmark' : (readStream (storeSink now) q st).1.highWater =
          ((st'.noteBytes now).advanceHighWater v).highWater :=
        (Prod.mk.inj hread).2
      refine ⟨by simp [SameState, Store.activePolicy, hsnap'], ?_⟩
      rw [hmark', ← hmark]
      exact hmoved

theorem readStream_cursor (t : Json.FracText) (now : Time) (hlo : 0 ≤ st.highWater)
    (hle : st.highWater ≤ v) (hhi : v < 2 ^ 63) :
    ∃ st', readStream (storeSink now) (sseText t (cursorFrame v)) st = (st', none) ∧
      storeCore st' = (st.snapshot, v) := by
  have hread := readStream_frame (storeSink now) t (framed_cursor (hlo.trans hle) hhi) [] st
  have hfits : ¬ maxSSELineBytes < dataLineBytes t (cursorFrame v) := by
    simp [dataLineBytes, cursorFrame, stringify, Json.print, Json.printMembers, dataLine,
      utf8_dataPrefix, maxSSELineBytes]
  have htriple : frameTriple t (cursorFrame v) =
      ⟨Json.intText v, utf8 "cursor", stringify t (.obj [])⟩ := rfl
  have hflush : (storeSink now).flush ((storeSink now).touch^[5] st) (frameTriple t (cursorFrame v)) =
      .ok (advanceCursor ((storeSink now).touch^[5] st) now v) := by
    rw [htriple]
    exact flushStore_cursor (hlo.trans hle) hhi now _ _
  rw [List.append_nil, if_neg hfits, hflush] at hread
  refine ⟨_, hread, ?_⟩
  unfold advanceCursor Store.advanceHighWater
  split_ifs with hskip
  · have hmark : ((storeSink now).touch^[5] st).highWater = st.highWater := rfl
    have hv : st.highWater = v := by omega
    exact congrArg (Prod.mk st.snapshot) hv
  · rfl

/-! ## The shutdown frame -/

def idFree (line : Bytes) : Bool :=
  match sseField line with
  | .id _ => false
  | _ => true

variable {f f' : SseFrameState}

theorem accept_idStr {line : Bytes} (hline : idFree line = true)
    (h : f.accept (sseField line) = .ok f') :
    f'.idStr = f.idStr := by
  unfold idFree at hline
  cases hfield : sseField line with
  | id v => simp [hfield] at hline
  | data v =>
    rw [hfield, SseFrameState.accept] at h
    split_ifs at h
    cases h
    rfl
  | event v => rw [hfield] at h; cases h; rfl
  | comment => rw [hfield] at h; cases h; rfl
  | retry => rw [hfield] at h; cases h; rfl
  | unknown => rw [hfield] at h; cases h; rfl

theorem flushFrame_core_of_idless (st : Store) (hf : f.idStr = []) :
    storeCore (flushFrame (storeSink now) st f).1 = storeCore st := by
  have hid : parseID f.triple.id = none := by
    rw [show f.triple.id = f.idStr from rfl, hf]
    decide
  cases hflush : flushStore now (st.noteBytes now) f.triple with
  | error err => exact flushFrame_core_of_error hflush
  | ok st' =>
    rw [flushFrame_core_of_ok hflush]
    unfold flushStore at hflush
    rw [hid] at hflush
    split_ifs at hflush <;> cases hflush <;> rfl

/-- Without an id nothing is applied. -/
theorem readLines_core_of_idless {lines : List Bytes} {last : Bytes}
    (hlines : ∀ line ∈ lines, lineText line = line ∧ idFree line = true) (hlast : idFree last = true)
    (hge : ∀ b ∈ last, 0x20 ≤ b) (hf : f.idStr = []) (st : Store) :
    storeCore (readLines (storeSink now) lines last st f).1 = storeCore st := by
  induction lines generalizing st f with
  | nil =>
    rw [readLines, readEnd_core _ hge]
    split_ifs
    · rfl
    · exact flushFrame_core_of_idless st hf
    · split
      · next h => exact flushFrame_core_of_idless _ ((accept_idStr hlast h).trans hf)
      · rfl
  | cons line lines ih =>
    obtain ⟨⟨htext, hfree⟩, hlines⟩ := List.forall_mem_cons.mp hlines
    rw [readLines, htext, dispatch]
    split_ifs
    · rfl
    · have hcore : storeCore (flushFrame (storeSink now) ((storeSink now).touch st) f).1 =
          storeCore st :=
        flushFrame_core_of_idless _ hf
      unfold flushFrame at hcore ⊢
      cases hflush : (storeSink now).flush _ f.triple with
      | error err => rfl
      | ok st' =>
        rw [hflush] at hcore
        exact (ih hlines rfl st').trans hcore
    · cases haccept : f.accept (sseField line) with
      | error err => rfl
      | ok f' => exact ih hlines ((accept_idStr hfree haccept).trans hf) _

theorem readStream_shutdown_prefix (now : Time) (hq : q <+: sseText t shutdownFrame) (st : Store) :
    storeCore (readStream (storeSink now) q st).1 = storeCore st := by
  have htext : sseText t shutdownFrame = utf8 "event: shutdown\ndata: \x7b\x7d\n\n" := rfl
  have hall : ∀ q ∈ (utf8 "event: shutdown\ndata: \x7b\x7d\n\n").inits,
      (∀ line ∈ (splitLines q).1, lineText line = line ∧ idFree line = true) ∧
        idFree (splitLines q).2 = true ∧ ∀ b ∈ (splitLines q).2, 0x20 ≤ b := by
    decide +kernel
  obtain ⟨hlines, hlast, hge⟩ := hall q ((List.mem_inits q _).mpr (htext ▸ hq))
  exact readLines_core_of_idless hlines hlast hge rfl st

end Verilink.Sync

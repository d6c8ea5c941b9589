import Verilink.Framework.LogWindow
import Verilink.Sync.StreamLink

/-!
# What an edge has seen of the log

The edge should hold, at high-water mark `V`, its last snapshot with every visible event up to `V`
applied.
-/

namespace Verilink.Sync

open Verilink.Framework Verilink.ControlPlane Verilink.Edge Text

abbrev visibleBetween (db : Database) (tenantId : Uuid) (v w : Int) : List SyncEventRow :=
  window SyncEventRow.syncVersion (Database.visibleTo tenantId) db.syncEvents.rows v w

def loaded (base : Snapshot) : Store := Store.swap {} base

/-- A snapshot with the visible events after it, up to version `v`, applied in order. -/
def expectedStore (ft : Json.FracText) (db : Database) (tenantId : Uuid) (base : Snapshot) (v : Int) :
    Except String Store :=
  (visibleBetween db tenantId base.highWaterVersion v).foldlM (applyDurable ft 0) (loaded base)

/-- No visible event at or below the edge's high-water mark was skipped. -/
def Link.InStep (ft : Json.FracText) (tenantId : Uuid) (l : Link) : Prop :=
  ∃ ideal, expectedStore ft l.db tenantId l.base l.store.highWater = .ok ideal ∧
    SameState ideal l.store

/-- The bytes end inside the name of an event that the store would refuse, or that changes what it
holds. -/
def CutsName (ft : Json.FracText) (t : Time) (store : Store) (e : SyncEventRow) (cut : Bytes) : Prop :=
  (∃ m, 0 < m ∧ m < (utf8 e.eventType.text).length ∧ cut = nameCut e m) ∧
    ¬ ∃ whole, applyDurable ft t store e = .ok whole ∧ SameState whole store

/-- A poll finds at most `maxInitialBatch` visible events after the last emitted mark, and the body
of a session does not end inside the name of an event. -/
def Orderly (cfg : SseConfig) (ft : Json.FracText) (tenantId : Uuid) (l : Link) : Action → Prop
  | .poll => ∀ s, l.phase = .streaming s →
      (l.db.eventsSince s.lastEmittedHw tenantId).length ≤ cfg.maxInitialBatch
  | .close t cut => ∀ s e rest, l.phase = .streaming s → s.nextFrame = some (eventFrame e, rest) →
      ¬ CutsName ft t l.store e cut
  | _ => True

variable {db db' : Database}

theorem eventsSince_eq_visibleBetween (h : db.LogOrdered) (since : Int) (tenantId : Uuid) :
    db.eventsSince since tenantId = visibleBetween db tenantId since db.highWater := by
  rw [Database.eventsSince_of_ordered h]
  apply List.filter_congr
  intro e he
  simp [db.le_highWater e he]

def frameText : Frame SyncEventRow → SseFrame
  | .event e => eventFrame e
  | .cursor v => cursorFrame v

/-- From `s` to `s'` the frames `fs` were sent, all of them unless the session aborted. -/
def Sent (fs : List SseFrame) (s s' : SseSession) : Prop :=
  (s.aborted = true → s' = s) ∧
  ∃ done lost, fs = done ++ lost ∧ s'.data = s.data ++ done ∧ (s'.aborted = false → lost = [])

theorem Sent.refl (s : SseSession) :
    Sent [] s s := ⟨fun _ => rfl, [], [], rfl, (List.append_nil _).symm, fun _ => rfl⟩

variable {s : SseSession}

theorem Sent.trans {fs gs : List SseFrame} {s' s'' : SseSession} (h : Sent fs s s')
    (h' : Sent gs s' s'') :
    Sent (fs ++ gs) s s'' := by
  refine ⟨?_, ?_⟩
  · intro habort
    have hs := h.1 habort
    rw [hs] at h'
    exact h'.1 habort
  · obtain ⟨done, lost, hfs, hdata, hall⟩ := h.2
    obtain ⟨done', lost', hgs, hdata', hall'⟩ := h'.2
    cases habort : s'.aborted with
    | true =>
      have hs := h'.1 habort
      refine ⟨done, lost ++ gs, by rw [hfs, List.append_assoc], by rw [hs, hdata], ?_⟩
      intro hfalse
      rw [hs, habort] at hfalse
      cases hfalse
    | false =>
      have hlost := hall habort
      refine ⟨fs ++ done', lost', by rw [hgs, List.append_assoc], ?_, hall'⟩
      rw [hdata', hdata, hfs, hlost, List.append_nil, List.append_assoc]

variable (cfg : SseConfig)

theorem enqueueData_sent (s : SseSession) (f : SseFrame) :
    Sent [f] s (s.enqueueData cfg f) := by
  unfold SseSession.enqueueData
  split_ifs with habort hsize
  · exact ⟨fun _ => rfl, [], [f], rfl, (List.append_nil _).symm, by simp [habort]⟩
  · exact ⟨by simp [habort], [], [f], rfl, (List.append_nil _).symm, by simp⟩
  · exact ⟨by simp [habort], [f], [], rfl, rfl, fun _ => rfl⟩

theorem enqueuePolled_sent (s : SseSession) (e : SyncEventRow) :
    Sent [eventFrame e] s (s.enqueuePolled cfg e) := by
  unfold SseSession.enqueuePolled
  split_ifs with habort hsize
  · exact ⟨fun _ => rfl, [], [eventFrame e], rfl, (List.append_nil _).symm, by simp [habort]⟩
  · exact ⟨by simp [habort], [], [eventFrame e], rfl, (List.append_nil _).symm, by simp⟩
  · exact enqueueData_sent cfg s (eventFrame e)

theorem enqueueCursor_sent (s : SseSession) (v : Int) : Sent [cursorFrame v] s (s.enqueueCursor cfg v) ∧
      ((s.enqueueCursor cfg v).aborted = false → (s.enqueueCursor cfg v).lastEmittedHw = v) := by
  have h := enqueueData_sent cfg s (cursorFrame v)
  unfold SseSession.enqueueCursor
  dsimp only
  split_ifs with habort
  · exact ⟨h, by simp [habort]⟩
  · refine ⟨⟨?_, h.2⟩, fun _ => rfl⟩
    intro hs
    rw [h.1 hs] at habort
    exact absurd hs habort

theorem foldl_sent {α : Type} (frame : α → SseFrame) (send : SseSession → α → SseSession)
    (hsend : ∀ s x, Sent [frame x] s (send s x)) (l : List α) (s : SseSession) :
    Sent (l.map frame) s (l.foldl send s) := by
  induction l generalizing s with
  | nil => exact Sent.refl s
  | cons x l ih => exact (hsend s x).trans (ih (send s x))

/-- The frames of a session lead on from the edge's high-water mark without a gap; unless the
session aborted they end where the next poll starts. -/
def SessionFollows (db : Database) (tenantId : Uuid) (v : Int) (s : SseSession) : Prop :=
  ∃ fs w, s.data = fs.map frameText ∧
    Covers SyncEventRow.syncVersion (Database.visibleTo tenantId) db.syncEvents.rows v fs w ∧
    w ≤ db.highWater ∧ (s.aborted = false → s.lastEmittedHw = w)

variable {tenantId : Uuid} {v : Int} {e : SyncEventRow}

theorem SessionFollows.send_window {u : Int} {s' : SseSession} {fs : List (Frame SyncEventRow)}
    (hlog : db.LogOrdered) (hdata : s.data = fs.map frameText)
    (hcovers : Covers SyncEventRow.syncVersion (Database.visibleTo tenantId) db.syncEvents.rows v fs u)
    (hu : u ≤ db.highWater)
    (hsent : Sent
    ((visibleBetween db tenantId u db.highWater).map eventFrame ++ [cursorFrame db.highWater]) s s')
    (hmark : s'.aborted = false → s'.lastEmittedHw = db.highWater) :
    SessionFollows db tenantId v s' := by
  obtain ⟨-, done, lost, hframes, hdata', hall⟩ := hsent
  have hwindow : Covers SyncEventRow.syncVersion (Database.visibleTo tenantId)
      db.syncEvents.rows u _ db.highWater := covers_window hlog.ascending hu
  have htext : ((visibleBetween db tenantId u db.highWater).map Frame.event ++
      [Frame.cursor db.highWater]).map frameText = done ++ lost := by
    rw [← hframes, List.map_append, List.map_map]
    rfl
  obtain ⟨gs, ls, hsplit, hgs, hls⟩ := List.map_eq_append_iff.mp htext
  rw [hsplit] at hwindow
  obtain ⟨w, hdone, hlost⟩ := covers_append.mp hwindow
  refine ⟨fs ++ gs, w, ?_, covers_append.mpr ⟨u, hcovers, hdone⟩, hlost.le, ?_⟩
  · rw [hdata', hdata, List.map_append, hgs]
  · intro hlive
    rw [hall hlive, List.map_eq_nil_iff] at hls
    rw [hmark hlive]
    rw [hls] at hlost
    exact hlost

theorem sessionFollows_start {since : Int} (cfg : SseConfig) (hlog : db.LogOrdered)
    (hsince : since ≤ db.highWater) :
    SessionFollows db tenantId since
      (SseSession.start cfg (db.eventsSince since tenantId) db.highWater) := by
  rw [eventsSince_eq_visibleBetween hlog]
  have hevents := foldl_sent id (SseSession.enqueueData cfg) (enqueueData_sent cfg)
    ((visibleBetween db tenantId since db.highWater).map eventFrame) {}
  rw [List.map_id] at hevents
  obtain ⟨hcursor, hmark⟩ := enqueueCursor_sent cfg
    (((visibleBetween db tenantId since db.highWater).map eventFrame).foldl
      (SseSession.enqueueData cfg) {}) db.highWater
  have hnone : Covers SyncEventRow.syncVersion (Database.visibleTo tenantId)
      db.syncEvents.rows since [] since := rfl
  exact SessionFollows.send_window hlog rfl hnone hsince (hevents.trans hcursor) hmark

/-- A poll that finds no more than it may send keeps the frames without a gap. -/
theorem SessionFollows.poll {cfg : SseConfig} (h : SessionFollows db tenantId v s) (hlog : db.LogOrdered)
    (hlive : s.aborted = false)
    (hfits : (db.eventsSince s.lastEmittedHw tenantId).length ≤ cfg.maxInitialBatch) :
    SessionFollows db tenantId v (s.poll cfg db tenantId) := by
  obtain ⟨fs, w, hdata, hcovers, hw, hmark⟩ := h
  have hw' := hmark hlive
  have hbatch : db.getPollBatchWithHighWater s.lastEmittedHw tenantId cfg.maxInitialBatch =
      (visibleBetween db tenantId w db.highWater, db.highWater) := by
    unfold Database.getPollBatchWithHighWater Database.fetchEventsAndHighWaterInSnapshot
    rw [List.take_of_length_le hfits, hw', eventsSince_eq_visibleBetween hlog]
  unfold SseSession.poll
  rw [hbatch, hw']
  have hevents := foldl_sent eventFrame (SseSession.enqueuePolled cfg) (enqueuePolled_sent cfg)
    (visibleBetween db tenantId w db.highWater) s
  dsimp only
  split_ifs with hnew
  · obtain ⟨hcursor, hmark'⟩ := enqueueCursor_sent cfg
      ((visibleBetween db tenantId w db.highWater).foldl (SseSession.enqueuePolled cfg) s)
      db.highWater
    exact SessionFollows.send_window hlog hdata hcovers hw (hevents.trans hcursor) hmark'
  · -- Nothing was appended since the last cursor frame.
    have hempty : visibleBetween db tenantId w db.highWater = [] := by
      rw [show db.highWater = w by omega]
      exact window_self _ _
    rw [hempty]
    exact ⟨fs, w, hdata, hcovers, hw, hmark⟩

theorem SessionFollows.append (h : SessionFollows db tenantId v s)
    (hlog : db'.syncEvents.rows = db.syncEvents.rows ++ [e]) (hnew : db.highWater < e.syncVersion)
    (hhw : db.highWater ≤ db'.highWater) :
    SessionFollows db' tenantId v s := by
  obtain ⟨fs, w, hdata, hcovers, hw, hmark⟩ := h
  refine ⟨fs, w, hdata, ?_, hw.trans hhw, hmark⟩
  rw [hlog]
  exact hcovers.append_later e (hw.trans_lt hnew)

/-- The frame that a session sends next leads on from the mark, and so does what is left of the
session. -/
theorem SessionFollows.next {f : SseFrame} {rest : SseSession} (h : SessionFollows db tenantId v s)
    (hnext : s.nextFrame = some (f, rest)) :
    (f = shutdownFrame ∧ SessionFollows db tenantId v rest) ∨
    (∃ e, f = eventFrame e ∧ visibleBetween db tenantId v e.syncVersion = [e] ∧
      SessionFollows db tenantId e.syncVersion rest) ∨
    ∃ u, f = cursorFrame u ∧ (v ≤ u ∧ u ≤ db.highWater) ∧ visibleBetween db tenantId v u = [] ∧
      SessionFollows db tenantId u rest := by
  obtain ⟨fs, w, hdata, hcovers, hw, hmark⟩ := h
  unfold SseSession.nextFrame at hnext
  split_ifs at hnext with hshutdown
  · cases hnext
    exact .inl ⟨rfl, fs, w, hdata, hcovers, hw, hmark⟩
  · cases fs with
    | nil => simp [hdata] at hnext
    | cons g fs =>
      rw [hdata] at hnext
      cases hnext
      cases g with
      | event e => exact .inr (.inl ⟨e, rfl, hcovers.1, fs, w, rfl, hcovers.2, hw, hmark⟩)
      | cursor u =>
        exact .inr (.inr ⟨u, rfl, ⟨hcovers.1, hcovers.2.2.le.trans hw⟩, hcovers.2.1, fs, w, rfl,
          hcovers.2.2, hw, hmark⟩)

/-- The store holds what is expected at its mark; cursor frames move only the mark. -/
def HasApplied (ft : Json.FracText) (db : Database) (tenantId : Uuid) (base : Snapshot)
    (store : Store) : Prop :=
  ∃ ideal, expectedStore ft db tenantId base store.highWater = .ok ideal ∧
    SameState ideal store ∧ ideal.highWater ≤ store.highWater

structure Link.Following (ft : Json.FracText) (tenantId : Uuid) (l : Link) : Prop where
  log : l.db.LogOrdered
  durable : ∀ e ∈ l.db.syncEvents.rows, Durable e
  applied : HasApplied ft l.db tenantId l.base l.store
  base_nonneg : 0 ≤ l.base.highWaterVersion
  base_le : l.base.highWaterVersion ≤ l.store.highWater
  behind : l.store.highWater ≤ l.db.highWater
  session : ∀ s, l.phase = .streaming s → SessionFollows l.db tenantId l.store.highWater s

variable {l : Link} {base : Snapshot} {store store' : Store} {ft : Json.FracText}

theorem Link.Following.inStep (h : l.Following ft tenantId) : l.InStep ft tenantId := by
  obtain ⟨ideal, hideal, hsame, -⟩ := h.applied
  exact ⟨ideal, hideal, hsame⟩

theorem hasApplied_loaded (ft : Json.FracText) (db : Database) (tenantId : Uuid)
    (hsnap : store.snapshot = some base) (hmark : store.highWater = base.highWaterVersion) :
    HasApplied ft db tenantId base store := by
  refine ⟨loaded base,
    ?_, by simp [SameState, Store.activePolicy, hsnap, loaded, Store.swap], hmark.symm.le⟩
  unfold expectedStore
  rw [hmark, show visibleBetween db tenantId _ _ = [] from window_self _ _]
  rfl

theorem expectedStore_event {w : Int} {ideal : Store} (hlog : db.LogOrdered)
    (hbase : base.highWaterVersion ≤ w) (hwindow : visibleBetween db tenantId w e.syncVersion = [e])
    (hideal : expectedStore ft db tenantId base w = .ok ideal) :
    expectedStore ft db tenantId base e.syncVersion = applyDurable ft 0 ideal e := by
  have hlt : w < e.syncVersion := (mem_window.mp (hwindow ▸ List.mem_singleton_self e)).2.1
  have hsplit : visibleBetween db tenantId base.highWaterVersion e.syncVersion =
      visibleBetween db tenantId base.highWaterVersion w ++ [e] := by
    rw [← hwindow]
    exact window_split hlog.ascending hbase hlt.le
  rw [expectedStore, hsplit, foldlM_append_of_ok _ hideal]
  exact bind_pure _

theorem HasApplied.event {t : Time} {whole : Store} (h : HasApplied ft db tenantId base store)
    (hlog : db.LogOrdered) (he : Durable e) (hbase : base.highWaterVersion ≤ store.highWater)
    (hwindow : visibleBetween db tenantId store.highWater e.syncVersion = [e])
    (happly : applyDurable ft t store e = .ok whole) (hsame : SameState whole store')
    (hmark : store'.highWater = e.syncVersion) : HasApplied ft db tenantId base store' := by
  obtain ⟨ideal, hideal, hstate, hle⟩ := h
  have hlt : store.highWater < e.syncVersion := (mem_window.mp (hwindow ▸ List.mem_singleton_self e)).2.1
  obtain ⟨ideal', happly', hstate', -, hmark'⟩ :=
    hstate.symm.applyDurable 0 he hlt (hle.trans_lt hlt) happly
  refine ⟨ideal', ?_, hstate'.symm.trans hsame, (hmark'.trans hmark.symm).le⟩
  rw [hmark, expectedStore_event hlog hbase hwindow hideal, happly']

theorem HasApplied.advance (h : HasApplied ft db tenantId base store) (hlog : db.LogOrdered)
    (hbase : base.highWaterVersion ≤ store.highWater) (hle : store.highWater ≤ store'.highWater)
    (hwindow : visibleBetween db tenantId store.highWater store'.highWater = [])
    (hsame : SameState store store') : HasApplied ft db tenantId base store' := by
  obtain ⟨ideal, hideal, hstate, hmark⟩ := h
  refine ⟨ideal, ?_, hstate.trans hsame, hmark.trans hle⟩
  unfold expectedStore at *
  have hsplit : visibleBetween db tenantId base.highWaterVersion store'.highWater =
      visibleBetween db tenantId base.highWaterVersion store.highWater ++ [] := by
    rw [← hwindow]
    exact window_split hlog.ascending hbase hle
  rw [hsplit, List.append_nil]
  exact hideal

/-- An append lies beyond every mark, so what the edge should hold stays the same. -/
theorem HasApplied.append (h : HasApplied ft db tenantId base store)
    (hlog : db'.syncEvents.rows = db.syncEvents.rows ++ [e]) (hnew : store.highWater < e.syncVersion) :
    HasApplied ft db' tenantId base store := by
  unfold HasApplied expectedStore visibleBetween
  rw [hlog, window_append_later _ _ hnew]
  exact h

theorem Link.Following.phase (h : l.Following ft tenantId) (phase : Phase)
    (hphase : ∀ s, phase = .streaming s → SessionFollows l.db tenantId l.store.highWater s) :
    Link.Following ft tenantId { l with phase := phase } :=
  ⟨h.log, h.durable, h.applied, h.base_nonneg, h.base_le, h.behind, hphase⟩

theorem Link.Following.idle (h : l.Following ft tenantId) :
    Link.Following ft tenantId { l with phase := .idle } :=
  h.phase .idle fun _ hs => nomatch hs

theorem Link.Following.append {eventType : SyncEventType} {fields : List (String × Json)}
    {principalId : Option String} {eventTenant : Option Uuid} (h : l.Following ft tenantId)
    (happend : l.db.appendEventWithClient eventType (.obj fields) principalId eventTenant =
      .ok (db', v)) :
    Link.Following ft tenantId { l with db := db' } := by
  obtain ⟨hv, hfits, -, hrows⟩ := (l.db.appendEventWithClient_eq_ok _ _ _ _ _ _).mp happend
  obtain ⟨hlog, hhw⟩ := h.log.append hrows
  have hnew : l.db.highWater <
      (l.db.nextEvent eventType (.obj fields) principalId eventTenant).syncVersion := by
    simp [Database.nextEvent]
  have hgrow : l.db.highWater ≤ db'.highWater := by omega
  refine ⟨hlog, ?_, h.applied.append hrows (h.behind.trans_lt hnew), h.base_nonneg, h.base_le,
    h.behind.trans hgrow, fun s hs => (h.session s hs).append hrows hnew hgrow⟩
  intro e he
  rw [hrows] at he
  rcases List.mem_append.mp he with he | he
  · exact h.durable e he
  · rw [List.mem_singleton.mp he]
    exact ⟨⟨fields, rfl⟩, l.db.highWater_nonneg.trans_lt hnew, hv.symm.trans_lt hfits⟩

theorem Link.Following.connect (h : l.Following ft tenantId) :
    Link.Following ft tenantId (l.connect cfg tenantId) := by
  unfold Link.connect
  dsimp only
  split_ifs with hbacklog
  · exact h.phase .recovering fun _ hs => nomatch hs
  · rw [Database.getInitialBatchWithHighWater_complete _ _ _ _ (by simpa using hbacklog)]
    apply h.phase
    intro s hs
    cases hs
    exact sessionFollows_start cfg h.log h.behind

/-- After a 429 the edge starts over from the snapshot of the current high-water mark. -/
theorem Link.Following.recover (h : l.Following ft tenantId) (now : Timestamp) (t : Time) :
    Link.Following ft tenantId (l.recover tenantId now t) := by
  unfold Link.recover
  split
  · exact h.idle
  · next snap hparse =>
    have hhw : snap.highWaterVersion = l.db.highWater := parseSnapshotJSON_highWater _ _ hparse
    refine ⟨h.log, h.durable, hasApplied_loaded _ _ _ rfl rfl, ?_, le_refl _, hhw.le, ?_⟩
    · exact hhw.symm ▸ l.db.highWater_nonneg
    · intro s hs
      cases hs

/-! ## Reading the next frame -/

theorem highWater_lt (h : ∀ e ∈ db.syncEvents.rows, Durable e) : db.highWater < 2 ^ 63 := by
  have hfold : ∀ (rows : List SyncEventRow) (v : Int), v < 2 ^ 63 → (∀ e ∈ rows, Durable e) →
      (rows.map SyncEventRow.syncVersion).foldl max v < 2 ^ 63 := by
    intro rows
    induction rows with
    | nil => exact fun v hv _ => hv
    | cons e rows ih =>
      intro v hv hrows
      rw [List.forall_mem_cons] at hrows
      exact ih _ (max_lt hv hrows.1.hi) hrows.2
  exact hfold _ 0 (by decide) h

variable {f : SseFrame} {rest : SseSession} {t : Time} {cut : Bytes}

theorem Link.Following.at_store (h : l.Following ft tenantId)
    (happlied : HasApplied ft l.db tenantId l.base store')
    (hle : l.store.highWater ≤ store'.highWater) (hbehind : store'.highWater ≤ l.db.highWater)
    (phase : Phase)
    (hphase : ∀ s, phase = .streaming s → SessionFollows l.db tenantId store'.highWater s) :
    Link.Following ft tenantId { l with store := store', phase := phase } :=
  ⟨h.log, h.durable, happlied, h.base_nonneg, h.base_le.trans hle, hbehind, hphase⟩

/-- The mark stays, or it moves over versions at which the tenant sees nothing. -/
theorem Link.Following.moved (h : l.Following ft tenantId) (hsame : SameState l.store store')
    (hmark : store'.highWater = l.store.highWater ∨ l.store.highWater ≤ store'.highWater ∧
      store'.highWater ≤ l.db.highWater ∧
        visibleBetween l.db tenantId l.store.highWater store'.highWater = [])
    (phase : Phase)
    (hphase : ∀ s, phase = .streaming s → SessionFollows l.db tenantId store'.highWater s) :
    Link.Following ft tenantId { l with store := store', phase := phase } := by
  have hmoved : l.store.highWater ≤ store'.highWater ∧ store'.highWater ≤ l.db.highWater ∧
      visibleBetween l.db tenantId l.store.highWater store'.highWater = [] := by
    rcases hmark with hstay | hmoved
    · rw [hstay]
      exact ⟨le_rfl, h.behind, window_self _ _⟩
    · exact hmoved
  exact h.at_store (h.applied.advance h.log h.base_le hmoved.1 hmoved.2.2 hsame) hmoved.1 hmoved.2.1
    phase hphase

theorem applyDurable_mark {whole : Store} (he : Durable e) (hlt : store.highWater < e.syncVersion)
    (h : applyDurable ft t store e = .ok whole) : whole.highWater = e.syncVersion := by
  rcases applyDurable_eq_ok he h with ⟨-, hle⟩ | ⟨-, hmark⟩
  · exact absurd hlt (not_lt.mpr hle)
  · exact hmark

theorem Link.Following.applies {whole : Store} (h : l.Following ft tenantId)
    (hwindow : visibleBetween l.db tenantId l.store.highWater e.syncVersion = [e])
    (happly : applyDurable ft t l.store e = .ok whole) (hsame : SameState whole store')
    (hmark : store'.highWater = e.syncVersion) (phase : Phase)
    (hphase : ∀ s, phase = .streaming s → SessionFollows l.db tenantId e.syncVersion s) :
    Link.Following ft tenantId { l with store := store', phase := phase } := by
  have he := mem_window.mp (hwindow ▸ List.mem_singleton_self e)
  refine h.at_store (h.applied.event h.log (h.durable e he.1) h.base_le hwindow happly hsame hmark)
    ?_ ?_ phase ?_
  · rw [hmark]
    exact he.2.1.le
  · rw [hmark]
    exact l.db.le_highWater e he.1
  · rw [hmark]
    exact hphase

theorem Link.Following.receive (h : l.Following ft tenantId) (hphase : l.phase = .streaming s)
    (hnext : s.nextFrame = some (f, rest)) (t : Time) :
    Link.Following ft tenantId (l.receive ft t f rest) := by
  unfold Link.receive
  rcases (h.session s hphase).next hnext with
    ⟨rfl, hrest⟩ | ⟨e, rfl, hwindow, hrest⟩ | ⟨u, rfl, ⟨hle, hhw⟩, hwindow, hrest⟩
  · have hcore := readStream_shutdown_prefix t (List.prefix_refl (sseText ft shutdownFrame)) l.store
    have hmark := (Prod.mk.inj hcore).2
    split
    · next store' hread =>
      rw [hread] at hcore hmark
      apply h.moved (sameState_of_core hcore.symm) (.inl hmark)
      intro s' hs'
      cases hs'
      rw [show store'.highWater = l.store.highWater from hmark]
      exact hrest
    · next store' err hread =>
      rw [hread] at hcore hmark
      exact h.moved (sameState_of_core hcore.symm) (.inl hmark) _ fun _ hs => nomatch hs
  · have hmem := mem_window.mp (hwindow ▸ List.mem_singleton_self e)
    have he := h.durable e hmem.1
    rcases readStream_event ft t he l.store with ⟨store', whole, hread, happly, hcore⟩ | ⟨store',
      err, hread, hcore⟩
    · rw [hread]
      have hmark := (Prod.mk.inj hcore).2.trans (applyDurable_mark he hmem.2.1 happly)
      apply h.applies hwindow happly (sameState_of_core hcore.symm) hmark
      intro s' hs'
      cases hs'
      exact hrest
    · rw [hread]
      exact h.moved (sameState_of_core hcore.symm) (.inl (Prod.mk.inj hcore).2) _ fun _ hs => nomatch hs
  · obtain ⟨store', hread, hcore⟩ := readStream_cursor ft t (h.base_nonneg.trans h.base_le) hle
      (hhw.trans_lt (highWater_lt h.durable))
    obtain ⟨hsnap, hmark⟩ := Prod.mk.inj hcore
    rw [hread]
    have hsame : SameState l.store store' := by
      simp [SameState, Store.activePolicy, hsnap]
    apply h.moved hsame (.inr ⟨hmark ▸ hle, hmark ▸ hhw, by rw [hmark]; exact hwindow⟩)
    intro s' hs'
    cases hs'
    rw [hmark]
    exact hrest

/-- The body may end anywhere but inside the name of an event. -/
theorem Link.Following.close (h : l.Following ft tenantId) (hphase : l.phase = .streaming s)
    (hcut : cut <+: s.pending ft)
    (hname : ∀ e rest, s.nextFrame = some (eventFrame e, rest) → ¬ CutsName ft t l.store e cut) :
    (l.close t cut).Following ft tenantId := by
  have hidle : ∀ (v : Int) (s : SseSession), Phase.idle = .streaming s →
      SessionFollows l.db tenantId v s :=
    fun _ _ hs => nomatch hs
  unfold SseSession.pending at hcut
  cases hnext : s.nextFrame with
  | none =>
    rw [hnext] at hcut
    rw [List.prefix_nil.mp hcut]
    have hcore : storeCore (l.close t []).store = storeCore l.store := rfl
    exact h.moved (sameState_of_core hcore.symm) (.inl (Prod.mk.inj hcore).2) _ (hidle _)
  | some next =>
    obtain ⟨f, rest⟩ := next
    rw [hnext] at hcut
    rcases (h.session s hphase).next hnext with
      ⟨rfl, -⟩ | ⟨e, rfl, hwindow, -⟩ | ⟨u, rfl, ⟨hle, hhw⟩, hwindow, -⟩
    · have hcore := readStream_shutdown_prefix t hcut l.store
      exact h.moved (sameState_of_core hcore.symm) (.inl (Prod.mk.inj hcore).2) _ (hidle _)
    · have hmem := mem_window.mp (hwindow ▸ List.mem_singleton_self e)
      have he := h.durable e hmem.1
      rcases readStream_cut he hcut l.store with (hstay | ⟨whole, happly, hcore⟩) | ⟨m, hpos, hm,
        rfl, hlt⟩
      · exact h.moved (sameState_of_core hstay.symm) (.inl (Prod.mk.inj hstay).2) _ (hidle _)
      · exact h.applies hwindow happly (sameState_of_core hcore.symm)
          ((Prod.mk.inj hcore).2.trans (applyDurable_mark he hmem.2.1 happly)) _ (hidle _)
      · have hcore : storeCore (readStream (storeSink t) (nameCut e m) l.store).1 =
            advanced l.store e.syncVersion :=
          (readStream_nameCut he hpos hm l.store).trans (if_pos hlt)
        -- the event is taken for applied, and applying it changes nothing but the mark
        obtain ⟨whole, happly, hsame⟩ :=
          not_not.mp fun hmore => hname e rest hnext ⟨⟨m, hpos, hm, rfl⟩, hmore⟩
        exact h.applies hwindow happly (hsame.trans (sameState_of_advanced hcore).symm)
          (Prod.mk.inj hcore).2 _
          (hidle _)
    · obtain ⟨hsame, hmark⟩ := readStream_cursor_prefix t ((h.base_nonneg.trans h.base_le).trans hle)
        (hhw.trans_lt (highWater_lt h.durable)) hcut l.store
      refine h.moved hsame.symm (hmark.imp_right ?_) _ (hidle _)
      rintro ⟨hlt, hmark⟩
      rw [hmark]
      exact ⟨hlt.le, hhw, hwindow⟩

theorem eventFrame_inj {e' : SyncEventRow} (h : eventFrame e = eventFrame e') :
    e.syncVersion = e'.syncVersion ∧
    e.eventType.text = e'.eventType.text ∧ e.payload = e'.payload := by
  rw [eventFrame, eventFrame, SseFrame.mk.injEq, Option.some.injEq] at h
  exact h

theorem eventFrame_ne_cursor (e : SyncEventRow) (u : Int) : eventFrame e ≠ cursorFrame u := by
  rw [eventFrame, cursorFrame, Ne, SseFrame.mk.injEq]
  rintro ⟨-, hname, -⟩
  exact absurd hname (by cases e.eventType <;> decide)

/-- Inside the name of an event the end of the body takes the edge past an event that it did not
apply. -/
theorem Link.Following.not_inStep_of_cutsName (h : l.Following ft tenantId)
    (hphase : l.phase = .streaming s)
    (hnext : s.nextFrame = some (eventFrame e, rest)) (hcuts : CutsName ft t l.store e cut) :
    ¬ (l.close t cut).InStep ft tenantId := by
  obtain ⟨⟨m, hpos, hm, rfl⟩, hmore⟩ := hcuts
  rcases (h.session s hphase).next hnext with ⟨hf, -⟩ | ⟨x, hf, hwindow, -⟩ | ⟨u, hf, -⟩
  · cases hf
  · obtain ⟨hv, htext, hpayload⟩ := eventFrame_inj hf
    have hmem := mem_window.mp (hwindow ▸ List.mem_singleton_self x)
    have he := h.durable x hmem.1
    have hcore : storeCore (l.close t (nameCut e m)).store = advanced l.store x.syncVersion := by
      rw [nameCut, hv, htext, ← nameCut]
      exact (readStream_nameCut he hpos (htext ▸ hm) l.store).trans (if_pos hmem.2.1)
    have hmark := (Prod.mk.inj hcore).2
    rintro ⟨ideal', hideal', hsame'⟩
    obtain ⟨ideal, hideal, hsame, hle⟩ := h.applied
    rw [show (l.close t (nameCut e m)).store.highWater = x.syncVersion from hmark] at hideal'
    rw [show (l.close t (nameCut e m)).db = l.db from rfl,
      show (l.close t (nameCut e m)).base = l.base from rfl,
      expectedStore_event h.log h.base_le hwindow hideal] at hideal'
    obtain ⟨whole, happly, hwhole, -⟩ := hsame.applyDurable t he (hle.trans_lt hmem.2.1) hmem.2.1 hideal'
    refine hmore ⟨whole, ?_, (hwhole.symm.trans hsame').trans (sameState_of_advanced hcore)⟩
    rw [applyDurable, hv, htext, hpayload]
    exact happly
  · exact absurd hf (eventFrame_ne_cursor e u)

theorem Link.Following.step {cfg : SseConfig} {l' : Link} {a : Action} (h : l.Following ft tenantId)
    (horderly : Orderly cfg ft tenantId l a) (hstep : l.step cfg ft tenantId a = some l') :
    l'.Following ft tenantId := by
  unfold Link.step at hstep
  split at hstep
  · split at hstep
    · cases hstep
    · next happend =>
      cases hstep
      exact h.append happend
  · cases hstep
    exact h.connect cfg
  · cases hstep
    exact h.recover _ _
  · next s hphase =>
    split_ifs at hstep with habort
    cases hstep
    apply h.phase
    intro s' hs'
    cases hs'
    exact (h.session s hphase).poll h.log (by simpa using habort) (horderly s hphase)
  · next t s hphase =>
    obtain ⟨⟨f, rest⟩, hnext, hl⟩ := Option.map_eq_some_iff.mp hstep
    cases hl
    exact h.receive hphase hnext t
  · next t cut s hphase =>
    split_ifs at hstep with hcut
    cases hstep
    exact h.close hphase hcut fun e rest => horderly s e rest hphase
  · cases hstep
    exact h.idle
  · cases hstep

/-- In every run in which no poll finds more than `maxInitialBatch` visible events and no body ends
inside the name of an event, the edge holds at every moment its last snapshot with every visible
event up to its mark applied. -/
theorem stream_inStep (cfg : SseConfig) (ft : Json.FracText) (tenantId : Uuid) (l : Link)
    (h : (streaming cfg ft tenantId).ReachableVia (Orderly cfg ft tenantId) l) :
    l.InStep ft tenantId := by
  suffices hfollow : l.Following ft tenantId from hfollow.inStep
  apply h.invariant
  · intro l ⟨⟨hlog, hdurable⟩, hphase, hsnap, hmark, hnonneg, hle⟩
    refine ⟨hlog, hdurable, hasApplied_loaded _ _ _ hsnap hmark, hnonneg, hmark.symm.le,
      hmark.symm ▸ hle, ?_⟩
    intro s hs
    rw [hphase] at hs
    cases hs
  · intro l a l' hl horderly hstep
    exact hl.step horderly hstep

theorem Link.exists_append (cfg : SseConfig) (ft : Json.FracText) (tenantId : Uuid) (l : Link)
    (hlog : l.db.LogOrdered)
    (eventType : SyncEventType) (fields : List (String × Json)) (eventTenant : Option Uuid)
    (hroom : l.db.highWater + 1 < 2 ^ 63) :
    ∃ db, l.step cfg ft tenantId (.append eventType fields none eventTenant) = some { l with db := db } ∧
      db.LogOrdered ∧ db.highWater = l.db.highWater + 1 ∧ db.syncEvents.rows = l.db.syncEvents.rows ++
        [⟨l.db.highWater + 1, eventType, none, eventTenant, .obj fields⟩] := by
  obtain ⟨db, happend⟩ := l.db.appendEventWithClient_of_lt eventType (.obj fields) none eventTenant hroom
  obtain ⟨-, -, -, hrows⟩ := (l.db.appendEventWithClient_eq_ok _ _ _ _ _ _).mp happend
  obtain ⟨hlog', hhw⟩ := hlog.append hrows
  exact ⟨db, by simp only [Link.step, happend], hlog', hhw, hrows⟩

theorem Link.step_deliver (cfg : SseConfig) (tenantId : Uuid) (hphase : l.phase = .streaming s)
    (hnext : s.nextFrame = some (f, rest))
    (hread : readStream (storeSink t) (sseText ft f) l.store = (store, none)) :
    l.step cfg ft tenantId (.deliver t) = some { l with store := store, phase := .streaming rest } := by
  simp only [Link.step, hphase, hnext, Option.map_some, Link.receive, hread]

theorem streaming_init (cfg : SseConfig) (ft : Json.FracText) (tenantId : Uuid) :
    (streaming cfg ft tenantId).init ⟨Database.empty, loaded {}, .idle, {}⟩ :=
  ⟨⟨sound_empty.log, by simp [Database.empty, Table.empty]⟩, rfl, rfl, rfl, le_refl _, le_refl _⟩

theorem applyDurable_agentScore (ft : Json.FracText) (st : Store) (he : e.eventType = .scoreUpsert)
    (hpayload : e.payload = scoreJson agentScore) (hpos : 0 < e.syncVersion)
    (hlt : st.highWater < e.syncVersion) :
    applyDurable ft 0 st e = .ok ((st.swap { cloneSnapshot st.snapshot with
      highWaterVersion := e.syncVersion
      scores := (cloneSnapshot st.snapshot).scores.insert agentScore.principalId
        (scoreEntry agentScore) }).noteBytes 0) := by
  rw [applyDurable_eq, he, hpayload, applyEvent_of_lt _ _ _ _ _ hpos hlt]
  rfl

/-- The edge applies an event, and the stream ends inside the name of the cursor frame that moves it
past an event of another tenant. -/
theorem stream_inStep_cutCursor : ∃ l, (streaming syncSse centText edgeTenant).ReachableVia
      (Orderly syncSse centText edgeTenant) l ∧ l.store.highWater = 2 ∧
        l.InStep centText edgeTenant := by
  obtain ⟨fields, hfields⟩ : ∃ fields, scoreJson agentScore = .obj fields := ⟨_, rfl⟩
  have hstart : (streaming syncSse centText edgeTenant).ReachableVia
      (Orderly syncSse centText edgeTenant) _ :=
    .init (streaming_init _ _ _)
  obtain ⟨db₁, hstep₁, hlog₁, hhw₁, hrows₁⟩ := Link.exists_append syncSse centText edgeTenant
    ⟨Database.empty, loaded {}, .idle, {}⟩ sound_empty.log .scoreUpsert fields none (by decide)
  obtain ⟨db₂, hstep₂, hlog₂, hhw₂, hrows₂⟩ := Link.exists_append syncSse centText edgeTenant
    ⟨db₁, loaded {}, .idle, {}⟩ hlog₁ .policyReplace [] (some sampleTenant) (by rw [hhw₁]; decide)
  have hlogged := (hstart.next (Action.append .scoreUpsert fields none none) trivial hstep₁).next
    (Action.append .policyReplace [] none (some sampleTenant)) trivial hstep₂
  let e : SyncEventRow := ⟨1, .scoreUpsert, none, none, .obj fields⟩
  have hbatch : db₂.getInitialBatchWithHighWater 0 edgeTenant 10000 = ⟨[e], 2, false⟩ := by
    unfold Database.getInitialBatchWithHighWater Database.fetchEventsAndHighWaterInSnapshot
    rw [Database.eventsSince_of_ordered hlog₂, hrows₂, hhw₂]
    dsimp only
    rw [hrows₁, hhw₁]
    rfl
  have hconnected := hlogged.next Action.connect trivial
    (show some (Link.connect _ _ _) = some ⟨db₂, loaded {},
        .streaming { data := [eventFrame e, cursorFrame 2], lastEmittedHw := 2 }, {}⟩ by
      unfold Link.connect
      rw [show (loaded {}).highWater = 0 from rfl, show syncSse.maxInitialBatch = 10000 from rfl, hbatch]
      rfl)
  have hpos : 0 < e.syncVersion := Int.one_pos
  have hfits : dataLineBytes centText (eventFrame e) ≤ maxSSELineBytes := by
    rw [show eventFrame e = eventFrame ⟨1, .scoreUpsert, none, none,
      scoreJson agentScore⟩ by rw [hfields]]
    decide +kernel
  obtain ⟨st, hcore, hread⟩ :=
    readStream_event_applied ⟨⟨fields, rfl⟩, hpos, show (1 : Int) < 2 ^ 63 by decide⟩
    ⟨hfits, applyDurable_agentScore centText (loaded {}) rfl hfields.symm hpos hpos⟩
  have htext := hread []
  rw [List.append_nil] at htext
  have hdelivered := hconnected.next (Action.deliver 0) trivial (Link.step_deliver _ _ rfl rfl htext)
  have hmark : (st.noteBytes 0).highWater < 2 := by
    rw [show (st.noteBytes 0).highWater = 1 from (Prod.mk.inj hcore).2]
    decide
  have hclosed := hdelivered.next
      (Action.close 0 (idLine 2 ++ 0x0A :: (utf8 "event: " ++ (utf8 "cursor").take 3)))
    (by
      intro s x rest hs hx
      cases hs
      exact absurd (Prod.mk.inj (Option.some.inj hx)).1.symm (eventFrame_ne_cursor x 2)) rfl
  refine ⟨_, hclosed, ?_, stream_inStep _ _ _ _ hclosed⟩
  have hframed : Framed (cursorFrame 2) 2 [] := framed_cursor (by decide) (by decide)
  have hcut : storeCore
      (readStream (storeSink 0) (idLine 2 ++ 0x0A :: (utf8 "event: " ++ (utf8 "cursor").take 3))
      (st.noteBytes 0)).1 = advanced (st.noteBytes 0) 2 := by
    rw [readStream_eventPart hframed (by decide) (List.take_prefix 3 (utf8 "cursor")),
      flushFrame_core_of_part (m := 3) hframed _ (by decide) (by decide) rfl]
    exact if_pos ⟨by decide, hmark⟩
  exact (Prod.mk.inj hcut).2

end Verilink.Sync

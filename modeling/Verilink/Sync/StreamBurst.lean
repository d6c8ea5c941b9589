import Verilink.Sync.StreamSafety

/-!
# A burst between two polls

For every batch limit, one more event than the limit between two polls is enough: the last of them
is never sent, and the cursor frame moves the edge's high-water mark past it.
-/

namespace Verilink.Sync

open Verilink.Framework Verilink.ControlPlane Verilink.Edge Text

/-- The deletion of a score that nobody holds, for every tenant. -/
def quietFields : List (String × Json) := [("principal_id", .str "vrl:p:bystander")]

def quietPayload : Json := .obj quietFields

def Quiet (e : SyncEventRow) : Prop :=
  e.eventType = .scoreDelete ∧ e.tenantId = none ∧ e.payload = quietPayload

/-- A session is open at version 0, the edge is empty, and `es` was appended since. -/
structure Opened (cfg : SseConfig) (ft : Json.FracText) (tenantId : Uuid) (l : Link)
    (es : List SyncEventRow) :
    Prop where
  reachable : (streaming cfg ft tenantId).Reachable l
  log : l.db.LogOrdered
  rows : l.db.syncEvents.rows = es
  highWater : l.db.highWater = es.length
  fits : (es.length : Int) < 2 ^ 63
  phase : l.phase = .streaming { lastEmittedHw := 0 }
  core : storeCore l.store = (some {}, 0)
  base : l.base = {}

/-- A frame with a short data line. -/
def Small (ft : Json.FracText) (f : SseFrame) : Prop :=
  (∃ v fields, Framed f v fields) ∧ dataLineBytes ft f ≤ 1000

variable {cfg : SseConfig} {ft : Json.FracText} {tenantId : Uuid}

theorem small_cursor {v : Int} (hlo : 0 ≤ v) (hhi : v < 2 ^ 63) : Small ft (cursorFrame v) := by
  refine ⟨⟨v, [], framed_cursor hlo hhi⟩, ?_⟩
  simp [dataLineBytes, cursorFrame, stringify, Json.print, Json.printMembers, dataLine, utf8_dataPrefix]

theorem Quiet.small {e : SyncEventRow} (h : Quiet e) (he : Durable e) : Small ft (eventFrame e) := by
  obtain ⟨fields, hframed, -⟩ := framed_event he
  refine ⟨⟨_, fields, hframed⟩, ?_⟩
  have hbytes : dataLineBytes ft (eventFrame e) =
      (dataLine (stringify centText quietPayload)).length + 1 := by
    rw [dataLineBytes, eventFrame, h.2.2]
    rfl
  rw [hbytes]
  decide +kernel

theorem Opened.durable {l : Link} {es : List SyncEventRow} (h : Opened cfg ft tenantId l es)
    (hquiet : ∀ e ∈ es, Quiet e) : ∀ e ∈ es, Durable e := by
  intro e he
  have hrow : e ∈ l.db.syncEvents.rows := h.rows ▸ he
  have hle := l.db.le_highWater e hrow
  rw [h.highWater] at hle
  exact ⟨⟨_, (hquiet e he).2.2⟩, h.log.positive e hrow, hle.trans_lt h.fits⟩

section

variable (hsize : ∀ f, Small ft f → cfg.Accepts f)

include hsize

theorem enqueueData_of_fits (s : SseSession) {f : SseFrame} (hf : Small ft f)
    (hlive : s.aborted = false) :
    s.enqueueData cfg f = { s with data := s.data ++ [f] } := by
  simp [SseSession.enqueueData, hlive, not_lt.mpr (hsize f hf).1, not_lt.mpr (hsize f hf).2]

theorem enqueueCursor_of_fits (s : SseSession) {v : Int} (hlo : 0 ≤ v) (hhi : v < 2 ^ 63)
    (hlive : s.aborted = false) :
    s.enqueueCursor cfg v = { s with data := s.data ++ [cursorFrame v], lastEmittedHw := v } := by
  simp [SseSession.enqueueCursor, enqueueData_of_fits hsize s (small_cursor hlo hhi) hlive, hlive]

theorem foldl_enqueuePolled_of_fits {es : List SyncEventRow}
    (hes : ∀ e ∈ es, Small ft (eventFrame e)) (s : SseSession) (hlive : s.aborted = false) :
    es.foldl (SseSession.enqueuePolled cfg) s =
      { s with data := s.data ++ es.map eventFrame } := by
  induction es generalizing s with
  | nil => simp
  | cons e es ih =>
    rw [List.forall_mem_cons] at hes
    have hone : s.enqueuePolled cfg e = { s with data := s.data ++ [eventFrame e] } := by
      simp [SseSession.enqueuePolled, hlive, not_lt.mpr (hsize _ hes.1).1,
        enqueueData_of_fits hsize s hes.1 hlive]
    rw [List.foldl_cons, hone]
    have hrest := ih hes.2 { s with data := s.data ++ [eventFrame e] } hlive
    simpa using hrest

theorem exists_opened (tenantId : Uuid) : ∃ l, Opened cfg ft tenantId l [] := by
  let l₀ : Link := ⟨Database.empty, loaded {}, .idle, {}⟩
  have hstart : (streaming cfg ft tenantId).Reachable l₀ := System.Reachable.start (streaming_init _ _ _)
  have hbatch : Database.empty.getInitialBatchWithHighWater 0 tenantId cfg.maxInitialBatch =
      ⟨[], 0, false⟩ := by
    simp [Database.getInitialBatchWithHighWater, Database.fetchEventsAndHighWaterInSnapshot,
      Database.eventsSince, Database.empty, Table.empty, Database.highWater]
  have hsession : SseSession.start cfg [] 0 = { data := [cursorFrame 0], lastEmittedHw := 0 } :=
    enqueueCursor_of_fits hsize {} le_rfl (by decide) rfl
  have hconnect : (streaming cfg ft tenantId).step l₀ .connect
      { l₀ with phase := .streaming { data := [cursorFrame 0], lastEmittedHw := 0 } } := by
    show some (l₀.connect cfg tenantId) = _
    unfold Link.connect
    rw [show l₀.store.highWater = 0 from rfl, hbatch, ← hsession]
    rfl
  obtain ⟨store, hread, hcore⟩ :=
    readStream_cursor ft 0 (le_refl l₀.store.highWater) (le_refl 0) (by decide)
  exact ⟨_, (hstart.next _ hconnect).next (.deliver 0) (Link.step_deliver _ _ rfl rfl hread),
    sound_empty.log, rfl, rfl, by decide, rfl, hcore, rfl⟩

omit hsize in
theorem Opened.append {l : Link} {es : List SyncEventRow} (h : Opened cfg ft tenantId l es)
    (eventType : SyncEventType) (fields : List (String × Json))
    (hroom : (es.length : Int) + 1 < 2 ^ 63) :
    ∃ l', Opened cfg ft tenantId l' (es ++ [⟨es.length + 1, eventType, none, none, .obj fields⟩]) := by
  rw [← h.highWater] at hroom
  obtain ⟨db, hstep, hlog, hhw, hrows⟩ :=
    l.exists_append cfg ft tenantId h.log eventType fields none hroom
  refine ⟨_, h.reachable.next _ hstep, hlog, ?_, ?_, ?_, h.phase, h.core, h.base⟩
  · rw [hrows, h.rows, h.highWater]
  · rw [hhw, h.highWater]
    simp
  · rw [h.highWater] at hroom
    simpa using hroom

theorem exists_opened_quiet (tenantId : Uuid) (k : Nat) (hroom : (k : Int) < 2 ^ 63) :
    ∃ l es, Opened cfg ft tenantId l es ∧ es.length = k ∧ ∀ e ∈ es, Quiet e := by
  induction k with
  | zero =>
    obtain ⟨l, hl⟩ := exists_opened hsize tenantId
    exact ⟨l, [], hl, rfl, by simp⟩
  | succ k ih =>
    obtain ⟨l, es, hl, hlen, hquiet⟩ := ih (by push_cast at hroom; omega)
    obtain ⟨l', hl'⟩ := hl.append .scoreDelete quietFields (by rw [hlen]; push_cast at hroom; omega)
    refine ⟨l', _, hl', by simp [hlen], ?_⟩
    intro e he
    rcases List.mem_append.mp he with he | he
    · exact hquiet e he
    · rw [List.mem_singleton.mp he]
      exact ⟨rfl, rfl, rfl⟩

omit hsize in
theorem Quiet.applyDurable {e : SyncEventRow} (h : Quiet e) (hpos : 0 < e.syncVersion) {st : Store}
    (hlt : st.highWater < e.syncVersion) :
    Sync.applyDurable ft 0 st e = .ok ((st.swap { cloneSnapshot st.snapshot with
      highWaterVersion := e.syncVersion
      scores := (cloneSnapshot st.snapshot).scores.erase "vrl:p:bystander" }).noteBytes 0) := by
  rw [applyDurable_eq, h.1, h.2.2, applyEvent_of_lt _ _ _ _ _ hpos hlt]
  rfl

omit hsize in
theorem drain_quiet {id : String} (hid : id ≠ "vrl:p:bystander") {frames : List SseFrame}
    {mark bound : Int} (es : List SyncEventRow) (l : Link)
    (hreach : (streaming cfg ft tenantId).Reachable l) (hquiet : ∀ e ∈ es, Quiet e)
    (hdurable : ∀ e ∈ es, Durable e) (hasc : Ascending SyncEventRow.syncVersion es)
    (hlow : ∀ e ∈ es, l.store.highWater < e.syncVersion)
    (hbound : ∀ e ∈ es, e.syncVersion ≤ bound)
    (hmark : 0 ≤ l.store.highWater ∧ l.store.highWater ≤ bound)
    (hphase : l.phase = .streaming { lastEmittedHw := mark, data := es.map eventFrame ++ frames })
    (hscore : l.store.lookupScore id = none) :
    ∃ l', (streaming cfg ft tenantId).Reachable l' ∧ l'.db = l.db ∧ l'.base = l.base ∧
      l'.phase = .streaming { lastEmittedHw := mark, data := frames } ∧
      0 ≤ l'.store.highWater ∧ l'.store.highWater ≤ bound ∧ l'.store.lookupScore id = none := by
  induction es generalizing l with
  | nil => exact ⟨l, hreach, rfl, rfl, hphase, hmark.1, hmark.2, hscore⟩
  | cons e es ih =>
    obtain ⟨hfirst, hrest⟩ := List.pairwise_cons.mp hasc
    rw [List.forall_mem_cons] at hquiet hdurable hlow hbound
    have he := hdurable.1
    have hfits : dataLineBytes ft (eventFrame e) ≤ maxSSELineBytes :=
      (hquiet.1.small he).2.trans (by decide)
    obtain ⟨st, hcore, hread⟩ := readStream_event_applied he ⟨hfits, hquiet.1.applyDurable he.pos hlow.1⟩
    obtain ⟨hsnap, hhw⟩ := Prod.mk.inj hcore
    have htext := hread []
    rw [List.append_nil] at htext
    have hstep := Link.step_deliver cfg tenantId hphase rfl htext
    have hmoved : (st.noteBytes 0).highWater = e.syncVersion := hhw
    apply ih _ (hreach.next _ hstep) hquiet.2 hdurable.2 hrest
    · exact fun x hx => hmoved.trans_lt (hfirst x hx)
    · exact hbound.2
    · exact ⟨he.pos.le.trans hmoved.ge, hmoved.le.trans hbound.1⟩
    · rfl
    · rw [lookupScore_eq] at hscore
      show (st.noteBytes 0).lookupScore id = none
      rw [lookupScore_eq, show (st.noteBytes 0).snapshot = st.snapshot from rfl, hsnap]
      exact (Finmap.lookup_erase_ne hid).trans hscore

omit hsize in
theorem Opened.eventsSince {l : Link} {es : List SyncEventRow} (h : Opened cfg ft tenantId l es)
    (hglobal : ∀ x ∈ es, x.tenantId = none) : l.db.eventsSince 0 tenantId = es := by
  rw [Database.eventsSince_of_ordered h.log, h.rows, List.filter_eq_self]
  intro x hx
  have hpos := h.log.positive x (h.rows ▸ hx)
  simp [hpos, Database.visibleTo, hglobal x hx]

theorem Opened.poll {l : Link} {es : List SyncEventRow} {e : SyncEventRow}
    (h : Opened cfg ft tenantId l (es ++ [e])) (hlen : es.length = cfg.maxInitialBatch)
    (hglobal : ∀ x ∈ es ++ [e], x.tenantId = none) (hsmall : ∀ x ∈ es, Small ft (eventFrame x)) :
    (streaming cfg ft tenantId).Reachable { l with
      phase := .streaming {
        lastEmittedHw := l.db.highWater
        data := es.map eventFrame ++ [cursorFrame l.db.highWater] } } := by
  have hhw : 0 < l.db.highWater := by
    rw [h.highWater]
    simp
  have hhi : l.db.highWater < 2 ^ 63 := h.highWater.trans_lt h.fits
  apply h.reachable.next .poll
  show l.step cfg ft tenantId _ = _
  simp only [Link.step, h.phase, Bool.false_eq_true, if_false, SseSession.poll,
    Database.getPollBatchWithHighWater, Database.fetchEventsAndHighWaterInSnapshot,
    h.eventsSince hglobal, List.take_left' hlen]
  rw [if_pos hhw, foldl_enqueuePolled_of_fits hsize hsmall _ rfl,
    enqueueCursor_of_fits hsize _ hhw.le hhi rfl, List.nil_append]

/-- For every batch limit some run leaves the edge past an event it never received. -/
theorem exists_burst_not_inStep (hcap : (cfg.maxInitialBatch : Int) + 1 < 2 ^ 63) :
    ∃ l, (streaming cfg ft tenantId).Reachable l ∧ ¬ l.InStep ft tenantId := by
  obtain ⟨fields, hfields⟩ : ∃ fields, scoreJson agentScore = .obj fields := ⟨_, rfl⟩
  obtain ⟨l₀, es, hl₀, hlen, hquiet⟩ := exists_opened_quiet hsize tenantId cfg.maxInitialBatch (by omega)
  obtain ⟨l, hl⟩ := hl₀.append .scoreUpsert fields (by rw [hlen]; exact hcap)
  have hdurable := hl₀.durable hquiet
  have hglobal : ∀ x ∈ es ++ [⟨es.length + 1, .scoreUpsert, none, none, .obj fields⟩],
      x.tenantId = none := by
    intro x hx
    rcases List.mem_append.mp hx with hx | hx
    · exact (hquiet x hx).2.1
    · rw [List.mem_singleton.mp hx]
  have hasc := hl.log.ascending
  rw [hl.rows] at hasc
  obtain ⟨hasc, -, hlast⟩ := List.pairwise_append.mp hasc
  have hbound : ∀ e ∈ es, e.syncVersion ≤ es.length := by
    intro e he
    exact Int.le_of_lt_add_one (hlast e he _ (List.mem_singleton_self _))
  have hhw : l.db.highWater = es.length + 1 := by
    rw [hl.highWater]
    simp
  have hpolled := hl.poll hsize hlen hglobal fun x hx => (hquiet x hx).small (hdurable x hx)
  obtain ⟨hsnap, hmark⟩ := Prod.mk.inj hl.core
  have hnoScore : l.store.lookupScore agentScore.principalId = none := by
    rw [lookupScore_eq, hsnap]
    rfl
  have hid : agentScore.principalId ≠ "vrl:p:bystander" := by decide
  obtain ⟨m, hm, hdb, hbase, hphase, hnonneg, hmark, hscore⟩ := drain_quiet hid es _ hpolled hquiet
    hdurable hasc (by rw [hmark]; exact fun e he => (hdurable e he).pos) hbound
    ⟨hmark.symm.le, by rw [hmark]; simp⟩ rfl hnoScore
  -- The cursor frame moves the mark to that of the whole log.
  obtain ⟨store, hread, hcore⟩ :=
    readStream_cursor ft 0 hnonneg (hmark.trans (Int.le_add_one le_rfl)) (by omega)
  obtain ⟨hsnap, hmoved⟩ := Prod.mk.inj hcore
  rw [← hhw] at hread hmoved
  refine ⟨_, hm.next (.deliver 0) (Link.step_deliver _ _ hphase rfl hread), ?_⟩
  rintro ⟨ideal, hideal, hscores, -⟩
  -- The events up to the mark include the upsert, so the expected store has the score.
  have hevents : visibleBetween m.db tenantId m.base.highWaterVersion l.db.highWater =
      es ++ [⟨es.length + 1, .scoreUpsert, none, none, .obj fields⟩] := by
    rw [hdb, hbase, hl.base, ← hl.eventsSince hglobal, eventsSince_eq_visibleBetween hl.log]
  unfold expectedStore at hideal
  dsimp only at hideal
  rw [hmoved, hevents, List.foldlM_append] at hideal
  obtain ⟨mid, hmid, hlast⟩ := bind_eq_ok.mp hideal
  have hmidMark : mid.highWater ≤ es.length := by
    apply foldlM_ok_of_mem (applyDurable ft 0) (fun st => st.highWater ≤ es.length) es _ _ mid _ hmid
    · intro st e st' he hst happly
      rcases applyDurable_eq_ok (hdurable e he) happly with ⟨rfl, -⟩ | ⟨-, hst'⟩
      · exact hst
      · exact hst'.le.trans (hbound e he)
    · rw [hbase, hl.base]
      exact Int.natCast_nonneg _
  obtain ⟨last, happly, hpure⟩ := bind_eq_ok.mp hlast
  cases hpure
  rw [applyDurable_agentScore ft mid rfl hfields.symm (Int.lt_add_one_of_le (Int.natCast_nonneg _))
    (Int.lt_add_one_of_le hmidMark)] at happly
  cases happly
  have hheld := congrArg (Finmap.lookup agentScore.principalId) hscores
  rw [lookupScore_eq] at hscore
  rw [hsnap] at hheld
  exact absurd (hscore.symm.trans (hheld.symm.trans (Finmap.lookup_insert _))) (by simp)

end

theorem accepts_of_small (ft : Json.FracText) {f : SseFrame} (hf : Small ft f) :
    (textConfig ft).Accepts f := by
  obtain ⟨⟨v, fields, hframed⟩, hbytes⟩ := hf
  have hlength := sseText_length ft hframed
  simp only [SseConfig.Accepts, textConfig, syncSse]
  omega

/-- Under the default configuration 10001 events between two polls are enough. -/
theorem stream_skips_event : ∃ l, (streaming (textConfig centText) centText edgeTenant).Reachable l ∧
    ¬ l.InStep centText edgeTenant :=
  exists_burst_not_inStep (fun _ => accepts_of_small centText) (by decide)

end Verilink.Sync

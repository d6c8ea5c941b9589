import Verilink.Sync.KeyServing
import Verilink.Sync.PolicyAgreement

/-!
# Replaying the sync log

An edge that starts empty and applies every event visible to its tenant, compared with the tables
the snapshot is read from.
-/

namespace Verilink.Sync

open Verilink.Framework Verilink.ControlPlane Verilink.Edge

def replayEvent (t : Time) (store : Store) (e : SyncEventRow) : Except String Store :=
  applyEvent store t e.syncVersion e.eventType.text e.payload

def replay (t : Time) (db : Database) (tenantId : Uuid) : Except String Store :=
  (db.eventsSince 0 tenantId).foldlM (replayEvent t) {}

def storedScore (db : Database) (id : String) : Option ScoreEntry := (db.engineScoreAt id).map scoreEntry

variable {db db' : Database} {pid : String} {row : EngineScore} {computedAt : Timestamp}

/-- The replayed store holds the scores of the database, no keys, and no later version. -/
structure Mirrors (t : Time) (tenantId : Uuid) (db : Database) (store : Store) : Prop where
  replayed : replay t db tenantId = .ok store
  scores : ∀ id, store.lookupScore id = storedScore db id
  keys : (cloneSnapshot store.snapshot).keys = ∅
  highWater : store.highWater ≤ db.highWater

theorem lookupScore_eq (store : Store) (id : String) :
    store.lookupScore id = (cloneSnapshot store.snapshot).scores.lookup id := by
  cases h : store.snapshot with
  | none => simp [Store.lookupScore, cloneSnapshot, h]
  | some snap => simp [Store.lookupScore, cloneSnapshot, h]

variable {store : Store} {t : Time} {tenantId : Uuid}

theorem replay_append {e : SyncEventRow} (hdb : db.LogOrdered) (hdb' : db'.LogOrdered)
    (hlog : db'.syncEvents.rows = db.syncEvents.rows ++ [e]) (h : replay t db tenantId = .ok store) :
    replay t db' tenantId =
      if Database.visibleTo tenantId e then replayEvent t store e else .ok store := by
  have hpos : 0 < e.syncVersion := hdb'.positive e (by rw [hlog]; simp)
  unfold replay at *
  rw [Database.eventsSince_of_ordered hdb] at h
  rw [Database.eventsSince_of_ordered hdb', hlog, List.filter_append, foldlM_append_of_ok _ h]
  by_cases hvis : Database.visibleTo tenantId e
  · rw [if_pos hvis, List.filter_cons_of_pos (by simp [hpos, hvis])]
    show (replayEvent t store e >>= pure) = _
    exact bind_pure _
  · rw [if_neg hvis, List.filter_cons_of_neg (by simp [hvis])]
    rfl

theorem replayEvent_next {eventType : SyncEventType} {payload : Json} {pid : Option String}
    {tid : Option Uuid} {next : Snapshot} (h : Mirrors t tenantId db store)
    (hmutate : mutateSnapshot (cloneSnapshot store.snapshot) eventType.text payload = .ok next) :
    replayEvent t store (db.nextEvent eventType payload pid tid) =
      .ok ((store.swap { next with highWaterVersion := db.highWater + 1 }).noteBytes t) := by
  have hnonneg := db.highWater_nonneg
  have hbehind := h.highWater
  show applyEvent store t (db.highWater + 1) eventType.text payload = _
  rw [applyEvent_of_lt _ _ _ _ _ (by omega) (by omega), hmutate]
  rfl

theorem visibleTo_global (tenantId : Uuid) (db : Database) (eventType : SyncEventType)
    (payload : Json) (pid : Option String) :
    Database.visibleTo tenantId (db.nextEvent eventType payload pid none) = true := by
  simp [Database.visibleTo, Database.nextEvent]

theorem mutateSnapshot_scoreUpsert (snap : Snapshot) (hid : row.principalId ≠ "")
    (hlower : -2 ^ 31 ≤ row.score) (hupper : row.score < 2 ^ 31) :
    mutateSnapshot snap SyncEventType.scoreUpsert.text (scoreJson row) =
      .ok { snap with scores := snap.scores.insert row.principalId (scoreEntry row) } := by
  show (applyScoreUpsert _).map _ = _
  rw [applyScoreUpsert, decodeStruct_scoreJson row hlower hupper]
  show Except.map _ (if row.principalId = "" then _ else _) = _
  rw [if_neg hid]
  rfl

theorem mutateSnapshot_scoreDelete (snap : Snapshot) (hid : pid ≠ "") :
    mutateSnapshot snap SyncEventType.scoreDelete.text (.obj [("principal_id", .str pid)]) =
      .ok { snap with scores := snap.scores.erase pid } := by
  show Except.map _ (if pid = "" then _ else _) = _
  rw [if_neg hid]
  rfl

/-- A global event whose handler leaves the scores that the database then stores. -/
theorem Mirrors.scoreEvent {eventType : SyncEventType} {payload : Json} {principalId : Option String}
    {scores : Finmap fun _ : String => ScoreEntry} (h : Mirrors t tenantId db store) (hdb : Sound db)
    (hdb' : Sound db')
    (hlog : db'.syncEvents.rows =
      db.syncEvents.rows ++ [db.nextEvent eventType payload principalId none])
    (hmutate : mutateSnapshot (cloneSnapshot store.snapshot) eventType.text payload =
      .ok { cloneSnapshot store.snapshot with scores := scores })
    (hscores : ∀ id, scores.lookup id = storedScore db' id) :
    ∃ store', Mirrors t tenantId db' store' := by
  have hreplay := replay_append hdb.log hdb'.log hlog h.replayed
  rw [if_pos (visibleTo_global _ _ _ _ _), replayEvent_next h hmutate] at hreplay
  exact ⟨_, hreplay, hscores, h.keys, (hdb.log.append hlog).2.symm.le⟩

theorem Mirrors.written (h : Mirrors t tenantId db store) (hdb : Sound db) (hdb' : Sound db')
    (hw : Database.ScoreWritten db row computedAt db') : ∃ store', Mirrors t tenantId db' store' := by
  have hid : row.principalId ≠ "" := by
    obtain ⟨p, hp, hpid⟩ := hw.principal
    rw [← hpid]
    exact hdb.principal_ids p hp
  apply h.scoreEvent hdb hdb' hw.log (mutateSnapshot_scoreUpsert _ hid hw.lower hw.upper)
  intro id
  rw [storedScore, Database.engineScoreAt_written hw, Function.update_apply]
  by_cases heq : id = row.principalId
  · rw [if_pos heq, heq, Finmap.lookup_insert]
    rfl
  · rw [if_neg heq, Finmap.lookup_insert_of_ne _ heq, ← lookupScore_eq, h.scores, storedScore]

theorem Mirrors.deleted (h : Mirrors t tenantId db store) (hdb : Sound db) (hdb' : Sound db')
    (hid : pid ≠ "") (hw : Database.ScoreDeleted db pid db') :
    ∃ store', Mirrors t tenantId db' store' := by
  apply h.scoreEvent hdb hdb' hw.log (mutateSnapshot_scoreDelete _ hid)
  intro id
  rw [storedScore, Database.engineScoreAt_deleted hw, Function.update_apply]
  by_cases heq : id = pid
  · rw [if_pos heq, heq, Finmap.lookup_erase]
    rfl
  · rw [if_neg heq, Finmap.lookup_erase_ne heq, ← lookupScore_eq, h.scores, storedScore]

theorem Mirrors.policy {tid : Uuid} {body : Body} {u : PolicyUpdate} {row : PolicyRow} {v : Int}
    (h : Mirrors t tenantId db store) (hdb : Sound db) (hbody : parsePolicyUpdate body = .ok u)
    (hcommit : db.replaceActivePolicy tid u = .ok (db', row, v)) :
    ∃ store', Mirrors t tenantId db' store' := by
  have hdb' := hdb.policy hbody hcommit
  obtain ⟨-, -, -, -, hframe, -, -, hlog⟩ := db.replaceActivePolicy_eq_ok db' tid u row v hcommit
  have hhw := (hdb.log.append hlog).2
  have hsame : ∀ id, storedScore db' id = storedScore db id := by
    intro id
    rw [hframe]
    rfl
  have hreplay := replay_append hdb.log hdb'.log hlog h.replayed
  by_cases hvis : Database.visibleTo tenantId
    (db.nextEvent .policyReplace (policyReplacePayload row) none (some tid))
  · have hmutate : mutateSnapshot (cloneSnapshot store.snapshot) SyncEventType.policyReplace.text
        (policyReplacePayload row) =
        .ok { cloneSnapshot store.snapshot with policy := some defaultPolicy } := rfl
    rw [if_pos hvis, replayEvent_next h hmutate] at hreplay
    refine ⟨_, hreplay, ?_, h.keys, hhw.symm.le⟩
    intro id
    rw [hsame, ← h.scores, lookupScore_eq store]
    rfl
  · rw [if_neg hvis] at hreplay
    refine ⟨store, hreplay, ?_, h.keys, ?_⟩
    · intro id
      rw [hsame, h.scores]
    · have := h.highWater
      omega

theorem Mirrors.registry {now : Timestamp} (h : Mirrors t tenantId db store)
    (hw : Database.RegistryWrite now db db') : Mirrors t tenantId db' store := by
  refine ⟨?_, ?_, h.keys, ?_⟩
  · rw [← h.replayed]
    simp only [replay, Database.eventsSince, hw.syncEvents]
  · intro id
    rw [h.scores]
    simp only [storedScore, Database.engineScoreAt, Function.comp_apply, Database.scoreAt,
      hw.networkScores]
  · simp only [Database.highWater, hw.syncEvents]
    exact h.highWater

/-- Every reachable control plane is mirrored by the replay of its log. -/
theorem mirrors_of_reachable {keyHash : List UInt8 → String}
    (h : (controlPlane keyHash).Reachable db) (t : Time) (tenantId : Uuid) :
    ∃ store, Mirrors t tenantId db store := by
  suffices hinv : Sound db ∧ ∃ store, Mirrors t tenantId db store from hinv.2
  apply h.invariant
  · intro db hinit
    rw [hinit]
    refine ⟨sound_empty, {}, ?_, fun _ => rfl, rfl, le_refl _⟩
    simp [replay, Database.eventsSince, Database.empty, Table.empty, pure, Except.pure]
  · intro db a db' hdb hstep
    obtain ⟨hsound, store, hmirror⟩ := hdb
    have heffect := effect_of_step hstep
    refine ⟨hsound.step heffect, ?_⟩
    cases heffect with
    | registry hw => exact ⟨store, hmirror.registry hw⟩
    | policy hbody hcommit => exact hmirror.policy hsound hbody hcommit
    | scores happly =>
      have hkept : Sound db' ∧ ∃ store, Mirrors t tenantId db' store := by
        apply Database.applyScoreTable_preserves _ _ ⟨hsound, store, hmirror⟩ happly
        · intro s row s' hs hw
          obtain ⟨hss, store, hm⟩ := hs
          exact ⟨hss.written hw, hm.written hss (hss.written hw) hw⟩
        · intro s r s' hr hs hw
          obtain ⟨hss, store, hm⟩ := hs
          obtain ⟨p, hp, hpid⟩ := hsound.score_principals r hr
          exact ⟨hss.deleted hw, hm.deleted hss (hss.deleted hw) (hpid ▸ hsound.principal_ids p hp) hw⟩
      exact hkept.2

/-- The entries of the replayed store are the keys the snapshot would serve. -/
def KeysAgree (store : Store) (served : List PrincipalKeyRow) : Prop :=
  ∀ e, (∃ id, (cloneSnapshot store.snapshot).keys.lookup id = some e) ↔ e ∈ served.map keyEntry

theorem keysAgree_iff_of_no_keys (h : (cloneSnapshot store.snapshot).keys = ∅)
    (served : List PrincipalKeyRow) :
    KeysAgree store served ↔ served = [] := by
  unfold KeysAgree
  simp only [h, Finmap.lookup_empty, reduceCtorEq, exists_false, false_iff]
  constructor
  · intro hnone
    rw [List.eq_nil_iff_forall_not_mem]
    intro k hk
    exact hnone (keyEntry k) (List.mem_map_of_mem hk)
  · intro hnil e he
    rw [hnil] at he
    cases he

/-- In every reachable control plane the replay of the log succeeds and holds exactly the
stored scores; it holds the keys of the snapshot exactly when no key was ever registered. -/
theorem replay_agrees_iff (keyHash : List UInt8 → String) (db : Database)
    (hdb : (controlPlane keyHash).Reachable db) (t : Time) (tenantId : Uuid) (now : Timestamp) :
    ∃ store, replay t db tenantId = .ok store ∧
      (∀ id, store.lookupScore id = storedScore db id) ∧
      (KeysAgree store (db.getSnapshot tenantId now).keys ↔ db.principalKeys.rows = []) := by
  obtain ⟨store, hmirror⟩ := mirrors_of_reachable hdb t tenantId
  refine ⟨store, hmirror.replayed, hmirror.scores, ?_⟩
  rw [getSnapshot_keys_of_sound (sound_of_reachable hdb)]
  exact keysAgree_iff_of_no_keys hmirror.keys _

def agentScore : EngineScore :=
  ⟨"vrl:p:" ++ agentUuid.text, "agent", 60, false, "propagated"⟩

theorem oneScore_reachable : ∃ db, (controlPlane textHash).Reachable db ∧
    db.networkScores.rows.map (fun r => r.score) = [60] ∧ db.principalKeys.rows = [] := by
  have hstart : (controlPlane textHash).Reachable Database.empty := System.Reachable.start rfl
  have hprincipal :=
    System.Reachable.next (Write.createPrincipal agentUuid .agent none none, august2026) hstart rfl
  exact ⟨_, System.Reachable.next (Write.applyScoreTable [agentScore], august2026) hprincipal rfl,
    rfl, rfl⟩

theorem replay_agrees_iff_oneScore : ∃ db, db.networkScores.rows.map (fun r => r.score) = [60] ∧
    ∃ store, replay 0 db edgeTenant = .ok store ∧
      (∀ id, store.lookupScore id = storedScore db id) ∧
      (KeysAgree store (db.getSnapshot edgeTenant 0).keys ↔ db.principalKeys.rows = []) := by
  obtain ⟨db, hdb, hscores, -⟩ := oneScore_reachable
  exact ⟨db, hscores, replay_agrees_iff textHash db hdb 0 edgeTenant 0⟩

/-- After `addKey` the snapshot serves a key that no replay of the log installs. -/
theorem replay_misses_key : ∃ db store, (controlPlane textHash).Reachable db ∧
    replay 0 db edgeTenant = .ok store ∧
    (db.getSnapshot edgeTenant 0).keys.map PrincipalKeyRow.keyId = ["k1"] ∧
    ¬ KeysAgree store (db.getSnapshot edgeTenant 0).keys := by
  obtain ⟨db, hdb, hrows⟩ := oneKey_reachable
  obtain ⟨store, hmirror⟩ := mirrors_of_reachable hdb 0 edgeTenant
  have hserved := getSnapshot_keys_of_sound (sound_of_reachable hdb) edgeTenant 0
  have hids : db.principalKeys.rows.map PrincipalKeyRow.keyId = ["k1"] := by
    have hfst := congrArg (List.map Prod.fst) hrows
    rw [List.map_map] at hfst
    exact hfst
  refine ⟨db, store, hdb, hmirror.replayed, by rw [hserved, hids], ?_⟩
  rw [hserved, keysAgree_iff_of_no_keys hmirror.keys]
  intro hnil
  rw [hnil] at hids
  cases hids

end Verilink.Sync

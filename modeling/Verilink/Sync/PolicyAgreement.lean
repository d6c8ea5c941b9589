import Verilink.ControlPlane.Policy
import Verilink.Sync.Served

/-!
# Policies by event and by snapshot

A tenant's policy reaches an edge twice: in the `policy.replace` event and in the snapshot served
after the update.
-/

namespace Verilink.Sync

open Verilink.Framework Verilink.ControlPlane Verilink.Edge

/-- What the edge's decoder makes of an object without any policy field. -/
def defaultPolicy : Policy where
  threshold := 50
  belowThresholdAction := "deny"
  unsignedAction := "passthrough"
  maxSnapshotAgeSeconds := 300

theorem parsePolicyPayload_event (p : PolicyRow) :
    parsePolicyPayload (policyReplacePayload p) = .ok defaultPolicy := rfl

/-- The updates that the edge's defaults happen to describe. -/
def IsEdgeDefault (u : PolicyUpdate) : Prop :=
  u.threshold = 50 ∧ u.belowThresholdAction = .deny ∧ u.unsignedAction = .passthrough ∧
    u.failOpenExpired = false ∧ u.noDropDecisions = false ∧
    (u.maxSnapshotAgeSeconds = 0 ∨ u.maxSnapshotAgeSeconds = 300) ∧
    u.allowFingerprints = [] ∧ u.denyFingerprints = []

theorem clampAge_eq_default_iff (age : Int) :
    clampAge (if age = 0 then 300 else age) = 300 ↔ age = 0 ∨ age = 300 := by
  unfold clampAge
  split_ifs <;> omega

theorem edgePolicy_eq_default_iff (u : PolicyUpdate) (tenantId : Uuid) (name : String) :
    edgePolicy (u.activeRow tenantId name) = defaultPolicy ↔ IsEdgeDefault u := by
  have hbelow : ∀ a : BelowThresholdAction, a.text = "deny" ↔ a = .deny := by
    intro a
    cases a <;> decide
  have hunsigned : ∀ a : UnsignedAction, a.text = "passthrough" ↔ a = .passthrough := by
    intro a
    cases a <;> decide
  rw [edgePolicy, defaultPolicy, Policy.mk.injEq]
  exact and_congr Iff.rfl (and_congr (hbelow _) (and_congr (hunsigned _)
    (and_congr Iff.rfl (and_congr Iff.rfl (and_congr (clampAge_eq_default_iff _) Iff.rfl)))))

section Committed

variable {db db' : Database} {tenantId : Uuid} {now : Timestamp} {body : Body} {u : PolicyUpdate}
  {row : PolicyRow} {v : Int} {e : SyncEventRow}

theorem wellTyped_after_update (hdb : WellTyped (db.getSnapshot tenantId now))
    (hbody : parsePolicyUpdate body = .ok u)
    (hcommit : db.replaceActivePolicy tenantId u = .ok (db', row, v)) :
    WellTyped (db'.getSnapshot tenantId now) ∧
      (db'.getSnapshot tenantId now).keys = (db.getSnapshot tenantId now).keys := by
  obtain ⟨hage, ⟨name, hrow⟩, hv, hbound, hdb', hactive, -, hlog⟩ :=
    db.replaceActivePolicy_eq_ok db' tenantId u row v hcommit
  obtain ⟨hlo, hhi, hnonneg⟩ := parsePolicyUpdate_bounds body u hbody
  have hscores : db'.networkScores = db.networkScores := by rw [hdb']
  have hkeys : db'.principalKeys = db.principalKeys := by rw [hdb']
  have hhw : db'.highWater = v := by
    rw [db.highWater_of_rows_append db' _ hlog, hv]
    exact max_eq_right (by simp [Database.nextEvent])
  have hserved : (db'.getSnapshot tenantId now).keys = (db.getSnapshot tenantId now).keys := by
    simp only [Database.getSnapshot, hkeys]
  have hservedScores :
      (db'.getSnapshot tenantId now).scores = (db.getSnapshot tenantId now).scores := by
    simp only [Database.getSnapshot, hscores]
  refine ⟨⟨db'.highWater_nonneg, hhw.trans_lt hbound, ?_, ?_, ?_, ?_, ?_, ?_, ?_, ?_, ?_⟩, hserved⟩
  · rw [hservedScores]
    exact hdb.score_ids
  · rw [hservedScores]
    exact hdb.score_distinct
  · rw [hservedScores]
    exact hdb.score_lower
  · rw [hservedScores]
    exact hdb.score_upper
  · rw [hserved]
    exact hdb.key_principals
  · rw [hserved]
    exact hdb.key_from
  · rw [hserved]
    exact hdb.key_until
  · intro p hp
    cases hactive.symm.trans hp
    rw [hrow]
    exact ⟨hlo, by show u.threshold < 2 ^ 31; omega⟩
  · intro p hp
    cases hactive.symm.trans hp
    rw [hrow]
    exact ⟨hnonneg, hage⟩

theorem event_of_update (hcommit : db.replaceActivePolicy tenantId u = .ok (db', row, v))
    (he : e ∈ db'.syncEvents.rows) (hev : e.syncVersion = v) :
    e.eventType = .policyReplace ∧ e.payload = policyReplacePayload row := by
  obtain ⟨-, -, hv, -, -, -, -, hlog⟩ := db.replaceActivePolicy_eq_ok db' tenantId u row v hcommit
  rw [hlog, List.mem_append, List.mem_singleton] at he
  rcases he with hold | hnew
  · have hle := db.le_highWater e hold
    omega
  · rw [hnew]
    exact ⟨rfl, rfl⟩

theorem applyEvent_policyReplace (store : Store) (t : Time) (v : Int) (p : PolicyRow)
    (hv : 0 < v) (hstore : store.highWater < v) :
    ∃ store', applyEvent store t v SyncEventType.policyReplace.text (policyReplacePayload p) =
      .ok store' ∧ store'.activePolicy = some defaultPolicy := by
  have hmutate : mutateSnapshot (cloneSnapshot store.snapshot) SyncEventType.policyReplace.text
      (policyReplacePayload p) =
      .ok { cloneSnapshot store.snapshot with policy := some defaultPolicy } := by
    show Except.map _ (parsePolicyPayload (policyReplacePayload p) >>= _) = _
    rw [parsePolicyPayload_event]
    rfl
  rw [applyEvent_of_lt store t v _ _ hv hstore, hmutate]
  exact ⟨_, rfl, rfl⟩

theorem policies_after_update (hdb : WellTyped (db.getSnapshot tenantId now))
    (hkeys : KeysServable (db.getSnapshot tenantId now).keys)
    (hbody : parsePolicyUpdate body = .ok u)
    (hcommit : db.replaceActivePolicy tenantId u = .ok (db', row, v))
    (he : e ∈ db'.syncEvents.rows) (hev : e.syncVersion = v) {store : Store}
    (hstore : store.highWater < v) (t : Time) :
    ∃ store' snap, applyEvent store t e.syncVersion e.eventType.text e.payload = .ok store' ∧
      parseSnapshotJSON (db'.getSnapshot tenantId now).body = .ok snap ∧
      store'.activePolicy = some defaultPolicy ∧ snap.policy = some (edgePolicy row) := by
  obtain ⟨htype, hpayload⟩ := event_of_update hcommit he hev
  obtain ⟨-, -, hv, -, -, hactive, -, -⟩ := db.replaceActivePolicy_eq_ok db' tenantId u row v hcommit
  have hpos : 0 < v := by
    have := db.highWater_nonneg
    omega
  obtain ⟨store', happly, hpolicy⟩ := applyEvent_policyReplace store t v row hpos hstore
  obtain ⟨htyped, hserved⟩ := wellTyped_after_update hdb hbody hcommit
  have hparse :=
    (parseSnapshotJSON_body (db'.getSnapshot tenantId now) htyped _).mpr ⟨hserved ▸ hkeys, rfl⟩
  refine ⟨store', _, ?_, hparse, hpolicy, ?_⟩
  · rw [htype, hpayload, hev]
    exact happly
  · show (db'.getActivePolicy tenantId).map edgePolicy = _
    rw [hactive]
    rfl

end Committed

/-- After a committed update, the policy installed by the event is the policy of the served
snapshot exactly when the update asked for the edge's own defaults. -/
theorem policyReplace_agrees_with_snapshot_iff (db db' : Database) (tenantId : Uuid)
    (now : Timestamp) (hdb : WellTyped (db.getSnapshot tenantId now))
    (hkeys : KeysServable (db.getSnapshot tenantId now).keys) (body : Body) (u : PolicyUpdate)
    (hbody : parsePolicyUpdate body = .ok u) (row : PolicyRow) (v : Int)
    (hcommit : db.replaceActivePolicy tenantId u = .ok (db', row, v)) (e : SyncEventRow)
    (he : e ∈ db'.syncEvents.rows) (hev : e.syncVersion = v) (store : Store)
    (hstore : store.highWater < v) (t : Time) :
    ∃ store' snap, applyEvent store t e.syncVersion e.eventType.text e.payload = .ok store' ∧
      parseSnapshotJSON (db'.getSnapshot tenantId now).body = .ok snap ∧
      (store'.activePolicy = snap.policy ↔ IsEdgeDefault u) := by
  obtain ⟨store', snap, happly, hparse, hevent, hsnap⟩ :=
    policies_after_update hdb hkeys hbody hcommit he hev hstore t
  obtain ⟨-, ⟨name, hrow⟩, -⟩ := db.replaceActivePolicy_eq_ok db' tenantId u row v hcommit
  refine ⟨store', snap, happly, hparse, ?_⟩
  rw [hevent, hsnap, hrow, Option.some.injEq, eq_comm]
  exact edgePolicy_eq_default_iff u tenantId name

def sampleTenant : Uuid := ⟨"5f0c7a52-93f4-4a52-8a3e-0d3a8f6f2b10", by decide⟩

def oneTenant : Database := { Database.empty with tenants := [sampleTenant] }

def threshold80Body : Body := .object [("threshold", .number (.finite 80))]

def threshold80 : PolicyUpdate := ⟨80, .deny, .passthrough, [], [], false, false, 300, 1 / 100⟩

theorem parsePolicyUpdate_threshold80 : parsePolicyUpdate threshold80Body = .ok threshold80 := by
  have ht : asThreshold (.number (.finite 80)) = .ok 80 := rfl
  simp [parsePolicyUpdate, threshold80Body, JsValue.isTruthyObject, JsValue.get,
    JsValue.orDefault, -one_div, ht, asMaxSnapshotAge_default, asSampleRate_default,
      asBelowThresholdAction,
    asUnsignedAction, asBoolean, asStringArray, threshold80, bind, Except.bind, pure, Except.pure]

theorem wellTyped_oneTenant (now : Timestamp) :
    WellTyped (oneTenant.getSnapshot sampleTenant now) := by
  constructor <;> simp [oneTenant, Database.getSnapshot, Database.empty, Table.empty,
    Database.highWater, Database.getActivePolicy]

theorem keysServable_oneTenant (now : Timestamp) :
    KeysServable (oneTenant.getSnapshot sampleTenant now).keys := by
  constructor <;> simp [oneTenant, Database.getSnapshot, Database.empty, Table.empty]

theorem commit_threshold80 :
    ∃ db' row v e, oneTenant.replaceActivePolicy sampleTenant threshold80 = .ok (db', row, v) ∧
      e ∈ db'.syncEvents.rows ∧ e.syncVersion = v ∧ ({} : Store).highWater < v ∧
      row.threshold = 80 := by
  refine ⟨_, _, _, oneTenant.nextEvent .policyReplace
    (policyReplacePayload (threshold80.activeRow sampleTenant "default")) none (some sampleTenant),
    rfl, List.mem_cons_self, rfl, by decide, rfl⟩

theorem policyReplace_agrees_with_snapshot_iff_threshold80 :
    ∃ (db' : Database) (e : SyncEventRow) (store' : Store) (snap : Snapshot),
    applyEvent {} 0 e.syncVersion e.eventType.text e.payload = .ok store' ∧
      parseSnapshotJSON (db'.getSnapshot sampleTenant 0).body = .ok snap ∧
      (store'.activePolicy = snap.policy ↔ IsEdgeDefault threshold80) := by
  obtain ⟨db', row, v, e, hcommit, he, hev, hstore, -⟩ := commit_threshold80
  obtain ⟨store', snap, h⟩ := policyReplace_agrees_with_snapshot_iff oneTenant db' sampleTenant 0
    (wellTyped_oneTenant 0) (keysServable_oneTenant 0) threshold80Body threshold80
    parsePolicyUpdate_threshold80 row v hcommit e he hev {} hstore 0
  exact ⟨db', e, store', snap, h⟩

/-- After an update to threshold 80 the event leaves the edge at threshold 50 while the
snapshot says 80. -/
theorem policyReplace_disagrees : ∃ db' row v e store' snap,
    parsePolicyUpdate threshold80Body = .ok threshold80 ∧
      oneTenant.replaceActivePolicy sampleTenant threshold80 = .ok (db', row, v) ∧
      e ∈ db'.syncEvents.rows ∧ e.syncVersion = v ∧
      applyEvent {} 0 e.syncVersion e.eventType.text e.payload = .ok store' ∧
      parseSnapshotJSON (db'.getSnapshot sampleTenant 0).body = .ok snap ∧
      store'.activePolicy.map Policy.threshold = some 50 ∧
      snap.policy.map Policy.threshold = some 80 := by
  obtain ⟨db', row, v, e, hcommit, he, hev, hstore, hrow⟩ := commit_threshold80
  obtain ⟨store', snap, happly, hparse, hevent, hsnap⟩ := policies_after_update
    (wellTyped_oneTenant 0) (keysServable_oneTenant 0) parsePolicyUpdate_threshold80 hcommit he hev
    hstore 0
  refine ⟨db', row, v, e, store', snap, parsePolicyUpdate_threshold80, hcommit, he, hev, happly,
    hparse, ?_, ?_⟩
  · rw [hevent]
    rfl
  · rw [hsnap, Option.map_some]
    exact congrArg some hrow

end Verilink.Sync

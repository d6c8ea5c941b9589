import Verilink.ControlPlane.Policy
import Verilink.ControlPlane.ScoreWriter
import Verilink.Framework.Runs

/-!
# The control plane as a state machine

Every write that reaches principals, keys, scores, policies or the sync log, as one step of a
system that starts from the migrated database. A request that fails leaves the database
alone, so only committed writes are steps.
-/

namespace Verilink.ControlPlane

open Verilink.Framework

structure ClockTime where
  millis : Timestamp
  nonneg : 0 ≤ millis
  lt : millis < 253402300800000

def ClockTime.epoch : ClockTime := ⟨0, by decide, by decide⟩

theorem ClockTime.registered_range (now : ClockTime) {t : Timestamp}
    (h : t = now.millis ∨ t = now.millis - 3600000) : -3600000 ≤ t ∧ t < 253402300800000 := by
  obtain ⟨millis, hlo, hhi⟩ := now
  unfold Timestamp at *
  dsimp only at h
  omega

inductive Write
  | createTenant (id : Uuid)
  | createPrincipal (uuid : Uuid) (entityKind : PrincipalKind) (owner : Option Uuid)
      (name : Option String)
  | addKey (principalId keyId : String) (publicKeyRaw : List UInt8)
    (publicKeyJwk : Option (List (String × Json)))
      (keyHash : String)
  | seedBootstrapRegistry (attestationId : Option (String → Uuid))
  | applyScoreTable (engineRows : List EngineScore)
  | putActivePolicy (tenantId : Uuid) (body : Body)

def Database.write (keyHash : List UInt8 → String) (db : Database) (w : Write) (now : ClockTime) :
    Except String Database :=
  match w with
  | .createTenant id => .ok (db.createTenant id)
  | .createPrincipal uuid entityKind owner name => db.createPrincipal uuid entityKind owner name
  | .addKey principalId keyId raw jwk hash => db.addKey principalId keyId raw jwk hash now.millis
  | .seedBootstrapRegistry ids => Database.seedBootstrapRegistry keyHash ids now.millis db
  | .applyScoreTable rows => do .ok (← db.applyScoreTable rows now.millis).1
  | .putActivePolicy tenantId body => do
    let u ← parsePolicyUpdate body
    .ok (← db.replaceActivePolicy tenantId u).1

def controlPlane (keyHash : List UInt8 → String) : System Database (Write × ClockTime) where
  init := fun db => db = Database.empty
  step := fun db a db' => db.write keyHash a.1 a.2 = .ok db'

/-- What every write does, by the part of the database it touches. -/
inductive Effect (now : ClockTime) (db : Database) : Database → Prop
  | registry {db' : Database} : Database.RegistryWrite now.millis db db' → Effect now db db'
  | scores {db' : Database} {rows : List EngineScore} {result : ApplyScoresResult} :
      db.applyScoreTable rows now.millis = .ok (db', result) → Effect now db db'
  | policy {db' : Database} {tenantId : Uuid} {body : Body} {u : PolicyUpdate} {row : PolicyRow}
      {v : Int} : parsePolicyUpdate body = .ok u →
      db.replaceActivePolicy tenantId u = .ok (db', row, v) → Effect now db db'

variable {db db' : Database}

theorem effect_of_step {keyHash : List UInt8 → String} {a : Write × ClockTime}
    (h : (controlPlane keyHash).step db a db') : Effect a.2 db db' := by
  obtain ⟨w, now⟩ := a
  cases w with
  | createTenant id =>
    cases h
    exact .registry (db.createTenant_write now.millis id)
  | createPrincipal uuid entityKind owner name =>
    exact .registry (Database.createPrincipal_write now.millis h)
  | addKey principalId keyId raw jwk hash => exact .registry (Database.addKey_write h)
  | seedBootstrapRegistry ids => exact .registry (Database.seedBootstrapRegistry_write h)
  | applyScoreTable rows =>
    obtain ⟨⟨db₁, result⟩, happly, h⟩ := bind_eq_ok.mp h
    cases h
    exact .scores happly
  | putActivePolicy tenantId body =>
    obtain ⟨u, hbody, h⟩ := bind_eq_ok.mp h
    obtain ⟨⟨db₁, row, v⟩, hcommit, h⟩ := bind_eq_ok.mp h
    cases h
    exact .policy hbody hcommit

/-- What every reachable database satisfies. -/
structure Sound (db : Database) : Prop where
  principal_ids : ∀ p ∈ db.principals.rows, p.id ≠ ""
  key_principals : ∀ k ∈ db.principalKeys.rows, ∃ p ∈ db.principals.rows, p.id = k.principalId
  key_current : ∀ k ∈ db.principalKeys.rows, k.validUntil = none ∧ k.revokedAt = none
  key_times : ∀ k ∈ db.principalKeys.rows,
    -3600000 ≤ k.validFrom ∧ k.validFrom < 253402300800000
  score_principals : ∀ r ∈ db.networkScores.rows, ∃ p ∈ db.principals.rows, p.id = r.principalId
  score_range : ∀ r ∈ db.networkScores.rows, -2 ^ 31 ≤ r.score ∧ r.score < 2 ^ 31
  policy_range : ∀ p ∈ db.policies.rows, (0 ≤ p.threshold ∧ p.threshold < 2 ^ 31) ∧
    0 ≤ p.maxSnapshotAgeSeconds ∧ p.maxSnapshotAgeSeconds < 2 ^ 31
  log : db.LogOrdered
  highWater_lt : db.highWater < 2 ^ 63

theorem sound_empty : Sound Database.empty := by
  constructor <;> simp [Database.empty, Table.empty, Database.highWater]
  constructor <;> simp

theorem Sound.registry {now : ClockTime} (h : Sound db) (hw : Database.RegistryWrite now.millis db db') :
    Sound db' := by
  obtain ⟨added, hrows, hadded⟩ := hw.keys
  have hkeep : ∀ id, (∃ p ∈ db.principals.rows, p.id = id) → ∃ p ∈ db'.principals.rows, p.id = id :=
    fun id ⟨p, hp, hid⟩ => ⟨p, hw.principals_kept p hp, hid⟩
  have hhw : db'.highWater = db.highWater := by simp only [Database.highWater, hw.syncEvents]
  refine ⟨?_, ?_, ?_, ?_, ?_, ?_, ?_, ⟨?_, ?_⟩, ?_⟩
  · intro p hp
    rcases hw.principals_named p hp with hp | hp
    · exact h.principal_ids p hp
    · exact hp
  · intro k hk
    rcases List.mem_append.mp (hrows ▸ hk) with hk | hk
    · exact hkeep _ (h.key_principals k hk)
    · exact (hadded k hk).principal
  · intro k hk
    rcases List.mem_append.mp (hrows ▸ hk) with hk | hk
    · exact h.key_current k hk
    · exact ⟨(hadded k hk).validUntil, (hadded k hk).revokedAt⟩
  · intro k hk
    rcases List.mem_append.mp (hrows ▸ hk) with hk | hk
    · exact h.key_times k hk
    · exact now.registered_range (hadded k hk).validFrom
  · intro r hr
    exact hkeep _ (h.score_principals r (hw.networkScores ▸ hr))
  · rw [hw.networkScores]
    exact h.score_range
  · rw [hw.policies]
    exact h.policy_range
  · rw [hw.syncEvents]
    exact h.log.ascending
  · rw [hw.syncEvents]
    exact h.log.positive
  · rw [hhw]
    exact h.highWater_lt

theorem Sound.of_scores (h : Sound db)
    (hframe : db' = { db with networkScores := db'.networkScores, syncEvents := db'.syncEvents })
    (hprincipals : ∀ r ∈ db'.networkScores.rows, ∃ p ∈ db.principals.rows, p.id = r.principalId)
    (hrange : ∀ r ∈ db'.networkScores.rows, -2 ^ 31 ≤ r.score ∧ r.score < 2 ^ 31) (hlog : db'.LogOrdered)
    (hhw : db'.highWater < 2 ^ 63) : Sound db' := by
  rw [hframe] at *
  exact ⟨h.principal_ids, h.key_principals, h.key_current, h.key_times, hprincipals, hrange,
    h.policy_range, hlog, hhw⟩

theorem Sound.written {row : EngineScore} {t : Timestamp} (h : Sound db)
    (hw : Database.ScoreWritten db row t db') :
    Sound db' := by
  obtain ⟨v, hscores⟩ := hw.scores
  obtain ⟨hordered, hhw⟩ := h.log.append hw.log
  apply h.of_scores hw.frame _ _ hordered (hhw ▸ hw.bound)
  · intro r hr
    rcases List.mem_append.mp (hscores ▸ hr) with hr | hr
    · exact h.score_principals r (List.mem_filter.mp hr).1
    · rw [List.mem_singleton.mp hr]
      exact hw.principal
  · intro r hr
    rcases List.mem_append.mp (hscores ▸ hr) with hr | hr
    · exact h.score_range r (List.mem_filter.mp hr).1
    · rw [List.mem_singleton.mp hr]
      exact ⟨hw.lower, hw.upper⟩

theorem Sound.deleted {principalId : String} (h : Sound db)
    (hw : Database.ScoreDeleted db principalId db') :
    Sound db' := by
  obtain ⟨hordered, hhw⟩ := h.log.append hw.log
  apply h.of_scores hw.frame _ _ hordered (hhw ▸ hw.bound)
  · intro r hr
    rw [hw.scores] at hr
    exact h.score_principals r (List.mem_filter.mp hr).1
  · intro r hr
    rw [hw.scores] at hr
    exact h.score_range r (List.mem_filter.mp hr).1

theorem Sound.policy {tenantId : Uuid} {body : Body} {u : PolicyUpdate} {row : PolicyRow} {v : Int}
    (h : Sound db)
    (hbody : parsePolicyUpdate body = .ok u)
    (hcommit : db.replaceActivePolicy tenantId u = .ok (db', row, v)) :
    Sound db' := by
  obtain ⟨hage, ⟨name, hrow⟩, hv, hbound, hframe, -, hothers, hlog⟩ :=
    db.replaceActivePolicy_eq_ok db' tenantId u row v hcommit
  obtain ⟨hlo, hhi, hnonneg⟩ := parsePolicyUpdate_bounds body u hbody
  obtain ⟨hordered, hhw⟩ := h.log.append hlog
  have hpolicies : ∀ p ∈ db'.policies.rows, (0 ≤ p.threshold ∧ p.threshold < 2 ^ 31) ∧
      0 ≤ p.maxSnapshotAgeSeconds ∧ p.maxSnapshotAgeSeconds < 2 ^ 31 := by
    intro p hp
    rcases hothers p hp with hp | rfl
    · exact h.policy_range p hp
    · rw [hrow]
      exact ⟨⟨hlo, by show u.threshold < 2 ^ 31; omega⟩, hnonneg, hage⟩
  have hbound' : db'.highWater < 2 ^ 63 := by omega
  rw [hframe] at *
  exact ⟨h.principal_ids, h.key_principals, h.key_current, h.key_times, h.score_principals,
    h.score_range, hpolicies, hordered, hbound'⟩

theorem Sound.step {now : ClockTime} (h : Sound db) (he : Effect now db db') :
    Sound db' := by
  cases he with
  | registry hw => exact h.registry hw
  | scores happly =>
    exact Database.applyScoreTable_preserves (fun _ _ _ hs hw => hs.written hw)
      (fun _ _ _ _ hs hw => hs.deleted hw) h happly
  | policy hbody hcommit => exact h.policy hbody hcommit

theorem sound_of_reachable {keyHash : List UInt8 → String}
    (h : (controlPlane keyHash).Reachable db) : Sound db := by
  apply h.invariant
  · intro db hinit
    rw [hinit]
    exact sound_empty
  · intro db a db' hdb hstep
    exact hdb.step (effect_of_step hstep)

end Verilink.ControlPlane

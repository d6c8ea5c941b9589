import Verilink.ControlPlane.Registry
import Verilink.ControlPlane.SyncLog
import Verilink.Framework.JsValue

/-!
# Policy updates

`parsePolicyUpdate` validates the body of `PUT /v1/policies/active`; `replaceActivePolicy` writes
the tenant's active policy and its `policy.replace` event in one transaction.
-/

namespace Verilink.ControlPlane

open Verilink.Framework

/-- The body of a request. A finite number stands for the value of its decimal text. -/
abbrev Body := JsValue String ℚ

structure PolicyUpdate where
  threshold : Int
  belowThresholdAction : BelowThresholdAction
  unsignedAction : UnsignedAction
  allowFingerprints : List String
  denyFingerprints : List String
  failOpenExpired : Bool
  noDropDecisions : Bool
  maxSnapshotAgeSeconds : Int
  allowSampleRate : ℚ
  deriving DecidableEq

def asStringEntry (field : String) : Body → Except String String
  | .string s =>
    if s = "" then .error (field ++ " entries must be non-empty strings") else .ok s
  | _ => .error (field ++ " entries must be non-empty strings")

def asStringArray (value : Body) (field : String) : Except String (List String) :=
  match value with
  | .array elems => do
    let out ← elems.mapM (asStringEntry field)
    if 256 < out.length then .error (field ++ " may not exceed 256 entries") else .ok out
  | _ => .error (field ++ " must be an array of strings")

/-- A finite number that passes the check. -/
def asNumber (check : ℚ → Bool) (error : String) : Body → Except String ℚ
  | .number n => orError error ((n.toFinite 0).filter check)
  | _ => .error error

def asThreshold (value : Body) : Except String Int :=
  (asNumber (fun q => q.den = 1 ∧ 0 ≤ q ∧ q ≤ 100) "threshold must be an integer between 0 and 100"
    value).map Rat.num

def asBelowThresholdAction : Body → Except String BelowThresholdAction
  | .string "allow" => .ok .allow
  | .string "deny" => .ok .deny
  | _ => .error "below_threshold_action must be one of: allow, deny"

def asUnsignedAction : Body → Except String UnsignedAction
  | .string "passthrough" => .ok .passthrough
  | .string "deny" => .ok .deny
  | _ => .error "unsigned_action must be one of: passthrough, deny"

def asBoolean (field : String) : Body → Except String Bool
  | .bool b => .ok b
  | _ => .error (field ++ " must be a boolean")

def asMaxSnapshotAge (value : Body) : Except String Int :=
  (asNumber (fun q => q.den = 1 ∧ 0 ≤ q) "max_snapshot_age_seconds must be a non-negative integer"
    value).map Rat.num

def asSampleRate : Body → Except String ℚ :=
  asNumber (fun q => 0 ≤ q ∧ q ≤ 1) "allow_sample_rate must be a number between 0 and 1"

theorem check_of_asNumber {check : ℚ → Bool} {error : String} {v : Body} {q : ℚ}
    (h : asNumber check error v = .ok q) :
    check q = true := by
  unfold asNumber at h
  split at h
  · cases hq : (JsNumber.toFinite 0 _).filter check with
    | none =>
      rw [hq] at h
      cases h
    | some q' =>
      rw [hq] at h
      cases h
      exact (Option.filter_eq_some_iff.mp hq).2
  · cases h

theorem asThreshold_bounds {v : Body} {n : Int} (h : asThreshold v = .ok n) : 0 ≤ n ∧ n ≤ 100 := by
  obtain ⟨q, hq, rfl⟩ := map_eq_ok.mp h
  obtain ⟨hint, hlo, hhi⟩ := of_decide_eq_true (check_of_asNumber hq)
  have hval : ((q.num : Int) : ℚ) = q := Rat.coe_int_num_of_den_eq_one hint
  refine ⟨Rat.num_nonneg.mpr hlo, ?_⟩
  exact_mod_cast hval.trans_le hhi

theorem asMaxSnapshotAge_nonneg {v : Body} {n : Int} (h : asMaxSnapshotAge v = .ok n) : 0 ≤ n := by
  obtain ⟨q, hq, rfl⟩ := map_eq_ok.mp h
  exact Rat.num_nonneg.mpr (of_decide_eq_true (check_of_asNumber hq)).2

def parsePolicyUpdate (body : Body) : Except String PolicyUpdate := do
  if body.isTruthyObject = false then .error "Missing policy body"
  else
    let threshold ← asThreshold ((body.get "threshold").orDefault (.number (.finite 50)))
    let below ← asBelowThresholdAction
      ((body.get "below_threshold_action").orDefault (.string "deny"))
    let unsigned ← asUnsignedAction ((body.get "unsigned_action").orDefault (.string "passthrough"))
    let failOpen ← asBoolean "fail_open_expired"
      ((body.get "fail_open_expired").orDefault (.bool false))
    let noDrop ← asBoolean "no_drop_decisions"
      ((body.get "no_drop_decisions").orDefault (.bool false))
    let maxAge ← asMaxSnapshotAge
      ((body.get "max_snapshot_age_seconds").orDefault (.number (.finite 300)))
    let rate ← asSampleRate ((body.get "allow_sample_rate").orDefault (.number (.finite (1 / 100))))
    let allow ← asStringArray ((body.get "allow_fingerprints").orDefault (.array []))
      "allow_fingerprints"
    let deny ← asStringArray ((body.get "deny_fingerprints").orDefault (.array []))
      "deny_fingerprints"
    .ok ⟨threshold, below, unsigned, allow, deny, failOpen, noDrop, maxAge, rate⟩

theorem asThreshold_default : asThreshold (.number (.finite 50)) = .ok 50 := rfl

theorem asMaxSnapshotAge_default : asMaxSnapshotAge (.number (.finite 300)) = .ok 300 := rfl

theorem asSampleRate_default : asSampleRate (.number (.finite (1 / 100))) = .ok (1 / 100) := by
  decide +kernel

theorem parsePolicyUpdate_bounds (body : Body) (u : PolicyUpdate) (h : parsePolicyUpdate body = .ok u) :
    0 ≤ u.threshold ∧ u.threshold ≤ 100 ∧ 0 ≤ u.maxSnapshotAgeSeconds := by
  unfold parsePolicyUpdate at h
  by_cases hb : body.isTruthyObject = false
  · rw [if_pos hb] at h
    cases h
  · rw [if_neg hb] at h
    obtain ⟨threshold, ht, h⟩ := bind_eq_ok.mp h
    obtain ⟨below, -, h⟩ := bind_eq_ok.mp h
    obtain ⟨unsigned, -, h⟩ := bind_eq_ok.mp h
    obtain ⟨failOpen, -, h⟩ := bind_eq_ok.mp h
    obtain ⟨noDrop, -, h⟩ := bind_eq_ok.mp h
    obtain ⟨maxAge, hm, h⟩ := bind_eq_ok.mp h
    obtain ⟨rate, -, h⟩ := bind_eq_ok.mp h
    obtain ⟨allow, -, h⟩ := bind_eq_ok.mp h
    obtain ⟨deny, -, h⟩ := bind_eq_ok.mp h
    cases h
    have hthreshold := asThreshold_bounds ht
    exact ⟨hthreshold.1, hthreshold.2, asMaxSnapshotAge_nonneg hm⟩

def roundRate (q : ℚ) : ℚ := ⌊q * 1000 + 1 / 2⌋ / 1000

def PolicyUpdate.activeRow (u : PolicyUpdate) (tenantId : Uuid) (name : String) : PolicyRow where
  tenantId := tenantId
  name := name
  threshold := u.threshold
  belowThresholdAction := u.belowThresholdAction
  unsignedAction := u.unsignedAction
  allowFingerprints := u.allowFingerprints
  denyFingerprints := u.denyFingerprints
  failOpenExpired := u.failOpenExpired
  noDropDecisions := u.noDropDecisions
  maxSnapshotAgeSeconds := u.maxSnapshotAgeSeconds
  allowSampleRate := roundRate u.allowSampleRate
  isActive := true

/-- The payload of `policy.replace`: the policy sits under its own key. -/
def policyReplacePayload (p : PolicyRow) : Json :=
  .obj [("tenant_id", .str p.tenantId.text), ("policy", .obj
    [("threshold", .int p.threshold),
     ("below_threshold_action", .str p.belowThresholdAction.text),
     ("unsigned_action", .str p.unsignedAction.text),
     ("allow_fingerprints", stringsJson p.allowFingerprints),
     ("deny_fingerprints", stringsJson p.denyFingerprints),
     ("fail_open_expired", .bool p.failOpenExpired),
     ("no_drop_decisions", .bool p.noDropDecisions),
     ("max_snapshot_age_seconds", .int p.maxSnapshotAgeSeconds),
     ("allow_sample_rate", numberJson p.allowSampleRate)])]

namespace Database

/-- `INSERT ... ON CONFLICT (tenant_id) WHERE is_active DO UPDATE`: an active row of the tenant
keeps its name, a new one is called `default`. -/
def upsertActivePolicy (db : Database) (tenantId : Uuid) (u : PolicyUpdate) :
    Except String (Database × PolicyRow) :=
  let row := u.activeRow tenantId (((db.getActivePolicy tenantId).map PolicyRow.name).getD "default")
  let others := db.policies.filter fun p => ¬ (p.tenantId = tenantId ∧ p.isActive = true)
  if 2 ^ 31 ≤ u.maxSnapshotAgeSeconds then .error "value is out of range for type integer"
  else if (u.allowFingerprints ++ u.denyFingerprints).all storable = false then
    .error "invalid byte sequence for encoding \"UTF8\": 0x00"
  else if tenantId ∉ db.tenants then
    .error "insert or update on table \"policies\" violates foreign key constraint"
  else
    match others.insert? row with
    | none => .error "duplicate key value violates unique constraint"
    | some policies => .ok ({ db with policies := policies }, row)

def replaceActivePolicy (db : Database) (tenantId : Uuid) (u : PolicyUpdate) :
    Except String (Database × PolicyRow × Int) := do
  let (db₁, row) ← db.upsertActivePolicy tenantId u
  let (db₂, v) ← db₁.appendEventWithClient .policyReplace (policyReplacePayload row) none
    (some tenantId)
  .ok (db₂, row, v)

theorem upsertActivePolicy_eq_ok (db db' : Database) (tenantId : Uuid) (u : PolicyUpdate)
    (row : PolicyRow) (h : db.upsertActivePolicy tenantId u = .ok (db', row)) :
    u.maxSnapshotAgeSeconds < 2 ^ 31 ∧ (∃ name, row = u.activeRow tenantId name) ∧
      db' = { db with policies := db'.policies } ∧ db'.getActivePolicy tenantId = some row ∧
      ∀ p ∈ db'.policies.rows, p ∈ db.policies.rows ∨ p = row := by
  unfold upsertActivePolicy at h
  by_cases hage : 2 ^ 31 ≤ u.maxSnapshotAgeSeconds
  · simp only [if_pos hage] at h
    cases h
  by_cases htext : (u.allowFingerprints ++ u.denyFingerprints).all storable = false
  · simp only [if_neg hage, if_pos htext] at h
    cases h
  by_cases htenant : tenantId ∉ db.tenants
  · simp only [if_neg hage, if_neg htext, if_pos htenant] at h
    cases h
  simp only [if_neg hage, if_neg htext, if_neg htenant] at h
  split at h
  · cases h
  · next policies hins =>
    cases h
    obtain ⟨-, hrows⟩ := (Table.insert?_eq_some_iff _ _ _).mp hins
    refine ⟨not_le.mp hage, ⟨_, rfl⟩, rfl, ?_, ?_⟩
    · -- the kept rows are not active rows of the tenant, the last row is
      show policies.rows.find? _ = _
      rw [hrows, List.find?_append, List.find?_eq_none.mpr]
      · simp [PolicyUpdate.activeRow]
      · intro p hp
        simpa [imp_iff_not_or] using (List.mem_filter.mp hp).2
    · intro p hp
      rcases List.mem_append.mp (hrows ▸ hp) with hp | hp
      · exact .inl (List.mem_filter.mp hp).1
      · exact .inr (List.mem_singleton.mp hp)

theorem replaceActivePolicy_eq_ok (db db' : Database) (tenantId : Uuid) (u : PolicyUpdate)
    (row : PolicyRow) (v : Int) (h : db.replaceActivePolicy tenantId u = .ok (db', row, v)) :
    u.maxSnapshotAgeSeconds < 2 ^ 31 ∧ (∃ name, row = u.activeRow tenantId name) ∧
      v = db.highWater + 1 ∧ v < 2 ^ 63 ∧
      db' = { db with policies := db'.policies, syncEvents := db'.syncEvents } ∧
      db'.getActivePolicy tenantId = some row ∧
      (∀ p ∈ db'.policies.rows, p ∈ db.policies.rows ∨ p = row) ∧
      db'.syncEvents.rows = db.syncEvents.rows ++
        [db.nextEvent .policyReplace (policyReplacePayload row) none (some tenantId)] := by
  obtain ⟨⟨db₁, row₁⟩, hup, h⟩ := bind_eq_ok.mp h
  obtain ⟨⟨db₂, v₂⟩, happ, h⟩ := bind_eq_ok.mp h
  cases h
  obtain ⟨hage, hrow, hdb₁, hactive, hothers⟩ := db.upsertActivePolicy_eq_ok db₁ tenantId u row hup
  obtain ⟨hv, hbound, hdb₂, hevents⟩ := (db₁.appendEventWithClient_eq_ok db' _ _ _ _ v).mp happ
  have hlog : db₁.syncEvents = db.syncEvents := by rw [hdb₁]
  have hhw : db₁.highWater = db.highWater := by simp only [highWater, hlog]
  refine ⟨hage, hrow, hv.trans (by rw [hhw]), hbound, ?_, ?_, ?_, ?_⟩
  · rw [hdb₂, hdb₁]
  · rw [hdb₂]
    exact hactive
  · rw [hdb₂]
    exact hothers
  · rw [hevents, hlog]
    simp only [nextEvent, hhw]

end Database

end Verilink.ControlPlane

import Verilink.ControlPlane.Writes

/-!
# Who may do what

`requireScope` looks for a role in any membership of the caller, while the handler acts on the one
active tenant.
-/

namespace Verilink.ControlPlane

open Verilink.Framework

inductive RefusalCode
  | unauthorized
  | forbidden
  | badRequest
  | internal
  deriving DecidableEq

structure Refusal where
  code : RefusalCode
  message : String
  deriving DecidableEq

structure Membership where
  tenantId : Uuid
  role : String
  deriving DecidableEq

/-- `req.user`. -/
inductive Caller
  | apikey (tenantId : Uuid) (scopes : List String)
  | oidc (tenantId : Option Uuid) (role : String) (tenantIds : List Uuid) (roles : List String)
    (isStaff : Bool)
  deriving DecidableEq

/-- An API key with its row, or a session with the rows of its user. -/
inductive Credential
  | apiKey (tenantId : Uuid) (scopes : List String)
  | session (platformRole : String) (memberships : List Membership)

/-- An empty header counts as absent. -/
def selectActiveMembership (memberships : List Membership) (requestedTenantId : Option String) :
    Except Refusal (Option Uuid × String) :=
  match requestedTenantId.filter (· ≠ "") with
  | some requested =>
    match memberships.find? fun m => m.tenantId.text = requested with
    | none => .error ⟨.forbidden, "X-Tenant-Id does not match any tenant membership of this user"⟩
    | some m => .ok (some m.tenantId, m.role)
  | none => .ok (memberships.head?.map Membership.tenantId,
    (memberships.head?.map Membership.role).getD "member")

def Credential.authenticate (xTenantId : Option String) : Credential → Except Refusal Caller
  | apiKey tenantId scopes => .ok (.apikey tenantId scopes)
  | session platformRole memberships => do
    let (tenantId, role) ← selectActiveMembership memberships xTenantId
    return .oidc tenantId role (memberships.map Membership.tenantId) (memberships.map Membership.role)
      (platformRole = "staff" ∨ platformRole = "admin")

def isElevated (role : String) : Bool := role = "staff" ∨ role = "admin"

namespace Caller

def tenantId : Caller → Option Uuid
  | apikey tenantId _ => some tenantId
  | oidc tenantId _ _ _ _ => tenantId

def requireScope (scope : String) : Caller → Except Refusal Unit
  | apikey _ scopes =>
    if scope ∈ scopes ∨
      "*" ∈ scopes then .ok () else .error ⟨.forbidden, "Missing required scope: " ++ scope⟩
  | oidc _ _ _ roles isStaff =>
    if isStaff then .ok ()
    else if roles.any isElevated then .ok ()
    else .error ⟨.forbidden, "No membership grants scope: " ++ scope⟩

def requireStaff : Caller → Except Refusal Unit
  | apikey _ scopes =>
    if "admin:read" ∈ scopes then .ok () else .error ⟨.forbidden, "Staff access required"⟩
  | oidc _ _ _ _ isStaff => if isStaff then .ok () else .error ⟨.forbidden, "Staff access required"⟩

def requireTenant (caller : Caller) : Except Refusal Uuid :=
  match caller.tenantId with
  | none => .error ⟨.forbidden, "Tenant required"⟩
  | some tenantId => .ok tenantId

end Caller

/-! ## Policy writes -/

/-- `PUT /v1/policies/active`: the tenant and the database after it. -/
def putActivePolicy (caller : Caller) (db : Database) (body : Body) :
    Except Refusal (Uuid × Database) := do
  caller.requireScope "policy:admin"
  let tenantId ← caller.requireTenant
  let update ← (parsePolicyUpdate body).mapError (⟨.badRequest, ·⟩)
  let (db, _, _) ← (db.replaceActivePolicy tenantId update).mapError fun _ =>
      ⟨.internal, "Internal server error"⟩
  return (tenantId, db)

variable {caller : Caller} {tenantId : Uuid}

theorem putActivePolicy_eq_ok {db db' : Database} {body : Body}
    (h : putActivePolicy caller db body = .ok (tenantId, db')) :
    caller.requireScope "policy:admin" = .ok () ∧ caller.tenantId = some tenantId := by
  obtain ⟨hscope, h⟩ := seq_eq_ok.mp h
  obtain ⟨t, htenant, h⟩ := bind_eq_ok.mp h
  obtain ⟨u, -, h⟩ := bind_eq_ok.mp h
  obtain ⟨r, -, h⟩ := bind_eq_ok.mp h
  cases h
  refine ⟨hscope, ?_⟩
  unfold Caller.requireTenant at htenant
  cases hcaller : caller.tenantId with
  | none => simp [hcaller] at htenant
  | some t' => simpa [hcaller] using htenant

def defaultUpdate : PolicyUpdate := ⟨50, .deny, .passthrough, [], [], false, false, 300, 1 / 100⟩

theorem parsePolicyUpdate_empty : parsePolicyUpdate (.object []) = .ok defaultUpdate := by
  simp [parsePolicyUpdate, JsValue.isTruthyObject, JsValue.get, JsValue.orDefault, -one_div,
    asThreshold_default,
    asMaxSnapshotAge_default, asSampleRate_default, asBelowThresholdAction, asUnsignedAction,
      asBoolean, asStringArray,
    defaultUpdate, bind, Except.bind, pure, Except.pure]

def oneTenantDatabase (tenantId : Uuid) : Database := { Database.empty with tenants := [tenantId] }

theorem exists_replaceActivePolicy (tenantId : Uuid) :
    ∃ r, (oneTenantDatabase tenantId).replaceActivePolicy tenantId defaultUpdate = .ok r := by
  have hrow : ∃ db row, (oneTenantDatabase tenantId).upsertActivePolicy tenantId defaultUpdate =
      .ok (db, row) ∧
      db.highWater = 0 := by
    obtain ⟨policies, hins⟩ := Table.exists_insert? ((oneTenantDatabase tenantId).policies.filter
      fun p => ¬ (p.tenantId = tenantId ∧ p.isActive = true)) (defaultUpdate.activeRow tenantId
        "default") (by
        simp [oneTenantDatabase, Database.empty, Table.empty, Table.filter])
    refine ⟨{ oneTenantDatabase tenantId with policies := policies },
      defaultUpdate.activeRow tenantId "default", ?_, rfl⟩
    have hname : (((oneTenantDatabase tenantId).getActivePolicy tenantId).map PolicyRow.name).getD
        "default" = "default" :=
      rfl
    rw [Database.upsertActivePolicy, hname,
      if_neg (by decide), if_neg (by decide), if_neg (by simp [oneTenantDatabase]), hins]
  obtain ⟨db, row, hup, hwater⟩ := hrow
  obtain ⟨db', happend⟩ :=
    db.appendEventWithClient_of_lt .policyReplace (policyReplacePayload row) none (some tenantId)
    (by rw [hwater]; decide)
  rw [Database.replaceActivePolicy, hup]
  simp [bind, Except.bind, happend]

/-- Some write of the policy of the tenant goes through. -/
theorem exists_putActivePolicy (hscope : caller.requireScope "policy:admin" = .ok ())
    (htenant : caller.tenantId = some tenantId) :
    ∃ db body db', putActivePolicy caller db body = .ok (tenantId, db') := by
  obtain ⟨⟨db', row, v⟩, hreplace⟩ := exists_replaceActivePolicy tenantId
  refine ⟨oneTenantDatabase tenantId, .object [], db', ?_⟩
  rw [putActivePolicy, hscope, Caller.requireTenant, htenant, parsePolicyUpdate_empty]
  simp [bind, Except.bind, Except.mapError, hreplace, pure, Except.pure]

def Active (memberships : List Membership) (xTenantId : Option String) (m : Membership) : Prop :=
  match xTenantId.filter (· ≠ "") with
  | some requested => memberships.find? (fun m => m.tenantId.text = requested) = some m
  | none => memberships.head? = some m

variable {memberships : List Membership} {xTenantId : Option String}

theorem selectActiveMembership_eq_ok {role : String} :
    selectActiveMembership memberships xTenantId = .ok (some tenantId, role) ↔
      ∃ m, Active memberships xTenantId m ∧ m.tenantId = tenantId ∧ m.role = role := by
  unfold selectActiveMembership Active
  cases xTenantId.filter (· ≠ "") with
  | none => cases memberships.head? <;> simp
  | some requested =>
    cases hfind : memberships.find? (fun m => decide (m.tenantId.text = requested)) <;> simp [hfind]

theorem Active.mem {m : Membership} (h : Active memberships xTenantId m) : m ∈ memberships := by
  unfold Active at h
  split at h
  · exact List.mem_of_find?_eq_some h
  · exact List.mem_of_head? h

theorem requireScope_session {platformRole scope : String} (hstaff : isElevated platformRole = false)
    (h : (Credential.session platformRole memberships).authenticate xTenantId = .ok caller) :
    caller.requireScope scope = .ok () ↔ ∃ m ∈ memberships, isElevated m.role = true := by
  obtain ⟨⟨t, role⟩, -, hcaller⟩ := bind_eq_ok.mp h
  cases hcaller
  have hnot : decide (platformRole = "staff" ∨ platformRole = "admin") = false := hstaff
  simp only [Caller.requireScope, hnot, Bool.false_eq_true, if_false]
  split_ifs with hany
  · simpa using hany
  · simpa using hany

/-- A user without a platform role writes policies only where they are elevated, exactly if the
active membership is elevated whenever any is. -/
theorem policy_write_needs_role_iff {platformRole : String} (hstaff : isElevated platformRole = false)
    {memberships : List Membership} (hdistinct : (memberships.map Membership.tenantId).Nodup)
    (xTenantId : Option String) :
    (∀ caller db body tenantId db',
        (Credential.session platformRole memberships).authenticate xTenantId = .ok caller →
        putActivePolicy caller db body = .ok (tenantId, db') →
        ∃ m ∈ memberships, m.tenantId = tenantId ∧ isElevated m.role = true) ↔
      ∀ m, Active memberships xTenantId m → (∃ m' ∈ memberships, isElevated m'.role = true) →
        isElevated m.role = true := by
  constructor
  · intro h m hactive hsome
    have hauth : (Credential.session platformRole memberships).authenticate xTenantId =
        .ok (.oidc (some m.tenantId) m.role (memberships.map Membership.tenantId)
          (memberships.map Membership.role)
          (platformRole = "staff" ∨ platformRole = "admin")) := by
      rw [Credential.authenticate, selectActiveMembership_eq_ok.mpr ⟨m, hactive, rfl, rfl⟩]
      rfl
    obtain ⟨db, body, db', hput⟩ :=
      exists_putActivePolicy ((requireScope_session hstaff hauth).mpr hsome) rfl
    obtain ⟨m', hm', hid, hrole⟩ := h _ db body m.tenantId db' hauth hput
    rwa [← List.inj_on_of_nodup_map hdistinct hm' hactive.mem hid]
  · intro h caller db body tenantId db' hauth hput
    obtain ⟨hscope, htenant⟩ := putActivePolicy_eq_ok hput
    have hsome := (requireScope_session hstaff hauth).mp hscope
    obtain ⟨⟨t, role⟩, hselect, hcaller⟩ := bind_eq_ok.mp hauth
    cases hcaller
    rw [show t = some tenantId from htenant] at hselect
    obtain ⟨m, hactive, hid, -⟩ := selectActiveMembership_eq_ok.mp hselect
    exact ⟨m, hactive.mem, hid, h m hactive hsome⟩

def tenantA : Uuid := ⟨"a", by decide⟩

def tenantB : Uuid := ⟨"b", by decide⟩

def twoMemberships : List Membership := [⟨tenantA, "member"⟩, ⟨tenantB, "admin"⟩]

theorem policy_write_needs_role_iff_b :
    isElevated "member" = false ∧ (twoMemberships.map Membership.tenantId).Nodup ∧
      ((∀ caller db body tenantId db',
          (Credential.session "member" twoMemberships).authenticate (some "b") = .ok caller →
          putActivePolicy caller db body = .ok (tenantId, db') →
          ∃ m ∈ twoMemberships, m.tenantId = tenantId ∧ isElevated m.role = true) ↔
        ∀ m, Active twoMemberships (some "b") m → (∃ m' ∈ twoMemberships, isElevated m'.role = true) →
          isElevated m.role = true) :=
  ⟨by decide, by decide, policy_write_needs_role_iff (by decide) (by decide) (some "b")⟩

/-- Without a header the first tenant is written to, with the role in the second. -/
theorem policy_written_by_member : ∃ caller db body db',
    (Credential.session "member" twoMemberships).authenticate none = .ok caller ∧
      putActivePolicy caller db body = .ok (tenantA, db') ∧
      ∀ m ∈ twoMemberships, m.tenantId = tenantA → isElevated m.role = false := by
  have hauth : (Credential.session "member" twoMemberships).authenticate none =
      .ok (.oidc (some tenantA) "member" [tenantA, tenantB] ["member", "admin"] false) := by decide
  obtain ⟨db, body, db', hput⟩ := exists_putActivePolicy
    ((requireScope_session (by decide) hauth).mpr (by decide)) rfl
  exact ⟨_, db, body, db', hauth, hput, by decide⟩

/-! ## Minted keys -/

def ALLOWED_SCOPES : List String :=
  ["attest:read", "attest:write", "admin:read", "policy:read", "policy:admin", "*"]

def parseScope (scopes : List String) : Body → Except Refusal (List String)
  | .string s =>
    if s = "" then .error ⟨.badRequest, "scopes entries must be non-empty strings"⟩
    else if s ∉ ALLOWED_SCOPES then
      .error ⟨.badRequest, "unknown scope \"" ++ s ++ "\"; allowed: " ++ ", ".intercalate ALLOWED_SCOPES⟩
    else .ok (if s ∈ scopes then scopes else scopes ++ [s])
  | _ => .error ⟨.badRequest, "scopes entries must be non-empty strings"⟩

def parseScopes (body : Body) : Except Refusal (List String) :=
  match (body.get "scopes").orDefault (.array []) with
  | .array raw =>
    if 16 < raw.length then .error ⟨.badRequest, "scopes may not exceed 16 entries"⟩ else raw.foldlM
      parseScope []
  | _ => .error ⟨.badRequest, "scopes must be an array"⟩

structure Mint where
  credential : Credential
  xTenantId : Option String
  body : Body

/-- `POST /v1/api-keys`: the key whose secret the response hands out. -/
def Mint.run (a : Mint) : Except Refusal Credential := do
  let caller ← a.credential.authenticate a.xTenantId
  let tenantId ← caller.requireTenant
  return .apiKey tenantId (← parseScopes a.body)

/-- The credentials a client holds. No other route hands one out, and none changes roles or
memberships. -/
def keyMinting (start : Credential) : System (List Credential) Mint where
  init := fun held => held = [start]
  step := fun held a held' => a.credential ∈ held ∧ ∃ key, a.run = .ok key ∧ held' = held ++ [key]

def Credential.Passes (c : Credential) (check : Caller → Except Refusal Unit) : Prop :=
  ∃ xTenantId caller, c.authenticate xTenantId = .ok caller ∧ check caller = .ok ()

/-- The body names only scopes that the caller has, `admin:read` only if they are staff. -/
def Mint.Bounded (a : Mint) : Prop :=
  ∀ caller raw s, a.credential.authenticate a.xTenantId = .ok caller → a.body.get "scopes" = .array raw →
    .string s ∈ raw → caller.requireScope s = .ok () ∧ (s = "admin:read" → caller.requireStaff = .ok ())

theorem mem_of_parseScopes {body : Body} {scopes : List String} (h : parseScopes body = .ok scopes)
    {s : String} (hs : s ∈ scopes) : ∃ raw, body.get "scopes" = .array raw ∧ .string s ∈ raw := by
  unfold parseScopes at h
  split at h
  case h_2 => cases h
  case h_1 raw hraw =>
    split_ifs at h
    have hmem : ∀ s ∈ scopes, JsValue.string s ∈ raw := by
      refine foldlM_ok_of_mem parseScope (fun acc => ∀ s ∈ acc, JsValue.string s ∈ raw) raw ?_ []
        scopes (by simp) h
      intro acc x acc' hx hacc hstep
      unfold parseScope at hstep
      split at hstep
      case h_2 => cases hstep
      case h_1 s =>
        split_ifs at hstep
        · cases hstep
          exact hacc
        · cases hstep
          simpa [or_imp, forall_and] using ⟨hacc, hx⟩
    cases hget : body.get "scopes" with
    | array raw' =>
      rw [hget] at hraw
      cases hraw
      exact ⟨raw, rfl, hmem s hs⟩
    | undefined | null =>
      rw [hget] at hraw
      cases hraw
      cases hmem s hs
    | _ =>
      rw [hget] at hraw
      cases hraw

theorem Caller.requireScope_of_star (h : caller.requireScope "*" = .ok ()) (s : String) :
    caller.requireScope s = .ok () := by
  cases caller with
  | apikey t scopes =>
    simp only [requireScope, or_self, ite_eq_left_iff, reduceCtorEq, imp_false, not_not] at h
    simp [requireScope, h]
  | oidc t role ts roles isStaff =>
    simp only [requireScope] at h ⊢
    split_ifs at h ⊢ <;> rfl

/-- A key that is minted within bounds has no more than the credential it was minted with. -/
theorem Mint.Bounded.passes {a : Mint} (ha : a.Bounded) {key : Credential} (h : a.run = .ok key) :
    (key.Passes Caller.requireStaff → a.credential.Passes Caller.requireStaff) ∧
      ∀ s, key.Passes (Caller.requireScope s) → a.credential.Passes (Caller.requireScope s) := by
  obtain ⟨caller, hauth, h⟩ := bind_eq_ok.mp h
  obtain ⟨t, -, h⟩ := bind_eq_ok.mp h
  obtain ⟨scopes, hscopes, h⟩ := bind_eq_ok.mp h
  cases h
  have hhas : ∀ s ∈ scopes, caller.requireScope s = .ok () ∧
      (s = "admin:read" → caller.requireStaff = .ok ()) := by
    intro s hs
    obtain ⟨raw, hraw, hmem⟩ := mem_of_parseScopes hscopes hs
    exact ha caller raw s hauth hraw hmem
  constructor
  · rintro ⟨x, key, hkey, hcheck⟩
    cases hkey
    have hmem : "admin:read" ∈ scopes := by
      by_contra hnot
      simp [Caller.requireStaff, hnot] at hcheck
    exact ⟨_, caller, hauth, (hhas _ hmem).2 rfl⟩
  · rintro s ⟨x, key, hkey, hcheck⟩
    cases hkey
    have hmem : s ∈ scopes ∨ "*" ∈ scopes := by
      by_contra hnot
      simp [Caller.requireScope, hnot] at hcheck
    refine ⟨_, caller, hauth, ?_⟩
    rcases hmem with hs | hstar
    · exact (hhas s hs).1
    · exact Caller.requireScope_of_star (hhas "*" hstar).1 s

/-- If every mint is bounded, no credential that is obtained passes a check that the first one
fails. -/
theorem minted_passes_only {start : Credential} {held : List Credential}
    (h : (keyMinting start).ReachableVia (fun _ a => a.Bounded) held) : ∀ c ∈ held,
      (c.Passes Caller.requireStaff → start.Passes Caller.requireStaff) ∧
        ∀ s, c.Passes (Caller.requireScope s) → start.Passes (Caller.requireScope s) := by
  apply h.invariant
  · intro held hinit c hc
    rw [show held = [start] from hinit, List.mem_singleton] at hc
    rw [hc]
    exact ⟨id, fun _ => id⟩
  · rintro held a held' ih ha ⟨hcred, key, hrun, rfl⟩ c hc
    rcases List.mem_append.mp hc with hc | hc
    · exact ih c hc
    · rw [List.mem_singleton.mp hc]
      obtain ⟨hstaff, hscope⟩ := ha.passes hrun
      exact ⟨(ih _ hcred).1 ∘ hstaff, fun s => (ih _ hcred).2 s ∘ hscope s⟩

def readKey : Credential := .apiKey tenantA ["attest:read"]

def mintOf (scopes : List String) :
    Mint := ⟨readKey, none, .object [("scopes", .array (scopes.map .string))]⟩

theorem minted_passes_only_read :
    (keyMinting readKey).ReachableVia (fun _ a => a.Bounded) [readKey, readKey] ∧
      (readKey.Passes Caller.requireStaff → readKey.Passes Caller.requireStaff) ∧
        ∀ s, readKey.Passes (Caller.requireScope s) → readKey.Passes (Caller.requireScope s) := by
  have hreach : (keyMinting readKey).ReachableVia (fun _ a => a.Bounded) [readKey, readKey] := by
    refine System.ReachableVia.next (mintOf ["attest:read"])
      (.init rfl) ?_ ⟨List.mem_singleton.mpr rfl, readKey, rfl, rfl⟩
    intro caller raw s hauth hraw hs
    cases hauth
    cases hraw
    rw [List.map_singleton, List.mem_singleton] at hs
    cases hs
    exact ⟨rfl, by decide⟩
  exact ⟨hreach, minted_passes_only hreach readKey (by simp)⟩

/-- A key that may only read mints one that may do everything. -/
theorem readKey_mints_staff_key : ∃ key, (keyMinting readKey).Reachable [readKey, key] ∧
    (key.Passes Caller.requireStaff ∧ ¬ readKey.Passes Caller.requireStaff) ∧
      key.Passes (Caller.requireScope "policy:admin") ∧
        ¬ readKey.Passes (Caller.requireScope "policy:admin") := by
  refine ⟨.apiKey tenantA ["*", "admin:read"],
    System.Reachable.next (mintOf ["*", "admin:read"]) (.start rfl)
    ⟨List.mem_singleton.mpr rfl, _, rfl, rfl⟩, ⟨⟨none, _, rfl, rfl⟩, ?_⟩, ⟨none, _, rfl, rfl⟩, ?_⟩
  · rintro ⟨x, caller, hauth, hcheck⟩
    cases hauth
    cases hcheck
  · rintro ⟨x, caller, hauth, hcheck⟩
    cases hauth
    cases hcheck

end Verilink.ControlPlane

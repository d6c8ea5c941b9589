import Verilink.ControlPlane.Access

/-!
# Whose signing key it is

`POST /v1/principals/:id/keys` asks neither who owns the principal nor whether `key_hash` is the
hash of `public_key_raw`; the only unique index on keys is on that column. The seeder computes it.
-/

namespace Verilink.ControlPlane

open Verilink.Framework

namespace Database

variable {db db' : Database} {now : Timestamp}

theorem createPrincipal_frame {uuid : Uuid} {kind : PrincipalKind} {owner : Option Uuid}
    {name : Option String}
    (h : db.createPrincipal uuid kind owner name = .ok db') :
    db' = { db with principals := db'.principals } := by
  unfold createPrincipal insertPrincipal at h
  split_ifs at h
  split at h <;> cases h <;> rfl

theorem createPrincipal_keys {uuid : Uuid} {kind : PrincipalKind} {owner : Option Uuid}
    {name : Option String}
    (h : db.createPrincipal uuid kind owner name = .ok db') : db'.principalKeys = db.principalKeys := by
  rw [createPrincipal_frame h]

theorem replaceActivePolicy_keys {tenantId : Uuid} {u : PolicyUpdate} {row : PolicyRow} {v : Int}
    (h : db.replaceActivePolicy tenantId u = .ok (db', row, v)) :
    db'.principalKeys = db.principalKeys := by
  obtain ⟨-, -, -, -, hframe, -⟩ := db.replaceActivePolicy_eq_ok db' tenantId u row v h
  rw [hframe]

theorem applyScoreTable_keys {rows : List EngineScore} {result : ApplyScoresResult}
    (h : db.applyScoreTable rows now = .ok (db', result)) : db'.principalKeys = db.principalKeys := by
  refine applyScoreTable_preserves (P := fun s => s.principalKeys = db.principalKeys) ?_ ?_ rfl h
  · intro s row s' hs hw
    rw [hw.frame]
    exact hs
  · intro s r s' _ hs hw
    rw [hw.frame]
    exact hs

end Database

/-! ## Keys of the principals of others -/

def Database.keysOf (db : Database) (principalId : String) : List PrincipalKeyRow :=
  db.principalKeys.rows.filter fun k => k.principalId = principalId

/-- The routes that write principals, keys or policies; all others leave these tables alone. -/
inductive TenantRequest
  | createPrincipal (uuid : Uuid) (entityKind : PrincipalKind) (name : Option String)
  | addKey (principalId keyId : String) (publicKeyRaw : List UInt8)
    (publicKeyJwk : Option (List (String × Json)))
      (keyHash : String)
  | putActivePolicy (body : Body)

namespace Caller

variable (caller : Caller) (db : Database) (now : Timestamp)

def serve : TenantRequest → Except String Database
  | .createPrincipal uuid entityKind name => db.createPrincipal uuid entityKind caller.tenantId name
  | .addKey principalId keyId raw jwk hash => db.addKey principalId keyId raw jwk hash now
  | .putActivePolicy body => do
    return (← (ControlPlane.putActivePolicy caller db body).mapError Refusal.message).2

def after (r : TenantRequest) : Database :=
  match caller.serve db now r with
  | .ok db' => db'
  | .error _ => db

def Owns (principalId : String) : Prop :=
  ∃ p ∈ db.principals.rows, p.id = principalId ∧ ∃ t ∈ caller.tenantId, p.ownerTenantId = some t

/-- A storable key, with its JWK and neither id nor hash of which is taken, for a principal of
someone else. -/
def AddsForeignKey (r : TenantRequest) : Prop :=
  ∃ principalId keyId raw jwk hash, r = .addKey principalId keyId raw (some jwk) hash ∧
    (∃ p ∈ db.principals.rows, p.id = principalId) ∧ ¬ caller.Owns db principalId ∧
    (storable keyId = true ∧ storable hash = true ∧ (Json.texts (.obj jwk)).all storable = true) ∧
    ∀ k ∈ db.principalKeys.rows, ¬ k.Conflict ⟨principalId, keyId, raw, hash, now, none, none⟩

theorem foreign_keys_kept_iff (r : TenantRequest) :
    (∀ principalId, ¬ caller.Owns db principalId → (caller.after db now r).keysOf principalId =
      db.keysOf principalId) ↔
      ¬ caller.AddsForeignKey db now r := by
  constructor
  · rintro h ⟨principalId, keyId, raw, jwk, hash, rfl, hstored, hforeign, htexts, hfree⟩
    obtain ⟨keys, hins⟩ := db.principalKeys.exists_insert? _ hfree
    have hnone := Database.keyRefusal_eq_none.mpr ⟨jwk, rfl, htexts⟩
    have hadd := Database.addKey_eq_ok.mpr ⟨⟨hstored, hnone⟩, keys, hins, rfl⟩
    have hlen := congrArg List.length (h principalId hforeign)
    simp [after, serve, hadd, Database.keysOf, ((Table.insert?_eq_some_iff _ _ _).mp hins).2] at hlen
  · intro hnot principalId hforeign
    have hsame : ∀ db' : Database, db'.principalKeys = db.principalKeys →
        db'.keysOf principalId = db.keysOf principalId :=
      fun db' h => by rw [Database.keysOf, h, Database.keysOf]
    unfold after
    split
    case h_2 => rfl
    case h_1 db' hserve =>
      cases r with
      | createPrincipal uuid kind name => exact hsame db' (Database.createPrincipal_keys hserve)
      | putActivePolicy body =>
        obtain ⟨⟨t, db₁⟩, hput, h⟩ := bind_eq_ok.mp hserve
        cases h
        obtain ⟨-, hput⟩ := seq_eq_ok.mp (mapError_eq_ok.mp hput)
        obtain ⟨t', -, hput⟩ := bind_eq_ok.mp hput
        obtain ⟨u, -, hput⟩ := bind_eq_ok.mp hput
        obtain ⟨⟨db₂, row, v⟩, hreplace, hput⟩ := bind_eq_ok.mp hput
        cases hput
        exact hsame _ (Database.replaceActivePolicy_keys (mapError_eq_ok.mp hreplace))
      | addKey pid keyId raw jwk hash =>
        obtain ⟨⟨hstored, hnone⟩, keys, hins, rfl⟩ := Database.addKey_eq_ok.mp hserve
        obtain ⟨members, rfl, htexts⟩ := Database.keyRefusal_eq_none.mp hnone
        obtain ⟨hfree, hrows⟩ := (Table.insert?_eq_some_iff _ _ _).mp hins
        have hne : pid ≠ principalId := by
          rintro rfl
          exact hnot ⟨pid, keyId, raw, members, hash, rfl, hstored, hforeign, htexts, hfree⟩
        simp [Database.keysOf, hrows, hne]

end Caller

def keyOfA : Caller := .apikey tenantA ["attest:read"]

def agentOfB : PrincipalRow := ⟨"vrl:p:b", .agent, none, some tenantB, .active⟩

/-- A tenant adds a signing key to the principal of another. -/
theorem foreign_key_added : ∃ db r, agentOfB ∈ db.principals.rows ∧ ¬ keyOfA.Owns db agentOfB.id ∧
    (keyOfA.after db 0 r).keysOf agentOfB.id ≠ db.keysOf agentOfB.id := by
  refine ⟨{ Database.empty with principals := ⟨[agentOfB], List.pairwise_singleton _ _⟩ },
    .addKey agentOfB.id "k" [1] (some []) "h", List.mem_singleton.mpr rfl, ?_, by decide⟩
  rintro ⟨p, hp, -, t, ht, howner⟩
  rw [List.mem_singleton.mp hp] at howner
  cases ht
  exact absurd howner (by decide)

/-! ## Policies of others -/

def Database.policiesOf (db : Database) (tenantId : Uuid) : List PolicyRow :=
  db.policies.rows.filter fun p => p.tenantId = tenantId

theorem Database.policiesOf_replaceActivePolicy {db db' : Database} {tenantId t : Uuid}
    {u : PolicyUpdate}
    {row : PolicyRow} {v : Int} (h : db.replaceActivePolicy tenantId u = .ok (db', row, v))
    (ht : tenantId ≠ t) :
    db'.policiesOf t = db.policiesOf t := by
  obtain ⟨⟨db₁, row₁⟩, hup, h⟩ := bind_eq_ok.mp h
  obtain ⟨⟨db₂, v₂⟩, happ, h⟩ := bind_eq_ok.mp h
  cases h
  obtain ⟨-, -, hframe, -⟩ := (db₁.appendEventWithClient_eq_ok db' _ _ _ _ v).mp happ
  rw [hframe]
  simp only [upsertActivePolicy] at hup
  split_ifs at hup
  split at hup
  · cases hup
  · next policies hins =>
    cases hup
    -- Only rows of the writing tenant are filtered out, and the new row is one of them.
    have hkept : ∀ p ∈ db.policies.rows, (decide (p.tenantId = t) &&
        decide (¬ (p.tenantId = tenantId ∧ p.isActive = true))) = decide (p.tenantId = t) := by
      intro p _
      by_cases hp : p.tenantId = t
      · simp [hp, ht.symm]
      · simp [hp]
    simp only [policiesOf, ((Table.insert?_eq_some_iff _ _ _).mp hins).2, List.filter_append,
      Table.filter, List.filter_filter]
    rw [List.filter_congr hkept]
    simp [PolicyUpdate.activeRow, ht]

theorem Caller.policiesOf_after {caller : Caller} {t : Uuid} (ht : caller.tenantId ≠ some t)
    (db : Database)
    (now : Timestamp) (r : TenantRequest) : (caller.after db now r).policiesOf t = db.policiesOf t := by
  unfold after
  split
  case h_2 => rfl
  case h_1 db' hserve =>
    cases r with
    | createPrincipal uuid kind name =>
      rw [Database.createPrincipal_frame hserve]
      rfl
    | addKey principalId keyId raw jwk hash =>
      obtain ⟨-, keys, -, rfl⟩ := Database.addKey_eq_ok.mp hserve
      rfl
    | putActivePolicy body =>
      obtain ⟨⟨t', db₁⟩, hput, h⟩ := bind_eq_ok.mp hserve
      cases h
      have hput := mapError_eq_ok.mp hput
      have hne : t' ≠ t := fun heq => ht (heq ▸ (putActivePolicy_eq_ok hput).2)
      obtain ⟨-, hput⟩ := seq_eq_ok.mp hput
      obtain ⟨t'', -, hput⟩ := bind_eq_ok.mp hput
      obtain ⟨u, -, hput⟩ := bind_eq_ok.mp hput
      obtain ⟨⟨db₂, row, v⟩, hreplace, hput⟩ := bind_eq_ok.mp hput
      cases hput
      exact Database.policiesOf_replaceActivePolicy (mapError_eq_ok.mp hreplace) hne

/-- Whatever callers acting for other tenants request, in any order, a tenant keeps its policies. -/
theorem foreign_policies_kept (t : Uuid) (requests : List (Caller × Timestamp × TenantRequest))
    (h : ∀ q ∈ requests, q.1.tenantId ≠ some t) (db : Database) :
    (requests.foldl (fun db q => q.1.after db q.2.1 q.2.2) db).policiesOf t = db.policiesOf t := by
  induction requests generalizing db with
  | nil => rfl
  | cons q requests ih =>
    obtain ⟨hq, hrest⟩ := List.forall_mem_cons.mp h
    exact (ih hrest _).trans (Caller.policiesOf_after hq db q.2.1 q.2.2)

theorem foreign_policies_kept_b : tenantA ≠ tenantB ∧ ∀ db : Database,
    ([(.apikey tenantA ["policy:admin"], 0, .putActivePolicy (.object []))].foldl
      (fun db (q : Caller × Timestamp × TenantRequest) => q.1.after db q.2.1 q.2.2)
        db).policiesOf tenantB =
        db.policiesOf tenantB :=
  ⟨by decide, foreign_policies_kept tenantB _ (by decide)⟩

/-! ## One raw key, one principal -/

def Database.KeysHashed (keyHash : List UInt8 → String) (db : Database) : Prop :=
  ∀ k ∈ db.principalKeys.rows, k.keyHash = keyHash k.publicKeyRaw

def Write.Hashed (keyHash : List UInt8 → String) (w : Write) : Prop :=
  ∀ principalId keyId raw jwk hash, w = .addKey principalId keyId raw jwk hash → hash = keyHash raw

variable {keyHash : List UInt8 → String} {db db' : Database}

variable (h : db.KeysHashed keyHash)
include h

theorem Database.KeysHashed.of_eq (hkeys : db'.principalKeys = db.principalKeys) :
    db'.KeysHashed keyHash := by
  unfold KeysHashed
  rwa [hkeys]

theorem Database.KeysHashed.insert {row : PrincipalKeyRow}
    (hrow : row.keyHash = keyHash row.publicKeyRaw) {keys}
    (hins : db.principalKeys.insert? row = some keys) :
    Database.KeysHashed keyHash { db with principalKeys := keys } := by
  intro k hk
  rw [((Table.insert?_eq_some_iff _ _ _).mp hins).2] at hk
  rcases List.mem_append.mp hk with hk | hk
  · exact h k hk
  · rw [List.mem_singleton.mp hk, hrow]

theorem Database.KeysHashed.insertPrincipal (row : PrincipalRow) :
    (db.insertPrincipal row).KeysHashed keyHash := by
  unfold Database.insertPrincipal
  split
  · exact h
  · exact h

theorem Database.KeysHashed.upsertSeedIssuer {now : Timestamp} {entry : SeedIssuerEntry}
    (hseed : db.upsertSeedIssuer keyHash now entry = .ok db') : db'.KeysHashed keyHash := by
  obtain ⟨-, hseed⟩ := seq_eq_ok.mp hseed
  obtain ⟨-, hseed⟩ := seq_eq_ok.mp hseed
  obtain ⟨keyed, hkey, hseed⟩ := bind_eq_ok.mp hseed
  cases hseed
  have hstart := h.insertPrincipal ⟨entry.id, entry.entityKind, some entry.name, none, .active⟩
  have hissuer : ((db.insertPrincipal ⟨entry.id, entry.entityKind, some entry.name, none, .active⟩).insertSeedIssuerRow
      entry.id).KeysHashed keyHash := by
    apply hstart.of_eq
    unfold insertSeedIssuerRow
    split <;> rfl
  have hkeyed : keyed.KeysHashed keyHash := by
    unfold insertSeedKey at hkey
    split_ifs at hkey
    · cases hkey
      exact hissuer
    · split at hkey
      · cases hkey
      · next keys hins =>
        cases hkey
        exact hissuer.insert rfl hins
  apply hkeyed.of_eq
  unfold insertRegistryRow
  split <;> rfl

theorem Database.KeysHashed.seedAgent {ids : String → Uuid} {agent : SeedAgentEntry}
    (hseed : db.seedAgent ids agent = .ok db') : db'.KeysHashed keyHash := by
  obtain ⟨subject, hsubject, hseed⟩ := bind_eq_ok.mp hseed
  obtain ⟨-, hsubject⟩ := seq_eq_ok.mp hsubject
  split at hsubject
  · cases hsubject
  · cases hsubject
    unfold insertSeedAttestation at hseed
    split_ifs at hseed
    · cases hseed
      exact h.insertPrincipal _
    · split at hseed <;> cases hseed
      exact h.insertPrincipal _

theorem Database.KeysHashed.seed {ids : Option (String → Uuid)} {now : Timestamp}
    (hseed : db.seedBootstrapRegistry keyHash ids now = .ok db') : db'.KeysHashed keyHash := by
  obtain ⟨seeded, hissuers, hseed⟩ := bind_eq_ok.mp hseed
  have hseeded : seeded.KeysHashed keyHash :=
    foldlM_ok_of_mem _ (KeysHashed keyHash) _ (fun _ _ _ _ hs hstep => hs.upsertSeedIssuer hstep) db
      _ h hissuers
  cases ids with
  | none =>
    cases hseed
    exact hseeded
  | some ids =>
    have hderived : seeded.deriveIsBootstrap.KeysHashed keyHash := hseeded
    exact foldlM_ok_of_mem (Database.seedAgent ids) (KeysHashed keyHash) SEED_AGENTS
      (fun _ _ _ _ hs hstep => hs.seedAgent hstep) _ _ hderived hseed

theorem Database.KeysHashed.write {a : Write × ClockTime}
    (hok : a.1.Hashed keyHash) (hstep : (controlPlane keyHash).step db a db') :
    db'.KeysHashed keyHash := by
  obtain ⟨w, now⟩ := a
  cases w with
  | createTenant id =>
    cases hstep
    apply h.of_eq
    unfold createTenant
    split_ifs <;> rfl
  | createPrincipal uuid kind owner name => exact h.of_eq (createPrincipal_keys hstep)
  | addKey principalId keyId raw jwk hash =>
    obtain ⟨-, keys, hins, rfl⟩ := addKey_eq_ok.mp hstep
    exact h.insert (hok _ _ _ _ _ rfl) hins
  | seedBootstrapRegistry ids => exact h.seed hstep
  | applyScoreTable rows =>
    obtain ⟨⟨db₁, result⟩, happly, hdb⟩ := bind_eq_ok.mp hstep
    cases hdb
    exact h.of_eq (applyScoreTable_keys happly)
  | putActivePolicy tenantId body =>
    obtain ⟨u, -, hstep⟩ := bind_eq_ok.mp hstep
    obtain ⟨⟨db₁, row, v⟩, hreplace, hdb⟩ := bind_eq_ok.mp hstep
    cases hdb
    exact h.of_eq (replaceActivePolicy_keys hreplace)

omit h

/-- If every added key comes with its hash, no raw key is a current key of two principals. -/
theorem raw_key_of_one_principal (h : (controlPlane keyHash).ReachableVia
    (fun _ a => a.1.Hashed keyHash) db) :
    ∀ k ∈ db.principalKeys.rows, ∀ k' ∈ db.principalKeys.rows, k.revokedAt = none → k'.revokedAt = none →
      k.publicKeyRaw = k'.publicKeyRaw → k.principalId = k'.principalId := by
  have hhashed : db.KeysHashed keyHash := by
    apply h.invariant
    · intro db hinit
      rw [show db = Database.empty from hinit]
      exact fun k hk => by cases hk
    · intro db a db' hdb hok hstep
      exact hdb.write hok hstep
  intro k hk k' hk' _ _ hraw
  have hhash : k.keyHash = k'.keyHash := by rw [hhashed k hk, hhashed k' hk', hraw]
  rw [List.inj_on_of_nodup_map (db.principalKeys.nodup_map PrincipalKeyRow.keyHash fun _ _ => .inr)
    hk hk' hhash]

def encodedKey (raw : List UInt8) : String := String.ofList (Base64.encode raw)

theorem raw_key_of_one_principal_added : ∃ db,
    (controlPlane encodedKey).ReachableVia (fun _ a => a.1.Hashed encodedKey) db ∧
    db.principalKeys.rows.map PrincipalKeyRow.principalId = ["vrl:p:a", "vrl:p:b"] ∧
    ∀ k ∈ db.principalKeys.rows, ∀ k' ∈ db.principalKeys.rows, k.revokedAt = none → k'.revokedAt = none →
      k.publicKeyRaw = k'.publicKeyRaw → k.principalId = k'.principalId := by
  have hagent : ∀ uuid, (Write.createPrincipal uuid .agent none none).Hashed encodedKey := by
    intro uuid principalId keyId raw jwk hash h
    cases h
  have hkey : ∀ principalId raw,
      (Write.addKey principalId "k" raw (some []) (encodedKey raw)).Hashed encodedKey := by
    intro _ _ principalId keyId raw jwk hash h
    cases h
    rfl
  have hstart : (controlPlane encodedKey).ReachableVia (fun _ a => a.1.Hashed encodedKey)
      Database.empty := .init rfl
  have hagents := (hstart.next (_, .epoch) (hagent tenantA) rfl).next (_, .epoch) (hagent tenantB) rfl
  have hkeys :=
    (hagents.next (_, .epoch) (hkey "vrl:p:a" [1]) rfl).next (_, .epoch) (hkey "vrl:p:b" [2]) rfl
  exact ⟨_, hkeys, rfl, raw_key_of_one_principal hkeys⟩

def sharedKey : Database :=
  { Database.empty with
    principals := ⟨[⟨"vrl:p:a", .agent, none, none, .active⟩,
      ⟨"vrl:p:b", .agent, none, none, .active⟩], by decide⟩
    principalKeys :=
      ⟨[⟨"vrl:p:a", "k", [1], "h", 0, none, none⟩,
        ⟨"vrl:p:b", "k", [1], "g", 0, none, none⟩], by decide⟩ }

theorem raw_key_of_two_principals : (∀ keyHash, (controlPlane keyHash).Reachable sharedKey) ∧
    ∃ k ∈ sharedKey.principalKeys.rows, ∃ k' ∈ sharedKey.principalKeys.rows, k.revokedAt = none ∧
      k'.revokedAt = none ∧
      k.publicKeyRaw = k'.publicKeyRaw ∧ k.principalId ≠ k'.principalId := by
  refine ⟨fun keyHash => ?_, by decide⟩
  have hagents := System.Reachable.next (S := controlPlane keyHash)
    (Write.createPrincipal tenantB .agent none none, .epoch)
    (System.Reachable.next (Write.createPrincipal tenantA .agent none none, .epoch) (.start rfl) rfl) rfl
  exact System.Reachable.next (Write.addKey "vrl:p:b" "k" [1] (some []) "g", .epoch)
    (System.Reachable.next (Write.addKey "vrl:p:a" "k" [1] (some []) "h", .epoch) hagents rfl) rfl

end Verilink.ControlPlane

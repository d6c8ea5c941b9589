import Verilink.ControlPlane.Database
import Verilink.Framework.Base64
import Verilink.Framework.JsonEscape

/-!
# Principals, keys and the bootstrap registry

`createPrincipal`, `addKey` and the bootstrap seeder. None of them appends a sync event. The
sha256 of a key, in hex, is a parameter.
-/

namespace Verilink.ControlPlane

open Verilink.Framework

def storable (s : String) : Bool := s.toList.all fun c => c ≠ Char.ofNat 0

structure SeedIssuerEntry where
  id : String
  name : String
  entityKind : PrincipalKind
  keyId : String
  publicKeyX : String

structure SeedAgentEntry where
  id : String
  name : String
  entityKind : PrincipalKind
  trustDelta : Int
  attestationType : String

def BOOTSTRAP_KEY_ID : String := "bootstrap-k1"

def SEED_ISSUERS : List SeedIssuerEntry :=
  [⟨"vrl:p:11111111-1111-4111-8111-111111111111", "VeriLink Bootstrap", .issuer, BOOTSTRAP_KEY_ID,
      "GOGFvz5XIo7ylOg7DQzOrxyg68ulDuNclIDTMQwhzSI"⟩,
   ⟨"vrl:p:22222222-2222-4222-8222-222222222222", "Whimsy", .both, BOOTSTRAP_KEY_ID,
      "Mz1Sin-ts2l2P3S0DBhehW02chXdBIg64OHbl2KmMUE"⟩]

def SEED_AGENTS : List SeedAgentEntry :=
  [⟨"vrl:p:aaaaaaaa-aaaa-4aaa-8aaa-aaaaaaaaaaaa", "VeriLink Edge Agent", .agent, 20,
      "transaction_summary"⟩,
   ⟨"vrl:p:bbbbbbbb-bbbb-4bbb-8bbb-bbbbbbbbbbbb", "Whimsy Assistant", .agent, 15,
      "transaction_summary"⟩]

def rawOfX (x : String) : List UInt8 := (Base64.decode .url false x.toList).getD []

namespace Database

def createTenant (db : Database) (id : Uuid) : Database :=
  if id ∈ db.tenants then db else { db with tenants := db.tenants ++ [id] }

def insertPrincipal (db : Database) (row : PrincipalRow) : Database :=
  match db.principals.insert? row with
  | none => db
  | some principals => { db with principals := principals }

def createPrincipal (db : Database) (uuid : Uuid) (entityKind : PrincipalKind)
    (ownerTenantId : Option Uuid) (name : Option String) : Except String Database :=
  if ∃ t ∈ ownerTenantId, t ∉ db.tenants then
    .error "insert or update on table \"principals\" violates foreign key constraint"
  else if ∃ n ∈ name, storable n = false then
    .error "invalid byte sequence for encoding \"UTF8\": 0x00"
  else
    .ok (db.insertPrincipal
      ⟨"vrl:p:" ++ uuid.text, entityKind, name.filter (· ≠ ""), ownerTenantId, .active⟩)

/-- What the database says to the values of a key: `public_key_jwk` is `JSONB NOT NULL`. -/
def keyRefusal (keyId keyHash : String) : Option (List (String × Json)) → Option String
  | none => some "null value in column \"public_key_jwk\" violates not-null constraint"
  | some jwk =>
    if storable keyId ∧ storable keyHash ∧ (Json.texts (.obj jwk)).all storable then none
    else some "invalid byte sequence for encoding \"UTF8\": 0x00"

/-- The members of `publicKeyJwk`, if the body has it; no modelled function reads the column. -/
def addKey (db : Database) (principalId keyId : String) (publicKeyRaw : List UInt8)
    (publicKeyJwk : Option (List (String × Json))) (keyHash : String) (now : Timestamp) :
    Except String Database :=
  if (db.findPrincipal principalId).isNone then
    .error ("Principal " ++ principalId ++ " not found")
  else
    match keyRefusal keyId keyHash publicKeyJwk with
    | some message => .error message
    | none =>
      match db.principalKeys.insert? ⟨principalId, keyId, publicKeyRaw, keyHash, now, none, none⟩ with
      | none => .error "Key already registered (duplicate key_id or key_hash)"
      | some keys => .ok { db with principalKeys := keys }

def checkSeedPrincipal (db : Database) (id name : String) (entityKind : PrincipalKind) :
    Except String Unit :=
  match db.findPrincipal id with
  | none => .ok ()
  | some p =>
    if p.entityKind ≠ entityKind ∨ p.name ≠ some name then
      .error ("bootstrap seed conflict: principal " ++ id ++ " exists with entity_kind=" ++
        p.entityKind.text ++ " name=" ++ p.name.getD "null" ++ ", manifest expects entity_kind=" ++
        entityKind.text ++ " name=" ++ name)
    else .ok ()

def checkSeedKey (db : Database) (keyHash : List UInt8 → String) (entry : SeedIssuerEntry) :
    Except String Unit :=
  let raw := rawOfX entry.publicKeyX
  let existingKey := db.principalKeys.rows.find? fun k =>
    k.principalId = entry.id ∧ k.keyId = entry.keyId
  if ∃ k ∈ existingKey, k.publicKeyRaw ≠ raw ∨ k.keyHash ≠ keyHash raw then
    .error ("bootstrap seed conflict: key " ++ entry.id ++ "/" ++ entry.keyId ++
      " exists with a different public key")
  else .ok ()

def insertSeedKey (db : Database) (row : PrincipalKeyRow) : Except String Database :=
  if ∃ k ∈ db.principalKeys.rows, k.principalId = row.principalId ∧ k.keyId = row.keyId then .ok db
  else
    match db.principalKeys.insert? row with
    | none => .error "duplicate key value violates unique constraint \"key_hash_unique\""
    | some keys => .ok { db with principalKeys := keys }

def insertSeedIssuerRow (db : Database) (principalId : String) : Database :=
  match db.issuers.insert? ⟨principalId, 1, some false⟩ with
  | none => db
  | some issuers => { db with issuers := issuers }

def insertRegistryRow (db : Database) (entry : SeedIssuerEntry) (now : Timestamp) : Database :=
  match db.bootstrapIssuers.insert? ⟨entry.id, entry.name, 1, now, none⟩ with
  | none => db
  | some registry => { db with bootstrapIssuers := registry }

def upsertSeedIssuer (keyHash : List UInt8 → String) (now : Timestamp) (db : Database)
    (entry : SeedIssuerEntry) : Except String Database := do
  db.checkSeedPrincipal entry.id entry.name entry.entityKind
  db.checkSeedKey keyHash entry
  let raw := rawOfX entry.publicKeyX
  let db := (db.insertPrincipal
    ⟨entry.id, entry.entityKind, some entry.name, none, .active⟩).insertSeedIssuerRow entry.id
  let db ← db.insertSeedKey
    ⟨entry.id, entry.keyId, raw, keyHash raw, now - 3600000, none, none⟩
  .ok (db.insertRegistryRow entry now)

def isRegistryRoot (db : Database) (principalId : String) : Bool :=
  db.bootstrapIssuers.rows.any fun b =>
    b.principalId = principalId ∧ b.removedFromRegistryAt = none ∧ 0 < b.currentWeight

def deriveIsBootstrap (db : Database) : Database :=
  let derived := db.issuers.mapRows
    (fun i => ⟨i.principalId, i.trustWeight, some (db.isRegistryRoot i.principalId)⟩)
    fun _ _ h => h
  { db with issuers := derived }

def upsertSeedSubject (db : Database) (agent : SeedAgentEntry) : Except String Database := do
  db.checkSeedPrincipal agent.id agent.name agent.entityKind
  match (db.findPrincipal agent.id).bind PrincipalRow.ownerTenantId with
  | some t => .error ("bootstrap seed conflict: principal " ++ agent.id ++ " is owned by tenant " ++
      t.text ++ ", seed agents must be unowned")
  | none => .ok (db.insertPrincipal ⟨agent.id, agent.entityKind, some agent.name, none, .active⟩)

/-- The signed token depends on the agent only, so its digest is taken exactly when the agent
already has its seed attestation. -/
def insertSeedAttestation (db : Database) (issuerId : String) (agent : SeedAgentEntry) (id : Uuid) :
    Except String Database :=
  if ∃ a ∈ db.attestations.rows, a.bootstrapOrigin = true ∧ a.subjectId = agent.id then .ok db
  else
    match db.attestations.insert?
      ⟨id, issuerId, agent.id, agent.trustDelta, 1785542400000, none, agent.attestationType, none,
        .isPublic, none, true⟩ with
    | none => .error "duplicate key value violates unique constraint \"attestations_pkey\""
    | some rows => .ok { db with attestations := rows }

def seedAgent (attestationId : String → Uuid) (db : Database) (agent : SeedAgentEntry) :
    Except String Database := do
  let db ← db.upsertSeedSubject agent
  db.insertSeedAttestation "vrl:p:11111111-1111-4111-8111-111111111111" agent
    (attestationId agent.id)

/-- The whole seed in one transaction; the attestations are skipped where the private key of
the bootstrap issuer is not configured. -/
def seedBootstrapRegistry (keyHash : List UInt8 → String) (attestationId : Option (String → Uuid))
    (now : Timestamp) (db : Database) : Except String Database := do
  let db ← SEED_ISSUERS.foldlM (upsertSeedIssuer keyHash now) db
  let db := db.deriveIsBootstrap
  match attestationId with
  | none => .ok db
  | some ids => SEED_AGENTS.foldlM (seedAgent ids) db

structure RegisteredKey (now : Timestamp) (db : Database) (k : PrincipalKeyRow) : Prop where
  validFrom : k.validFrom = now ∨ k.validFrom = now - 3600000
  validUntil : k.validUntil = none
  revokedAt : k.revokedAt = none
  principal : ∃ p ∈ db.principals.rows, p.id = k.principalId

/-- All that a write of this module does: principals and keys are added, and neither scores,
policies nor the sync log change. -/
structure RegistryWrite (now : Timestamp) (db db' : Database) : Prop where
  networkScores : db'.networkScores = db.networkScores
  policies : db'.policies = db.policies
  syncEvents : db'.syncEvents = db.syncEvents
  principals_kept : ∀ p ∈ db.principals.rows, p ∈ db'.principals.rows
  principals_named : ∀ p ∈ db'.principals.rows, p ∈ db.principals.rows ∨ p.id ≠ ""
  keys : ∃ added, db'.principalKeys.rows = db.principalKeys.rows ++ added ∧
    ∀ k ∈ added, RegisteredKey now db' k

theorem RegistryWrite.refl (now : Timestamp) (db : Database) : RegistryWrite now db db :=
  ⟨rfl, rfl, rfl, fun _ h => h, fun _ h => .inl h, [], by simp, by simp⟩

variable {now : Timestamp} {db db' : Database}

theorem RegistryWrite.trans {a b c : Database} (hab : RegistryWrite now a b)
    (hbc : RegistryWrite now b c) :
    RegistryWrite now a c := by
  obtain ⟨added, hrows, hadded⟩ := hab.keys
  obtain ⟨added', hrows', hadded'⟩ := hbc.keys
  refine ⟨hbc.networkScores.trans hab.networkScores, hbc.policies.trans hab.policies,
    hbc.syncEvents.trans hab.syncEvents, fun p hp => hbc.principals_kept p (hab.principals_kept p hp),
    ?_, added ++ added', by rw [hrows', hrows, List.append_assoc], ?_⟩
  · intro p hp
    rcases hbc.principals_named p hp with hb | hne
    · exact hab.principals_named p hb
    · exact .inr hne
  · intro k hk
    rcases List.mem_append.mp hk with hk | hk
    · obtain ⟨hfrom, huntil, hrevoked, p, hp, hid⟩ := hadded k hk
      exact ⟨hfrom, huntil, hrevoked, p, hbc.principals_kept p hp, hid⟩
    · exact hadded' k hk

theorem RegistryWrite.of_frame (hscores : db'.networkScores = db.networkScores)
    (hpolicies : db'.policies = db.policies) (hevents : db'.syncEvents = db.syncEvents)
    (hprincipals : db'.principals = db.principals) (hkeys : db'.principalKeys = db.principalKeys) :
    RegistryWrite now db db' :=
  ⟨hscores, hpolicies, hevents, by simp [hprincipals], fun p hp => .inl (hprincipals ▸ hp), [],
    by simp [hkeys], by simp⟩

theorem insertPrincipal_write (now : Timestamp) (db : Database) (row : PrincipalRow)
    (hid : row.id ≠ "") : RegistryWrite now db (db.insertPrincipal row) := by
  unfold insertPrincipal
  cases hins : db.principals.insert? row with
  | none => exact RegistryWrite.refl now db
  | some principals =>
    have hrows := ((Table.insert?_eq_some_iff _ _ _).mp hins).2
    refine ⟨rfl, rfl, rfl, ?_, ?_, [], by simp, by simp⟩
    · intro p hp
      exact hrows ▸ List.mem_append_left _ hp
    · intro p hp
      rcases List.mem_append.mp (hrows ▸ hp) with hp | hp
      · exact .inl hp
      · rw [List.mem_singleton.mp hp]
        exact .inr hid

theorem mem_insertPrincipal (db : Database) (row : PrincipalRow) :
    ∃ p ∈ (db.insertPrincipal row).principals.rows, p.id = row.id := by
  unfold insertPrincipal
  by_cases hfresh : ∀ p ∈ db.principals.rows, ¬ p.id = row.id
  · obtain ⟨principals, hins⟩ := db.principals.exists_insert? row hfresh
    have hrows := ((Table.insert?_eq_some_iff _ _ _).mp hins).2
    rw [hins]
    exact ⟨row, by show row ∈ principals.rows; rw [hrows]; simp, rfl⟩
  · simp only [not_forall, not_not] at hfresh
    obtain ⟨p, hp, hid⟩ := hfresh
    cases hins : db.principals.insert? row with
    | none => exact ⟨p, hp, hid⟩
    | some principals =>
      exact absurd hid (((Table.insert?_eq_some_iff _ _ _).mp hins).1 p hp)

theorem createTenant_write (now : Timestamp) (db : Database) (id : Uuid) :
    RegistryWrite now db (db.createTenant id) := by
  unfold createTenant
  split_ifs
  · exact RegistryWrite.refl now db
  · exact RegistryWrite.of_frame rfl rfl rfl rfl rfl

theorem createPrincipal_write (now : Timestamp) {uuid : Uuid} {entityKind : PrincipalKind}
    {owner : Option Uuid}
    {name : Option String} (h : db.createPrincipal uuid entityKind owner name = .ok db') :
    RegistryWrite now db db' := by
  unfold createPrincipal at h
  split_ifs at h
  cases h
  apply insertPrincipal_write
  intro hempty
  have := congrArg String.length hempty
  simp at this

theorem insertKey_write (now : Timestamp) (db : Database) (row : PrincipalKeyRow)
    (keys : Table PrincipalKeyRow PrincipalKeyRow.Conflict)
    (hins : db.principalKeys.insert? row = some keys)
    (hfrom : row.validFrom = now ∨ row.validFrom = now - 3600000) (huntil : row.validUntil = none)
    (hrevoked : row.revokedAt = none) (hp : ∃ p ∈ db.principals.rows, p.id = row.principalId) :
    RegistryWrite now db { db with principalKeys := keys } := by
  have hrows := ((Table.insert?_eq_some_iff _ _ _).mp hins).2
  refine ⟨rfl, rfl, rfl, fun _ h => h, fun _ h => .inl h, [row], hrows, ?_⟩
  intro k hk
  rw [List.mem_singleton.mp hk]
  exact ⟨hfrom, huntil, hrevoked, hp⟩

theorem keyRefusal_eq_none {keyId keyHash : String} {jwk : Option (List (String × Json))} :
    keyRefusal keyId keyHash jwk = none ↔ ∃ members, jwk = some members ∧ storable keyId = true ∧
      storable keyHash = true ∧ (Json.texts (.obj members)).all storable = true := by
  cases jwk with
  | none => simp [keyRefusal]
  | some members => simp [keyRefusal]

variable {principalId keyId keyHash : String} {raw : List UInt8} {jwk : Option (List (String × Json))}

theorem addKey_eq_ok :
    db.addKey principalId keyId raw jwk keyHash now = .ok db' ↔
      ((∃ p ∈ db.principals.rows, p.id = principalId) ∧ keyRefusal keyId keyHash jwk = none) ∧
        ∃ keys, db.principalKeys.insert? ⟨principalId, keyId, raw, keyHash, now, none, none⟩ =
          some keys ∧
          db' = { db with principalKeys := keys } := by
  have hstored : (∃ p ∈ db.principals.rows, p.id = principalId) ↔
      ¬ (db.findPrincipal principalId).isNone := by
    rw [Option.isNone_iff_eq_none, ← ne_eq, Option.ne_none_iff_exists']
    simp only [findPrincipal_eq_some_iff]
  rw [addKey, hstored]
  split_ifs with hmissing
  · simp [hmissing]
  · cases hrefused : keyRefusal keyId keyHash jwk with
    | some message => simp
    | none =>
      cases db.principalKeys.insert? ⟨principalId, keyId, raw, keyHash, now, none, none⟩ with
      | none => simp
      | some keys => simp [hmissing, eq_comm]

theorem addKey_write (h : db.addKey principalId keyId raw jwk keyHash now = .ok db') :
    RegistryWrite now db db' := by
  obtain ⟨⟨hstored, -⟩, keys, hins, rfl⟩ := addKey_eq_ok.mp h
  exact insertKey_write now db _ keys hins (.inl rfl) rfl rfl hstored

theorem insertSeedKey_write (now : Timestamp) {row : PrincipalKeyRow}
    (hfrom : row.validFrom = now - 3600000)
    (huntil : row.validUntil = none) (hrevoked : row.revokedAt = none)
    (hp : ∃ p ∈ db.principals.rows, p.id = row.principalId) (h : db.insertSeedKey row = .ok db') :
    RegistryWrite now db db' := by
  unfold insertSeedKey at h
  by_cases hthere : ∃ k ∈ db.principalKeys.rows, k.principalId = row.principalId ∧ k.keyId = row.keyId
  · rw [if_pos hthere] at h
    cases h
    exact RegistryWrite.refl now db
  · rw [if_neg hthere] at h
    split at h
    · cases h
    · next keys hins =>
      cases h
      exact insertKey_write now db row keys hins (.inr hfrom) huntil hrevoked hp

theorem insertSeedIssuerRow_write (now : Timestamp) (db : Database) (principalId : String) :
    RegistryWrite now db (db.insertSeedIssuerRow principalId) := by
  unfold insertSeedIssuerRow
  split
  · exact RegistryWrite.refl now db
  · exact RegistryWrite.of_frame rfl rfl rfl rfl rfl

theorem insertRegistryRow_write (now : Timestamp) (db : Database) (entry : SeedIssuerEntry) :
    RegistryWrite now db (db.insertRegistryRow entry now) := by
  unfold insertRegistryRow
  split
  · exact RegistryWrite.refl now db
  · exact RegistryWrite.of_frame rfl rfl rfl rfl rfl

theorem upsertSeedIssuer_write {keyHash : List UInt8 → String} {entry : SeedIssuerEntry}
    (hid : entry.id ≠ "")
    (h : upsertSeedIssuer keyHash now db entry = .ok db') : RegistryWrite now db db' := by
  obtain ⟨-, h⟩ := seq_eq_ok.mp h
  obtain ⟨-, h⟩ := seq_eq_ok.mp h
  obtain ⟨keyed, hkey, h⟩ := bind_eq_ok.mp h
  cases h
  have hprincipal :=
    db.insertPrincipal_write now ⟨entry.id, entry.entityKind, some entry.name, none, .active⟩ hid
  have hissuer := (db.insertPrincipal ⟨entry.id, entry.entityKind, some entry.name, none,
    .active⟩).insertSeedIssuerRow_write now entry.id
  obtain ⟨p, hp, hpid⟩ :=
    db.mem_insertPrincipal ⟨entry.id, entry.entityKind, some entry.name, none, .active⟩
  have hseed := insertSeedKey_write now rfl rfl rfl ⟨p, hissuer.principals_kept p hp, hpid⟩ hkey
  exact ((hprincipal.trans hissuer).trans hseed).trans (insertRegistryRow_write now keyed entry)

theorem seedAgent_write (now : Timestamp) {ids : String → Uuid} {agent : SeedAgentEntry}
    (hid : agent.id ≠ "") (h : seedAgent ids db agent = .ok db') :
    RegistryWrite now db db' := by
  obtain ⟨subject, hsubject, h⟩ := bind_eq_ok.mp h
  have hfirst : RegistryWrite now db subject := by
    obtain ⟨-, hsubject⟩ := seq_eq_ok.mp hsubject
    split at hsubject
    · cases hsubject
    · cases hsubject
      exact db.insertPrincipal_write now _ hid
  apply hfirst.trans
  unfold insertSeedAttestation at h
  split_ifs at h
  · cases h
    exact RegistryWrite.refl now db'
  · split at h
    · cases h
    · cases h
      exact RegistryWrite.of_frame rfl rfl rfl rfl rfl

theorem seedBootstrapRegistry_write {keyHash : List UInt8 → String}
    {attestationId : Option (String → Uuid)}
    (h : seedBootstrapRegistry keyHash attestationId now db = .ok db') :
    RegistryWrite now db db' := by
  obtain ⟨seeded, hissuers, h⟩ := bind_eq_ok.mp h
  have hfirst : RegistryWrite now db seeded := by
    apply foldlM_ok_of_mem _ (RegistryWrite now db) SEED_ISSUERS _ db seeded
      (RegistryWrite.refl now db) hissuers
    intro s entry s' hentry hs hstep
    have hid : ∀ e ∈ SEED_ISSUERS, e.id ≠ "" := by decide
    exact hs.trans (upsertSeedIssuer_write (hid entry hentry) hstep)
  have hderived : RegistryWrite now seeded seeded.deriveIsBootstrap :=
    RegistryWrite.of_frame rfl rfl rfl rfl rfl
  cases attestationId with
  | none =>
    cases h
    exact hfirst.trans hderived
  | some ids =>
    apply foldlM_ok_of_mem _ (RegistryWrite now db) SEED_AGENTS _ _ db' (hfirst.trans hderived) h
    intro s agent s' hagent hs hstep
    have hid : ∀ a ∈ SEED_AGENTS, a.id ≠ "" := by decide
    exact hs.trans (seedAgent_write now (hid agent hagent) hstep)

end Database

end Verilink.ControlPlane

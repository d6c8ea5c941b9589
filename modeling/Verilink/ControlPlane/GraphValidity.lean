import Verilink.ControlPlane.Graph
import Verilink.ControlPlane.Registry
import Verilink.Framework.JsValue
import Verilink.Framework.Runs
import Verilink.Trust.StreamOrder

/-!
# Loaded graphs and the checks of the trust engine

The loader selects and overrides rows with SQL; the server checks references, kinds, weights and
duplicates on its own.
-/

namespace Verilink.ControlPlane

open Verilink.Framework

def assertTrustWeightInRange : Option (JsNumber ℚ) → Except String Unit
  | none => .ok ()
  | some n =>
    ensure ((n.toFinite 0).any fun w => 0 ≤ w ∧ w ≤ 1) "trust_weight must be a finite number in [0,1]"

/-- A number as a `NUMERIC(3,2)` column stores it: halves are rounded away from zero. -/
def toHundredths (w : ℚ) : ℚ := (Trust.mathRound (w * 100) : ℚ) / 100

namespace Database

def updatePrincipal (db : Database) (id : String) (entityKind : PrincipalKind) : Database :=
  let updated := db.principals.mapRows
    (fun p => ⟨p.id, if p.id = id then entityKind else p.entityKind, p.name, p.ownerTenantId,
      p.status⟩)
    fun _ _ h => h
  { db with principals := updated }

def upsertIssuer (db : Database) (principalId : String) (trustWeight : ℚ) : Database :=
  match db.issuers.insert? ⟨principalId, trustWeight, some false⟩ with
  | some issuers => { db with issuers := issuers }
  | none =>
    let updated := db.issuers.mapRows
      (fun i => ⟨i.principalId, if i.principalId = principalId then trustWeight else i.trustWeight,
        i.isBootstrap⟩)
      fun _ _ h => h
    { db with issuers := updated }

/-- `createIssuer` of the repository; without a weight the row keeps the one it has. -/
def insertIssuer (db : Database) (principalId : String) (trustWeight : Option (JsNumber ℚ)) : Database :=
  match trustWeight.bind (JsNumber.toFinite 0) with
  | some w => db.upsertIssuer principalId (toHundredths w)
  | none => db.insertSeedIssuerRow principalId

def createIssuer (db : Database) (principalId : String) (trustWeight : Option (JsNumber ℚ)) :
    Except String Database := do
  assertTrustWeightInRange trustWeight
  match db.findPrincipal principalId with
  | none => .error ("Principal " ++ principalId ++ " not found")
  | some p =>
    let db := if p.entityKind = .agent then db.updatePrincipal principalId .both else db
    .ok (db.insertIssuer principalId trustWeight)

/-- The constraints of the migrations beyond the keys, which the tables carry. -/
structure SchemaOk (db : Database) : Prop where
  issuerWeights : ∀ i ∈ db.issuers.rows, 0 ≤ i.trustWeight ∧ i.trustWeight ≤ 1
  rootWeights : ∀ b ∈ db.bootstrapIssuers.rows, 0 ≤ b.currentWeight ∧ b.currentWeight ≤ 1
  issuerPrincipals : ∀ i ∈ db.issuers.rows, ∃ p ∈ db.principals.rows, p.id = i.principalId
  rootIssuers : ∀ b ∈ db.bootstrapIssuers.rows, ∃ i ∈ db.issuers.rows,
    i.principalId = b.principalId
  attestationIssuers : ∀ a ∈ db.attestations.rows, ∃ i ∈ db.issuers.rows,
    i.principalId = a.issuerId
  attestationSubjects : ∀ a ∈ db.attestations.rows, ∃ p ∈ db.principals.rows, p.id = a.subjectId
  trustDeltas : ∀ a ∈ db.attestations.rows, -100 ≤ a.trustDelta ∧ a.trustDelta ≤ 100
  deltaSigns : ∀ a ∈ db.attestations.rows,
    (a.attestationType = "negative_incident" ∧ a.trustDelta < 0) ∨
      (a.attestationType ≠ "negative_incident" ∧ 0 ≤ a.trustDelta)

structure OtherWrite (db db' : Database) : Prop where
  issuers : ∀ i' ∈ db'.issuers.rows, ∃ i ∈ db.issuers.rows, i.principalId = i'.principalId
  kinds : ∀ p ∈ db.principals.rows, ∀ p' ∈ db'.principals.rows, p'.id = p.id →
    p.entityKind ≠ .agent → p'.entityKind ≠ .agent

end Database

inductive IssuerWrite
  | createIssuer (principalId : String) (trustWeight : Option (JsNumber ℚ))
  | seed (keyHash : List UInt8 → String) (attestationId : Option (String → Uuid)) (now : Timestamp)
  | other

/-- Databases whose issuer rows come from `createIssuer` and the seeder. A write after which a
constraint fails is rolled back, so no step is made. -/
def issuerWrites : System Database IssuerWrite where
  init db := db.SchemaOk ∧ db.issuers.rows = []
  step db write db' := db'.SchemaOk ∧
    match write with
    | .createIssuer principalId trustWeight => db.createIssuer principalId trustWeight = .ok db'
    | .seed keyHash attestationId now =>
      db.seedBootstrapRegistry keyHash attestationId now = .ok db'
    | .other => db.OtherWrite db'

namespace Database

/-- Every issuer row belongs to a principal that may issue. -/
def IssuersKnown (db : Database) : Prop :=
  ∀ i ∈ db.issuers.rows, ∃ p ∈ db.principals.rows, p.id = i.principalId ∧ p.entityKind ≠ .agent

variable {db db' : Database} {i' : IssuerRow}

theorem IssuersKnown.of_write (h : db.IssuersKnown)
    (hprincipals : ∀ p ∈ db.principals.rows, p.entityKind ≠ .agent →
      ∃ p' ∈ db'.principals.rows, p'.id = p.id ∧ p'.entityKind ≠ .agent)
    (hissuers : ∀ i' ∈ db'.issuers.rows, (∃ i ∈ db.issuers.rows, i.principalId = i'.principalId) ∨
      ∃ p' ∈ db'.principals.rows, p'.id = i'.principalId ∧ p'.entityKind ≠ .agent) :
    db'.IssuersKnown := by
  intro i' hi'
  rcases hissuers i' hi' with ⟨i, hi, hid⟩ | hknown
  · obtain ⟨p, hp, hpid, hkind⟩ := h i hi
    obtain ⟨p', hp', hpid', hkind'⟩ := hprincipals p hp hkind
    exact ⟨p', hp', (hpid'.trans hpid).trans hid, hkind'⟩
  · exact hknown

theorem IssuersKnown.of_frame (h : db.IssuersKnown)
    (hprincipals : ∀ p ∈ db.principals.rows, p ∈ db'.principals.rows)
    (hissuers : db'.issuers = db.issuers) : db'.IssuersKnown := by
  apply h.of_write
  · exact fun p hp hkind => ⟨p, hprincipals p hp, rfl, hkind⟩
  · exact fun i' hi' => .inl ⟨i', hissuers ▸ hi', rfl⟩

theorem mem_insertSeedIssuerRow (db : Database) (principalId : String)
    (h : i' ∈ (db.insertSeedIssuerRow principalId).issuers.rows) :
    i' ∈ db.issuers.rows ∨ i'.principalId = principalId := by
  unfold insertSeedIssuerRow at h
  split at h
  · exact .inl h
  · next issuers hins =>
    rw [((Table.insert?_eq_some_iff _ _ _).mp hins).2, List.mem_append, List.mem_singleton] at h
    rcases h with h | rfl
    · exact .inl h
    · exact .inr rfl

theorem mem_upsertIssuer (db : Database) (principalId : String) (trustWeight : ℚ)
    (h : i' ∈ (db.upsertIssuer principalId trustWeight).issuers.rows) :
    (∃ i ∈ db.issuers.rows, i.principalId = i'.principalId) ∨ i'.principalId = principalId := by
  unfold upsertIssuer at h
  split at h
  · next issuers hins =>
    rw [((Table.insert?_eq_some_iff _ _ _).mp hins).2, List.mem_append, List.mem_singleton] at h
    rcases h with h | rfl
    · exact .inl ⟨i', h, rfl⟩
    · exact .inr rfl
  · obtain ⟨i, hi, rfl⟩ := List.mem_map.mp h
    exact .inl ⟨i, hi, rfl⟩

theorem mem_insertIssuer (db : Database) (principalId : String) (trustWeight : Option (JsNumber ℚ))
    (h : i' ∈ (db.insertIssuer principalId trustWeight).issuers.rows) :
    (∃ i ∈ db.issuers.rows, i.principalId = i'.principalId) ∨ i'.principalId = principalId := by
  unfold insertIssuer at h
  split at h
  · exact db.mem_upsertIssuer principalId _ h
  · exact (db.mem_insertSeedIssuerRow principalId h).imp_left fun hi => ⟨i', hi, rfl⟩

@[simp]
theorem principals_insertSeedIssuerRow (db : Database) (principalId : String) :
    (db.insertSeedIssuerRow principalId).principals = db.principals := by
  unfold insertSeedIssuerRow
  split <;> rfl

@[simp]
theorem principals_insertIssuer (db : Database) (principalId : String)
    (trustWeight : Option (JsNumber ℚ)) :
    (db.insertIssuer principalId trustWeight).principals = db.principals := by
  unfold insertIssuer
  split
  · unfold upsertIssuer
    split <;> rfl
  · exact db.principals_insertSeedIssuerRow principalId

theorem IssuersKnown.createIssuer (h : db.IssuersKnown) {principalId : String}
    {trustWeight : Option (JsNumber ℚ)}
    (hcreate : db.createIssuer principalId trustWeight = .ok db') :
    db'.IssuersKnown := by
  obtain ⟨-, hcreate⟩ := seq_eq_ok.mp hcreate
  cases hfind : db.findPrincipal principalId with
  | none =>
    rw [hfind] at hcreate
    cases hcreate
  | some p =>
    rw [hfind] at hcreate
    cases hcreate
    obtain ⟨hp, hpid⟩ := (db.findPrincipal_eq_some_iff principalId p).mp hfind
    by_cases hagent : p.entityKind = .agent
    · rw [if_pos hagent]
      -- The update turns every row of the id into `both` and keeps the others.
      have hmem : ∀ q ∈ db.principals.rows,
          ⟨q.id, if q.id = principalId then .both else q.entityKind, q.name, q.ownerTenantId,
            q.status⟩ ∈ ((db.updatePrincipal principalId .both).insertIssuer principalId
              trustWeight).principals.rows := by
        intro q hq
        rw [principals_insertIssuer]
        exact List.mem_map_of_mem hq
      apply h.of_write
      · intro q hq hkind
        refine ⟨_, hmem q hq, rfl, ?_⟩
        by_cases hid : q.id = principalId <;> simp [hid, hkind]
      · intro i' hi'
        rcases mem_insertIssuer _ principalId trustWeight hi' with hold | hnew
        · exact .inl hold
        · exact .inr ⟨_, hmem p hp, hpid.trans hnew.symm, by simp [hpid]⟩
    · rw [if_neg hagent]
      apply h.of_write
      · intro q hq hkind
        exact ⟨q, by rwa [principals_insertIssuer], rfl, hkind⟩
      · intro i' hi'
        rcases db.mem_insertIssuer principalId trustWeight hi' with hold | hnew
        · exact .inl hold
        · exact .inr ⟨p, by rwa [principals_insertIssuer], hpid.trans hnew.symm, hagent⟩

theorem mem_insertPrincipal_of_check (db : Database) {id name : String} {kind : PrincipalKind}
    {owner : Option Uuid} {status : PrincipalStatus}
    (h : db.checkSeedPrincipal id name kind = .ok ()) :
    ∃ p ∈ (db.insertPrincipal ⟨id, kind, some name, owner, status⟩).principals.rows,
      p.id = id ∧ p.entityKind = kind := by
  unfold insertPrincipal
  cases hins : db.principals.insert? ⟨id, kind, some name, owner, status⟩ with
  | some principals =>
    refine ⟨⟨id, kind, some name, owner, status⟩, ?_, rfl, rfl⟩
    show _ ∈ principals.rows
    rw [((Table.insert?_eq_some_iff _ _ _).mp hins).2]
    exact List.mem_append_right _ (List.mem_singleton_self _)
  | none =>
    unfold checkSeedPrincipal at h
    cases hfind : db.findPrincipal id with
    | none =>
      have hfresh : ∀ p ∈ db.principals.rows, ¬ p.id = id := by
        simpa [findPrincipal] using hfind
      obtain ⟨principals, hsome⟩ :=
        db.principals.exists_insert? ⟨id, kind, some name, owner, status⟩ hfresh
      cases hins.symm.trans hsome
    | some p =>
      simp only [hfind] at h
      split_ifs at h with hkind
      rw [not_or, not_not] at hkind
      obtain ⟨hp, hid⟩ := (db.findPrincipal_eq_some_iff id p).mp hfind
      exact ⟨p, hp, hid, hkind.1⟩

theorem insertPrincipal_issuers (db : Database) (row : PrincipalRow) :
    (db.insertPrincipal row).issuers = db.issuers := by
  unfold insertPrincipal
  split <;> rfl

theorem insertSeedKey_frame {row : PrincipalKeyRow} (h : db.insertSeedKey row = .ok db') :
    db'.principals = db.principals ∧ db'.issuers = db.issuers := by
  unfold insertSeedKey at h
  split_ifs at h
  · cases h
    exact ⟨rfl, rfl⟩
  · split at h
    · cases h
    · cases h
      exact ⟨rfl, rfl⟩

theorem insertRegistryRow_frame (db : Database) (entry : SeedIssuerEntry) (now : Timestamp) :
    (db.insertRegistryRow entry now).principals = db.principals ∧
      (db.insertRegistryRow entry now).issuers = db.issuers := by
  unfold insertRegistryRow
  split <;> exact ⟨rfl, rfl⟩

theorem IssuersKnown.upsertSeedIssuer (h : db.IssuersKnown) {keyHash : List UInt8 → String}
    {now : Timestamp}
    {entry : SeedIssuerEntry} (hid : entry.id ≠ "") (hkind : entry.entityKind ≠ .agent)
    (hseed : upsertSeedIssuer keyHash now db entry = .ok db') : db'.IssuersKnown := by
  obtain ⟨hcheck, hseed⟩ := seq_eq_ok.mp hseed
  obtain ⟨-, hseed⟩ := seq_eq_ok.mp hseed
  obtain ⟨keyed, hkey, hseed⟩ := bind_eq_ok.mp hseed
  cases hseed
  let row : PrincipalRow := ⟨entry.id, entry.entityKind, some entry.name, none, .active⟩
  have hkept := (db.insertPrincipal_write now row hid).principals_kept
  have hissued : ((db.insertPrincipal row).insertSeedIssuerRow entry.id).IssuersKnown := by
    apply h.of_write
    · intro p hp hpkind
      exact ⟨p, by rw [principals_insertSeedIssuerRow]; exact hkept p hp, rfl, hpkind⟩
    · intro i' hi'
      rcases mem_insertSeedIssuerRow _ entry.id hi' with hold | hnew
      · exact .inl ⟨i', by rwa [insertPrincipal_issuers] at hold, rfl⟩
      · obtain ⟨p, hp, hpid, hpkind⟩ := db.mem_insertPrincipal_of_check hcheck
        exact .inr ⟨p, by rwa [principals_insertSeedIssuerRow], hpid.trans hnew.symm, hpkind ▸ hkind⟩
  have hkeyed : keyed.IssuersKnown := by
    obtain ⟨hprincipals, hissuers⟩ := insertSeedKey_frame hkey
    exact hissued.of_frame (fun p hp => hprincipals ▸ hp) hissuers
  obtain ⟨hprincipals, hissuers⟩ := keyed.insertRegistryRow_frame entry now
  exact hkeyed.of_frame (fun p hp => hprincipals ▸ hp) hissuers

theorem IssuersKnown.deriveIsBootstrap (h : db.IssuersKnown) :
    db.deriveIsBootstrap.IssuersKnown := by
  apply h.of_write
  · exact fun p hp hkind => ⟨p, hp, rfl, hkind⟩
  · intro i' hi'
    obtain ⟨i, hi, rfl⟩ := List.mem_map.mp hi'
    exact .inl ⟨i, hi, rfl⟩

theorem seedAgent_issuers {ids : String → Uuid} {agent : SeedAgentEntry}
    (h : seedAgent ids db agent = .ok db') :
    db'.issuers = db.issuers := by
  obtain ⟨subject, hsubject, h⟩ := bind_eq_ok.mp h
  have hfirst : subject.issuers = db.issuers := by
    obtain ⟨-, hsubject⟩ := seq_eq_ok.mp hsubject
    split at hsubject
    · cases hsubject
    · cases hsubject
      exact db.insertPrincipal_issuers _
  rw [← hfirst]
  unfold insertSeedAttestation at h
  split_ifs at h
  · cases h
    rfl
  · split at h
    · cases h
    · cases h
      rfl

theorem IssuersKnown.seedBootstrapRegistry (h : db.IssuersKnown) {keyHash : List UInt8 → String}
    {attestationId : Option (String → Uuid)} {now : Timestamp}
    (hseed : seedBootstrapRegistry keyHash attestationId now db = .ok db') : db'.IssuersKnown := by
  obtain ⟨seeded, hissuers, hseed⟩ := bind_eq_ok.mp hseed
  have hfirst : seeded.IssuersKnown := by
    apply foldlM_ok_of_mem _ IssuersKnown SEED_ISSUERS _ db seeded h hissuers
    intro s entry s' hentry hs hstep
    have hentries : ∀ e ∈ SEED_ISSUERS, e.id ≠ "" ∧ e.entityKind ≠ .agent := by decide
    exact hs.upsertSeedIssuer (hentries entry hentry).1 (hentries entry hentry).2 hstep
  cases attestationId with
  | none =>
    cases hseed
    exact hfirst.deriveIsBootstrap
  | some ids =>
    apply foldlM_ok_of_mem _ IssuersKnown SEED_AGENTS _ _ db' hfirst.deriveIsBootstrap hseed
    intro s agent s' hagent hs hstep
    have hid : ∀ a ∈ SEED_AGENTS, a.id ≠ "" := by decide
    exact hs.of_frame (seedAgent_write now (hid agent hagent) hstep).principals_kept
      (seedAgent_issuers hstep)

theorem IssuersKnown.otherWrite (h : db.IssuersKnown) (hschema : db'.SchemaOk)
    (hwrite : db.OtherWrite db') :
    db'.IssuersKnown := by
  intro i' hi'
  obtain ⟨i, hi, hid⟩ := hwrite.issuers i' hi'
  obtain ⟨p, hp, hpid, hkind⟩ := h i hi
  obtain ⟨p', hp', hpid'⟩ := hschema.issuerPrincipals i' hi'
  exact ⟨p', hp', hpid', hwrite.kinds p hp p' hp' (by rw [hpid', hpid, hid]) hkind⟩

end Database

theorem issuerWrites_schemaOk {db : Database} (h : issuerWrites.Reachable db) : db.SchemaOk := by
  apply h.invariant
  · exact fun s hs => hs.1
  · exact fun s write t _ hstep => hstep.1

theorem issuerWrites_known {db : Database} (h : issuerWrites.Reachable db) : db.IssuersKnown := by
  apply h.invariant
  · intro s hs i hi
    rw [hs.2] at hi
    cases hi
  · intro s write t hs hstep
    cases write with
    | createIssuer principalId trustWeight => exact hs.createIssuer hstep.2
    | seed keyHash attestationId now => exact hs.seedBootstrapRegistry hstep.2
    | other => exact hs.otherWrite hstep.1 hstep.2

namespace Database

def neededIds (db : Database) (evaluationTime : Timestamp) : List String :=
  db.loadRoots.map GraphRoot.id ++
    (groupAttestationsForScoring (db.loadAttestations evaluationTime)).flatMap
      fun a => [a.issuerId, a.subjectId]

/-- An empty graph needs no branch of its own. -/
theorem loadAttestationGraph_eq (db : Database) (evaluationTime : Timestamp) :
    let principals := (db.principals.rows.filter fun p =>
      decide (p.id ∈ db.neededIds evaluationTime) && decide (p.status = .active)).map
        (db.graphPrincipal (db.loadRoots.map GraphRoot.id))
    db.loadAttestationGraph evaluationTime =
      ⟨principals, db.loadRoots.filter fun r => decide (r.id ∈ principals.map GraphPrincipal.id),
        (groupAttestationsForScoring (db.loadAttestations evaluationTime)).filter fun a =>
          decide (a.issuerId ∈ principals.map GraphPrincipal.id ∧
            a.subjectId ∈ principals.map GraphPrincipal.id), db.networkScores.rows.length⟩ := by
  by_cases hempty : db.neededIds evaluationTime = []
  · have hroots : db.loadRoots = [] := List.map_eq_nil_iff.mp (List.append_eq_nil_iff.mp hempty).1
    have hattestations : groupAttestationsForScoring (db.loadAttestations evaluationTime) = [] := by
      have hflat := (List.append_eq_nil_iff.mp hempty).2
      rw [List.flatMap_eq_nil_iff] at hflat
      apply List.eq_nil_iff_forall_not_mem.mpr
      intro a ha
      cases hflat a ha
    unfold neededIds at hempty
    simp [loadAttestationGraph, neededIds, hroots, hattestations]
  · unfold neededIds at hempty
    simp only [loadAttestationGraph, if_neg hempty]
    rfl

variable (db : Database) (evaluationTime : Timestamp)

theorem mem_graph_principals (p : GraphPrincipal) :
    p ∈ (db.loadAttestationGraph evaluationTime).principals ↔
      ∃ row ∈ db.principals.rows, (row.id ∈ db.neededIds evaluationTime ∧ row.status = .active) ∧
        db.graphPrincipal (db.loadRoots.map GraphRoot.id) row = p := by
  simp [loadAttestationGraph_eq, and_assoc]

theorem mem_graph_roots (r : GraphRoot) : r ∈ (db.loadAttestationGraph evaluationTime).roots ↔
    r ∈ db.loadRoots ∧
        ∃ p ∈ (db.loadAttestationGraph evaluationTime).principals, p.id = r.id := by
  simp only [loadAttestationGraph_eq, List.mem_filter, decide_eq_true_eq,
    List.mem_map (f := GraphPrincipal.id)]

theorem mem_graph_attestations (a : AttestationRow)
    (h : a ∈ (db.loadAttestationGraph evaluationTime).attestations) :
    (a ∈ db.attestations.rows ∧ evaluationTime - halfLivesMs < a.issuedAt) ∧
      (∃ p ∈ (db.loadAttestationGraph evaluationTime).principals, p.id = a.issuerId) ∧
      ∃ p ∈ (db.loadAttestationGraph evaluationTime).principals, p.id = a.subjectId := by
  simp only [loadAttestationGraph_eq, List.mem_filter, decide_eq_true_eq,
    List.mem_map (f := GraphPrincipal.id)] at h ⊢
  refine ⟨?_, h.2⟩
  have hloaded := mem_of_mem_grouped h.1
  rw [loadAttestations, List.mem_filter] at hloaded
  simp only [Bool.and_eq_true, decide_eq_true_eq] at hloaded
  exact ⟨hloaded.1, hloaded.2.2⟩

theorem graph_principalIds_nodup :
    ((db.loadAttestationGraph evaluationTime).principals.map GraphPrincipal.id).Nodup := by
  rw [loadAttestationGraph_eq, List.map_map]
  exact (db.principals.filter _).nodup_map _ fun _ _ h => h

theorem loadRoots_ids_nodup : (db.loadRoots.map GraphRoot.id).Nodup := by
  rw [loadRoots, List.map_map]
  exact (db.bootstrapIssuers.filter _).nodup_map _ fun _ _ h => h

theorem mem_neededIds (id : String) : id ∈ db.neededIds evaluationTime ↔
    (∃ r ∈ db.loadRoots, r.id = id) ∨
      ∃ a ∈ groupAttestationsForScoring (db.loadAttestations evaluationTime),
        id = a.issuerId ∨ id = a.subjectId := by
  simp [neededIds]

theorem exists_graph_principal {id : String}
    (hneeded : id ∈ db.neededIds evaluationTime) (hactive : db.isActivePrincipal id = true) :
    ∃ p ∈ (db.loadAttestationGraph evaluationTime).principals, p.id = id := by
  obtain ⟨row, hrow, hid⟩ := List.any_eq_true.mp hactive
  obtain ⟨rfl, hstatus⟩ := of_decide_eq_true hid
  exact ⟨_, (db.mem_graph_principals evaluationTime _).mpr ⟨row, hrow, ⟨hneeded, hstatus⟩, rfl⟩, rfl⟩

/-- The joins have dropped inactive roots already. -/
theorem graph_roots :
    (db.loadAttestationGraph evaluationTime).roots = db.loadRoots := by
  have hall : ∀ r ∈ db.loadRoots, r ∈ (db.loadAttestationGraph evaluationTime).roots := by
    intro r hr
    refine (db.mem_graph_roots evaluationTime r).mpr ⟨hr, ?_⟩
    apply db.exists_graph_principal evaluationTime
    · exact (db.mem_neededIds evaluationTime r.id).mpr (.inl ⟨r, hr, rfl⟩)
    · obtain ⟨b, hb, rfl⟩ := List.mem_map.mp hr
      have hjoined := (List.mem_filter.mp hb).2
      simp only [Bool.and_eq_true] at hjoined
      exact hjoined.1.1.2
  rw [loadAttestationGraph_eq] at hall ⊢
  exact List.filter_eq_self.mpr fun r hr => (List.mem_filter.mp (hall r hr)).2

theorem graph_attestations : (db.loadAttestationGraph evaluationTime).attestations =
      groupAttestationsForScoring (db.loadAttestations evaluationTime) := by
  have hall : ∀ a ∈ groupAttestationsForScoring (db.loadAttestations evaluationTime),
      (∃ p ∈ (db.loadAttestationGraph evaluationTime).principals, p.id = a.issuerId) ∧
        ∃ p ∈ (db.loadAttestationGraph evaluationTime).principals, p.id = a.subjectId := by
    intro a ha
    have hjoined := (List.mem_filter.mp (mem_of_mem_grouped ha)).2
    simp only [Bool.and_eq_true] at hjoined
    constructor
    · exact db.exists_graph_principal evaluationTime
        ((db.mem_neededIds evaluationTime _).mpr (.inr ⟨a, ha, .inl rfl⟩)) hjoined.1.1.1.1
    · exact db.exists_graph_principal evaluationTime
        ((db.mem_neededIds evaluationTime _).mpr (.inr ⟨a, ha, .inr rfl⟩)) hjoined.1.1.1.2
  rw [loadAttestationGraph_eq] at hall ⊢
  apply List.filter_eq_self.mpr
  intro a ha
  simpa only [decide_eq_true_eq, List.mem_map] using hall a ha

theorem graphPrincipal_weight (h : db.SchemaOk) (rootIds : List String) (p : PrincipalRow) :
    0 ≤ (db.graphPrincipal rootIds p).trustWeight ∧ (db.graphPrincipal rootIds p).trustWeight ≤ 1 := by
  unfold graphPrincipal
  by_cases hroot : p.id ∈ rootIds
  · simp [hroot]
  · cases hfind : db.issuers.rows.find? fun i => i.principalId = p.id with
    | none => simp [hroot]
    | some i =>
      have hi := h.issuerWeights i (List.mem_of_find?_eq_some hfind)
      simpa [hroot, hfind] using hi

theorem toUnix_pos (t : Int) (h : 1000 ≤ t) : 0 < toUnix t := by
  change 0 < t / 1000
  omega

/-- From 1975 on, what is issued after the half-life cutoff is issued after the Unix epoch. -/
theorem toUnix_issuedAt_pos {evaluationTime issuedAt : Timestamp}
    (ht : 157766400000 ≤ evaluationTime) (h : evaluationTime - halfLivesMs < issuedAt) :
    0 < toUnix issuedAt := by
  apply toUnix_pos
  unfold halfLivesMs at h
  linarith

theorem loadAttestationGraph_valid (hschema : db.SchemaOk)
    (hknown : db.IssuersKnown) (evaluationTime : Timestamp) (ht : 157766400000 ≤ evaluationTime)
    (hids : ∀ p ∈ (db.loadAttestationGraph evaluationTime).principals, p.id ≠ "") :
    (db.loadAttestationGraph evaluationTime).Valid evaluationTime where
  time := (toUnix_pos _ (le_trans (by norm_num) ht)).ne'
  principalIds := db.graph_principalIds_nodup evaluationTime
  principals := by
    intro p hp
    refine ⟨hids p hp, ?_⟩
    obtain ⟨row, -, -, rfl⟩ := (db.mem_graph_principals evaluationTime p).mp hp
    exact db.graphPrincipal_weight hschema _ row
  rootIds := by
    rw [graph_roots]
    exact db.loadRoots_ids_nodup
  roots := by
    intro r hr
    obtain ⟨hroot, p, hp, hpid⟩ := (db.mem_graph_roots evaluationTime r).mp hr
    have hmem : r.id ∈ db.loadRoots.map GraphRoot.id := List.mem_map_of_mem hroot
    obtain ⟨b, hb, rfl⟩ := List.mem_map.mp hroot
    have hweight := hschema.rootWeights b (List.mem_filter.mp hb).1
    refine ⟨hpid ▸ hids p hp, hweight.1, hweight.2, p, hp, hpid, ?_⟩
    obtain ⟨row, -, -, rfl⟩ := (db.mem_graph_principals evaluationTime p).mp hp
    have hrow : row.id ∈ db.loadRoots.map GraphRoot.id := by
      have : row.id = b.principalId := hpid
      exact this ▸ hmem
    simp [graphPrincipal, hrow]
  attestations := by
    intro a ha
    obtain ⟨⟨hrow, hissued⟩, ⟨p, hp, hpid⟩, s, hs, hsid⟩ := db.mem_graph_attestations evaluationTime a ha
    refine ⟨hpid ▸ hids p hp, hsid ▸ hids s hs, (toUnix_issuedAt_pos ht hissued).ne',
      ⟨p, hp, hpid, ?_⟩, s, hs, hsid⟩
    obtain ⟨i, hi, hiid⟩ := hschema.attestationIssuers a hrow
    obtain ⟨q, hq, hqid, hkind⟩ := hknown i hi
    obtain ⟨row, hrow, -, rfl⟩ := (db.mem_graph_principals evaluationTime p).mp hp
    -- Both rows have the id of the issuer, which is the primary key.
    have hfind := (db.findPrincipal_eq_some_iff a.issuerId row).mpr ⟨hrow, hpid⟩
    have hfind' := (db.findPrincipal_eq_some_iff a.issuerId q).mpr ⟨hq, hqid.trans hiid⟩
    cases hfind.symm.trans hfind'
    exact hkind

end Database

section Server

variable {K : Type} [Field K] [LinearOrder K] [IsStrictOrderedRing K] [FloorRing K]

omit [LinearOrder K] [IsStrictOrderedRing K] [FloorRing K] in
theorem collect_graphChunks (graph : AttestationGraph) (t : Int) :
    (Trust.headerState t).collect (graph.principals.map (fun p => .principal (mapPrincipal p)) ++
      graph.roots.map (fun r => .root (mapRoot r)) ++
      graph.attestations.map fun a => .attestation (mapAttestation a)) =
      (⟨some (t * 1000000000), collectedClaims graph, collectedPrincipals K graph,
        graph.roots.map mapRoot⟩ : Trust.StreamState K) := by
  simp [Trust.StreamState.collect, Trust.headerState, Trust.claimsOf, Trust.principalsOf,
    Trust.rootsOf, collectedClaims, collectedPrincipals, List.filterMap_map]

theorem valid_of_ok (decayAt : Trust.Time → Trust.Time → K) (graph : AttestationGraph)
    (evaluationTime : Timestamp) (rows : List EngineScore)
    (h : runVeriRank decayAt graph evaluationTime = .ok rows) : graph.Valid evaluationTime := by
  obtain ⟨table, htable, -⟩ := bind_eq_ok.mp h
  obtain ⟨htime, hadm, hdist, hcheck, -⟩ :=
    (Trust.serveRunVeriRank_header_eq_ok decayAt (toUnix evaluationTime) _ table).mp htable
  rw [collect_graphChunks] at hdist hcheck
  obtain ⟨hstreamed, hclaims, hbootstrap⟩ := (Trust.checkComplete_eq_ok _).mp hcheck
  have hids := map_id_collectedPrincipals (K := K) graph
  have hnodup : (graph.principals.map GraphPrincipal.id).Nodup := hids ▸ hdist.principals
  have hfound : ∀ id, id ∈ (collectedPrincipals K graph).map Trust.Principal.id →
      ∃ p ∈ graph.principals, p.id = id := by
    intro id hid
    rw [hids] at hid
    exact List.mem_map.mp hid
  refine ⟨htime, hnodup, ?_, ?_, ?_, ?_⟩
  · intro p hp
    have hp' := hadm (.principal (mapPrincipal p)) (List.mem_append_left _
      (List.mem_append_left _ (List.mem_map_of_mem hp)))
    exact ⟨hp'.1, Rat.cast_nonneg.mp hp'.2.2.1,
      (Rat.cast_le (K := K)).mp (hp'.2.2.2.trans_eq Rat.cast_one.symm)⟩
  · simpa [Function.comp_def, mapRoot] using hdist.roots
  · intro r hr
    have hr' := hadm (.root (mapRoot r))
        (List.mem_append_left _ (List.mem_append_right _ (List.mem_map_of_mem hr)))
    have hmem : mapRoot r ∈ graph.roots.map (mapRoot (K := K)) := List.mem_map_of_mem hr
    obtain ⟨p, hp, hpid⟩ :=
      hfound r.id ((Trust.checkRootStreamed_eq_ok _ _).mp (hstreamed (mapRoot r) hmem))
    have hfind := find?_collectedPrincipals (K := K) graph hnodup p hp
    rw [hpid] at hfind
    obtain ⟨hboot, hone⟩ := (Trust.checkRootBootstrap_eq_ok _ _).mp (hbootstrap (mapRoot r) hmem)
      _ hfind
    refine ⟨hr'.1, Rat.cast_nonneg.mp hr'.2.1,
      (Rat.cast_le (K := K)).mp (hr'.2.2.trans_eq Rat.cast_one.symm), p, hp, hpid, hboot, ?_⟩
    exact (Rat.cast_injective (α := K)) (hone.trans Rat.cast_one.symm)
  · intro a ha
    have ha' := hadm (.attestation (mapAttestation a)) (List.mem_append_right _ (List.mem_map_of_mem ha))
    obtain ⟨hissuer, hkind, hsubject⟩ := (Trust.checkClaim_eq_ok _ _).mp
      (hclaims (Trust.protoAttestationToClaims (mapAttestation a)) (List.mem_map_of_mem ha))
    obtain ⟨p, hp, hpid⟩ := hfound a.issuerId hissuer
    refine ⟨ha'.1, ha'.2.1, ha'.2.2, ⟨p, hp, hpid, ?_⟩, hfound a.subjectId hsubject⟩
    intro hagent
    have hlookup : (Trust.kindByDID (collectedPrincipals K graph)).lookup a.issuerId =
        some .agent := by
      rw [Trust.kindByDID, lookup_foldl_insert Trust.Principal.id Trust.Principal.entityKind _
        hdist.principals, ← hpid, find?_collectedPrincipals graph hnodup p hp]
      simp [Trust.WirePrincipal.collected, mapPrincipal, hagent, PrincipalKind.text,
        Trust.EntityKind.ofText]
    change ((Trust.kindByDID (collectedPrincipals K graph)).lookup a.issuerId).getD _ = _ ∨
      ((Trust.kindByDID (collectedPrincipals K graph)).lookup a.issuerId).getD _ = _ at hkind
    rw [hlookup] at hkind
    simp at hkind

/-- The server accepts the loaded graph exactly when no principal of it has the empty id. -/
theorem loaded_graph_accepted (decayAt : Trust.Time → Trust.Time → K)
    (db : Database) (h : issuerWrites.Reachable db) (evaluationTime : Timestamp)
    (ht : 157766400000 ≤ evaluationTime) :
    (∃ rows, runVeriRank decayAt (db.loadAttestationGraph evaluationTime) evaluationTime =
        .ok rows) ↔
      ∀ p ∈ (db.loadAttestationGraph evaluationTime).principals, p.id ≠ "" := by
  have hschema := issuerWrites_schemaOk h
  have hknown := issuerWrites_known h
  constructor
  · intro hrows p hp
    obtain ⟨rows, hrows⟩ := hrows
    exact ((valid_of_ok decayAt _ evaluationTime rows hrows).principals p hp).1
  · intro hids
    exact ⟨_, runVeriRank_of_valid decayAt _ evaluationTime
      (db.loadAttestationGraph_valid hschema hknown evaluationTime ht hids)⟩

end Server

section OneIssuer

def twoAgents (issuer : String) (h : issuer ≠ "subject") : Database :=
  { Database.empty with
    principals := ⟨[⟨issuer, .agent, none, none, .active⟩,
      ⟨"subject", .agent, none, none, .active⟩], by simp [h]⟩ }

def oneIssuerCreated (issuer : String) (h : issuer ≠ "subject") : Database :=
  { Database.empty with
    principals := ⟨[⟨issuer, .both, none, none, .active⟩,
      ⟨"subject", .agent, none, none, .active⟩], by simp [h]⟩
    issuers := ⟨[⟨issuer, 1, some false⟩], by simp⟩ }

def issuerVouch (issuer : String) : AttestationRow :=
  vouch (.short '1') issuer "subject" 10 1999999999000 false

def oneIssuerVouched (issuer : String) (h : issuer ≠ "subject") : Database :=
  { oneIssuerCreated issuer h with attestations := ⟨[issuerVouch issuer], by simp⟩ }

theorem oneIssuerVouched_schemaOk (issuer : String) (h : issuer ≠ "subject") :
    (oneIssuerVouched issuer h).SchemaOk := by
  constructor <;> simp [oneIssuerVouched, oneIssuerCreated, issuerVouch, vouch, Database.empty,
    Table.empty]

theorem oneIssuerVouched_reachable (issuer : String) (h : issuer ≠ "subject") :
    issuerWrites.Reachable (oneIssuerVouched issuer h) := by
  have hstart : issuerWrites.init (twoAgents issuer h) := by
    refine ⟨?_, rfl⟩
    constructor <;> simp [twoAgents, Database.empty, Table.empty]
  have hcreate : issuerWrites.step (twoAgents issuer h) (.createIssuer issuer none)
      (oneIssuerCreated issuer h) := by
    refine ⟨?_, ?_⟩
    · constructor <;> simp [oneIssuerCreated, Database.empty, Table.empty]
    · simp [Database.createIssuer, assertTrustWeightInRange, Database.findPrincipal, twoAgents,
        Database.updatePrincipal, Database.insertIssuer, Database.insertSeedIssuerRow,
        oneIssuerCreated, Table.mapRows, Table.insert?, Database.empty, Table.empty, h.symm]
      rfl
  have hvouch : issuerWrites.step (oneIssuerCreated issuer h) .other (oneIssuerVouched issuer h) := by
    refine ⟨oneIssuerVouched_schemaOk issuer h, ?_, ?_⟩
    · exact fun i' hi' => ⟨i', hi', rfl⟩
    · intro p hp p' hp' hid hkind
      have hsame : p' = p := by
        have hfind := ((oneIssuerCreated issuer h).findPrincipal_eq_some_iff p.id p').mpr ⟨hp', hid⟩
        exact Option.some.inj (hfind.symm.trans
          (((oneIssuerCreated issuer h).findPrincipal_eq_some_iff p.id p).mpr ⟨hp, rfl⟩))
      exact hsame ▸ hkind
  exact ((System.Reachable.start hstart).next _ hcreate).next _ hvouch

/-- The schema allows the principal with the empty id to be made an issuer; the server refuses
the graph of its one attestation. -/
theorem empty_id_refused :
    ∃ db : Database, issuerWrites.Reachable db ∧ 157766400000 ≤ (2000000000000 : Timestamp) ∧
      runVeriRank Trust.calculateTimeDecayAt (db.loadAttestationGraph 2000000000000) 2000000000000 =
        .error .principalIdRequired := by
  refine ⟨oneIssuerVouched "" (by decide), oneIssuerVouched_reachable _ _, by norm_num, ?_⟩
  have hgraph : (oneIssuerVouched "" (by decide)).loadAttestationGraph 2000000000000 =
      ⟨[⟨"", .both, 1, false⟩, ⟨"subject", .agent, 1, false⟩], [], [issuerVouch ""], 0⟩ := by
    decide
  rw [hgraph]
  rfl

theorem loaded_graph_accepted_oneIssuer :
    ∃ rows, runVeriRank Trust.calculateTimeDecayAt
      ((oneIssuerVouched "issuer" (by decide)).loadAttestationGraph 2000000000000) 2000000000000 =
        .ok rows := by
  apply (loaded_graph_accepted Trust.calculateTimeDecayAt _ (oneIssuerVouched_reachable _ _) _
    (by norm_num)).mpr
  decide

end OneIssuer

end Verilink.ControlPlane

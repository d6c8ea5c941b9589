import Verilink.ControlPlane.DeEmphasis
import Verilink.ControlPlane.GraphValidity
import Verilink.Trust.Blame
import Verilink.Trust.Rounding

/-!
# Counterfactual scores and the weight update

The counterfactual report overrides a root's weight in the loaded graph; the real change goes
through `updateBootstrapIssuer` and the loader.
-/

namespace Verilink.ControlPlane

open Verilink.Framework

structure BootstrapUpdate where
  currentWeight : Option ℚ := none
  deEmphasisReason : Option (Option String) := none
  approvedBy : Option (Option String) := none
  removeFromRegistry : Option Bool := none

namespace Database

def deriveIsBootstrapForIssuer (db : Database) (principalId : String) : Database :=
  let derived := db.issuers.mapRows
    (fun i => ⟨i.principalId, i.trustWeight,
      if i.principalId = principalId then some (db.isRegistryRoot i.principalId)
      else i.isBootstrap⟩)
    fun _ _ h => h
  { db with issuers := derived }

def updatedRegistryRow (principalId : String) (update : BootstrapUpdate) (now : Timestamp)
    (b : BootstrapIssuerRow) : BootstrapIssuerRow where
  principalId := b.principalId
  name := b.name
  currentWeight :=
    if b.principalId = principalId then (update.currentWeight.map toHundredths).getD b.currentWeight
    else b.currentWeight
  seededAt := b.seededAt
  removedFromRegistryAt :=
    if b.principalId = principalId then
      match update.removeFromRegistry with
      | none => b.removedFromRegistryAt
      | some true => some now
      | some false => none
    else b.removedFromRegistryAt

def updateBootstrapIssuer (db : Database) (principalId : String) (update : BootstrapUpdate)
    (now : Timestamp) : Except String (Option Database) :=
  if update.currentWeight = none ∧ update.deEmphasisReason = none ∧ update.approvedBy = none ∧
      update.removeFromRegistry = none then .ok none
  else if ¬ ∃ b ∈ db.bootstrapIssuers.rows, b.principalId = principalId then .ok none
  else if ∃ w ∈ update.currentWeight, toHundredths w < 0 ∨ 1 < toHundredths w then
    .error "new row for relation \"bootstrap_issuers\" violates check constraint \"bootstrap_issuers_current_weight_check\""
  else
    let updated := db.bootstrapIssuers.mapRows (updatedRegistryRow principalId update now)
      fun _ _ h => h
    .ok (some (deriveIsBootstrapForIssuer { db with bootstrapIssuers := updated } principalId))

def registered (db : Database) (b : BootstrapIssuerRow) : Bool :=
  db.hasIssuer b.principalId && db.isActivePrincipal b.principalId && b.removedFromRegistryAt.isNone

/-- The trust weight of an issuer that is not streamed as a root. -/
def issuerWeight (db : Database) (id : String) : ℚ :=
  ((db.issuers.rows.find? fun i => i.principalId = id).map IssuerRow.trustWeight).getD 1

structure WeightSet (db : Database) (rootId : String) (w : ℚ) (db' : Database) : Prop where
  principals : db'.principals = db.principals
  attestations : db'.attestations = db.attestations
  networkScores : db'.networkScores = db.networkScores
  hasIssuer : ∀ id, db'.hasIssuer id = db.hasIssuer id
  trustWeights : ∀ id, (db'.issuers.rows.find? fun i => i.principalId = id).map
    IssuerRow.trustWeight = (db.issuers.rows.find? fun i => i.principalId = id).map
    IssuerRow.trustWeight
  registry : db'.bootstrapIssuers.rows = db.bootstrapIssuers.rows.map fun b =>
    if b.principalId = rootId then { b with currentWeight := w } else b
  range : 0 ≤ w ∧ w ≤ 1

theorem hasIssuer_deriveIsBootstrapForIssuer (db : Database) (principalId id : String) :
    (db.deriveIsBootstrapForIssuer principalId).hasIssuer id = db.hasIssuer id :=
  List.any_map

theorem trustWeight_deriveIsBootstrapForIssuer (db : Database) (principalId id : String) :
    ((db.deriveIsBootstrapForIssuer principalId).issuers.rows.find? fun i =>
      i.principalId = id).map IssuerRow.trustWeight =
        (db.issuers.rows.find? fun i => i.principalId = id).map IssuerRow.trustWeight := by
  change ((db.issuers.rows.map _).find? _).map _ = _
  rw [List.find?_map, Option.map_map]
  rfl

variable {db : Database} {rootId : String} {w : ℚ}

theorem updateBootstrapIssuer_weightSet {db' : Database} {now : Timestamp}
    (h : db.updateBootstrapIssuer rootId { currentWeight := some w } now = .ok (some db')) :
    WeightSet db rootId (toHundredths w) db' := by
  unfold updateBootstrapIssuer at h
  rw [if_neg (by simp)] at h
  split_ifs at h with hexists hrange
  · cases h
    simp only [Option.mem_def, Option.some.injEq, exists_eq_left', not_or, not_lt] at hrange
    refine ⟨rfl, rfl, rfl, ?_, ?_, ?_, hrange⟩
    · exact hasIssuer_deriveIsBootstrapForIssuer _ rootId
    · exact trustWeight_deriveIsBootstrapForIssuer _ rootId
    · apply List.map_congr_left
      intro b _
      by_cases hb : b.principalId = rootId
      · simp [updatedRegistryRow, hb]
      · simp [updatedRegistryRow, hb]
  · cases h

theorem exists_edge_attestation {graph : AttestationGraph} {evaluationTime : Timestamp} {e : Trust.Edge}
    (he : e ∈ graphEdges graph evaluationTime) : ∃ a ∈ graph.attestations,
      e.issuer = a.issuerId ∧ e.subject = a.subjectId ∧ e.score = a.trustDelta := by
  obtain ⟨c, hc, hedge⟩ := List.mem_filterMap.mp he
  obtain ⟨claim, rfl, hissuer, hsubject, hscore⟩ := Trust.claimEdge_eq_some hedge
  obtain ⟨claim', hclaim, heq⟩ := List.mem_map.mp hc
  cases heq
  obtain ⟨a, ha, rfl⟩ := List.mem_map.mp hclaim
  exact ⟨a, ha, hissuer, hsubject, hscore⟩

theorem startValue_of_mem {roots : List GraphRoot} (hids : (roots.map GraphRoot.id).Nodup)
    {r : GraphRoot} (hr : r ∈ roots) :
    Trust.valueAt (Trust.initialScores (roots.map (mapRoot (K := ℝ)))) r.id = 100 * r.weight := by
  have hids' : ((roots.map (mapRoot (K := ℝ))).map Trust.Root.id).Nodup := by
    rwa [List.map_map]
  rw [Trust.valueAt_initialScores _ hids', Trust.initialRootScore,
    (find?_key_eq_some_iff Trust.Root.id _ hids' r.id (mapRoot r)).mpr ⟨List.mem_map_of_mem hr, rfl⟩]
  rfl

theorem startValue_of_not_mem {roots : List GraphRoot} {v : String} (h : ∀ r ∈ roots, r.id ≠ v) :
    Trust.valueAt (Trust.initialScores (roots.map (mapRoot (K := ℝ)))) v = 0 := by
  apply Trust.valueAt_initialScores_of_no_root
  intro r hr
  obtain ⟨q, hq, rfl⟩ := List.mem_map.mp hr
  exact h q hq

theorem startValue_congr {roots roots' : List GraphRoot} (hids : (roots.map GraphRoot.id).Nodup)
    (hids' : (roots'.map GraphRoot.id).Nodup) {v : String}
    (h : ∀ r : GraphRoot, r.id = v → (r ∈ roots ↔ r ∈ roots')) :
    Trust.valueAt (Trust.initialScores (roots.map (mapRoot (K := ℝ)))) v =
      Trust.valueAt (Trust.initialScores (roots'.map mapRoot)) v := by
  by_cases hroot : ∃ r ∈ roots, r.id = v
  · obtain ⟨r, hr, rfl⟩ := hroot
    rw [startValue_of_mem hids hr, startValue_of_mem hids' ((h r rfl).mp hr)]
  · have hnone : ∀ r ∈ roots, r.id ≠ v := fun r hr hid => hroot ⟨r, hr, hid⟩
    rw [startValue_of_not_mem hnone, startValue_of_not_mem]
    exact fun r hr hid => hnone r ((h r hid).mpr hr) hid

/-- The stored weight starts the root with the score that its row shows for the wanted one. -/
theorem rowScore_toHundredths (hw : 0 ≤ w ∧ w ≤ 1) :
    Trust.rowScore (100 * (w : ℝ)) = Trust.rowScore (100 * (toHundredths w : ℝ)) := by
  have hround : ∀ q : ℚ, 0 ≤ q → q ≤ 1 → Trust.rowScore (100 * (q : ℝ)) = ⌊100 * q + 1 / 2⌋ := by
    intro q hlow hhigh
    have hlow' : (0 : ℝ) ≤ q := Rat.cast_nonneg.mpr hlow
    have hhigh' : (q : ℝ) ≤ 1 := by exact_mod_cast hhigh
    rw [Trust.rowScore_eq_floor,
      min_eq_left (by linarith), max_eq_right (by linarith), ← Rat.floor_cast (α := ℝ)]
    push_cast
    rfl
  have hwhole : 100 * toHundredths w = (⌊100 * w + 1 / 2⌋ : ℚ) := by
    have hneg : ¬ w * 100 < 0 := by linarith [hw.1]
    rw [toHundredths, Trust.mathRound, if_neg hneg, mul_comm w]
    ring
  have hlow : 0 ≤ toHundredths w ∧ toHundredths w ≤ 1 := by
    have hfloor : (0 : ℚ) ≤ ⌊100 * w + 1 / 2⌋ ∧ (⌊100 * w + 1 / 2⌋ : ℚ) ≤ 100 := by
      constructor
      · exact_mod_cast Int.floor_nonneg.mpr (by linarith [hw.1])
      · have hlt : ⌊100 * w + 1 / 2⌋ < 101 := Int.floor_lt.mpr (by push_cast; linarith [hw.2])
        exact_mod_cast Int.lt_add_one_iff.mp hlt
    constructor <;> linarith
  rw [hround w hw.1 hw.2, hround _ hlow.1 hlow.2, hwhole]
  symm
  rw [Int.floor_eq_iff]
  constructor <;> linarith

namespace WeightSet

variable {db db' : Database} {rootId : String} {w : ℚ}

section Loaded

variable (h : WeightSet db rootId w db')
include h

theorem isActivePrincipal (id : String) :
    db'.isActivePrincipal id = db.isActivePrincipal id := by
  unfold Database.isActivePrincipal
  rw [h.principals]

theorem loadAttestations (evaluationTime : Timestamp) :
    db'.loadAttestations evaluationTime = db.loadAttestations evaluationTime := by
  unfold Database.loadAttestations
  simp only [h.attestations, h.isActivePrincipal]

theorem graphPrincipal (rootIds : List String) (p : PrincipalRow) :
    db'.graphPrincipal rootIds p = db.graphPrincipal rootIds p := by
  unfold Database.graphPrincipal
  rw [h.trustWeights]

theorem loadRoots_eq : db'.loadRoots = (db.bootstrapIssuers.rows.filter fun b =>
      db.registered b && decide (0 < if b.principalId = rootId then w else b.currentWeight)).map
        fun b => ⟨b.principalId, if b.principalId = rootId then w else b.currentWeight⟩ := by
  have hfields : ∀ b : BootstrapIssuerRow,
      (if b.principalId = rootId then { b with currentWeight := w } else b) =
        ⟨b.principalId, b.name, if b.principalId = rootId then w else b.currentWeight, b.seededAt,
          b.removedFromRegistryAt⟩ := by
    intro b
    by_cases hb : b.principalId = rootId <;> simp [hb]
  unfold Database.loadRoots
  simp only [h.registry, hfields, h.hasIssuer, h.isActivePrincipal, List.filter_map, List.map_map]
  rfl

theorem mem_loadRoots (r : GraphRoot) : r ∈ db'.loadRoots ↔ ∃ b ∈ db.bootstrapIssuers.rows,
      db.registered b = true ∧ (0 < if b.principalId = rootId then w else b.currentWeight) ∧
        ⟨b.principalId, if b.principalId = rootId then w else b.currentWeight⟩ = r := by
  simp [h.loadRoots_eq, and_assoc]

/-- The other roots are streamed as before. -/
theorem mem_loadRoots_of_ne {r : GraphRoot} (hid : r.id ≠ rootId) :
    r ∈ db'.loadRoots ↔ r ∈ db.loadRoots := by
  have hold : r ∈ db.loadRoots ↔ ∃ b ∈ db.bootstrapIssuers.rows,
      db.registered b = true ∧ 0 < b.currentWeight ∧ ⟨b.principalId, b.currentWeight⟩ = r := by
    simp [Database.loadRoots, Database.registered, and_assoc]
  rw [h.mem_loadRoots, hold]
  apply exists_congr
  intro b
  apply and_congr_right
  intro _
  by_cases hb : b.principalId = rootId
  · have hne : ∀ weight, (⟨b.principalId, weight⟩ : GraphRoot) ≠ r := by
      rintro weight rfl
      exact hid hb
    simp [hne]
  · simp [hb]

theorem attestations_eq (evaluationTime : Timestamp) :
    (db'.loadAttestationGraph evaluationTime).attestations =
      (db.loadAttestationGraph evaluationTime).attestations := by
  rw [graph_attestations, graph_attestations, h.loadAttestations]

/-- A root that is streamed before and after, or neither: both ways give one graph. -/
theorem loadAttestationGraph_eq (hsame : ∀ b ∈ db.bootstrapIssuers.rows, b.principalId = rootId →
      db.registered b = true → (0 < w ↔ 0 < b.currentWeight)) (evaluationTime : Timestamp) :
    db'.loadAttestationGraph evaluationTime =
      (db.loadAttestationGraph evaluationTime).withRootWeight rootId w := by
  have hroots : db'.loadRoots =
      db.loadRoots.map fun r => if r.id = rootId then ⟨r.id, w⟩ else r := by
    have hfilter : db.loadRoots = (db.bootstrapIssuers.rows.filter fun b =>
        db.registered b && decide (0 < b.currentWeight)).map
          fun b => ⟨b.principalId, b.currentWeight⟩ := rfl
    rw [h.loadRoots_eq, hfilter, List.map_map]
    have hkeep : ∀ b ∈ db.bootstrapIssuers.rows, (db.registered b &&
        decide (0 < if b.principalId = rootId then w else b.currentWeight)) =
          (db.registered b && decide (0 < b.currentWeight)) := by
      intro b hb
      by_cases hid : b.principalId = rootId
      · cases hreg : db.registered b with
        | false => rfl
        | true => simp [hid, hsame b hb hid hreg]
      · simp [hid]
    rw [List.filter_congr hkeep]
    apply List.map_congr_left
    intro b _
    by_cases hid : b.principalId = rootId <;> simp [hid]
  have hids : db'.loadRoots.map GraphRoot.id = db.loadRoots.map GraphRoot.id := by
    rw [hroots, List.map_map]
    apply List.map_congr_left
    intro r _
    by_cases hid : r.id = rootId <;> simp [hid]
  have hneeded : db'.neededIds evaluationTime = db.neededIds evaluationTime := by
    unfold Database.neededIds
    rw [hids, h.loadAttestations]
  have hprincipals : (db'.loadAttestationGraph evaluationTime).principals =
      (db.loadAttestationGraph evaluationTime).principals := by
    rw [Database.loadAttestationGraph_eq, Database.loadAttestationGraph_eq]
    simp only [hneeded, hids, h.principals]
    exact List.map_congr_left fun p _ => h.graphPrincipal _ p
  have hcount : (db'.loadAttestationGraph evaluationTime).networkScoreCount =
      (db.loadAttestationGraph evaluationTime).networkScoreCount := by
    rw [Database.loadAttestationGraph_eq, Database.loadAttestationGraph_eq, h.networkScores]
  have hgraphRoots := (db'.graph_roots evaluationTime).trans hroots
  rw [← db.graph_roots evaluationTime] at hgraphRoots
  unfold AttestationGraph.withRootWeight
  rw [← hgraphRoots, ← hprincipals, ← h.attestations_eq, ← hcount]

section Streamed

variable (hroots : ∀ r ∈ db'.loadRoots, r.id ∈ db.loadRoots.map GraphRoot.id)
  (hschema : db.SchemaOk) (evaluationTime : Timestamp)

omit h in
include hroots in
theorem neededIds_subset (h : WeightSet db rootId w db') {id : String}
    (hid : id ∈ db'.neededIds evaluationTime) : id ∈ db.neededIds evaluationTime := by
  rw [mem_neededIds, h.loadAttestations] at hid
  rw [mem_neededIds]
  refine hid.imp_left ?_
  rintro ⟨r, hr, rfl⟩
  exact List.mem_map.mp (hroots r hr)

include hroots hschema

/-- Every principal of the new graph is one of the old graph; only the root may have another trust
weight. -/
theorem exists_principal {p' : GraphPrincipal}
    (hp' : p' ∈ (db'.loadAttestationGraph evaluationTime).principals) :
    ∃ p ∈ (db.loadAttestationGraph evaluationTime).principals, p.id = p'.id ∧
      p.entityKind = p'.entityKind ∧ (0 ≤ p'.trustWeight ∧ p'.trustWeight ≤ 1) ∧
      (p.id ≠ rootId ∨ db.issuerWeight rootId = 1 → p.trustWeight = p'.trustWeight) := by
  obtain ⟨row, hrow, ⟨hneeded, hactive⟩, rfl⟩ := (db'.mem_graph_principals evaluationTime p').mp hp'
  refine ⟨_, (db.mem_graph_principals evaluationTime _).mpr ⟨row, h.principals ▸ hrow,
    ⟨h.neededIds_subset hroots evaluationTime hneeded, hactive⟩, rfl⟩, rfl, rfl, ?_, ?_⟩
  · rw [h.graphPrincipal]
    exact db.graphPrincipal_weight hschema _ row
  · intro hcase
    rw [h.graphPrincipal]
    unfold Database.graphPrincipal
    by_cases hid : row.id = rootId
    · have hone : db.issuerWeight row.id = 1 := by
        rw [hid]
        exact hcase.resolve_left (not_not_intro hid)
      unfold Database.issuerWeight at hone
      simp [hone]
    · have hmem : row.id ∈ db'.loadRoots.map GraphRoot.id ↔ row.id ∈ db.loadRoots.map GraphRoot.id := by
        simp only [List.mem_map]
        apply exists_congr
        intro r
        constructor
        · rintro ⟨hr, hrid⟩
          exact ⟨(h.mem_loadRoots_of_ne (hrid ▸ hid)).mp hr, hrid⟩
        · rintro ⟨hr, hrid⟩
          exact ⟨(h.mem_loadRoots_of_ne (hrid ▸ hid)).mpr hr, hrid⟩
      simp only [hmem]

/-- The server takes the new graph if it takes the one of the report. -/
theorem valid_set {target : ℚ}
    (hvalid : ((db.loadAttestationGraph evaluationTime).withRootWeight rootId target).Valid
      evaluationTime) : (db'.loadAttestationGraph evaluationTime).Valid evaluationTime where
  time := hvalid.time
  principalIds := db'.graph_principalIds_nodup evaluationTime
  principals := by
    intro p' hp'
    obtain ⟨p, hp, hid, -, hrange, -⟩ := h.exists_principal hroots hschema evaluationTime hp'
    rw [← hid]
    exact ⟨(hvalid.principals p hp).1, hrange⟩
  rootIds := by
    rw [graph_roots]
    exact db'.loadRoots_ids_nodup
  roots := by
    intro r hr
    obtain ⟨hloaded, p', hp', hid⟩ := (db'.mem_graph_roots evaluationTime r).mp hr
    obtain ⟨p, hp, hpid, -⟩ := h.exists_principal hroots hschema evaluationTime hp'
    have hrange : 0 ≤ r.weight ∧ r.weight ≤ 1 := by
      obtain ⟨b, hb, -, -, rfl⟩ := (h.mem_loadRoots r).mp hloaded
      by_cases hroot : b.principalId = rootId
      · simpa [hroot] using h.range
      · simpa [hroot] using hschema.rootWeights b hb
    refine ⟨?_, hrange.1, hrange.2, p', hp', hid, ?_⟩
    · rw [← hid, ← hpid]
      exact (hvalid.principals p hp).1
    · obtain ⟨row, -, -, rfl⟩ := (db'.mem_graph_principals evaluationTime p').mp hp'
      have hroot : row.id ∈ db'.loadRoots.map GraphRoot.id := List.mem_map.mpr ⟨r, hloaded, hid.symm⟩
      simp [Database.graphPrincipal, hroot]
  attestations := by
    intro a ha
    obtain ⟨-, ⟨p', hp', hpid'⟩, hsubject⟩ := db'.mem_graph_attestations evaluationTime a ha
    rw [h.attestations_eq] at ha
    obtain ⟨hissuer, hsub, hissued, ⟨p, hp, hpid, hkind⟩, -⟩ := hvalid.attestations a ha
    refine ⟨hissuer, hsub, hissued, ⟨p', hp', hpid', ?_⟩, hsubject⟩
    obtain ⟨q, hq, hqid, hqkind, -⟩ := h.exists_principal hroots hschema evaluationTime hp'
    have hsame : q = p :=
      List.inj_on_of_nodup_map hvalid.principalIds hq hp ((hqid.trans hpid').trans hpid.symm)
    rw [← hqkind, hsame]
    exact hkind

end Streamed

end Loaded

section Rounded

variable (h : WeightSet db rootId (toHundredths w) db') (evaluationTime : Timestamp)
include h

theorem ids_subset (hstreamed : rootId ∈ db.loadRoots.map GraphRoot.id) :
    ∀ r ∈ db'.loadRoots, r.id ∈ db.loadRoots.map GraphRoot.id := by
  intro r hr
  by_cases hid : r.id = rootId
  · exact hid ▸ hstreamed
  · exact List.mem_map_of_mem ((h.mem_loadRoots_of_ne hid).mp hr)

omit h in
/-- The report starts the root with the wanted weight. -/
theorem startValue_report (hstreamed : rootId ∈ db.loadRoots.map GraphRoot.id)
    (hids : (((db.loadAttestationGraph evaluationTime).withRootWeight rootId w).roots.map
      GraphRoot.id).Nodup) :
    Trust.valueAt (Trust.initialScores (((db.loadAttestationGraph evaluationTime).withRootWeight
      rootId w).roots.map (mapRoot (K := ℝ)))) rootId = 100 * w := by
  obtain ⟨r, hr, hid⟩ := List.mem_map.mp hstreamed
  apply startValue_of_mem hids (r := ⟨rootId, w⟩)
  rw [AttestationGraph.withRootWeight, graph_roots]
  exact List.mem_map.mpr ⟨r, hr, by simp [hid]⟩

/-- The recompute starts it with the stored one; a root that is dropped starts with nothing. -/
theorem startValue_set (hstreamed : rootId ∈ db.loadRoots.map GraphRoot.id) :
    Trust.valueAt (Trust.initialScores ((db'.loadAttestationGraph evaluationTime).roots.map
      (mapRoot (K := ℝ)))) rootId = 100 * (toHundredths w : ℝ) := by
  rw [graph_roots]
  by_cases hpos : 0 < toHundredths w
  · apply startValue_of_mem db'.loadRoots_ids_nodup (r := ⟨rootId, toHundredths w⟩)
    obtain ⟨r, hr, hid⟩ := List.mem_map.mp hstreamed
    obtain ⟨b, hb, rfl⟩ := List.mem_map.mp hr
    obtain ⟨hrow, hjoined⟩ := List.mem_filter.mp hb
    have hroot : b.principalId = rootId := hid
    refine (h.mem_loadRoots _).mpr ⟨b, hrow, ?_, ?_, ?_⟩
    · exact (Bool.and_eq_true_iff.mp hjoined).1
    · rwa [if_pos hroot]
    · rw [if_pos hroot, hroot]
  · have hzero : toHundredths w = 0 := le_antisymm (not_lt.mp hpos) h.range.1
    rw [hzero, startValue_of_not_mem]
    · simp
    · intro r hr hid
      obtain ⟨b, -, -, hweight, rfl⟩ := (h.mem_loadRoots r).mp hr
      rw [if_pos (show b.principalId = rootId from hid)] at hweight
      exact hpos hweight

theorem startValue_other {v : String} (hv : v ≠ rootId)
    (hids : (((db.loadAttestationGraph evaluationTime).withRootWeight rootId w).roots.map
      GraphRoot.id).Nodup) :
    Trust.valueAt (Trust.initialScores (((db.loadAttestationGraph evaluationTime).withRootWeight
      rootId w).roots.map (mapRoot (K := ℝ)))) v =
      Trust.valueAt (Trust.initialScores ((db'.loadAttestationGraph evaluationTime).roots.map
        mapRoot)) v := by
  apply startValue_congr hids
  · rw [graph_roots]
    exact db'.loadRoots_ids_nodup
  · rintro r rfl
    rw [graph_roots, h.mem_loadRoots_of_ne hv, AttestationGraph.withRootWeight, graph_roots,
      List.mem_map]
    constructor
    · rintro ⟨q, hq, hqr⟩
      by_cases hid : q.id = rootId
      · rw [if_pos hid] at hqr
        exact absurd ((congrArg GraphRoot.id hqr).symm.trans hid) hv
      · rw [if_neg hid] at hqr
        exact hqr ▸ hq
    · intro hr
      exact ⟨r, hr, if_neg hv⟩

end Rounded

end WeightSet

def scoredAttestations (db : Database) (evaluationTime : Timestamp) : List AttestationRow :=
  groupAttestationsForScoring (db.loadAttestations evaluationTime)

/-- The root vouches for nobody and reports nobody. -/
def IssuesNothing (db : Database) (rootId : String) (evaluationTime : Timestamp) : Prop :=
  ∀ a ∈ db.scoredAttestations evaluationTime, a.issuerId ≠ rootId

/-- Nobody else vouches for the root. -/
def Unvouched (db : Database) (rootId : String) (evaluationTime : Timestamp) : Prop :=
  ∀ a ∈ db.scoredAttestations evaluationTime, a.subjectId = rootId → 0 < a.trustDelta →
    a.issuerId = rootId

/-- The target weight that the update stores makes the root weigh what the report assumes: a root
that is streamed now keeps its trust weight one in the report, and one that is not stays out of it.
-/
def Foreseen (db : Database) (rootId : String) (w : ℚ) (evaluationTime : Timestamp) : Prop :=
  ∀ b ∈ db.bootstrapIssuers.rows, b.principalId = rootId → db.registered b = true →
    (b.currentWeight = 0 ∧ toHundredths w = 0) ∨
    (0 < b.currentWeight ∧
      ((0 < w ∧ toHundredths w = w) ∨ db.IssuesNothing rootId evaluationTime ∨
        (toHundredths w = 0 ∧
          (db.issuerWeight rootId = 1 ∨ db.Unvouched rootId evaluationTime))))

section Twins

variable {db db' : Database} {rootId : String} {w : ℚ}
  (h : WeightSet db rootId (toHundredths w) db') (hschema : db.SchemaOk) (hw : 0 ≤ w ∧ w ≤ 1)
  (hstreamed : rootId ∈ db.loadRoots.map GraphRoot.id) {evaluationTime : Timestamp}
  (hvalid : ((db.loadAttestationGraph evaluationTime).withRootWeight rootId w).Valid evaluationTime)

theorem graph_tame (hschema : db.SchemaOk) {graph : AttestationGraph}
    (hvalid : graph.Valid evaluationTime)
    (hattestations : graph.attestations = db.scoredAttestations evaluationTime) :
    (Trust.propagateGraph (fun e => Trust.calculateTimeDecayAt e.timestamp
      (toUnix evaluationTime * 1000000000)) (graphEdges graph evaluationTime)
      (collectedPrincipals ℝ graph)).Tame := by
  have hrange : Trust.InRange Trust.calculateTimeDecayAt ((collectedClaims graph).map some)
      (collectedPrincipals ℝ graph) [] (toUnix evaluationTime * 1000000000) := by
    refine ⟨?_, by simp, ?_, fun t => ⟨Trust.calculateTimeDecayAt_pos _ _,
      Trust.calculateTimeDecayAt_le_one _ _⟩⟩
    · intro c hc
      obtain ⟨c', hc', heq⟩ := List.mem_map.mp hc
      cases heq
      obtain ⟨a, ha, rfl⟩ := List.mem_map.mp hc'
      rw [hattestations] at ha
      exact hschema.trustDeltas a (List.mem_filter.mp (mem_of_mem_grouped ha)).1
    · intro p hp
      obtain ⟨q, hq, rfl⟩ := List.mem_map.mp hp
      obtain ⟨-, hlow, hhigh⟩ := hvalid.principals q hq
      exact ⟨Rat.cast_nonneg.mpr hlow, (Rat.cast_le.mpr hhigh).trans_eq Rat.cast_one⟩
  refine ⟨?_, ?_, fun e _ => (hrange.trustWeight e.issuer).2⟩
  · intro e he
    exact (hrange.gain_le he).trans (by norm_num)
  · intro e _ hscore
    exact Trust.Graph.gain_nonpos _ e hscore (Trust.calculateTimeDecayAt_pos _ _).le
      (hrange.trustWeight e.issuer).1

include h hschema hstreamed hvalid

theorem graphs_twins {quiet : Set String}
    (hweights : ∀ a ∈ db.scoredAttestations evaluationTime, a.issuerId ∉ quiet →
      a.issuerId ≠ rootId ∨ db.issuerWeight rootId = 1)
    (hinside : ∀ a ∈ db.scoredAttestations evaluationTime, a.subjectId ∈ quiet → 0 < a.trustDelta →
      a.issuerId ∈ quiet) :
    (Trust.propagateGraph (fun e => Trust.calculateTimeDecayAt e.timestamp
      (toUnix evaluationTime * 1000000000))
      (graphEdges ((db.loadAttestationGraph evaluationTime).withRootWeight rootId w) evaluationTime)
      (collectedPrincipals ℝ ((db.loadAttestationGraph evaluationTime).withRootWeight rootId w))).Twins
    (Trust.propagateGraph (fun e => Trust.calculateTimeDecayAt e.timestamp
      (toUnix evaluationTime * 1000000000))
      (graphEdges (db'.loadAttestationGraph evaluationTime) evaluationTime)
      (collectedPrincipals ℝ (db'.loadAttestationGraph evaluationTime))) quiet := by
  have hroots := h.ids_subset hstreamed
  have hnew := h.valid_set hroots hschema evaluationTime hvalid
  have hold : (db.loadAttestationGraph evaluationTime).attestations =
      db.scoredAttestations evaluationTime := db.graph_attestations evaluationTime
  have hedges : graphEdges ((db.loadAttestationGraph evaluationTime).withRootWeight rootId w)
      evaluationTime = graphEdges (db'.loadAttestationGraph evaluationTime) evaluationTime := by
    unfold graphEdges collectedClaims
    rw [h.attestations_eq]
    rfl
  refine ⟨hedges, rfl, ?_, ?_, graph_tame hschema hvalid hold,
    graph_tame hschema hnew ((h.attestations_eq evaluationTime).trans hold)⟩
  · intro e he hquiet
    obtain ⟨a, ha, hissuer, -⟩ := exists_edge_attestation he
    have ha' : a ∈ (db'.loadAttestationGraph evaluationTime).attestations := by
      rw [h.attestations_eq]
      exact ha
    obtain ⟨-, -, -, ⟨p', hp', hpid', -⟩, -⟩ := hnew.attestations a ha'
    obtain ⟨p, hp, hpid, -, -, hweight⟩ := h.exists_principal hroots hschema evaluationTime hp'
    have hid : p.id = a.issuerId := hpid.trans hpid'
    have hsame : p.trustWeight = p'.trustWeight := by
      apply hweight
      rw [hid]
      exact hweights a (hold ▸ ha) (hissuer ▸ hquiet)
    have hreported := valueAt_weightByDID_collected (K := ℝ) _ hvalid.principalIds p hp
    have hset := valueAt_weightByDID_collected (K := ℝ) _ hnew.principalIds p' hp'
    rw [hid, ← hissuer] at hreported
    rw [hpid', ← hissuer] at hset
    exact hreported.trans (hsame ▸ hset.symm)
  · intro e he hquiet hpos
    obtain ⟨a, ha, hissuer, hsubject, hscore⟩ := exists_edge_attestation he
    rw [hissuer]
    exact hinside a (hold ▸ ha) (hsubject ▸ hquiet) (hscore ▸ hpos)

include hw

theorem rowScore_eq_of_quiet (quiet : Set String)
    (hweights : ∀ a ∈ db.scoredAttestations evaluationTime, a.issuerId ∉ quiet →
      a.issuerId ≠ rootId ∨ db.issuerWeight rootId = 1)
    (hinside : ∀ a ∈ db.scoredAttestations evaluationTime, a.subjectId ∈ quiet → 0 < a.trustDelta →
      a.issuerId ∈ quiet)
    (hquiet : ∀ u ∈ quiet, u = rootId ∧ toHundredths w = 0)
    (halike : (∀ a ∈ db.scoredAttestations evaluationTime, a.issuerId ≠ rootId) ∨ toHundredths w = 0)
    (v : String) :
    Trust.rowScore (Trust.valueAt (graphScores Trust.calculateTimeDecayAt
      ((db.loadAttestationGraph evaluationTime).withRootWeight rootId w) evaluationTime).scores v) =
    Trust.rowScore (Trust.valueAt (graphScores Trust.calculateTimeDecayAt
      (db'.loadAttestationGraph evaluationTime) evaluationTime).scores v) := by
  have hnew := h.valid_set (h.ids_subset hstreamed) hschema evaluationTime hvalid
  have hreported := WeightSet.startValue_report evaluationTime hstreamed hvalid.rootIds
  have hset := h.startValue_set evaluationTime hstreamed
  have hrounds := rowScore_toHundredths hw
  -- a weight that is stored as zero starts the root below half a point
  have hsmall : toHundredths w = 0 → 100 * (w : ℝ) < 1 / 2 ∧ 100 * (toHundredths w : ℝ) < 1 / 2 := by
    intro hzero
    have hlow : 100 * (toHundredths w : ℝ) < 1 / 2 := by
      rw [hzero]
      norm_num
    exact ⟨(Trust.rowScore_eq_zero_iff _).mp
      (hrounds.trans ((Trust.rowScore_eq_zero_iff _).mpr hlow)), hlow⟩
  unfold graphScores
  rw [Trust.propagateScores_eq_stateAt, Trust.propagateScores_eq_stateAt]
  refine ((graphs_twins h hschema hstreamed hvalid hweights hinside).roundsAlike
    ⟨?_, ?_, ?_, ?_, ?_⟩ Trust.maxHops).rounds v
  · apply Trust.valueAt_initialScores_nonneg
    intro r hr
    obtain ⟨q, hq, rfl⟩ := List.mem_map.mp hr
    exact Rat.cast_nonneg.mpr (hvalid.roots q hq).2.1
  · apply Trust.valueAt_initialScores_nonneg
    intro r hr
    obtain ⟨q, hq, rfl⟩ := List.mem_map.mp hr
    exact Rat.cast_nonneg.mpr (hnew.roots q hq).2.1
  · intro u
    by_cases hu : u = rootId
    · rw [hu, hreported, hset, hrounds]
    · rw [h.startValue_other evaluationTime hu hvalid.rootIds]
  · intro e he
    by_cases hu : e.issuer = rootId
    · rw [hu, hreported, hset]
      apply Or.inr
      apply hsmall
      obtain ⟨a, ha, hissuer, -⟩ := exists_edge_attestation he
      have ha' : a ∈ db.scoredAttestations evaluationTime := by
        rw [scoredAttestations, ← graph_attestations]
        exact ha
      exact halike.resolve_left fun hnone => hnone a ha' (hissuer.symm.trans hu)
    · exact .inl (h.startValue_other evaluationTime hu hvalid.rootIds)
  · intro u hu
    obtain ⟨rfl, hzero⟩ := hquiet u hu
    rw [hreported, hset]
    exact hsmall hzero

theorem rowScore_eq_of_kind
    (hkind : db.IssuesNothing rootId evaluationTime ∨ (toHundredths w = 0 ∧
      (db.issuerWeight rootId = 1 ∨ db.Unvouched rootId evaluationTime))) (v : String) :
    Trust.rowScore (Trust.valueAt (graphScores Trust.calculateTimeDecayAt
      ((db.loadAttestationGraph evaluationTime).withRootWeight rootId w) evaluationTime).scores v) =
    Trust.rowScore (Trust.valueAt (graphScores Trust.calculateTimeDecayAt
      (db'.loadAttestationGraph evaluationTime) evaluationTime).scores v) := by
  rcases hkind with hnothing | ⟨hzero, hone | hunvouched⟩
  · apply rowScore_eq_of_quiet h hschema hw hstreamed hvalid ∅
    · exact fun a ha _ => .inl (hnothing a ha)
    · simp
    · simp
    · exact .inl hnothing
  · apply rowScore_eq_of_quiet h hschema hw hstreamed hvalid ∅
    · exact fun _ _ _ => .inr hone
    · simp
    · simp
    · exact .inr hzero
  · apply rowScore_eq_of_quiet h hschema hw hstreamed hvalid {rootId}
    · exact fun _ _ hne => .inl hne
    · exact fun a ha hsubject hpos => hunvouched a ha hsubject hpos
    · exact fun u hu => ⟨hu, hzero⟩
    · exact .inr hzero

end Twins

def CounterfactualAgrees {K : Type} [Field K] [LinearOrder K] [FloorRing K] (db : Database)
    (decayAt : Trust.Time → Trust.Time → K) (rootId : String) (targetWeight : ℚ)
    (evaluationTime : Timestamp) : Prop :=
  ∀ now db', db.updateBootstrapIssuer rootId { currentWeight := some targetWeight } now =
      .ok (some db') →
    ∀ counterfactual, runVeriRank decayAt ((db.loadAttestationGraph evaluationTime).withRootWeight
        rootId targetWeight) evaluationTime = .ok counterfactual →
      ∃ rows, runVeriRank decayAt (db'.loadAttestationGraph evaluationTime) evaluationTime =
          .ok rows ∧ ∀ id, scoreOf counterfactual id = scoreOf rows id

theorem withRootWeight_of_absent {graph : AttestationGraph} (habsent : ∀ r ∈ graph.roots, r.id ≠ rootId)
    (w : ℚ) : graph.withRootWeight rootId w = graph := by
  have hroots : (graph.roots.map fun r => if r.id = rootId then ⟨r.id, w⟩ else r) = graph.roots := by
    rw [List.map_congr_left fun r hr => if_neg (habsent r hr)]
    exact List.map_id' _
  unfold AttestationGraph.withRootWeight
  rw [hroots]

end Database

section TwoRoots

def twoRoots (tw : ℚ) (attestations : Table AttestationRow fun a b => a.id = b.id) : Database :=
  { Database.empty with
    principals := ⟨[⟨"root", .issuer, none, none, .active⟩, ⟨"peer", .issuer, none, none, .active⟩,
      ⟨"agent", .agent, none, none, .active⟩], by decide⟩
    issuers := ⟨[⟨"root", tw, some true⟩, ⟨"peer", 1, some true⟩], by simp⟩
    bootstrapIssuers := ⟨[⟨"root", "Root", 1, 0, none⟩, ⟨"peer", "Peer", 1, 0, none⟩], by simp⟩
    attestations := attestations }

def chainOfTrust : Table AttestationRow fun a b => a.id = b.id :=
  ⟨[vouch (.short '1') "peer" "root" 100 soleRootTime false,
    vouch (.short '2') "root" "agent" 100 soleRootTime false], by decide⟩

def removedRoot (tw : ℚ) : Database :=
  Database.deriveIsBootstrapForIssuer { twoRoots tw chainOfTrust with
    bootstrapIssuers := (twoRoots tw chainOfTrust).bootstrapIssuers.mapRows
      (Database.updatedRegistryRow "root" { currentWeight := some 0 } 0) fun _ _ h => h } "root"

theorem twoRoots_update (tw : ℚ) :
    (twoRoots tw chainOfTrust).updateBootstrapIssuer "root" { currentWeight := some 0 } 0 =
      .ok (some (removedRoot tw)) := by
  unfold Database.updateBootstrapIssuer
  rw [if_neg (by simp), if_neg (by simp [twoRoots]), if_neg (by decide +kernel)]
  rfl

theorem twoRoots_schemaOk {tw : ℚ} (htw : 0 ≤ tw ∧ tw ≤ 1) (tenants : List Uuid) :
    { twoRoots tw chainOfTrust with tenants := tenants }.SchemaOk where
  issuerWeights := by simp [twoRoots, htw]
  rootWeights := by simp [twoRoots]
  issuerPrincipals := by simp [twoRoots]
  rootIssuers := by simp [twoRoots]
  attestationIssuers := by simp [twoRoots, chainOfTrust, vouch]
  attestationSubjects := by simp [twoRoots, chainOfTrust, vouch]
  trustDeltas := by simp [twoRoots, chainOfTrust, vouch]
  deltaSigns := by simp [twoRoots, chainOfTrust, vouch]

end TwoRoots

end Verilink.ControlPlane

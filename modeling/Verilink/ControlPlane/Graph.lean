import Verilink.ControlPlane.Database
import Verilink.Framework.Grouped
import Verilink.Trust.Rational
import Verilink.Trust.Server

/-!
# The scoring graph

Attestations are collapsed by observation, the active graph is loaded for one evaluation time, and
the engine client streams it to the trust engine.
-/

namespace Verilink.ControlPlane

open Verilink.Framework

def isJsSpace (c : Char) : Bool :=
  c.toNat ∈ [0x9, 0xA, 0xB, 0xC, 0xD, 0x20, 0xA0, 0x1680, 0x2028, 0x2029, 0x202F, 0x205F,
    0x3000, 0xFEFF] || (0x2000 ≤ c.toNat && c.toNat ≤ 0x200A)

def jsTrim (s : String) : String :=
  String.ofList ((s.toList.dropWhile isJsSpace).reverse.dropWhile isJsSpace).reverse

def visibilityRank : Visibility → Int
  | .participants => 2
  | .isPublic => 1

def groupBefore (a b : AttestationRow) : Prop :=
  visibilityRank b.visibility < visibilityRank a.visibility ∨
    (visibilityRank b.visibility = visibilityRank a.visibility ∧ b.issuedAt ≤ a.issuedAt)

instance : DecidableRel groupBefore := fun _ _ => inferInstanceAs (Decidable (_ ∨ _))

def observationKey (row : AttestationRow) : String := jsTrim (row.observationId.getD "")

def groupKey (row : AttestationRow) : String :=
  row.issuerId ++ "\x00" ++ row.subjectId ++ "\x00" ++ observationKey row

def observed (rows : List AttestationRow) : List AttestationRow :=
  rows.filter fun row => observationKey row ≠ ""

def observationGroups (rows : List AttestationRow) : List (String × List AttestationRow) :=
  Grouped.groupBy groupKey (observed rows)

/-- One representative per observation: most restrictive first, then latest. The sort is
stable. -/
def groupAttestationsForScoring (rows : List AttestationRow) : List AttestationRow :=
  let unpaired := rows.filter fun row => observationKey row = ""
  unpaired ++ (observationGroups rows).filterMap fun g => (g.2.insertionSort groupBefore).head?

variable {a : AttestationRow} {g : String × List AttestationRow} {rows : List AttestationRow}

theorem mem_observed : a ∈ observed rows ↔ a ∈ rows ∧ observationKey a ≠ "" := by
  simp [observed]

theorem mem_observationGroups (hg : g ∈ observationGroups rows) (ha : a ∈ g.2) :
    a ∈ rows ∧ observationKey a ≠ "" ∧ groupKey a = g.1 := by
  rw [Grouped.snd_of_mem_groupBy groupKey hg, List.mem_filter, mem_observed, decide_eq_true_eq] at ha
  exact ⟨ha.1.1, ha.1.2, ha.2⟩

theorem mem_of_mem_grouped (h : a ∈ groupAttestationsForScoring rows) : a ∈ rows := by
  rw [groupAttestationsForScoring, List.mem_append] at h
  rcases h with h | h
  · exact (List.mem_filter.mp h).1
  · obtain ⟨g, hg, hhead⟩ := List.mem_filterMap.mp h
    exact (mem_observationGroups hg ((List.mem_insertionSort _).mp (List.mem_of_head? hhead))).1

structure GraphPrincipal where
  id : String
  entityKind : PrincipalKind
  trustWeight : ℚ
  isBootstrap : Bool
  deriving DecidableEq

structure GraphRoot where
  id : String
  weight : ℚ
  deriving DecidableEq

structure AttestationGraph where
  principals : List GraphPrincipal
  roots : List GraphRoot
  attestations : List AttestationRow
  networkScoreCount : Nat
  deriving DecidableEq

def halfLivesMs : Int := 1800 * 24 * 60 * 60 * 1000

namespace Database

def isActivePrincipal (db : Database) (id : String) : Bool :=
  db.principals.rows.any fun p => p.id = id ∧ p.status = .active

def hasIssuer (db : Database) (id : String) : Bool :=
  db.issuers.rows.any fun i => i.principalId = id

def loadRoots (db : Database) : List GraphRoot :=
  (db.bootstrapIssuers.rows.filter fun b =>
    db.hasIssuer b.principalId && db.isActivePrincipal b.principalId &&
      b.removedFromRegistryAt.isNone && decide (0 < b.currentWeight)).map
    fun b => ⟨b.principalId, b.currentWeight⟩

def loadAttestations (db : Database) (evaluationTime : Timestamp) : List AttestationRow :=
  db.attestations.rows.filter fun a =>
    db.isActivePrincipal a.issuerId && db.isActivePrincipal a.subjectId &&
      a.supersededBy.isNone && a.expiresAt.all (fun e => decide (evaluationTime < e)) &&
      decide (evaluationTime - halfLivesMs < a.issuedAt)

/-- A principal that is streamed as a root has trust weight one and is the bootstrap one. -/
def graphPrincipal (db : Database) (rootIds : List String) (p : PrincipalRow) : GraphPrincipal :=
  let weight := ((db.issuers.rows.find? fun i => i.principalId = p.id).map
    IssuerRow.trustWeight).getD 1
  ⟨p.id, p.entityKind, if p.id ∈ rootIds then 1 else weight, decide (p.id ∈ rootIds)⟩

def loadAttestationGraph (db : Database) (evaluationTime : Timestamp) : AttestationGraph :=
  let roots := db.loadRoots
  let attestations := groupAttestationsForScoring (db.loadAttestations evaluationTime)
  let neededIds := roots.map GraphRoot.id ++
    attestations.flatMap fun a => [a.issuerId, a.subjectId]
  let networkScoreCount := db.networkScores.rows.length
  if neededIds = [] then ⟨[], [], [], networkScoreCount⟩
  else
    let principals := (db.principals.rows.filter fun p =>
      decide (p.id ∈ neededIds) && decide (p.status = .active)).map
        (db.graphPrincipal (roots.map GraphRoot.id))
    let activeIds := principals.map GraphPrincipal.id
    ⟨principals, roots.filter fun r => decide (r.id ∈ activeIds),
      attestations.filter fun a => decide (a.issuerId ∈ activeIds ∧ a.subjectId ∈ activeIds),
      networkScoreCount⟩

end Database

def toUnix (d : Timestamp) : Int := d / 1000

section Client

variable {K : Type} [Field K] [LinearOrder K] [FloorRing K]

def mapAttestation (a : AttestationRow) : Trust.WireAttestation where
  issuerId := a.issuerId
  subjectId := a.subjectId
  trustDelta := a.trustDelta
  issuedAtUnix := toUnix a.issuedAt

def mapPrincipal (p : GraphPrincipal) : Trust.WirePrincipal K where
  id := p.id
  entityKind := p.entityKind.text
  trustWeight := (p.trustWeight : K)
  isBootstrap := p.isBootstrap

def mapRoot (r : GraphRoot) : Trust.Root K where
  id := r.id
  weight := (r.weight : K)

def graphChunks (graph : AttestationGraph) (evaluationTime : Timestamp) :
    List (Trust.RunChunk K) :=
  .header (toUnix evaluationTime) ::
    (graph.principals.map (fun p => .principal (mapPrincipal p)) ++
      graph.roots.map (fun r => .root (mapRoot r)) ++
      graph.attestations.map fun a => .attestation (mapAttestation a))

def entityKindText : Trust.EntityKind → String
  | .unset => ""
  | .agent => "agent"
  | .issuer => "issuer"
  | .both => "both"

def scoreReasonText : Trust.ScoreReason → String
  | .propagated => "propagated"
  | .blacklisted => "blacklisted"

def engineScore (row : Trust.ScoreRow) : EngineScore where
  principalId := row.principalId
  entityKind := entityKindText row.entityKind
  score := row.score
  blacklisted := row.blacklisted
  scoreReason := scoreReasonText row.scoreReason

/-- The engine client. `INVALID_ARGUMENT` is not retried, so it ends the call. -/
def runVeriRank (decayAt : Trust.Time → Trust.Time → K) (graph : AttestationGraph)
    (evaluationTime : Timestamp) : Except Trust.InvalidArgument (List EngineScore) := do
  let table ← Trust.serveRunVeriRank decayAt (graphChunks graph evaluationTime)
  .ok (table.rows.map engineScore)

omit [LinearOrder K] [FloorRing K] in
theorem principalIds_graphChunks (graph : AttestationGraph) (evaluationTime : Timestamp) :
    Trust.principalIds (graphChunks (K := K) graph evaluationTime) =
      graph.principals.map GraphPrincipal.id := by
  have hskip : ∀ (l : List (Trust.RunChunk K)),
      (∀ c ∈ l, ∀ p, c ≠ .principal p) → Trust.principalIds l = [] := by
    intro l hl
    apply List.filterMap_eq_nil_iff.mpr
    intro c hc
    cases c with
    | principal p => exact absurd rfl (hl _ hc p)
    | _ => rfl
  have hprincipals : Trust.principalIds
      (graph.principals.map fun p => Trust.RunChunk.principal (mapPrincipal (K := K) p)) =
        graph.principals.map GraphPrincipal.id := by
    rw [Trust.principalIds, List.filterMap_map]
    exact congrFun (List.filterMap_eq_map (f := GraphPrincipal.id)) graph.principals
  have hroots := hskip (graph.roots.map fun r => .root (mapRoot r)) (by simp)
  have hattestations := hskip (graph.attestations.map fun a => .attestation (mapAttestation a)) (by simp)
  unfold Trust.principalIds at hprincipals hroots hattestations ⊢
  rw [graphChunks, List.filterMap_cons, List.filterMap_append, List.filterMap_append,
    hprincipals, hroots, hattestations, List.append_nil, List.append_nil]

theorem runVeriRank_mem_principals (decayAt : Trust.Time → Trust.Time → K)
    (graph : AttestationGraph) (evaluationTime : Timestamp) (rows : List EngineScore)
    (h : runVeriRank decayAt graph evaluationTime = .ok rows) (row : EngineScore)
    (hrow : row ∈ rows) : row.principalId ∈ graph.principals.map GraphPrincipal.id := by
  obtain ⟨table, htable, hrows⟩ := bind_eq_ok.mp h
  cases hrows
  obtain ⟨engineRow, hmem, rfl⟩ := List.mem_map.mp hrow
  rw [← principalIds_graphChunks (K := K) graph evaluationTime]
  exact Trust.serveRunVeriRank_row_streamed decayAt _ table htable engineRow hmem

theorem runVeriRank_score_nonneg [IsStrictOrderedRing K] (decayAt : Trust.Time → Trust.Time → K)
    (graph : AttestationGraph) (evaluationTime : Timestamp) (rows : List EngineScore)
    (h : runVeriRank decayAt graph evaluationTime = .ok rows) (row : EngineScore)
    (hrow : row ∈ rows) : 0 ≤ row.score := by
  obtain ⟨table, htable, hrows⟩ := bind_eq_ok.mp h
  cases hrows
  obtain ⟨tableRow, htableRow, rfl⟩ := List.mem_map.mp hrow
  obtain ⟨st, evalTime, -, -, -, rfl⟩ := (Trust.serveRunVeriRank_eq_ok _ _ _).mp htable
  obtain ⟨engineRow, hmem, rfl⟩ := List.mem_map.mp htableRow
  obtain ⟨v, -, rfl⟩ := (Trust.mem_propagate_rows _ _ _ _ _ _).mp hmem
  exact Trust.rowScore_nonneg _

end Client

@[mk_iff]
structure AttestationGraph.Valid (graph : AttestationGraph) (evaluationTime : Timestamp) :
    Prop where
  time : toUnix evaluationTime ≠ 0
  principalIds : (graph.principals.map GraphPrincipal.id).Nodup
  principals : ∀ p ∈ graph.principals, p.id ≠ "" ∧ 0 ≤ p.trustWeight ∧ p.trustWeight ≤ 1
  rootIds : (graph.roots.map GraphRoot.id).Nodup
  roots : ∀ r ∈ graph.roots, r.id ≠ "" ∧ 0 ≤ r.weight ∧ r.weight ≤ 1 ∧
    ∃ p ∈ graph.principals, p.id = r.id ∧ p.isBootstrap = true ∧ p.trustWeight = 1
  attestations : ∀ a ∈ graph.attestations, a.issuerId ≠ "" ∧ a.subjectId ≠ "" ∧
    toUnix a.issuedAt ≠ 0 ∧ (∃ p ∈ graph.principals, p.id = a.issuerId ∧ p.entityKind ≠ .agent) ∧
    ∃ p ∈ graph.principals, p.id = a.subjectId

section Accept

variable {K : Type} [Field K] [LinearOrder K] [IsStrictOrderedRing K]

theorem ofText_text (kind : PrincipalKind) :
    ∃ k, Trust.EntityKind.ofText kind.text = some k ∧ (kind ≠ .agent → k = .issuer ∨ k = .both) := by
  cases kind with
  | agent => exact ⟨.agent, by decide, fun h => absurd rfl h⟩
  | issuer => exact ⟨.issuer, by decide, fun _ => Or.inl rfl⟩
  | both => exact ⟨.both, by decide, fun _ => Or.inr rfl⟩

def collectedPrincipals (K : Type) [Field K] (graph : AttestationGraph) :
    List (Trust.Principal K) :=
  graph.principals.map fun p => (mapPrincipal p).collected

def collectedClaims (graph : AttestationGraph) : List Trust.AttestationClaims :=
  graph.attestations.map fun a => Trust.protoAttestationToClaims (mapAttestation a)

variable (graph : AttestationGraph) (evaluationTime : Timestamp)

theorem foldlM_graphChunks (h : graph.Valid evaluationTime) :
    (graphChunks graph evaluationTime).foldlM (Trust.recvChunk (K := K)) {} =
      .ok ⟨some (toUnix evaluationTime * 1000000000), collectedClaims graph,
        collectedPrincipals K graph, graph.roots.map mapRoot⟩ := by
  let st₀ : Trust.StreamState K := { evalTime := some (toUnix evaluationTime * 1000000000) }
  have hheader : Trust.recvChunk ({} : Trust.StreamState K) (.header (toUnix evaluationTime)) =
      .ok st₀ := by
    simp [Trust.recvChunk, h.time, st₀]
  have hprincipals := Trust.foldlM_recv_principals (graph.principals.map (mapPrincipal (K := K)))
    st₀ rfl (by
      intro p hp
      obtain ⟨q, hq, rfl⟩ := List.mem_map.mp hp
      obtain ⟨hid, hlow, hhigh⟩ := h.principals q hq
      obtain ⟨k, hk, -⟩ := ofText_text q.entityKind
      refine ⟨hid, ?_, ?_, ?_⟩
      · simp [mapPrincipal, hk]
      · exact Rat.cast_nonneg.mpr hlow
      · exact ((Rat.cast_le (K := K)).mpr hhigh).trans_eq Rat.cast_one)
    (by simpa [st₀, mapPrincipal, Function.comp_def] using h.principalIds)
  let st₁ : Trust.StreamState K := { st₀ with principals := collectedPrincipals K graph }
  have hroots := Trust.foldlM_recv_roots (graph.roots.map (mapRoot (K := K))) st₁ rfl (by
      intro r hr
      obtain ⟨q, hq, rfl⟩ := List.mem_map.mp hr
      obtain ⟨hid, hlow, hhigh, -⟩ := h.roots q hq
      refine ⟨hid, ?_, ?_⟩
      · exact Rat.cast_nonneg.mpr hlow
      · exact ((Rat.cast_le (K := K)).mpr hhigh).trans_eq Rat.cast_one)
    (by simpa [st₁, st₀, mapRoot, Function.comp_def] using h.rootIds)
  let st₂ : Trust.StreamState K := { st₁ with roots := graph.roots.map mapRoot }
  have hattestations := Trust.foldlM_recv_attestations (graph.attestations.map mapAttestation)
    st₂ rfl (by
      intro a ha
      obtain ⟨q, hq, rfl⟩ := List.mem_map.mp ha
      obtain ⟨hissuer, hsubject, hissued, -⟩ := h.attestations q hq
      exact ⟨hissuer, hsubject, hissued⟩)
  have hchunks : graphChunks (K := K) graph evaluationTime = .header (toUnix evaluationTime) ::
      ((graph.principals.map mapPrincipal).map .principal ++ ((graph.roots.map mapRoot).map .root ++
          (graph.attestations.map mapAttestation).map .attestation)) := by
    simp [graphChunks, Function.comp_def]
  rw [hchunks, foldlM_cons_of_ok _ hheader, foldlM_append_of_ok _ hprincipals]
  have hst₁ : { st₀ with principals := st₀.principals ++
      (graph.principals.map (mapPrincipal (K := K))).map Trust.WirePrincipal.collected } = st₁ := by
    simp [st₁, st₀, collectedPrincipals, Function.comp_def]
  rw [hst₁, foldlM_append_of_ok _ hroots]
  refine hattestations.trans ?_
  simp [st₂, st₁, st₀, collectedClaims, Function.comp_def]

omit [LinearOrder K] [IsStrictOrderedRing K] in
theorem map_id_collectedPrincipals : (collectedPrincipals K graph).map Trust.Principal.id =
      graph.principals.map GraphPrincipal.id := by
  simp [collectedPrincipals, Trust.WirePrincipal.collected, mapPrincipal, Function.comp_def]

omit [LinearOrder K] [IsStrictOrderedRing K] in
theorem find?_collectedPrincipals (hids : (graph.principals.map GraphPrincipal.id).Nodup)
    (p : GraphPrincipal) (hp : p ∈ graph.principals) :
    (collectedPrincipals K graph).find? (fun q => q.id = p.id) =
      some (mapPrincipal p).collected := by
  apply (find?_key_eq_some_iff Trust.Principal.id _ ?_ p.id _).mpr
  · exact ⟨List.mem_map.mpr ⟨p, hp, rfl⟩, rfl⟩
  · rw [map_id_collectedPrincipals]
    exact hids

omit [LinearOrder K] [IsStrictOrderedRing K] in
theorem valueAt_weightByDID_collected (hids : (graph.principals.map GraphPrincipal.id).Nodup)
    (p : GraphPrincipal) (hp : p ∈ graph.principals) :
    Trust.valueAt (Trust.weightByDID (collectedPrincipals K graph)) p.id = p.trustWeight := by
  rw [Trust.valueAt, Trust.weightByDID, lookup_foldl_insert Trust.Principal.id
    Trust.Principal.trustWeight _ (by rw [map_id_collectedPrincipals]; exact hids),
    find?_collectedPrincipals graph hids p hp]
  rfl

omit [IsStrictOrderedRing K] in
theorem checkComplete_graph (h : graph.Valid evaluationTime) (time : Option Trust.Time) :
    Trust.checkComplete (K := K) ⟨time, collectedClaims graph, collectedPrincipals K graph,
      graph.roots.map mapRoot⟩ = .ok () := by
  have hids := map_id_collectedPrincipals (K := K) graph
  refine (Trust.checkComplete_eq_ok _).mpr ⟨?_, ?_, ?_⟩
  · intro r hr
    obtain ⟨q, hq, rfl⟩ := List.mem_map.mp hr
    obtain ⟨-, -, -, p, hp, hid, -⟩ := h.roots q hq
    rw [Trust.checkRootStreamed_eq_ok, hids]
    exact List.mem_map.mpr ⟨p, hp, hid⟩
  · intro c hc
    obtain ⟨a, ha, rfl⟩ := List.mem_map.mp hc
    obtain ⟨-, -, -, ⟨p, hp, hissuer, hkind⟩, s, hs, hsubject⟩ := h.attestations a ha
    obtain ⟨k, hk, hk'⟩ := ofText_text p.entityKind
    have hlookup : (Trust.kindByDID (collectedPrincipals K graph)).lookup a.issuerId = some k := by
      rw [Trust.kindByDID, lookup_foldl_insert Trust.Principal.id Trust.Principal.entityKind _
        (by rw [hids]; exact h.principalIds), ← hissuer,
        find?_collectedPrincipals graph h.principalIds p hp]
      simp [Trust.WirePrincipal.collected, mapPrincipal, hk]
    rw [Trust.checkClaim_eq_ok, hids]
    refine ⟨List.mem_map.mpr ⟨p, hp, hissuer⟩, ?_, List.mem_map.mpr ⟨s, hs, hsubject⟩⟩
    change ((Trust.kindByDID (collectedPrincipals K graph)).lookup a.issuerId).getD _ = _ ∨
      ((Trust.kindByDID (collectedPrincipals K graph)).lookup a.issuerId).getD _ = _
    rw [hlookup]
    exact hk' hkind
  · intro r hr
    obtain ⟨q, hq, rfl⟩ := List.mem_map.mp hr
    obtain ⟨-, -, -, p, hp, hid, hboot, hone⟩ := h.roots q hq
    have hfind := find?_collectedPrincipals (K := K) graph h.principalIds p hp
    rw [hid] at hfind
    apply (Trust.checkRootBootstrap_eq_ok _ _).mpr
    intro found hfound
    cases hfind.symm.trans hfound
    exact ⟨hboot, by simp [Trust.WirePrincipal.collected, mapPrincipal, hone]⟩

def graphEdges (graph : AttestationGraph) (evaluationTime : Timestamp) : List Trust.Edge :=
  ((collectedClaims graph).map some).filterMap
    (Trust.claimEdge (toUnix evaluationTime * 1000000000))

def graphScores (decayAt : Trust.Time → Trust.Time → K) (graph : AttestationGraph)
    (evaluationTime : Timestamp) : Trust.HopState K :=
  Trust.propagateScores (fun e => decayAt e.timestamp (toUnix evaluationTime * 1000000000))
    (graphEdges graph evaluationTime) (collectedPrincipals K graph) (graph.roots.map mapRoot)

def graphRow [FloorRing K] (decayAt : Trust.Time → Trust.Time → K) (graph : AttestationGraph)
    (evaluationTime : Timestamp) (id : String) : EngineScore :=
  engineScore (Trust.stampRow (collectedPrincipals K graph)
    (Trust.scoreRow (Trust.kindByDID (collectedPrincipals K graph))
      (graphScores decayAt graph evaluationTime) id))

theorem runVeriRank_of_valid [FloorRing K] (decayAt : Trust.Time → Trust.Time → K)
    (graph : AttestationGraph) (evaluationTime : Timestamp) (h : graph.Valid evaluationTime) :
    runVeriRank decayAt graph evaluationTime =
      .ok ((sortedKeys (graphScores decayAt graph evaluationTime).scores).map
        (graphRow decayAt graph evaluationTime)) := by
  have hserve := (Trust.serveRunVeriRank_eq_ok decayAt _ _).mpr ⟨_, _,
      foldlM_graphChunks graph evaluationTime h, rfl,
      checkComplete_graph graph evaluationTime h _, rfl⟩
  apply bind_eq_ok.mpr
  refine ⟨_, hserve, ?_⟩
  simp only [Trust.runVeriRank, Trust.propagate, List.map_map]
  rfl

end Accept

/-! ## Fresh claims -/

instance (graph : AttestationGraph) (evaluationTime : Timestamp) :
    Decidable (graph.Valid evaluationTime) :=
  decidable_of_iff' _ (graph.valid_iff evaluationTime)

/-- The claims that can lend something, all those from a node within `reach`, were issued at the
evaluation time. -/
def AttestationGraph.Fresh (graph : AttestationGraph) (evaluationTime : Timestamp)
    (reach : List String) : Prop :=
  (∀ r ∈ graph.roots, r.id ∈ reach) ∧ ∀ e ∈ graphEdges graph evaluationTime, e.issuer ∈ reach →
    e.subject ∈ reach ∧ e.timestamp = toUnix evaluationTime * 1000000000

instance (graph : AttestationGraph) (evaluationTime : Timestamp) (reach : List String) :
    Decidable (graph.Fresh evaluationTime reach) := inferInstanceAs (Decidable (_ ∧ _))

def undecayed (_ _ : Trust.Time) : ℚ := 1

def AttestationGraph.FreshTable (graph : AttestationGraph) (evaluationTime : Timestamp)
    (reach : List String) (rows : List EngineScore) : Prop :=
  graph.Valid evaluationTime ∧ graph.Fresh evaluationTime reach ∧
    (graphScores undecayed graph evaluationTime).scores.keys =
    (rows.map EngineScore.principalId).toFinset ∧
    (rows.map EngineScore.principalId).Pairwise (· < ·) ∧
    (rows.map EngineScore.principalId).map (graphRow undecayed graph evaluationTime) = rows

instance (graph : AttestationGraph) (evaluationTime : Timestamp) (reach : List String)
    (rows : List EngineScore) :
    Decidable (graph.FreshTable evaluationTime reach rows) := inferInstanceAs (Decidable (_ ∧ _))

section Fresh

variable {graph : AttestationGraph} {evaluationTime : Timestamp} {reach : List String}

theorem graphScores_casts (h : graph.Fresh evaluationTime reach) :
    (graphScores undecayed graph evaluationTime).Casts reach
      (graphScores Trust.calculateTimeDecayAt graph evaluationTime) := by
  have hempty : Trust.CastsTo ∅ (∅ : Trust.Scores ℝ) := fun _ => rfl
  have hweights : Trust.CastsTo (Trust.weightByDID (collectedPrincipals ℚ graph))
      (Trust.weightByDID (collectedPrincipals ℝ graph)) := by
    unfold Trust.weightByDID collectedPrincipals
    rw [List.foldl_map, List.foldl_map]
    exact hempty.foldl_insert GraphPrincipal.id GraphPrincipal.trustWeight _
  apply Trust.Graph.Casts.hopLoop
  · refine ⟨rfl, hweights.valueAt, ?_, fun e he hissuer => (h.2 e he hissuer).1⟩
    intro e he hissuer
    change Trust.calculateTimeDecayAt _ _ = ((1 : ℚ) : ℝ)
    rw [(h.2 e he hissuer).2, Trust.calculateTimeDecayAt_self, Rat.cast_one]
  · have hroots : Trust.CastsTo (Trust.initialScores (graph.roots.map mapRoot))
        (Trust.initialScores (graph.roots.map (mapRoot (K := ℝ)))) := by
      have hfold := hempty.foldl_insert GraphRoot.id (fun r => 100 * r.weight) graph.roots
      push_cast at hfold
      unfold Trust.initialScores
      rw [List.foldl_map, List.foldl_map]
      exact hfold
    refine ⟨hroots, rfl, ?_⟩
    unfold Trust.initialScores
    rw [List.foldl_map]
    refine Trust.Within.foldl_insert GraphRoot.id _ _ h.1 fun v hv => ?_
    cases hv

/-- The rows of the engine, evaluated over the rationals. -/
theorem runVeriRank_fresh (reach : List String) {rows : List EngineScore}
    (h : graph.FreshTable evaluationTime reach rows) :
    runVeriRank Trust.calculateTimeDecayAt graph evaluationTime = .ok rows := by
  obtain ⟨hvalid, hfresh, hkeys, hids, hrows⟩ := h
  have hcasts := graphScores_casts hfresh
  have hsort := sortedKeys_eq _ (hcasts.keys.trans hkeys) hids
  have hkinds : Trust.kindByDID (collectedPrincipals ℝ graph) =
      Trust.kindByDID (collectedPrincipals ℚ graph) := by
    unfold Trust.kindByDID collectedPrincipals
    rw [List.foldl_map, List.foldl_map]
    rfl
  have hrow : graphRow Trust.calculateTimeDecayAt graph evaluationTime =
      graphRow undecayed graph evaluationTime := by
    unfold graphRow Trust.stampRow
    rw [hkinds, hcasts.scoreRow]
  rw [runVeriRank_of_valid _ _ _ hvalid, hsort, hrow, hrows]

end Fresh

def vouch (id : Uuid) (issuer subject : String) (delta : Int) (issuedAt : Timestamp)
    (bootstrapOrigin : Bool) : AttestationRow where
  id := id
  issuerId := issuer
  subjectId := subject
  trustDelta := delta
  issuedAt := issuedAt
  expiresAt := none
  attestationType := "transaction_summary"
  observationId := none
  visibility := .participants
  supersededBy := none
  bootstrapOrigin := bootstrapOrigin

end Verilink.ControlPlane

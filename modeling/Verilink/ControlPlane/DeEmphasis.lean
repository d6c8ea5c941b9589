import Verilink.ControlPlane.Graph

/-!
# Bootstrap de-emphasis

The readiness gate for removing a bootstrap root: the organic share of recent attestations, and a
counterfactual run of the engine with the root's weight set to zero.
-/

namespace Verilink.ControlPlane

open Verilink.Framework

def windowDays : Nat := 30
def minIndependentOrganicIssuers : Nat := 3
def minOrganicContributionPct : Int := 80

def dayMs : Int := 24 * 60 * 60 * 1000

structure ContributionSplit where
  bootstrapWeighted : Int
  organicWeighted : Int
  organicPct : Int
  independentOrganicIssuers : Nat
  windowDays : Nat
  windowContinuous : Bool
  deriving DecidableEq

structure ContributionRow where
  attestation : AttestationRow
  ownerTenantId : Option Uuid
  entityKind : PrincipalKind

/-- `Math.round`. -/
def jsRound (q : ℚ) : Int := ⌊q + 1 / 2⌋

structure CounterfactualDrop where
  principalId : String
  currentScore : Int
  counterfactualScore : Int
  servingTenantId : Option Uuid
  tenantThreshold : Int
  dropsBelowThreshold : Bool
  deriving DecidableEq

structure CounterfactualReport where
  rootId : String
  targetWeight : ℚ
  graphVersion : Int
  drops : List CounterfactualDrop
  worstCaseDrop : Int

structure DeEmphasisCandidate where
  principalId : String
  name : String
  currentWeight : ℚ
  contribution : ContributionSplit
  ready : Bool
  notReadyReasons : List String
  counterfactual : CounterfactualReport

structure DeEmphasisResult where
  generatedAt : Timestamp
  windowDays : Nat
  contribution : ContributionSplit
  candidates : List DeEmphasisCandidate

def scoreMap (rows : List EngineScore) : Finmap fun _ : String => EngineScore :=
  rows.foldl (fun m row => m.insert row.principalId row) ∅

def AttestationGraph.withRootWeight (graph : AttestationGraph) (rootId : String) (weight : ℚ) :
    AttestationGraph :=
  { graph with roots := graph.roots.map fun r => if r.id = rootId then ⟨r.id, weight⟩ else r }

namespace Database

def contributionRows (db : Database) (now evaluationTime : Timestamp) : List ContributionRow :=
  db.attestations.rows.filterMap fun a =>
    match db.findPrincipal a.issuerId with
    | none => none
    | some p =>
      if evaluationTime - windowDays * dayMs < a.issuedAt ∧ a.supersededBy = none ∧
          (∀ e ∈ a.expiresAt, now < e) ∧ p.status = .active then
        some ⟨a, p.ownerTenantId, p.entityKind⟩
      else none

def computeContributionSplit (db : Database) (now evaluationTime : Timestamp) :
    ContributionSplit :=
  let rows := db.contributionRows now evaluationTime
  let windowStart := evaluationTime - windowDays * dayMs
  let bootstrap := rows.filter fun r => r.attestation.bootstrapOrigin
  let organic := rows.filter fun r => !r.attestation.bootstrapOrigin
  let weight := fun (rs : List ContributionRow) =>
    (rs.map fun r => |r.attestation.trustDelta|).sum
  let organicIssuerKeys := organic.map fun r =>
    (r.ownerTenantId.elim "null" Uuid.text) ++ ":" ++ r.entityKind.text
  let total := weight bootstrap + weight organic
  let organicDates := (organic.map fun r => r.attestation.issuedAt).insertionSort (· ≤ ·)
  { bootstrapWeighted := weight bootstrap
    organicWeighted := weight organic
    organicPct := if 0 < total then jsRound ((weight organic : ℚ) / total * 100) else 0
    independentOrganicIssuers := organicIssuerKeys.dedup.length
    windowDays := ControlPlane.windowDays
    windowContinuous :=
      match organicDates.head?, organicDates.getLast? with
      | some first, some last =>
        decide (first ≤ windowStart + 5 * dayMs ∧ evaluationTime - 5 * dayMs ≤ last)
      | _, _ => false }

def servingTenant (db : Database) (principalIds : List String) (id : String) : Option Uuid :=
  ((db.principals.rows.filter fun p => p.id ∈ principalIds).find? fun p => p.id = id).bind
    PrincipalRow.ownerTenantId

def tenantThreshold (db : Database) (tenantId : Option Uuid) : Int :=
  match tenantId with
  | none => 0
  | some t => ((db.getActivePolicy t).map PolicyRow.threshold).getD 0

/-- One iteration of the report loop; principals without a row on both sides are skipped. -/
def counterfactualDrop (db : Database) (principalIds : List String)
    (current counterfactual : Finmap fun _ : String => EngineScore) (id : String) :
    Option CounterfactualDrop :=
  match current.lookup id, counterfactual.lookup id with
  | some cur, some cf =>
    let tenantId := db.servingTenant principalIds id
    let threshold := db.tenantThreshold tenantId
    some
      { principalId := id
        currentScore := cur.score
        counterfactualScore := cf.score
        servingTenantId := tenantId
        tenantThreshold := threshold
        dropsBelowThreshold :=
          decide (0 < threshold ∧ threshold ≤ cur.score ∧ cf.score < threshold) }
  | _, _ => none

def counterfactualReport (db : Database) (graph : AttestationGraph) (rootId : String)
    (targetWeight : ℚ) (current counterfactual : List EngineScore) : CounterfactualReport :=
  let principalIds := graph.principals.map GraphPrincipal.id
  let drops := principalIds.filterMap
    (db.counterfactualDrop principalIds (scoreMap current) (scoreMap counterfactual))
  { rootId := rootId
    targetWeight := targetWeight
    graphVersion := db.highWater
    drops := drops
    worstCaseDrop := (drops.map fun d => d.currentScore - d.counterfactualScore).foldl max 0 }

def deEmphasisCandidates (db : Database) : List BootstrapIssuerRow :=
  (db.bootstrapIssuers.rows.filter fun b =>
    db.hasIssuer b.principalId && b.removedFromRegistryAt.isNone &&
      decide (0 < b.currentWeight)).insertionSort fun a b => a.seededAt ≤ b.seededAt

def contributionReasons (contribution : ContributionSplit) : List String :=
  (if contribution.independentOrganicIssuers < minIndependentOrganicIssuers then
    ["insufficient independent organic issuers (" ++
      toString contribution.independentOrganicIssuers ++ " < " ++
      toString minIndependentOrganicIssuers ++ ")"]
  else []) ++
  (if contribution.organicPct < minOrganicContributionPct then
    ["organic contribution below threshold (" ++ toString contribution.organicPct ++ "% < " ++
      toString minOrganicContributionPct ++ "%)"]
  else []) ++
  (if contribution.windowContinuous then []
  else ["organic contribution window is not continuous over 30 days"])

def candidateResult (contribution : ContributionSplit) (candidate : BootstrapIssuerRow)
    (counterfactual : CounterfactualReport) : DeEmphasisCandidate :=
  let notReadyReasons := contributionReasons contribution ++
    (if counterfactual.drops.any CounterfactualDrop.dropsBelowThreshold then
      ["counterfactual removal would drop a principal below its serving tenant threshold"]
    else [])
  { principalId := candidate.principalId
    name := candidate.name
    currentWeight := candidate.currentWeight
    contribution := contribution
    ready := notReadyReasons.isEmpty
    notReadyReasons := notReadyReasons
    counterfactual := counterfactual }

section Report

variable {K : Type} [Field K] [LinearOrder K] [FloorRing K]

def computeCounterfactualRemovalReport (db : Database) (decayAt : Trust.Time → Trust.Time → K)
    (rootId : String) (targetWeight : ℚ) (evaluationTime : Timestamp) :
    Except Trust.InvalidArgument CounterfactualReport := do
  let graph := db.loadAttestationGraph evaluationTime
  let current ← runVeriRank decayAt graph evaluationTime
  let counterfactual ←
    runVeriRank decayAt (graph.withRootWeight rootId targetWeight) evaluationTime
  .ok (db.counterfactualReport graph rootId targetWeight current counterfactual)

def evaluateCandidate (db : Database) (decayAt : Trust.Time → Trust.Time → K)
    (contribution : ContributionSplit) (evaluationTime : Timestamp)
    (candidate : BootstrapIssuerRow) : Except Trust.InvalidArgument DeEmphasisCandidate := do
  let counterfactual ←
    db.computeCounterfactualRemovalReport decayAt candidate.principalId 0 evaluationTime
  .ok (candidateResult contribution candidate counterfactual)

def getDeEmphasisStatus (db : Database) (decayAt : Trust.Time → Trust.Time → K)
    (now evaluationTime : Timestamp) : Except Trust.InvalidArgument DeEmphasisResult := do
  let contribution := db.computeContributionSplit now evaluationTime
  let candidates ←
    db.deEmphasisCandidates.mapM (db.evaluateCandidate decayAt contribution evaluationTime)
  .ok ⟨evaluationTime, windowDays, contribution, candidates⟩

def enforcedThreshold (db : Database) (tenantId : Uuid) : Int :=
  match db.getActivePolicy tenantId with
  | some policy => policy.threshold
  | none => 50

def scoreOf (rows : List EngineScore) (id : String) : Int :=
  (((scoreMap rows).lookup id).map EngineScore.score).getD 0

def RemovalTables (db : Database) (decayAt : Trust.Time → Trust.Time → K) (rootId : String)
    (evaluationTime : Timestamp) (current counterfactual : List EngineScore) : Prop :=
  runVeriRank decayAt (db.loadAttestationGraph evaluationTime) evaluationTime = .ok current ∧
    runVeriRank decayAt ((db.loadAttestationGraph evaluationTime).withRootWeight rootId 0)
      evaluationTime = .ok counterfactual

/-- No owned principal falls below the threshold its tenant enforces when the root is removed. -/
def RemovalKeepsThresholds (db : Database) (decayAt : Trust.Time → Trust.Time → K)
    (rootId : String) (evaluationTime : Timestamp) : Prop :=
  ∀ current counterfactual,
    db.RemovalTables decayAt rootId evaluationTime current counterfactual →
    ∀ p ∈ db.principals.rows, ∀ t, p.ownerTenantId = some t →
      db.enforcedThreshold t ≤ scoreOf current p.id →
      db.enforcedThreshold t ≤ scoreOf counterfactual p.id

/-- No owned principal that meets a positive threshold loses its row, and none owned by a
tenant without active policy keeps its row with less than the default threshold. -/
def NoBlindSpot (db : Database) (decayAt : Trust.Time → Trust.Time → K)
    (rootId : String) (evaluationTime : Timestamp) : Prop :=
  ∀ current counterfactual,
    db.RemovalTables decayAt rootId evaluationTime current counterfactual →
    ∀ p ∈ db.principals.rows, ∀ t, p.ownerTenantId = some t →
      0 < db.enforcedThreshold t → db.enforcedThreshold t ≤ scoreOf current p.id →
      ∃ row, (scoreMap counterfactual).lookup p.id = some row ∧
        (db.getActivePolicy t = none → 50 ≤ row.score)

end Report

end Database

section Gate

variable {K : Type} [Field K] [LinearOrder K] [FloorRing K]

theorem lookup_scoreMap_mem (rows : List EngineScore) (id : String) (row : EngineScore)
    (h : (scoreMap rows).lookup id = some row) : row ∈ rows ∧ row.principalId = id := by
  suffices hgen : ∀ (rows : List EngineScore) (m : Finmap fun _ : String => EngineScore),
      (rows.foldl (fun m row => m.insert row.principalId row) m).lookup id = some row →
        (row ∈ rows ∧ row.principalId = id) ∨ m.lookup id = some row by
    rcases hgen rows ∅ h with hin | hempty
    · exact hin
    · rw [Finmap.lookup_empty] at hempty
      cases hempty
  intro rows
  induction rows with
  | nil => exact fun m hm => Or.inr hm
  | cons r rows ih =>
    intro m hm
    rcases ih _ hm with hin | hin
    · exact Or.inl ⟨List.mem_cons_of_mem _ hin.1, hin.2⟩
    · by_cases hid : id = r.principalId
      · subst hid
        rw [Finmap.lookup_insert] at hin
        cases hin
        exact Or.inl ⟨List.mem_cons_self, rfl⟩
      · rw [Finmap.lookup_insert_of_ne _ hid] at hin
        exact Or.inr hin

namespace Database

variable (db : Database)

theorem servingTenant_of_mem (principalIds : List String) (p : PrincipalRow)
    (hp : p ∈ db.principals.rows) (hid : p.id ∈ principalIds) :
    db.servingTenant principalIds p.id = p.ownerTenantId := by
  have hnodup : ((db.principals.rows.filter fun p => p.id ∈ principalIds).map PrincipalRow.id).Nodup :=
    (db.principals.filter _).nodup_map _ fun _ _ h => h
  have hfind := (find?_key_eq_some_iff PrincipalRow.id _ hnodup p.id p).mpr
    ⟨List.mem_filter.mpr ⟨hp, by simpa using hid⟩, rfl⟩
  rw [servingTenant, hfind]
  rfl

theorem computeCounterfactualRemovalReport_eq_ok (decayAt : Trust.Time → Trust.Time → K)
    (rootId : String) (evaluationTime : Timestamp) (report : CounterfactualReport) :
    db.computeCounterfactualRemovalReport decayAt rootId 0 evaluationTime = .ok report ↔
      ∃ current counterfactual,
        db.RemovalTables decayAt rootId evaluationTime current counterfactual ∧
        report = db.counterfactualReport (db.loadAttestationGraph evaluationTime) rootId 0 current
          counterfactual := by
  constructor
  · intro h
    obtain ⟨current, hcurrent, hrest⟩ := bind_eq_ok.mp h
    obtain ⟨counterfactual, hcounterfactual, hreport⟩ := bind_eq_ok.mp hrest
    exact ⟨current, counterfactual, ⟨hcurrent, hcounterfactual⟩, (Except.ok.inj hreport).symm⟩
  · intro h
    obtain ⟨current, counterfactual, htables, rfl⟩ := h
    exact bind_eq_ok.mpr ⟨current, htables.1, bind_eq_ok.mpr ⟨counterfactual, htables.2, rfl⟩⟩

theorem candidateResult_ready (contribution : ContributionSplit) (candidate : BootstrapIssuerRow)
    (report : CounterfactualReport) :
    (candidateResult contribution candidate report).ready = true ↔
      contributionReasons contribution = [] ∧
        ∀ d ∈ report.drops, d.dropsBelowThreshold = false := by
  have hany : report.drops.any CounterfactualDrop.dropsBelowThreshold = false ↔
      ∀ d ∈ report.drops, d.dropsBelowThreshold = false := by
    simp [List.any_eq_false]
  rw [← hany]
  simp only [candidateResult, List.isEmpty_iff, List.append_eq_nil_iff]
  cases report.drops.any CounterfactualDrop.dropsBelowThreshold <;> simp

theorem ready_candidate (decayAt : Trust.Time → Trust.Time → K)
    (now evaluationTime : Timestamp) (result : DeEmphasisResult)
    (h : db.getDeEmphasisStatus decayAt now evaluationTime = .ok result)
    (c : DeEmphasisCandidate) (hc : c ∈ result.candidates) (hready : c.ready = true) :
    ∃ current counterfactual, db.RemovalTables decayAt c.principalId evaluationTime current
      counterfactual ∧
      ∀ d ∈ (db.counterfactualReport (db.loadAttestationGraph evaluationTime) c.principalId 0
        current counterfactual).drops, d.dropsBelowThreshold = false := by
  obtain ⟨candidates, hcandidates, hresult⟩ := bind_eq_ok.mp h
  cases hresult
  obtain ⟨row, -, hrow⟩ := mem_of_mapM_eq_ok hcandidates hc
  obtain ⟨report, hreport, hcand⟩ := bind_eq_ok.mp hrow
  cases hcand
  obtain ⟨current, counterfactual, htables, rfl⟩ :=
    (db.computeCounterfactualRemovalReport_eq_ok _ _ _ _).mp hreport
  exact ⟨current, counterfactual, htables, ((candidateResult_ready _ _ _).mp hready).2⟩

theorem threshold_kept_of_no_drop (principalIds : List String)
    (current counterfactual : Finmap fun _ : String => EngineScore)
    (hdrops : ∀ d ∈ principalIds.filterMap
      (db.counterfactualDrop principalIds current counterfactual), d.dropsBelowThreshold = false)
    (p : PrincipalRow) (hp : p ∈ db.principals.rows) (hid : p.id ∈ principalIds)
    (t : Uuid) (ht : p.ownerTenantId = some t) (policy : PolicyRow)
    (hpolicy : db.getActivePolicy t = some policy) (hpos : 0 < policy.threshold)
    (cur cf : EngineScore) (hcur : current.lookup p.id = some cur)
    (hcf : counterfactual.lookup p.id = some cf) (hmeets : policy.threshold ≤ cur.score) :
    policy.threshold ≤ cf.score := by
  have htenant : db.servingTenant principalIds p.id = some t :=
    (db.servingTenant_of_mem principalIds p hp hid).trans ht
  have hthreshold : db.tenantThreshold (some t) = policy.threshold := by
    simp [tenantThreshold, hpolicy]
  by_contra hlt
  have hdrop := hdrops _ (List.mem_filterMap.mpr ⟨p.id, hid, by
    simp only [counterfactualDrop, hcur, hcf]
    rfl⟩)
  simp only [htenant, hthreshold, decide_eq_false_iff_not] at hdrop
  exact hdrop ⟨hpos, hmeets, not_le.mp hlt⟩

theorem scoreOf_of_lookup {rows : List EngineScore} {id : String} {row : EngineScore}
    (h : (scoreMap rows).lookup id = some row) : scoreOf rows id = row.score := by
  simp [scoreOf, h]

theorem lookup_of_scoreOf_pos {rows : List EngineScore} {id : String}
    (h : 0 < scoreOf rows id) : ∃ row, (scoreMap rows).lookup id = some row := by
  cases hrow : (scoreMap rows).lookup id with
  | none => simp [scoreOf, hrow] at h
  | some row => exact ⟨row, rfl⟩

theorem scoreOf_nonneg [IsStrictOrderedRing K] (decayAt : Trust.Time → Trust.Time → K)
    (graph : AttestationGraph) (evaluationTime : Timestamp) (rows : List EngineScore)
    (h : runVeriRank decayAt graph evaluationTime = .ok rows) (id : String) :
    0 ≤ scoreOf rows id := by
  cases hrow : (scoreMap rows).lookup id with
  | none => simp [scoreOf, hrow]
  | some row =>
    rw [scoreOf_of_lookup hrow]
    exact runVeriRank_score_nonneg decayAt graph evaluationTime rows h row
      (lookup_scoreMap_mem rows id row hrow).1

theorem lookup_scoreMap_of_valid [IsStrictOrderedRing K] (decayAt : Trust.Time → Trust.Time → K)
    (graph : AttestationGraph) (evaluationTime : Timestamp) (hvalid : graph.Valid evaluationTime)
    (rows : List EngineScore) (h : runVeriRank decayAt graph evaluationTime = .ok rows)
    (v : String) :
    (scoreMap rows).lookup v =
      ((graphScores decayAt graph evaluationTime).scores.lookup v).map
        fun _ => graphRow decayAt graph evaluationTime v := by
  cases (runVeriRank_of_valid decayAt graph evaluationTime hvalid).symm.trans h
  let ids := sortedKeys (graphScores decayAt graph evaluationTime).scores
  have hids : (ids.map (graphRow decayAt graph evaluationTime)).map EngineScore.principalId =
      ids := by
    rw [List.map_map]
    exact List.map_id ids
  have hnodup : ((ids.map (graphRow decayAt graph evaluationTime)).map
      EngineScore.principalId).Nodup := by
    rw [hids]
    exact nodup_sortedKeys _
  have hlookup := lookup_foldl_insert EngineScore.principalId (fun row => row)
    (ids.map (graphRow decayAt graph evaluationTime)) hnodup ∅ v
  rw [Finmap.lookup_empty, Option.or_none, Option.map_id'] at hlookup
  refine hlookup.trans ?_
  cases hv : (graphScores decayAt graph evaluationTime).scores.lookup v with
  | none =>
    apply (find?_key_eq_none_iff EngineScore.principalId _ v).mpr
    rw [hids, mem_sortedKeys, hv]
    exact Bool.false_ne_true
  | some x =>
    apply (find?_key_eq_some_iff EngineScore.principalId _ hnodup v _).mpr
    refine ⟨List.mem_map.mpr ⟨v, ?_, rfl⟩, rfl⟩
    rw [mem_sortedKeys, hv]
    rfl

theorem scoreOf_of_valid [IsStrictOrderedRing K] (decayAt : Trust.Time → Trust.Time → K)
    (graph : AttestationGraph) (evaluationTime : Timestamp) (hvalid : graph.Valid evaluationTime)
    (rows : List EngineScore) (h : runVeriRank decayAt graph evaluationTime = .ok rows)
    (v : String) :
    scoreOf rows v =
      Trust.rowScore (Trust.valueAt (graphScores decayAt graph evaluationTime).scores v) := by
  have hlookup := lookup_scoreMap_of_valid decayAt graph evaluationTime hvalid rows h v
  cases hv : (graphScores decayAt graph evaluationTime).scores.lookup v with
  | none =>
    have hzero : Trust.rowScore (0 : K) = 0 := (Trust.rowScore_eq_zero_iff 0).mpr (by norm_num)
    simp [scoreOf, hlookup, hv, Trust.valueAt, hzero]
  | some x =>
    rw [hv] at hlookup
    rw [scoreOf_of_lookup hlookup]
    rfl

/-- A candidate reported ready is safe to remove exactly when the report had no blind spot. -/
theorem ready_keeps_thresholds_iff [IsStrictOrderedRing K] (db : Database)
    (decayAt : Trust.Time → Trust.Time → K) (now evaluationTime : Timestamp)
    (result : DeEmphasisResult)
    (h : db.getDeEmphasisStatus decayAt now evaluationTime = .ok result)
    (c : DeEmphasisCandidate) (hc : c ∈ result.candidates) (hready : c.ready = true) :
    db.RemovalKeepsThresholds decayAt c.principalId evaluationTime ↔
      db.NoBlindSpot decayAt c.principalId evaluationTime := by
  constructor
  · intro hkeeps current counterfactual htables p hp t ht hpos hmeets
    have hkept := hkeeps current counterfactual htables p hp t ht hmeets
    obtain ⟨row, hrow⟩ := lookup_of_scoreOf_pos (hpos.trans_le hkept)
    refine ⟨row, hrow, ?_⟩
    intro hnone
    rw [scoreOf_of_lookup hrow] at hkept
    simpa [enforcedThreshold, hnone] using hkept
  · intro hblind current counterfactual htables p hp t ht hmeets
    by_cases hpos : 0 < db.enforcedThreshold t
    · obtain ⟨cf, hcf, hdefault⟩ := hblind current counterfactual htables p hp t ht hpos hmeets
      rw [scoreOf_of_lookup hcf]
      cases hpolicy : db.getActivePolicy t with
      | none => simpa [enforcedThreshold, hpolicy] using hdefault hpolicy
      | some policy =>
        have henforced : db.enforcedThreshold t = policy.threshold := by
          simp [enforcedThreshold, hpolicy]
        obtain ⟨cur, hcur⟩ := lookup_of_scoreOf_pos (hpos.trans_le hmeets)
        rw [henforced] at hpos hmeets ⊢
        rw [scoreOf_of_lookup hcur] at hmeets
        obtain ⟨current', counterfactual', htables', hdrops⟩ :=
          db.ready_candidate decayAt now evaluationTime result h c hc hready
        cases htables.1.symm.trans htables'.1
        cases htables.2.symm.trans htables'.2
        obtain ⟨hmem, hcurId⟩ := lookup_scoreMap_mem current p.id cur hcur
        have hid := runVeriRank_mem_principals decayAt _ _ current htables.1 cur hmem
        rw [hcurId] at hid
        exact db.threshold_kept_of_no_drop _ _ _ hdrops p hp hid t ht policy hpolicy hpos cur cf
          hcur hcf hmeets
    · exact (not_lt.mp hpos).trans
        (scoreOf_nonneg decayAt _ evaluationTime counterfactual htables.2 p.id)

theorem getDeEmphasisStatus_of_sole {db : Database} {decayAt : Trust.Time → Trust.Time → K}
    {evaluationTime : Timestamp} {current counterfactual : List EngineScore} (b : BootstrapIssuerRow)
    (now : Timestamp) (hb : db.deEmphasisCandidates = [b])
    (htables : db.RemovalTables decayAt b.principalId evaluationTime current counterfactual) :
    db.getDeEmphasisStatus decayAt now evaluationTime =
      .ok ⟨evaluationTime, windowDays, db.computeContributionSplit now evaluationTime,
        [candidateResult (db.computeContributionSplit now evaluationTime) b (db.counterfactualReport
          (db.loadAttestationGraph evaluationTime) b.principalId 0 current counterfactual)]⟩ := by
  have hreport := (db.computeCounterfactualRemovalReport_eq_ok _ _ _ _).mpr ⟨current,
      counterfactual, htables, rfl⟩
  refine bind_eq_ok.mpr ⟨_, ?_, rfl⟩
  rw [hb, List.mapM_cons]
  exact bind_eq_ok.mpr ⟨_, bind_eq_ok.mpr ⟨_, hreport, rfl⟩, rfl⟩

end Database

end Gate

section SoleRoot

/-- One bootstrap root vouches for the only agent of a tenant, three organic issuers vouch for
each other. -/
def soleRootTime : Timestamp := 2000000000000

def agentTenant : Uuid := ⟨"6f1c2b5e-0000-4000-8000-000000000001", by decide⟩

def issuerTenant : Uuid := ⟨"6f1c2b5e-0000-4000-8000-000000000002", by decide⟩

def soleRootDatabase : Database where
  tenants := [agentTenant, issuerTenant]
  principals := ⟨[⟨"root", .issuer, none, none, .active⟩,
    ⟨"agent", .agent, none, some agentTenant, .active⟩,
    ⟨"organic-1", .issuer, none, none, .active⟩,
    ⟨"organic-2", .both, none, none, .active⟩,
    ⟨"organic-3", .issuer, none, some issuerTenant, .active⟩], by decide⟩
  principalKeys := Table.empty
  issuers := ⟨[⟨"root", 1, some true⟩, ⟨"organic-1", 1, some false⟩,
    ⟨"organic-2", 1, some false⟩, ⟨"organic-3", 1, some false⟩], by decide⟩
  bootstrapIssuers := ⟨[⟨"root", "Root", 1, 0, none⟩], by decide⟩
  attestations := ⟨[vouch (.short '1') "root" "agent" 75 soleRootTime true,
    vouch (.short '2') "organic-1" "organic-2" 100 (soleRootTime - 29 * dayMs) false,
    vouch (.short '3') "organic-2" "organic-1" 100 soleRootTime false,
    vouch (.short '4') "organic-3" "organic-1" 100 soleRootTime false], by decide⟩
  networkScores := Table.empty
  policies := ⟨[⟨agentTenant, "default", 50, .deny, .passthrough, [], [], false, false, 300,
    1 / 100, true⟩], by decide⟩
  syncEvents := Table.empty

theorem soleRoot_removalTables :
    soleRootDatabase.RemovalTables Trust.calculateTimeDecayAt "root" soleRootTime
    [⟨"agent", "agent", 60, false, "propagated"⟩, ⟨"root", "issuer", 100, false, "propagated"⟩]
    [⟨"root", "issuer", 0, false, "propagated"⟩] :=
  ⟨runVeriRank_fresh ["root",
    "agent"] (by decide +kernel), runVeriRank_fresh ["root", "agent"] (by decide +kernel)⟩

theorem soleRoot_ready :
    ∃ result, soleRootDatabase.getDeEmphasisStatus Trust.calculateTimeDecayAt soleRootTime
      soleRootTime = .ok result ∧
      ∃ c ∈ result.candidates, c.principalId = "root" ∧ c.ready = true :=
  ⟨_, Database.getDeEmphasisStatus_of_sole ⟨"root", "Root", 1, 0, none⟩ _ (by decide)
    soleRoot_removalTables, _, List.mem_singleton_self _, rfl, by decide +kernel⟩

/-- The root is reported ready although its removal drops the agent below the threshold of its
tenant: the agent has no counterfactual row. -/
theorem ready_drops_threshold :
    ∃ result, soleRootDatabase.getDeEmphasisStatus Trust.calculateTimeDecayAt soleRootTime
        soleRootTime = .ok result ∧
      ∃ c ∈ result.candidates, c.ready = true ∧
        ¬ soleRootDatabase.RemovalKeepsThresholds Trust.calculateTimeDecayAt c.principalId
          soleRootTime := by
  obtain ⟨result, hresult, c, hc, hroot, hready⟩ := soleRoot_ready
  refine ⟨result, hresult, c, hc, hready, ?_⟩
  intro hkeeps
  rw [hroot] at hkeeps
  have hkept := hkeeps _ _ soleRoot_removalTables
    ⟨"agent", .agent, none, some agentTenant, .active⟩ (by decide) agentTenant rfl (by decide)
  exact absurd hkept (by decide)

theorem ready_keeps_thresholds_iff_soleRoot :
    ∃ result, soleRootDatabase.getDeEmphasisStatus Trust.calculateTimeDecayAt soleRootTime
        soleRootTime = .ok result ∧
      ∃ c ∈ result.candidates, c.ready = true ∧
        (soleRootDatabase.RemovalKeepsThresholds Trust.calculateTimeDecayAt c.principalId
            soleRootTime ↔
          soleRootDatabase.NoBlindSpot Trust.calculateTimeDecayAt c.principalId soleRootTime) := by
  obtain ⟨result, hresult, c, hc, -, hready⟩ := soleRoot_ready
  exact ⟨result, hresult, c, hc, hready, Database.ready_keeps_thresholds_iff soleRootDatabase
    Trust.calculateTimeDecayAt soleRootTime soleRootTime result hresult c hc hready⟩

end SoleRoot

end Verilink.ControlPlane

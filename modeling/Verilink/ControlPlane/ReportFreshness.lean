import Verilink.ControlPlane.Counterfactual
import Verilink.ControlPlane.Writes

/-!
# Freshness of counterfactual reports

A report reads the graph, then the version of the sync log, then the owners and the policies, with
other writes between the reads.
-/

namespace Verilink.ControlPlane

open Verilink.Framework

/-- `showNumber` is the text of a JavaScript number. -/
def validateReportFreshness (showNumber : ℚ → String) (report : CounterfactualReport)
    (expectedGraphVersion : Int) (expectedTargetWeight : ℚ) : Except String Unit :=
  if report.graphVersion ≠ expectedGraphVersion then
    .error ("stale counterfactual report: graph version " ++ showNumber report.graphVersion ++
      " does not match current " ++ showNumber expectedGraphVersion)
  else if report.targetWeight ≠ expectedTargetWeight then
    .error ("counterfactual report target weight " ++ showNumber report.targetWeight ++
      " does not match expected " ++ showNumber expectedTargetWeight)
  else .ok ()

/-- The writes of the control plane and of the services around the report. A submission stores
its subject first where that is unknown. -/
inductive CommittedWrite
  | control (write : Write) (now : ClockTime)
  | createSubject (id : String)
  | submitAttestation (row : AttestationRow)
  | createIssuer (principalId : String) (trustWeight : Option (JsNumber ℚ))
  | updateBootstrapIssuer (principalId : String) (update : BootstrapUpdate) (now : Timestamp)

def Database.Commits (keyHash : List UInt8 → String) (db : Database) :
    CommittedWrite → Database → Prop
  | .control write now, db' => db.write keyHash write now = .ok db'
  | .createSubject id, db' => db' = db.insertPrincipal ⟨id, .agent, none, none, .active⟩
  | .submitAttestation row, db' =>
    ∃ attestations, db.attestations.insert? row = some attestations ∧
      db' = { db with attestations := attestations }
  | .createIssuer principalId trustWeight, db' => db.createIssuer principalId trustWeight = .ok db'
  | .updateBootstrapIssuer principalId update now, db' =>
    db.updateBootstrapIssuer principalId update now = .ok (some db')

structure Scan where
  graph : AttestationGraph
  version : Int
  current : List EngineScore
  counterfactual : List EngineScore
  owners : List PrincipalRow
  policyCache : List (Uuid × Int)
  remaining : List String
  drops : List CounterfactualDrop

namespace Scan

def tenantOf (scan : Scan) (id : String) : Option Uuid :=
  (scan.owners.find? fun p => p.id = id).bind PrincipalRow.ownerTenantId

/-- The threshold of the tenant, from the cache or the database. A tenant without active policy
is not cached. -/
def getThreshold (scan : Scan) (db : Database) : Option Uuid → Int × List (Uuid × Int)
  | none => (0, scan.policyCache)
  | some tenantId =>
    match scan.policyCache.lookup tenantId with
    | some threshold => (threshold, scan.policyCache)
    | none =>
      match db.getActivePolicy tenantId with
      | some policy => (policy.threshold, (tenantId, policy.threshold) :: scan.policyCache)
      | none => (0, scan.policyCache)

def visit (scan : Scan) (db : Database) (id : String) (rest : List String) : Scan :=
  match (scoreMap scan.current).lookup id, (scoreMap scan.counterfactual).lookup id with
  | some cur, some cf =>
    let (threshold, cache) := scan.getThreshold db (scan.tenantOf id)
    { scan with
      policyCache := cache
      remaining := rest
      drops := scan.drops ++
        [{ principalId := id
           currentScore := cur.score
           counterfactualScore := cf.score
           servingTenantId := scan.tenantOf id
           tenantThreshold := threshold
           dropsBelowThreshold :=
             decide (0 < threshold ∧ threshold ≤ cur.score ∧ cf.score < threshold) }] }
  | _, _ => { scan with remaining := rest }

def report (scan : Scan) (rootId : String) (targetWeight : ℚ) : CounterfactualReport where
  rootId := rootId
  targetWeight := targetWeight
  graphVersion := scan.version
  drops := scan.drops
  worstCaseDrop := (scan.drops.map fun d => d.currentScore - d.counterfactualScore).foldl max 0

end Scan

inductive ReportPhase
  | idle
  | loaded (graph : AttestationGraph)
  | versioned (graph : AttestationGraph) (version : Int)
  | scanning (scan : Scan)
  | done (report : CounterfactualReport)

structure Reporting where
  db : Database
  phase : ReportPhase

inductive ReportLabel
  | report
  | write (write : CommittedWrite)

structure ReportRequest where
  rootId : String
  targetWeight : ℚ
  evaluationTime : Timestamp

namespace Reporting

variable {K : Type} [Field K] [LinearOrder K] [FloorRing K]

inductive Step (keyHash : List UInt8 → String) (decayAt : Trust.Time → Trust.Time → K)
    (q : ReportRequest) (s : Reporting) : ReportLabel → Reporting → Prop
  | write {write : CommittedWrite} {db' : Database} (h : s.db.Commits keyHash write db') :
      Step keyHash decayAt q s (.write write) ⟨db', s.phase⟩
  | load (h : s.phase = .idle) :
      Step keyHash decayAt q s .report ⟨s.db, .loaded (s.db.loadAttestationGraph q.evaluationTime)⟩
  | getGraphVersion {graph : AttestationGraph} (h : s.phase = .loaded graph) :
      Step keyHash decayAt q s .report ⟨s.db, .versioned graph s.db.highWater⟩
  | readOwners {graph : AttestationGraph} {version : Int} {current counterfactual : List EngineScore}
      (h : s.phase = .versioned graph version)
      (hcurrent : runVeriRank decayAt graph q.evaluationTime = .ok current)
      (hcounterfactual : runVeriRank decayAt (graph.withRootWeight q.rootId q.targetWeight)
        q.evaluationTime = .ok counterfactual) :
      Step keyHash decayAt q s .report ⟨s.db, .scanning
        { graph := graph
          version := version
          current := current
          counterfactual := counterfactual
          owners := s.db.principals.rows.filter fun p => p.id ∈ graph.principals.map GraphPrincipal.id
          policyCache := []
          remaining := graph.principals.map GraphPrincipal.id
          drops := [] }⟩
  | visit {scan : Scan} {id : String} {rest : List String} (h : s.phase = .scanning scan)
      (hrest : scan.remaining = id :: rest) :
      Step keyHash decayAt q s .report ⟨s.db, .scanning (scan.visit s.db id rest)⟩
  | finish {scan : Scan} (h : s.phase = .scanning scan) (hrest : scan.remaining = []) :
      Step keyHash decayAt q s .report ⟨s.db, .done (scan.report q.rootId q.targetWeight)⟩

def system (keyHash : List UInt8 → String) (decayAt : Trust.Time → Trust.Time → K)
    (q : ReportRequest) : System Reporting ReportLabel where
  init s := s.phase = .idle
  step := Step keyHash decayAt q

end Reporting

structure Database.SameGraphTables (db db' : Database) : Prop where
  principals : db'.principals = db.principals
  issuers : db'.issuers = db.issuers
  bootstrapIssuers : db'.bootstrapIssuers = db.bootstrapIssuers
  attestations : db'.attestations = db.attestations

/-- Once the graph is loaded, a write leaves its tables as they are. -/
def Reporting.KeepsGraph (keyHash : List UInt8 → String) (s : Reporting) : ReportLabel → Prop
  | .report => True
  | .write write => s.phase = .idle ∨
      ∀ db', s.db.Commits keyHash write db' → s.db.SameGraphTables db'

/-! ## What writes do to the log -/

namespace Database

structure LogFrame (db db' : Database) : Prop where
  syncEvents : db'.syncEvents = db.syncEvents
  policies : db'.policies = db.policies

theorem insertPrincipal_logFrame (db : Database) (row : PrincipalRow) :
    LogFrame db (db.insertPrincipal row) := by
  unfold insertPrincipal
  split <;> exact ⟨rfl, rfl⟩

theorem insertSeedIssuerRow_logFrame (db : Database) (principalId : String) :
    LogFrame db (db.insertSeedIssuerRow principalId) := by
  unfold insertSeedIssuerRow
  split <;> exact ⟨rfl, rfl⟩

theorem insertIssuer_logFrame (db : Database) (principalId : String)
    (trustWeight : Option (JsNumber ℚ)) : LogFrame db (db.insertIssuer principalId trustWeight) := by
  unfold insertIssuer
  split
  · unfold upsertIssuer
    split <;> exact ⟨rfl, rfl⟩
  · exact db.insertSeedIssuerRow_logFrame principalId

variable {db db' : Database} {principalId : String}

theorem createIssuer_logFrame {trustWeight : Option (JsNumber ℚ)}
    (h : db.createIssuer principalId trustWeight = .ok db') :
    LogFrame db db' := by
  obtain ⟨-, h⟩ := seq_eq_ok.mp h
  split at h
  · cases h
  · cases h
    split_ifs
    · have hissuer :=
        (db.updatePrincipal principalId .both).insertIssuer_logFrame principalId trustWeight
      exact ⟨hissuer.syncEvents, hissuer.policies⟩
    · exact db.insertIssuer_logFrame principalId trustWeight

theorem updateBootstrapIssuer_logFrame {update : BootstrapUpdate} {now : Timestamp}
    (h : db.updateBootstrapIssuer principalId update now = .ok (some db')) : LogFrame db db' := by
  unfold updateBootstrapIssuer at h
  split_ifs at h
  · cases h
  · cases h
    exact ⟨rfl, rfl⟩
  · cases h

theorem highWater_le_of_append {e : SyncEventRow} (h : db'.syncEvents.rows = db.syncEvents.rows ++ [e]) :
    db.highWater ≤ db'.highWater := by
  rw [db.highWater_of_rows_append db' e h]
  exact le_max_left _ _

theorem Commits.log {keyHash : List UInt8 → String} {write : CommittedWrite}
    (h : db.Commits keyHash write db') :
    db.highWater ≤ db'.highWater ∧ (db'.highWater = db.highWater → db'.policies = db.policies) := by
  have hframe : ∀ {db' : Database}, LogFrame db db' →
      db.highWater ≤ db'.highWater ∧ (db'.highWater = db.highWater → db'.policies = db.policies) := by
    intro db' hframe
    have heq : db'.highWater = db.highWater := by simp only [highWater, hframe.syncEvents]
    exact ⟨heq.ge, fun _ => hframe.policies⟩
  cases write with
  | control write now =>
    have heffect : Effect now db db' :=
      effect_of_step (show (controlPlane keyHash).step db (write, now) db' from h)
    cases heffect with
    | registry hw => exact hframe ⟨hw.syncEvents, hw.policies⟩
    | scores happly =>
      have hkept := applyScoreTable_preserves
        (P := fun s => db.highWater ≤ s.highWater ∧ s.policies = db.policies)
        (fun s row s' hs hw => ⟨hs.1.trans (highWater_le_of_append hw.log), by rw [hw.frame, ← hs.2]⟩)
        (fun s r s' _ hs hw => ⟨hs.1.trans (highWater_le_of_append hw.log), by rw [hw.frame, ← hs.2]⟩)
        ⟨le_rfl, rfl⟩ happly
      exact ⟨hkept.1, fun _ => hkept.2⟩
    | policy hbody hcommit =>
      obtain ⟨-, -, -, -, -, -, -, hlog⟩ := db.replaceActivePolicy_eq_ok db' _ _ _ _ hcommit
      have hnext := db.highWater_of_rows_append db' _ hlog
      have hgrown : db.highWater < db'.highWater := by
        rw [hnext]
        exact lt_max_of_lt_right (Int.lt_succ _)
      exact ⟨hgrown.le, fun heq => absurd heq hgrown.ne'⟩
  | createSubject id =>
    cases h
    exact hframe (db.insertPrincipal_logFrame _)
  | submitAttestation row =>
    obtain ⟨attestations, -, rfl⟩ := h
    exact hframe ⟨rfl, rfl⟩
  | createIssuer principalId trustWeight => exact hframe (createIssuer_logFrame h)
  | updateBootstrapIssuer principalId update now => exact hframe (updateBootstrapIssuer_logFrame h)

end Database

/-! ## What a report depends on -/

def AttestationGraph.scored (graph : AttestationGraph) : AttestationGraph :=
  { graph with networkScoreCount := 0 }

theorem Database.SameGraphTables.scored {db db' : Database} (h : db.SameGraphTables db')
    (evaluationTime : Timestamp) :
    (db'.loadAttestationGraph evaluationTime).scored =
      (db.loadAttestationGraph evaluationTime).scored := by
  have hactive : ∀ id, db'.isActivePrincipal id = db.isActivePrincipal id := by
    intro id
    unfold Database.isActivePrincipal
    rw [h.principals]
  have hroots : db'.loadRoots = db.loadRoots := by
    unfold Database.loadRoots Database.hasIssuer
    simp only [h.bootstrapIssuers, h.issuers, hactive]
  have hattestations : db'.loadAttestations evaluationTime = db.loadAttestations evaluationTime := by
    unfold Database.loadAttestations
    simp only [h.attestations, hactive]
  have hneeded : db'.neededIds evaluationTime = db.neededIds evaluationTime := by
    unfold Database.neededIds
    rw [hroots, hattestations]
  have hprincipal : db'.graphPrincipal (db.loadRoots.map GraphRoot.id) =
      db.graphPrincipal (db.loadRoots.map GraphRoot.id) := by
    funext p
    unfold Database.graphPrincipal
    rw [h.issuers]
  rw [Database.loadAttestationGraph_eq, Database.loadAttestationGraph_eq]
  simp only [AttestationGraph.scored, hroots, hattestations, hneeded, h.principals, hprincipal]

section Consistent

variable {K : Type} [Field K] [LinearOrder K] [FloorRing K]

/-- What the scan has read is still what it would read, and its drops are those of the principals
it has visited. -/
structure Scan.Consistent (decayAt : Trust.Time → Trust.Time → K) (q : ReportRequest) (db : Database)
    (scan : Scan) : Prop where
  graph : scan.graph.scored = (db.loadAttestationGraph q.evaluationTime).scored
  current : runVeriRank decayAt scan.graph q.evaluationTime = .ok scan.current
  counterfactual : runVeriRank decayAt (scan.graph.withRootWeight q.rootId q.targetWeight)
    q.evaluationTime = .ok scan.counterfactual
  owners : scan.owners =
    db.principals.rows.filter fun p => p.id ∈ scan.graph.principals.map GraphPrincipal.id
  cache : ∀ t x, scan.policyCache.lookup t = some x →
    (db.getActivePolicy t).map PolicyRow.threshold = some x
  drops : ∃ seen, scan.graph.principals.map GraphPrincipal.id = seen ++ scan.remaining ∧
    scan.drops = seen.filterMap (db.counterfactualDrop (scan.graph.principals.map GraphPrincipal.id)
      (scoreMap scan.current) (scoreMap scan.counterfactual))

def Database.Reproduces (decayAt : Trust.Time → Trust.Time → K) (q : ReportRequest) (db : Database)
    (report : CounterfactualReport) : Prop :=
  ∃ again, db.computeCounterfactualRemovalReport decayAt q.rootId q.targetWeight q.evaluationTime =
    .ok again ∧ again.drops = report.drops

variable {decayAt : Trust.Time → Trust.Time → K} {q : ReportRequest} {db db' : Database} {scan : Scan}

theorem Scan.Consistent.frame (h : scan.Consistent decayAt q db) (htables : db.SameGraphTables db')
    (hpolicies : db'.policies = db.policies) : scan.Consistent decayAt q db' := by
  have hactive : ∀ t, db'.getActivePolicy t = db.getActivePolicy t := by
    intro t
    unfold Database.getActivePolicy
    rw [hpolicies]
  have hdrop : ∀ ids current counterfactual, db'.counterfactualDrop ids current counterfactual =
      db.counterfactualDrop ids current counterfactual := by
    intro ids current counterfactual
    funext id
    unfold Database.counterfactualDrop Database.servingTenant Database.tenantThreshold
    simp only [htables.principals, hactive]
  obtain ⟨seen, hseen, hdrops⟩ := h.drops
  refine ⟨?_, h.current, h.counterfactual, ?_, ?_, seen, hseen, ?_⟩
  · rw [htables.scored]
    exact h.graph
  · rw [htables.principals]
    exact h.owners
  · intro t x hx
    rw [hactive]
    exact h.cache t x hx
  · rw [hdrop]
    exact hdrops

theorem Scan.Consistent.getThreshold (h : scan.Consistent decayAt q db) (tenantId : Option Uuid) :
    (scan.getThreshold db tenantId).1 = db.tenantThreshold tenantId ∧
      ∀ t x, (scan.getThreshold db tenantId).2.lookup t = some x →
        (db.getActivePolicy t).map PolicyRow.threshold = some x := by
  cases tenantId with
  | none => exact ⟨rfl, h.cache⟩
  | some t =>
    simp only [Scan.getThreshold, Database.tenantThreshold]
    cases hlookup : scan.policyCache.lookup t with
    | some x =>
      refine ⟨?_, h.cache⟩
      rw [h.cache t x hlookup]
      rfl
    | none =>
      cases hpolicy : db.getActivePolicy t with
      | none => exact ⟨rfl, h.cache⟩
      | some policy =>
        refine ⟨rfl, ?_⟩
        intro t' x hx
        by_cases ht : t' = t
        · subst ht
          rw [List.lookup_cons_self] at hx
          rw [hpolicy]
          exact hx
        · have hne : (t' == t) = false := by simpa using ht
          rw [List.lookup_cons, hne] at hx
          exact h.cache t' x hx

variable {id : String} {rest : List String}

theorem Scan.Consistent.visit (h : scan.Consistent decayAt q db) (hrest : scan.remaining = id :: rest) :
    (scan.visit db id rest).Consistent decayAt q db := by
  obtain ⟨seen, hseen, hdrops⟩ := h.drops
  rw [hrest] at hseen
  have hsplit : scan.graph.principals.map GraphPrincipal.id = (seen ++ [id]) ++ rest := by
    rw [hseen, List.append_assoc]
    rfl
  have htenant : scan.tenantOf id =
      db.servingTenant (scan.graph.principals.map GraphPrincipal.id) id := by
    unfold Scan.tenantOf Database.servingTenant
    rw [h.owners]
  obtain ⟨hthreshold, hcache⟩ := h.getThreshold (scan.tenantOf id)
  unfold Scan.visit
  cases hcur : (scoreMap scan.current).lookup id with
  | none =>
    refine ⟨h.graph, h.current, h.counterfactual, h.owners, h.cache, seen ++ [id], hsplit, ?_⟩
    rw [List.filterMap_append, ← hdrops]
    simp [Database.counterfactualDrop, hcur]
  | some cur =>
    cases hcf : (scoreMap scan.counterfactual).lookup id with
    | none =>
      refine ⟨h.graph, h.current, h.counterfactual, h.owners, h.cache, seen ++ [id], hsplit, ?_⟩
      rw [List.filterMap_append, ← hdrops]
      simp [Database.counterfactualDrop, hcur, hcf]
    | some cf =>
      refine ⟨h.graph, h.current, h.counterfactual, h.owners, hcache, seen ++ [id], hsplit, ?_⟩
      rw [List.filterMap_append, ← hdrops]
      simp [Database.counterfactualDrop, hcur, hcf, ← htenant, hthreshold]

theorem Scan.Consistent.reproduces (h : scan.Consistent decayAt q db) (hrest : scan.remaining = []) :
    db.Reproduces decayAt q (scan.report q.rootId q.targetWeight) := by
  obtain ⟨seen, hseen, hdrops⟩ := h.drops
  rw [hrest, List.append_nil] at hseen
  have hcurrent : runVeriRank decayAt (db.loadAttestationGraph q.evaluationTime).scored
      q.evaluationTime = .ok scan.current := by
    rw [← h.graph]
    exact h.current
  have hcounterfactual :
      runVeriRank decayAt ((db.loadAttestationGraph q.evaluationTime).scored.withRootWeight
      q.rootId q.targetWeight) q.evaluationTime = .ok scan.counterfactual := by
    rw [← h.graph]
    exact h.counterfactual
  have hprincipals : (db.loadAttestationGraph q.evaluationTime).principals = scan.graph.principals :=
    (congrArg AttestationGraph.principals h.graph).symm
  refine ⟨_, bind_eq_ok.mpr ⟨_, hcurrent, bind_eq_ok.mpr ⟨_, hcounterfactual, rfl⟩⟩, ?_⟩
  simp only [Database.counterfactualReport, hprincipals, Scan.report]
  rw [hdrops, ← hseen]

/-- The version is no newer than the log, and while it is the newest, the scan is consistent. -/
structure Scan.Tracks (decayAt : Trust.Time → Trust.Time → K) (q : ReportRequest) (db : Database)
    (scan : Scan) : Prop where
  version : scan.version ≤ db.highWater
  consistent : scan.version = db.highWater → scan.Consistent decayAt q db

variable {keyHash : List UInt8 → String}

theorem Scan.Tracks.commit {write : CommittedWrite} (h : scan.Tracks decayAt q db)
    (hcommit : db.Commits keyHash write db') (htables : db.SameGraphTables db') :
    scan.Tracks decayAt q db' := by
  obtain ⟨hgrows, hpolicies⟩ := hcommit.log
  refine ⟨h.version.trans hgrows, ?_⟩
  intro hversion
  have hsame : db'.highWater = db.highWater := le_antisymm (hversion ▸ h.version) hgrows
  exact (h.consistent (hversion.trans hsame)).frame htables (hpolicies hsame)

@[simp] theorem Scan.version_visit (scan : Scan) (db : Database) (id : String) (rest : List String) :
    (scan.visit db id rest).version = scan.version := by
  unfold Scan.visit
  split <;> rfl

theorem Scan.Tracks.visit (h : scan.Tracks decayAt q db) (hrest : scan.remaining = id :: rest) :
    (scan.visit db id rest).Tracks decayAt q db := by
  refine ⟨?_, ?_⟩
  · rw [Scan.version_visit]
    exact h.version
  · intro hversion
    rw [Scan.version_visit] at hversion
    exact (h.consistent hversion).visit hrest

/-! ## Runs -/

namespace Reporting

/-- What holds of the report in each phase. -/
def Inv (decayAt : Trust.Time → Trust.Time → K) (q : ReportRequest) (s : Reporting) : Prop :=
  match s.phase with
  | .idle => True
  | .loaded graph => graph.scored = (s.db.loadAttestationGraph q.evaluationTime).scored
  | .versioned graph version =>
    graph.scored = (s.db.loadAttestationGraph q.evaluationTime).scored ∧ version ≤ s.db.highWater
  | .scanning scan => scan.Tracks decayAt q s.db
  | .done report => ∃ scan : Scan, scan.remaining = [] ∧
      report = scan.report q.rootId q.targetWeight ∧ scan.Tracks decayAt q s.db

variable {keyHash : List UInt8 → String} {s : Reporting}

theorem Inv.write {write : CommittedWrite} (h : Inv decayAt q s)
    (hok : s.KeepsGraph keyHash (.write write)) (hcommit : s.db.Commits keyHash write db') :
    Inv decayAt q ⟨db', s.phase⟩ := by
  obtain ⟨db, phase⟩ := s
  rcases hok with hidle | hkeeps
  · change phase = .idle at hidle
    subst hidle
    trivial
  have htables := hkeeps db' hcommit
  cases phase with
  | idle => trivial
  | loaded graph => exact Eq.trans h (htables.scored q.evaluationTime).symm
  | versioned graph version =>
    exact ⟨h.1.trans (htables.scored q.evaluationTime).symm, h.2.trans hcommit.log.1⟩
  | scanning scan => exact Scan.Tracks.commit h hcommit htables
  | done report =>
    obtain ⟨scan, hrest, hreport, htracks⟩ := h
    exact ⟨scan, hrest, hreport, htracks.commit hcommit htables⟩

theorem Inv.step {s' : Reporting} {label : ReportLabel} (h : Inv decayAt q s)
    (hok : s.KeepsGraph keyHash label) (hst : Step keyHash decayAt q s label s') :
    Inv decayAt q s' := by
  unfold Inv at h
  cases hst with
  | write hcommit => exact Inv.write h hok hcommit
  | load _ => rfl
  | getGraphVersion hphase =>
    rw [hphase] at h
    exact ⟨h, le_rfl⟩
  | readOwners hphase hcurrent hcounterfactual =>
    rw [hphase] at h
    refine ⟨h.2, ?_⟩
    intro _
    exact ⟨h.1, hcurrent, hcounterfactual, rfl, by simp, [], rfl, rfl⟩
  | visit hphase hrest =>
    rw [hphase] at h
    exact Scan.Tracks.visit h hrest
  | finish hphase hrest =>
    rw [hphase] at h
    exact ⟨_, hrest, rfl, h⟩

theorem inv_of_reachable (h : (system keyHash decayAt q).ReachableVia (KeepsGraph keyHash) s) :
    Inv decayAt q s := by
  apply h.invariant
  · intro s hidle
    change s.phase = .idle at hidle
    simp [Inv, hidle]
  · intro s label s' hs hok hst
    exact hs.step hok hst

end Reporting

theorem validateReportFreshness_eq_ok {showNumber : ℚ → String} {report : CounterfactualReport}
    {expectedGraphVersion : Int} {expectedTargetWeight : ℚ}
    (h : validateReportFreshness showNumber report expectedGraphVersion expectedTargetWeight = .ok ()) :
    report.graphVersion = expectedGraphVersion ∧ report.targetWeight = expectedTargetWeight := by
  unfold validateReportFreshness at h
  split_ifs at h with hversion hweight
  exact ⟨not_not.mp hversion, not_not.mp hweight⟩

/-- A report that is still fresh while the tables of its graph were left alone is the report that
would be computed now. -/
theorem fresh_report_reproduced (keyHash : List UInt8 → String) (showNumber : ℚ → String)
    (s : Reporting) (report : CounterfactualReport) (expectedTargetWeight : ℚ)
    (h : (Reporting.system keyHash decayAt q).ReachableVia (Reporting.KeepsGraph keyHash) s)
    (hdone : s.phase = .done report)
    (hfresh : validateReportFreshness showNumber report s.db.highWater expectedTargetWeight = .ok ()) :
    ∃ again, s.db.computeCounterfactualRemovalReport decayAt report.rootId expectedTargetWeight
      q.evaluationTime = .ok again ∧ again.drops = report.drops := by
  have hinv := Reporting.inv_of_reachable h
  unfold Reporting.Inv at hinv
  rw [hdone] at hinv
  obtain ⟨scan, hrest, rfl, htracks⟩ := hinv
  obtain ⟨hversion, rfl⟩ := validateReportFreshness_eq_ok hfresh
  exact (htracks.consistent hversion).reproduces hrest

end Consistent

section OneVouch

def peerVouch : Table AttestationRow fun a b => a.id = b.id :=
  ⟨[vouch (.short '1') "peer" "root" 100 soleRootTime false], by decide⟩

def removalOfRoot : ReportRequest := ⟨"root", 0, soleRootTime⟩

def withTenant (attestations : Table AttestationRow fun a b => a.id = b.id) : Database :=
  { twoRoots 1 attestations with tenants := [agentTenant] }

def signUp : CommittedWrite := .control (.createTenant agentTenant) .epoch

/-- The report of the first link; a tenant signs up while it is computed. -/
theorem exists_firstReport : ∃ report,
    (Reporting.system (fun _ => "") Trust.calculateTimeDecayAt removalOfRoot).ReachableVia
      (Reporting.KeepsGraph fun _ => "") ⟨withTenant peerVouch, .done report⟩ ∧
    report.rootId = "root" ∧ report.drops.map CounterfactualDrop.principalId = ["root", "peer"] ∧
    validateReportFreshness (fun _ => "") report 0 0 = .ok () := by
  have hcurrent : runVeriRank Trust.calculateTimeDecayAt
      ((twoRoots 1 peerVouch).loadAttestationGraph soleRootTime)
      soleRootTime = .ok [⟨"peer", "issuer", 100, false, "propagated"⟩,
        ⟨"root", "issuer", 100, false, "propagated"⟩] :=
    runVeriRank_fresh ["peer", "root"] (by decide +kernel)
  have hcounterfactual : runVeriRank Trust.calculateTimeDecayAt
      (((twoRoots 1 peerVouch).loadAttestationGraph soleRootTime).withRootWeight "root" 0) soleRootTime =
      .ok [⟨"peer", "issuer", 100, false, "propagated"⟩, ⟨"root", "issuer", 80, false, "propagated"⟩] :=
    runVeriRank_fresh ["peer", "root"] (by decide +kernel)
  have h₀ : (Reporting.system (fun _ => "") Trust.calculateTimeDecayAt removalOfRoot).ReachableVia
      (Reporting.KeepsGraph fun _ => "") ⟨twoRoots 1 peerVouch, .idle⟩ := .init rfl
  have h₁ := h₀.next ReportLabel.report trivial (.load rfl)
  have h₂ := h₁.next ReportLabel.report trivial (.getGraphVersion rfl)
  have hkeeps : ∀ db', (twoRoots 1 peerVouch).Commits (fun _ => "") signUp db' →
      (twoRoots 1 peerVouch).SameGraphTables db' := by
    intro db' h
    cases h
    exact ⟨rfl, rfl, rfl, rfl⟩
  have h₃ := h₂.next (ReportLabel.write signUp) (Or.inr hkeeps)
    (Reporting.Step.write (show Database.Commits _ _ _ (withTenant peerVouch) from rfl))
  have h₄ := h₃.next ReportLabel.report trivial (.readOwners rfl hcurrent hcounterfactual)
  have h₅ := h₄.next ReportLabel.report trivial (.visit rfl (show _ = "root" :: ["peer"] by decide))
  have h₆ := h₅.next ReportLabel.report trivial (.visit rfl (show _ = "peer" :: [] by decide))
  have h₇ := h₆.next ReportLabel.report trivial (.finish rfl (show _ = [] by decide +kernel))
  refine ⟨_, h₇, rfl, ?_, ?_⟩
  · decide +kernel
  · decide +kernel

/-- The second link is submitted after the report: the version stays, the drops do not. -/
theorem fresh_report_outdated :
    ∃ (s : Reporting) (report : CounterfactualReport),
      (Reporting.system (fun _ => "") Trust.calculateTimeDecayAt removalOfRoot).Reachable s ∧
      s.phase = .done report ∧ s.db.SchemaOk ∧
      validateReportFreshness (fun _ => "") report s.db.highWater 0 = .ok () ∧
      ¬ ∃ again, s.db.computeCounterfactualRemovalReport Trust.calculateTimeDecayAt report.rootId 0
        soleRootTime = .ok again ∧ again.drops = report.drops := by
  obtain ⟨report, hreach, hroot, hreported, hfresh⟩ := exists_firstReport
  have hinsert : peerVouch.insert? (vouch (.short '2') "root" "agent" 100 soleRootTime false) =
      some chainOfTrust := by
    apply dif_pos
    decide
  have hagain := ((withTenant chainOfTrust).computeCounterfactualRemovalReport_eq_ok
    Trust.calculateTimeDecayAt "root" soleRootTime _).mpr ⟨[⟨"agent", "agent", 80, false, "propagated"⟩,
      ⟨"peer", "issuer", 100, false, "propagated"⟩, ⟨"root", "issuer", 100, false, "propagated"⟩],
    [⟨"agent", "agent", 64, false, "propagated"⟩, ⟨"peer", "issuer", 100, false, "propagated"⟩,
      ⟨"root", "issuer", 80, false, "propagated"⟩],
    ⟨runVeriRank_fresh ["peer", "root", "agent"] (by decide +kernel),
      runVeriRank_fresh ["peer", "root", "agent"] (by decide +kernel)⟩, rfl⟩
  refine ⟨⟨withTenant chainOfTrust, .done report⟩, report, ?_, rfl,
    twoRoots_schemaOk (by norm_num) _, hfresh, ?_⟩
  · exact hreach.reachable.next (.write (.submitAttestation
      (vouch (.short '2') "root" "agent" 100 soleRootTime false)))
      (.write ⟨chainOfTrust, hinsert, rfl⟩)
  · rintro ⟨again, h, hdrops⟩
    rw [hroot] at h
    cases hagain.symm.trans h
    rw [← hdrops] at hreported
    exact absurd hreported (by decide +kernel)

/-- The report is approved and reproduced after the sign-up. -/
theorem fresh_report_reproduced_signUp :
    ∃ report : CounterfactualReport,
      validateReportFreshness (fun _ => "") report (withTenant peerVouch).highWater 0 = .ok () ∧
      ∃ again, (withTenant peerVouch).computeCounterfactualRemovalReport
        Trust.calculateTimeDecayAt report.rootId 0 soleRootTime = .ok again ∧
        again.drops = report.drops := by
  obtain ⟨report, hreach, -, -, hfresh⟩ := exists_firstReport
  have hagain := fresh_report_reproduced (fun _ => "") (fun _ => "") ⟨withTenant peerVouch,
      .done report⟩ report 0
    hreach rfl hfresh
  exact ⟨report, hfresh, hagain⟩

end OneVouch

end Verilink.ControlPlane

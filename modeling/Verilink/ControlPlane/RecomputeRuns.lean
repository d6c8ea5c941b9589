import Verilink.ControlPlane.Recompute
import Verilink.ControlPlane.DeEmphasis

/-!
# Interleaved recomputes

Runs of `recomputeNow` on any number of replicas.
-/

namespace Verilink.ControlPlane

open Verilink.Framework

inductive RunPhase
  | started (evaluationTime : Timestamp)
  | loaded (evaluationTime : Timestamp) (graph : AttestationGraph)
  | computed (evaluationTime : Timestamp) (rows : List EngineScore) (computedAt : Timestamp)
  | finished

structure WrittenTable where
  evaluationTime : Timestamp
  rows : List EngineScore

/-- The database, the runs, and the tables in the order in which they were committed. -/
structure Recomputing (τ : Type) where
  db : Database
  runs : τ → Option RunPhase := fun _ => none
  written : List WrittenTable := []

inductive RecomputeLabel (τ : Type)
  | run (r : τ)
  | write (r : τ)
  | other

namespace Recomputing

variable {τ : Type} [DecidableEq τ] {K : Type} [Field K] [LinearOrder K] [FloorRing K]

def set (s : Recomputing τ) (r : τ) (phase : RunPhase) : Recomputing τ :=
  { s with runs := Function.update s.runs r (some phase) }

inductive Step (decayAt : Trust.Time → Trust.Time → K) (s : Recomputing τ) :
    RecomputeLabel τ → Recomputing τ → Prop
  | start {r : τ} (t : Timestamp) (hnew : s.runs r = none) : Step decayAt s (.run r)
    (s.set r (.started t))
  | load {r : τ} {t : Timestamp} (hrun : s.runs r = some (.started t)) :
      Step decayAt s (.run r) (s.set r (.loaded t (s.db.loadAttestationGraph t)))
  | coldStart {r : τ} {t : Timestamp} {g : AttestationGraph} (hrun : s.runs r = some (.loaded t g))
      (hroots : g.roots = []) (hcount : g.networkScoreCount = 0) :
      Step decayAt s (.run r) (s.set r .finished)
  | clear {r : τ} {t : Timestamp} {g : AttestationGraph} (now : Timestamp)
      (hrun : s.runs r = some (.loaded t g)) (hroots : g.roots = []) (hcount : g.networkScoreCount ≠ 0) :
      Step decayAt s (.run r) (s.set r (.computed t [] now))
  | engine {r : τ} {t : Timestamp} {g : AttestationGraph} {rows : List EngineScore}
      (hrun : s.runs r = some (.loaded t g)) (hroots : g.roots ≠ [])
      (hrows : runVeriRank decayAt g t = .ok rows) :
      Step decayAt s (.run r) (s.set r (.computed t rows (toUnix t * 1000)))
  | write {r : τ} {t computedAt : Timestamp} {rows : List EngineScore} {db' : Database}
      {result : ApplyScoresResult} (hrun : s.runs r = some (.computed t rows computedAt))
      (hwrite : s.db.applyScoreTable rows computedAt = .ok (db', result)) :
      Step decayAt s (.write r)
        { db := db', runs := Function.update s.runs r (some .finished),
          written := s.written ++ [⟨t, rows⟩] }
  | fail {r : τ} {phase : RunPhase} (hrun : s.runs r = some phase) : Step decayAt s (.run r)
    (s.set r .finished)
  | other (db' : Database) (hscores : db'.networkScores = s.db.networkScores) :
      Step decayAt s .other { s with db := db' }

variable (τ) in
def system (decayAt : Trust.Time → Trust.Time → K) : System (Recomputing τ) (RecomputeLabel τ) where
  init s := s.db.networkScores.rows = [] ∧ s.written = [] ∧ s.runs = fun _ => none
  step := Step decayAt

/-- No run writes its table after a run with a later evaluation time has. -/
def InOrder (s : Recomputing τ) : RecomputeLabel τ → Prop
  | .write r => ∀ t rows computedAt, s.runs r = some (.computed t rows computedAt) →
      ∀ w ∈ s.written, w.evaluationTime ≤ t
  | _ => True

end Recomputing

def Database.HoldsTable (db : Database) (rows : List EngineScore) : Prop :=
  ∀ e, e ∈ rows ↔ ∃ r ∈ db.networkScores.rows, r.toEngineScore = e

variable {db db' : Database} {rows : List EngineScore} {t : Timestamp}

variable {result : ApplyScoresResult}

theorem Database.applyScoreTable_holdsTable (hn : (rows.map EngineScore.principalId).Nodup)
    (h : db.applyScoreTable rows t = .ok (db', result)) : db'.HoldsTable rows := by
  intro e
  rw [← (applyScoreTable_perm hn h).mem_iff]
  exact List.mem_map

namespace Recomputing

variable {τ : Type} [DecidableEq τ] {K : Type} [Field K] [LinearOrder K] [FloorRing K]
  {decayAt : Trust.Time → Trust.Time → K}

variable {t : Timestamp}

theorem toUnix_mono {t' : Timestamp} (h : t ≤ t') : toUnix t * 1000 ≤ toUnix t' * 1000 :=
  Int.mul_le_mul_of_nonneg_right (Int.ediv_le_ediv (by decide) h) (by decide)

/-- A run that is about to write has the rows of the engine and their time, or nothing to write. -/
def RowsReady (s : Recomputing τ) : Prop :=
  ∀ r t rows computedAt, s.runs r = some (.computed t rows computedAt) →
    (rows.map EngineScore.principalId).Nodup ∧ (rows ≠ [] → computedAt = toUnix t * 1000)

variable {s s' : Recomputing τ} {a : RecomputeLabel τ}

theorem RowsReady.step (h : s.RowsReady) (hstep : Step decayAt s a s') : s'.RowsReady := by
  have hset : ∀ (r : τ) (phase : RunPhase), (∀ t rows computedAt, phase = .computed t rows computedAt →
      (rows.map EngineScore.principalId).Nodup ∧ (rows ≠ [] → computedAt = toUnix t * 1000)) →
      ∀ r' t rows computedAt, Function.update s.runs r (some phase) r' =
        some (.computed t rows computedAt) →
        (rows.map EngineScore.principalId).Nodup ∧ (rows ≠ [] → computedAt = toUnix t * 1000) := by
    intro r phase hphase r' t rows computedAt hr'
    rw [Function.update_apply] at hr'
    split_ifs at hr'
    · exact hphase t rows computedAt (Option.some.inj hr')
    · exact h r' t rows computedAt hr'
  cases hstep with
  | start t hnew => exact hset _ _ fun _ _ _ hphase => by cases hphase
  | load hrun => exact hset _ _ fun _ _ _ hphase => by cases hphase
  | coldStart hrun hroots hcount => exact hset _ _ fun _ _ _ hphase => by cases hphase
  | clear now hrun hroots hcount =>
    refine hset _ _ fun _ _ _ hphase => ?_
    cases hphase
    exact ⟨List.nodup_nil, fun hne => absurd rfl hne⟩
  | engine hrun hroots hrows =>
    refine hset _ _ fun _ _ _ hphase => ?_
    cases hphase
    exact ⟨runVeriRank_nodup decayAt hrows, fun _ => rfl⟩
  | write hrun hwrite => exact hset _ _ fun _ _ _ hphase => by cases hphase
  | fail hrun => exact hset _ _ fun _ _ _ hphase => by cases hphase
  | other db' hscores => exact h

/-- The last table that was written is the newest and is stored; every row has the time of some
table. -/
structure Inv (s : Recomputing τ) : Prop where
  ready : s.RowsReady
  last : ∀ w, s.written.getLast? = some w →
    (∀ w' ∈ s.written, w'.evaluationTime ≤ w.evaluationTime) ∧ s.db.HoldsTable w.rows
  stamped : ∀ r ∈ s.db.networkScores.rows, ∃ w ∈ s.written, r.computedAt = toUnix w.evaluationTime * 1000

theorem Step.frame (h : Step decayAt s a s') (ha : ∀ r, a ≠ .write r) :
    s'.db.networkScores = s.db.networkScores ∧ s'.written = s.written := by
  cases h with
  | write hrun hwrite => exact absurd rfl (ha _)
  | other db' hscores => exact ⟨hscores, rfl⟩
  | _ => exact ⟨rfl, rfl⟩

variable {r : τ} {ok : Recomputing τ → RecomputeLabel τ → Prop} {rows : List EngineScore}

theorem Step.writes (h : Step decayAt s (.write r) s') (hready : s.RowsReady)
    (hok : s.InOrder (.write r)) :
    ∃ t rows, s'.written = s.written ++ [⟨t, rows⟩] ∧ (∀ w ∈ s.written, w.evaluationTime ≤ t) ∧
      s'.db.HoldsTable rows ∧
      ∀ r ∈ s'.db.networkScores.rows, r ∈ s.db.networkScores.rows ∨ r.computedAt = toUnix t * 1000 := by
  cases h with
  | @write r t computedAt rows db' result hrun hwrite =>
    obtain ⟨hn, htime⟩ := hready r t rows computedAt hrun
    have hholds := Database.applyScoreTable_holdsTable hn hwrite
    refine ⟨t, rows, rfl, hok t rows computedAt hrun, hholds, fun row hrow => ?_⟩
    rcases Database.applyScoreTable_computedAt hwrite row hrow with hold | hat
    · exact .inl hold
    · exact .inr (hat.trans (htime (List.ne_nil_of_mem ((hholds _).mpr ⟨row, hrow, rfl⟩))))

theorem Inv.step (h : s.Inv) (hok : s.InOrder a) (hstep : Step decayAt s a s') : s'.Inv := by
  by_cases ha : ∀ r, a ≠ .write r
  · obtain ⟨hscores, hwritten⟩ := hstep.frame ha
    refine ⟨h.ready.step hstep, ?_, ?_⟩
    · intro w hw
      rw [hwritten] at hw ⊢
      refine ⟨(h.last w hw).1, ?_⟩
      rw [Database.HoldsTable, hscores]
      exact (h.last w hw).2
    · rw [hscores, hwritten]
      exact h.stamped
  · obtain ⟨r, rfl⟩ : ∃ r, a = .write r := by simpa using ha
    obtain ⟨t, rows, hwritten, horder, hholds, hcomputed⟩ := hstep.writes h.ready hok
    refine ⟨h.ready.step hstep, ?_, ?_⟩
    · intro w hw
      rw [hwritten, List.getLast?_concat] at hw
      cases hw
      refine ⟨?_, hholds⟩
      intro w' hw'
      rw [hwritten] at hw'
      rcases List.mem_append.mp hw' with hw' | hw'
      · exact horder w' hw'
      · rw [List.mem_singleton.mp hw']
    · intro row hrow
      rw [hwritten]
      rcases hcomputed row hrow with hold | hat
      · obtain ⟨w, hw, heq⟩ := h.stamped row hold
        exact ⟨w, List.mem_append_left _ hw, heq⟩
      · exact ⟨⟨t, rows⟩, by simp, hat⟩

theorem inv_of_reachable (h : (system τ decayAt).ReachableVia InOrder s) : s.Inv := by
  have hinit : ∀ s, (system τ decayAt).init s → s.Inv := by
    intro s hs
    obtain ⟨hscores, hwritten, hruns⟩ := hs
    refine ⟨?_, ?_, ?_⟩
    · intro r t rows computedAt hr
      rw [hruns] at hr
      cases hr
    · intro w hw
      rw [hwritten] at hw
      cases hw
    · intro r hr
      rw [hscores] at hr
      cases hr
  exact h.invariant hinit fun _ _ _ hs hok hstep => hs.step hok hstep

/-- Of a later state: its tables are those of the earlier one and more, and its rows are rows of the
earlier one or at least as new as its tables. -/
theorem later_rows (h : (system τ decayAt).ReachableVia InOrder s)
    (hlead : (system τ decayAt).LeadsVia InOrder s s') :
    (∀ w ∈ s.written, w ∈ s'.written) ∧ ∀ r ∈ s'.db.networkScores.rows, r ∈ s.db.networkScores.rows ∨
      ∀ w ∈ s.written, toUnix w.evaluationTime * 1000 ≤ r.computedAt := by
  induction hlead with
  | refl => exact ⟨fun _ hw => hw, fun _ hr => .inl hr⟩
  | @tail m s' hm hstep ih =>
    obtain ⟨a, hok, hstep⟩ := hstep
    have hinv := inv_of_reachable (h.leads hm)
    by_cases ha : ∀ r, a ≠ .write r
    · obtain ⟨hscores, hwritten⟩ := hstep.frame ha
      rw [hscores, hwritten]
      exact ih
    · obtain ⟨r, rfl⟩ : ∃ r, a = .write r := by simpa using ha
      obtain ⟨t, rows, hwritten, horder, -, hcomputed⟩ := hstep.writes hinv.ready hok
      refine ⟨fun w hw => by rw [hwritten]; exact List.mem_append_left _ (ih.1 w hw), ?_⟩
      intro row hrow
      rcases hcomputed row hrow with hold | hat
      · exact ih.2 row hold
      · refine .inr fun w hw => ?_
        rw [hat]
        exact toUnix_mono (horder w (ih.1 w hw))

/-- If tables are written in the order of their evaluation times, the stored scores are always those
of a newest table, and the time of a principal's row does not go back. -/
theorem newest_table_stored {s : Recomputing τ} (h : (system τ decayAt).ReachableVia InOrder s) :
    (s.written ≠ [] → ∃ w ∈ s.written, (∀ w' ∈ s.written, w'.evaluationTime ≤ w.evaluationTime) ∧
      s.db.HoldsTable w.rows) ∧
    ∀ s', (system τ decayAt).LeadsVia InOrder s s' → ∀ r ∈ s.db.networkScores.rows,
      ∀ r' ∈ s'.db.networkScores.rows, r'.principalId = r.principalId →
        r.computedAt ≤ r'.computedAt := by
  have hinv := inv_of_reachable h
  constructor
  · intro hne
    have hlast := List.getLast?_eq_some_getLast hne
    exact ⟨_, List.getLast_mem hne, hinv.last _ hlast⟩
  · intro s' hlead r hr r' hr' hid
    rcases (later_rows h hlead).2 r' hr' with hold | hnew
    · have hat := Database.scoreAt_eq_some.mpr ⟨hr, rfl⟩
      rw [Database.scoreAt_eq_some.mpr ⟨hold, hid⟩] at hat
      cases hat
      exact le_rfl
    · obtain ⟨w, hw, heq⟩ := hinv.stamped r hr
      rw [heq]
      exact hnew w hw

end Recomputing

section Overlapping

open Recomputing

def bareDatabase : Database := { soleRootDatabase with attestations := Table.empty }

def bareRows : List EngineScore := [⟨"root", "issuer", 100, false, "propagated"⟩]

def soleRootRows : List EngineScore := ⟨"agent", "agent", 60, false, "propagated"⟩ :: bareRows

/-- A run loads its graph before the attestations are written, another one a second later. Neither
has written its table. -/
theorem exists_overlapping :
    ∃ s : Recomputing Bool, (system Bool Trust.calculateTimeDecayAt).ReachableVia InOrder s ∧
      s.db = soleRootDatabase ∧ s.written = [] ∧
      s.runs false = some (.computed (soleRootTime - 1000) bareRows (soleRootTime - 1000)) ∧
      s.runs true = some (.computed soleRootTime soleRootRows soleRootTime) := by
  have hbare : runVeriRank Trust.calculateTimeDecayAt
      (bareDatabase.loadAttestationGraph (soleRootTime - 1000))
      (soleRootTime - 1000) = .ok bareRows := runVeriRank_fresh ["root"] (by decide +kernel)
  have hsole : runVeriRank Trust.calculateTimeDecayAt
      (soleRootDatabase.loadAttestationGraph soleRootTime)
      soleRootTime = .ok soleRootRows := soleRoot_removalTables.1
  have h₀ : (system Bool Trust.calculateTimeDecayAt).ReachableVia InOrder { db := bareDatabase } :=
    .init ⟨rfl, rfl, rfl⟩
  have h₁ := h₀.next (RecomputeLabel.run false) trivial (Step.start (soleRootTime - 1000) rfl)
  have h₂ := h₁.next (RecomputeLabel.run false) trivial (Step.load rfl)
  have h₃ := h₂.next RecomputeLabel.other trivial (Step.other soleRootDatabase rfl)
  have h₄ := h₃.next (RecomputeLabel.run true) trivial (Step.start soleRootTime rfl)
  have h₅ := h₄.next (RecomputeLabel.run true) trivial (Step.load rfl)
  have h₆ := h₅.next (RecomputeLabel.run false) trivial (Step.engine rfl (by decide) hbare)
  have h₇ := h₆.next (RecomputeLabel.run true) trivial (Step.engine rfl (by decide) hsole)
  exact ⟨_, h₇, rfl, rfl, rfl, rfl⟩

theorem exists_applied (rows rows' : List EngineScore) (t t' : Timestamp)
    (hn : (rows'.map EngineScore.principalId).Nodup)
    (h : (soleRootDatabase.applyScoreTable rows t >>= fun w => w.1.applyScoreTable rows' t').isOk =
      true) :
    ∃ db result db' result', soleRootDatabase.applyScoreTable rows t = .ok (db, result) ∧
      db.applyScoreTable rows' t' = .ok (db', result') ∧ db'.HoldsTable rows' := by
  cases hboth : soleRootDatabase.applyScoreTable rows t >>= fun w => w.1.applyScoreTable rows' t' with
  | error e =>
    rw [hboth] at h
    cases h
  | ok w =>
    obtain ⟨⟨db, result⟩, hfirst, hsecond⟩ := bind_eq_ok.mp hboth
    exact ⟨db, result, w.1, w.2, hfirst, hsecond, Database.applyScoreTable_holdsTable hn hsecond⟩

/-- The two runs write in the order of their evaluation times. -/
theorem newest_table_stored_overlapping :
    ∃ s, (system Bool Trust.calculateTimeDecayAt).ReachableVia InOrder s ∧
      s.written = [⟨soleRootTime - 1000, bareRows⟩, ⟨soleRootTime, soleRootRows⟩] ∧
      ∃ w ∈ s.written, (∀ w' ∈ s.written, w'.evaluationTime ≤ w.evaluationTime) ∧
        s.db.HoldsTable w.rows := by
  obtain ⟨s, hs, hdb, hwritten, hearlier, hlater⟩ := exists_overlapping
  obtain ⟨db, result, db', result', hfirst, hsecond, -⟩ := exists_applied bareRows soleRootRows
    (soleRootTime - 1000) soleRootTime (by decide) (by decide +kernel)
  rw [← hdb] at hfirst
  have h₁ := hs.next (RecomputeLabel.write false)
      (by simp [InOrder, hwritten]) (Step.write hearlier hfirst)
  have h₂ := h₁.next (RecomputeLabel.write true)
      (by simp [InOrder, hwritten, hlater]) (Step.write hlater hsecond)
  refine ⟨_, h₂, by simp [hwritten], (newest_table_stored h₂).1 (by simp)⟩

/-- The run with the earlier evaluation time writes its table last. The agent has no row then. -/
theorem older_table_stored :
    ∃ s, (system Bool Trust.calculateTimeDecayAt).Reachable s ∧
      (∀ r phase, s.runs r = some phase → phase = .finished) ∧
      ∃ w ∈ s.written, (∀ w' ∈ s.written, w' ≠ w → w'.evaluationTime < w.evaluationTime) ∧
        ¬ s.db.HoldsTable w.rows := by
  obtain ⟨s, hs, hdb, hwritten, hearlier, hlater⟩ := exists_overlapping
  obtain ⟨db, result, db', result', hfirst, hsecond, hholds⟩ := exists_applied soleRootRows bareRows
    soleRootTime (soleRootTime - 1000) (by decide) (by decide +kernel)
  rw [← hdb] at hfirst
  have h₁ := hs.reachable.next (RecomputeLabel.write true) (Step.write hlater hfirst)
  have h₂ := h₁.next (RecomputeLabel.write false) (Step.write hearlier hsecond)
  refine ⟨_, h₂, ?_, ⟨soleRootTime, soleRootRows⟩, by simp, ?_, ?_⟩
  · intro r phase hr
    cases r <;> simpa using hr.symm
  · intro w' hw' hne
    rw [hwritten] at hw'
    have hlt : soleRootTime - 1000 < soleRootTime := by decide
    rcases List.mem_pair.mp hw' with rfl | rfl
    · exact absurd rfl hne
    · exact hlt
  · intro hnewest
    obtain ⟨r, hr, hagent⟩ := (hnewest ⟨"agent", "agent", 60, false, "propagated"⟩).mp (by decide)
    exact absurd ((hholds _).mpr ⟨r, hr, hagent⟩) (by decide)

end Overlapping

end Verilink.ControlPlane

import Verilink.ControlPlane.ScoreHistory
import Verilink.Sync.Replay

/-!
# The events of a score table

A score table that is committed leaves the engine's rows, and the events it appends lead an edge
from the old table to the new one, with one event for each principal on which the two disagree.
-/

namespace Verilink.Sync

open Verilink.Framework Verilink.ControlPlane Verilink.Edge

def handleEvent (snap : Snapshot) (e : SyncEventRow) : Except String Snapshot :=
  mutateSnapshot snap e.eventType.text e.payload

def HoldsScores (snap : Snapshot) (table : String → Option EngineScore) : Prop :=
  ∀ id, snap.scores.lookup id = (table id).map scoreEntry

variable {snap : Snapshot} {table : String → Option EngineScore} {cs : List ScoreChange}
  {events : List SyncEventRow}

theorem HoldsScores.put (h : HoldsScores snap table) (row : EngineScore) :
    HoldsScores { snap with scores := snap.scores.insert row.principalId (scoreEntry row) }
      (TableDiff.Change.apply EngineScore.principalId table (.put row)) := by
  intro id
  show Finmap.lookup id (snap.scores.insert row.principalId (scoreEntry row)) =
    (Function.update table row.principalId (some row) id).map scoreEntry
  by_cases hid : id = row.principalId
  · rw [hid, Finmap.lookup_insert, Function.update_self]
    rfl
  · rw [Finmap.lookup_insert_of_ne _ hid, Function.update_of_ne hid, h id]

theorem HoldsScores.drop (h : HoldsScores snap table) (principalId : String) :
    HoldsScores { snap with scores := snap.scores.erase principalId }
      (TableDiff.Change.apply EngineScore.principalId table (.drop principalId)) := by
  intro id
  show Finmap.lookup id (snap.scores.erase principalId) =
      (Function.update table principalId none id).map scoreEntry
  by_cases hid : id = principalId
  · rw [hid, Finmap.lookup_erase, Function.update_self]
    rfl
  · rw [Finmap.lookup_erase_ne hid, Function.update_of_ne hid, h id]

theorem handleEvent_change {e : SyncEventRow} {c : ScoreChange}
    (hbody : ScoreStore.eventBody e = ScoreStore.changeBody c)
    (hrange : ∀ row ∈ c.value, -2 ^ 31 ≤ row.score ∧ row.score < 2 ^ 31)
    (hid : c.target EngineScore.principalId ≠ "") (h : HoldsScores snap table) :
    ∃ snap', handleEvent snap e = .ok snap' ∧ snap' = { snap with scores := snap'.scores } ∧
      HoldsScores snap' (TableDiff.Change.apply EngineScore.principalId table c) := by
  cases c with
  | put row =>
    simp only [ScoreStore.eventBody, ScoreStore.changeBody, Prod.mk.injEq] at hbody
    obtain ⟨hlower, hupper⟩ := hrange row rfl
    refine ⟨_, ?_, rfl, h.put row⟩
    rw [handleEvent, hbody.1, hbody.2.1]
    exact mutateSnapshot_scoreUpsert snap hid hlower hupper
  | drop principalId =>
    simp only [ScoreStore.eventBody, ScoreStore.changeBody, Prod.mk.injEq] at hbody
    refine ⟨_, ?_, rfl, h.drop principalId⟩
    rw [handleEvent, hbody.1, hbody.2.1]
    exact mutateSnapshot_scoreDelete snap hid

theorem handleEvents_changes (hbodies : events.map ScoreStore.eventBody = cs.map ScoreStore.changeBody)
    (hrange : ∀ c ∈ cs, ∀ row ∈ c.value, -2 ^ 31 ≤ row.score ∧ row.score < 2 ^ 31)
    (hids : ∀ c ∈ cs, c.target EngineScore.principalId ≠ "") (h : HoldsScores snap table) :
    ∃ snap', events.foldlM handleEvent snap = .ok snap' ∧
      snap' = { snap with scores := snap'.scores } ∧
      HoldsScores snap' (TableDiff.run EngineScore.principalId table cs) := by
  induction cs generalizing events snap table with
  | nil =>
    rw [List.map_nil, List.map_eq_nil_iff] at hbodies
    rw [hbodies]
    exact ⟨snap, rfl, rfl, h⟩
  | cons c cs ih =>
    obtain ⟨e, rest, rfl, hbody, hrest⟩ := List.map_eq_cons_iff.mp hbodies
    rw [List.forall_mem_cons] at hrange hids
    obtain ⟨mid, hmid, hframe, hholds⟩ := handleEvent_change hbody hrange.1 hids.1 h
    obtain ⟨snap', hrun, hframe', hholds'⟩ := ih hrest hrange.2 hids.2 hholds
    refine ⟨snap', (foldlM_cons_of_ok rest hmid).trans hrun, ?_, hholds'⟩
    rw [hframe'] at *
    rw [hframe]

theorem changeBody_principal {c : ScoreChange} (hid : c.target EngineScore.principalId ≠ "") :
    (ScoreStore.changeBody c).2.2.1 = some (c.target EngineScore.principalId) := by
  have hfilter : (some (c.target EngineScore.principalId)).filter (fun id => decide (id ≠ "")) =
      some (c.target EngineScore.principalId) := by
    simp [Option.filter_some, hid]
  cases c <;> exact hfilter

theorem principals_events (hbodies : events.map ScoreStore.eventBody = cs.map ScoreStore.changeBody)
    (hids : ∀ c ∈ cs, c.target EngineScore.principalId ≠ "") :
    events.map SyncEventRow.principalId =
      cs.map fun c => some (c.target EngineScore.principalId) := by
  have hprincipals := congrArg (List.map fun body => body.2.2.1) hbodies
  rw [List.map_map, List.map_map] at hprincipals
  refine hprincipals.trans ?_
  apply List.map_congr_left
  intro c hc
  exact changeBody_principal (hids c hc)

theorem countP_events
    (hprincipals : events.map SyncEventRow.principalId = cs.map fun c =>
      some (c.target EngineScore.principalId))
    (id : String) :
    events.countP (fun e => e.principalId = some id) =
      (cs.filter fun c => c.target EngineScore.principalId = id).length := by
  have hcount := congrArg (List.countP fun p => decide (p = some id)) hprincipals
  rw [List.countP_map, List.countP_map] at hcount
  rw [← List.countP_eq_length_filter]
  simpa [Function.comp_def] using hcount

/-- A committed score table is exact: the stored scores are the engine's rows, the appended
events lead every edge that holds the old table to the new one, there is one event for each
principal on which the tables disagree and none for the others, and one row of history for each
row that is new or changed. After an abort nothing has changed. -/
theorem applyScoreTable_exact (s : ScoreStore) (rows : List EngineScore) (computedAt : Timestamp)
    (commit : Except String Unit) (hrows : (rows.map EngineScore.principalId).Nodup)
    (hstored : ∀ r ∈ s.db.networkScores.rows, ∃ p ∈ s.db.principals.rows, p.id = r.principalId)
    (hids : ∀ p ∈ s.db.principals.rows, p.id ≠ "") :
    (∀ result, (withTransaction commit (ScoreStore.applyScoreTable rows computedAt) s).2 =
        .ok result →
      ∃ s' events added,
        (withTransaction commit (ScoreStore.applyScoreTable rows computedAt) s).1 = s' ∧
        s'.db.engineScores.Perm rows ∧
        s'.db.syncEvents.rows = s.db.syncEvents.rows ++ events ∧
        (∀ snap, HoldsScores snap s.db.engineScoreAt → ∃ snap', events.foldlM handleEvent snap =
          .ok snap' ∧ snap' = { snap with scores := snap'.scores } ∧
          HoldsScores snap' s'.db.engineScoreAt) ∧
        (∀ id, events.countP (fun e => e.principalId = some id) =
          if s.db.engineScoreAt id = TableDiff.lookup EngineScore.principalId rows id then 0 else 1) ∧
        (∀ e ∈ events, e.principalId ≠ none) ∧
        s'.history.rows = s.history.rows ++ added ∧
        added.map NetworkScoreRow.toEngineScore =
          rows.filter fun row => s.db.engineScoreAt row.principalId ≠ some row) ∧
    (∀ err, (withTransaction commit (ScoreStore.applyScoreTable rows computedAt) s).2 =
        .error err →
      (withTransaction commit (ScoreStore.applyScoreTable rows computedAt) s).1 = s) := by
  refine ⟨?_, fun err => withTransaction_error⟩
  intro result hresult
  have hchanges := ScoreStore.applyScoreTable_changes (withTransaction_ok hresult)
  obtain ⟨events, added, happlied⟩ := ScoreStore.applied_of_changes hchanges
  have hold := s.db.engineScores_nodup
  have hscores := happlied.scores
  rw [Database.engineScoreAt_eq_lookup, Database.engineScoreAt_eq_lookup] at hscores
  have hperm := hscores.trans (TableDiff.run_changes _ hold hrows)
  have htargets : ∀ c ∈ TableDiff.changes EngineScore.principalId s.db.engineScores rows,
      c.target EngineScore.principalId ≠ "" := by
    intro c hc
    rcases TableDiff.target_changes _ hc with ⟨row, hrow, hkey⟩ | ⟨row, hrow, hkey⟩
    · obtain ⟨p, hp, hpid⟩ := happlied.known row hrow
      rw [← hkey, ← hpid]
      exact hids p hp
    · obtain ⟨r, hr, rfl⟩ := List.mem_map.mp hrow
      obtain ⟨p, hp, hpid⟩ := hstored r hr
      rw [← hkey, ← hpid]
      exact hids p hp
  have hrange : ∀ c ∈ TableDiff.changes EngineScore.principalId s.db.engineScores rows,
      ∀ row ∈ c.value, -2 ^ 31 ≤ row.score ∧ row.score < 2 ^ 31 :=
    fun c hc row hrow => happlied.inRange row (List.mem_filterMap.mpr ⟨c, hc, hrow⟩)
  have hprincipals := principals_events happlied.bodies htargets
  refine ⟨_, events, added, rfl, ?_, happlied.log, ?_, ?_, ?_, happlied.history, ?_⟩
  · exact TableDiff.perm_of_lookup_eq _ (Database.engineScores_nodup _) hrows hperm
  · intro snap hsnap
    rw [happlied.scores]
    exact handleEvents_changes happlied.bodies hrange htargets hsnap
  · intro id
    rw [countP_events hprincipals, Database.engineScoreAt_eq_lookup,
      TableDiff.filter_changes _ hold hrows]
    split_ifs with hsame
    · rfl
    · rfl
  · intro e he hnone
    have hmem : e.principalId ∈ events.map SyncEventRow.principalId := List.mem_map_of_mem he
    rw [hprincipals, hnone] at hmem
    obtain ⟨c, _, hc⟩ := List.mem_map.mp hmem
    cases hc
  · rw [happlied.rows, TableDiff.puts_changes, Database.engineScoreAt_eq_lookup]

def scoredStore : ScoreStore where
  db :=
    { Database.empty with
      principals := ⟨[⟨"a", .agent, none, none, .active⟩, ⟨"b", .agent, none, none, .active⟩,
        ⟨"c", .issuer, none, none, .active⟩], by decide⟩
      networkScores := ⟨[⟨⟨"a", "agent", 10, false, "propagated"⟩, 0, 1⟩,
        ⟨⟨"b", "agent", 30, false, "propagated"⟩, 0, 2⟩], by decide⟩ }
  history := Table.empty

def recomputedRows : List EngineScore :=
  [⟨"a", "agent", 20, false, "propagated"⟩, ⟨"c", "issuer", 100, false, "propagated"⟩]

theorem applyScoreTable_exact_recomputed :
    (withTransaction (.ok ()) (ScoreStore.applyScoreTable recomputedRows 5) scoredStore).2 =
      .ok ⟨2, 1⟩ ∧
    (withTransaction (.ok ()) (ScoreStore.applyScoreTable recomputedRows 5)
      scoredStore).1.db.engineScores.Perm recomputedRows := by
  have hcommit : (withTransaction (.ok ()) (ScoreStore.applyScoreTable recomputedRows 5)
      scoredStore).2 = .ok ⟨2, 1⟩ := by rfl
  have hexact := applyScoreTable_exact scoredStore recomputedRows 5 (.ok ()) (by decide)
    (by decide) (by decide)
  obtain ⟨s', events, added, rfl, hperm, _⟩ := hexact.1 ⟨2, 1⟩ hcommit
  exact ⟨hcommit, hperm⟩

end Verilink.Sync

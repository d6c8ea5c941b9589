import Verilink.ControlPlane.ScoreWriter

/-!
# A score table and its history

`applyScoreTable` with the rows of `network_score_history`, inside `withTransaction`.
-/

namespace Verilink.ControlPlane

open Verilink.Framework

def withTransaction {σ α : Type} (commit : Except String Unit)
    (work : σ → Except String (σ × α)) (s : σ) : σ × Except String α :=
  match (do let done ← work s; commit; .ok done : Except String (σ × α)) with
  | .ok (s', result) => (s', .ok result)
  | .error err => (s, .error err)

variable {σ α : Type} {commit : Except String Unit}

theorem withTransaction_ok {work : σ → Except String (σ × α)} {s : σ} {result : α}
    (h : (withTransaction commit work s).2 = .ok result) :
    work s = .ok ((withTransaction commit work s).1, result) := by
  unfold withTransaction at h ⊢
  cases hwork : (do let done ← work s; commit; .ok done : Except String (σ × α)) with
  | error err =>
    rw [hwork] at h
    cases h
  | ok done =>
    rw [hwork] at h
    cases h
    obtain ⟨done', hdone, hrest⟩ := bind_eq_ok.mp hwork
    cases (seq_eq_ok.mp hrest).2
    exact hdone

theorem withTransaction_error {work : σ → Except String (σ × α)} {s : σ} {err : String}
    (h : (withTransaction commit work s).2 = .error err) :
    (withTransaction commit work s).1 = s := by
  unfold withTransaction at h ⊢
  cases hwork : (do let done ← work s; commit; .ok done : Except String (σ × α)) with
  | error err => rfl
  | ok done =>
    rw [hwork] at h
    cases h

structure ScoreStore where
  db : Database
  history : Table NetworkScoreRow fun a b =>
    a.principalId = b.principalId ∧ a.syncVersion = b.syncVersion

namespace ScoreStore

def insertHistory (s : ScoreStore) (row : EngineScore) (syncVersion : Int)
    (computedAt : Timestamp) : Except String ScoreStore := do
  s.db.checkHistory row
  match s.history.insert? ⟨row, computedAt, syncVersion⟩ with
  | none => .error "duplicate key value violates unique constraint \"network_score_history_pkey\""
  | some history => .ok { s with history := history }

def writeScore (computedAt : Timestamp) (s : ScoreStore) (row : EngineScore) :
    Except String ScoreStore := do
  let (db, v) ← s.db.recordScore row computedAt
  ({ s with db := db } : ScoreStore).insertHistory row v computedAt

def deleteScore (s : ScoreStore) (principalId : String) : Except String ScoreStore := do
  let db ← s.db.deleteScore principalId
  .ok { s with db := db }

def applyScoreTable (engineRows : List EngineScore) (computedAt : Timestamp) (s : ScoreStore) :
    Except String (ScoreStore × ApplyScoresResult) :=
  applyScoreRows (writeScore computedAt) deleteScore s.db.networkScores.rows engineRows s

variable {s s' : ScoreStore} {t : Timestamp} {row : EngineScore}

theorem insertHistory_eq_ok {v : Int} (h : s.insertHistory row v t = .ok s') :
    s.db.checkHistory row = .ok () ∧ s'.db = s.db ∧
      s'.history.rows = s.history.rows ++ [⟨row, t, v⟩] := by
  obtain ⟨hcheck, h⟩ := seq_eq_ok.mp h
  cases hins : s.history.insert? ⟨row, t, v⟩ with
  | none =>
    rw [hins] at h
    cases h
  | some history =>
    rw [hins] at h
    cases h
    exact ⟨hcheck, rfl, ((Table.insert?_eq_some_iff _ _ _).mp hins).2⟩

theorem writeScore_db (h : s.writeScore t row = .ok s') :
    s.db.writeScore t row = .ok s'.db ∧ ∃ v, s'.history.rows = s.history.rows ++ [⟨row, t, v⟩] := by
  obtain ⟨⟨db, v⟩, hrecord, h⟩ := bind_eq_ok.mp h
  obtain ⟨hcheck, hdb, hhistory⟩ := insertHistory_eq_ok h
  refine ⟨bind_eq_ok.mpr ⟨(db, v), hrecord, ?_⟩, v, hhistory⟩
  rw [hdb]
  exact seq_eq_ok.mpr ⟨hcheck, rfl⟩

theorem deleteScore_db {principalId : String} (h : s.deleteScore principalId = .ok s') :
    s.db.deleteScore principalId = .ok s'.db ∧ s'.history = s.history := by
  obtain ⟨db, hdb, h⟩ := bind_eq_ok.mp h
  cases h
  exact ⟨hdb, rfl⟩

variable {rows : List EngineScore} {result : ApplyScoresResult}

/-- A table applied with its history is applied to the database. -/
theorem applyScoreTable_db (h : applyScoreTable rows t s = .ok (s', result)) :
    s.db.applyScoreTable rows t = .ok (s'.db, result) :=
  applyScoreRows_map ScoreStore.db (fun _ _ _ hs => (writeScore_db hs).1)
    (fun _ _ _ hs => (deleteScore_db hs).1) h

theorem applyScoreTable_changes (h : applyScoreTable rows t s = .ok (s', result)) :
    (TableDiff.changes EngineScore.principalId s.db.engineScores rows).foldlM
      (applyChange (writeScore t) deleteScore) s = .ok s' :=
  applyScoreRows_changes h

def eventBody (e : SyncEventRow) : SyncEventType × Json × Option String × Option Uuid :=
  (e.eventType, e.payload, e.principalId, e.tenantId)

def changeBody : ScoreChange → SyncEventType × Json × Option String × Option Uuid
  | .put row => (.scoreUpsert, scoreJson row, (some row.principalId).filter (· ≠ ""), none)
  | .drop principalId =>
    (.scoreDelete, .obj [("principal_id", .str principalId)],
      (some principalId).filter (· ≠ ""), none)

structure Applied (s : ScoreStore) (cs : List ScoreChange) (s' : ScoreStore)
    (events : List SyncEventRow) (added : List NetworkScoreRow) : Prop where
  scores : s'.db.engineScoreAt = TableDiff.run EngineScore.principalId s.db.engineScoreAt cs
  log : s'.db.syncEvents.rows = s.db.syncEvents.rows ++ events
  bodies : events.map eventBody = cs.map changeBody
  history : s'.history.rows = s.history.rows ++ added
  rows : added.map NetworkScoreRow.toEngineScore = TableDiff.Change.puts cs
  principals : s'.db.principals = s.db.principals
  inRange : ∀ row ∈ TableDiff.Change.puts cs, -2 ^ 31 ≤ row.score ∧ row.score < 2 ^ 31
  known : ∀ row ∈ TableDiff.Change.puts cs, ∃ p ∈ s.db.principals.rows, p.id = row.principalId

variable {cs : List ScoreChange} {m : ScoreStore} {events : List SyncEventRow}
  {added : List NetworkScoreRow}

theorem Applied.put {row : EngineScore} (h : Applied s cs m events added)
    (hwrite : m.writeScore t row = .ok s') :
    ∃ events' added', Applied s (cs ++ [.put row]) s' events' added' := by
  obtain ⟨hdb, v, hhistory⟩ := writeScore_db hwrite
  have hw := Database.writeScore_eq_ok hdb
  have hputs : TableDiff.Change.puts (cs ++ [.put row]) = TableDiff.Change.puts cs ++ [row] :=
    TableDiff.puts_concat cs _
  have hprincipals : s'.db.principals = m.db.principals := by rw [hw.frame]
  refine ⟨events ++ [m.db.nextEvent .scoreUpsert (scoreJson row) (some row.principalId) none],
    added ++ [⟨row, t, v⟩], ?_⟩
  constructor
  · rw [TableDiff.run_concat, ← h.scores]
    exact Database.engineScoreAt_written hw
  · rw [hw.log, h.log, List.append_assoc]
  · rw [List.map_append, List.map_append, h.bodies]
    rfl
  · rw [hhistory, h.history, List.append_assoc]
  · rw [List.map_append, h.rows, hputs]
    rfl
  · rw [hprincipals, h.principals]
  · rw [hputs, List.forall_mem_append]
    exact ⟨h.inRange, List.forall_mem_singleton.mpr ⟨hw.lower, hw.upper⟩⟩
  · rw [hputs, List.forall_mem_append]
    refine ⟨h.known, List.forall_mem_singleton.mpr ?_⟩
    rw [← h.principals]
    exact hw.principal

theorem Applied.drop {principalId : String} (h : Applied s cs m events added)
    (hdelete : m.deleteScore principalId = .ok s') :
    ∃ events', Applied s (cs ++ [.drop principalId]) s' events' added := by
  obtain ⟨hdb, hhistory⟩ := deleteScore_db hdelete
  have hw := Database.deleteScore_eq_ok hdb
  have hputs : TableDiff.Change.puts (cs ++ [.drop principalId]) = TableDiff.Change.puts cs := by
    rw [TableDiff.puts_concat]
    exact List.append_nil _
  have hprincipals : s'.db.principals = m.db.principals := by rw [hw.frame]
  refine ⟨events ++ [m.db.nextEvent .scoreDelete (.obj [("principal_id", .str principalId)])
    (some principalId) none], ?_⟩
  constructor
  · rw [TableDiff.run_concat, ← h.scores]
    exact Database.engineScoreAt_deleted hw
  · rw [hw.log, h.log, List.append_assoc]
  · rw [List.map_append, List.map_append, h.bodies]
    rfl
  · rw [hhistory, h.history]
  · rw [h.rows, hputs]
  · rw [hprincipals, h.principals]
  · rw [hputs]
    exact h.inRange
  · rw [hputs]
    exact h.known

theorem applied_of_changes (h : cs.foldlM (applyChange (writeScore t) deleteScore) s = .ok s') :
    ∃ events added, Applied s cs s' events added := by
  apply foldlM_ok_of_step (applyChange (writeScore t) deleteScore)
    (fun m seen => ∃ events added, Applied s seen m events added)
    _ cs s s' _ h
  · intro m seen c next hseen hstep
    obtain ⟨events, added, happlied⟩ := hseen
    cases c with
    | put row => exact happlied.put hstep
    | drop principalId =>
      obtain ⟨events', hdropped⟩ := happlied.drop hstep
      exact ⟨events', added, hdropped⟩
  · refine ⟨[], [], ?_⟩
    constructor <;> simp [TableDiff.run, TableDiff.Change.puts]

end ScoreStore

end Verilink.ControlPlane

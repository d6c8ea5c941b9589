import Verilink.ControlPlane.SyncLog
import Verilink.Framework.TableDiff

/-!
# Writing a score table

`applyScoreTable`: the difference between the engine's table and `network_scores`, one sync event
per changed or deleted row, in one transaction under the version lock.
-/

namespace Verilink.ControlPlane

open Verilink.Framework

def scoreChanged (prev next : EngineScore) : Bool :=
  prev.score ≠ next.score ∨ prev.blacklisted ≠ next.blacklisted ∨
    prev.scoreReason ≠ next.scoreReason ∨ prev.entityKind ≠ next.entityKind

structure ApplyScoresResult where
  upserts : Nat
  deletes : Nat
  deriving DecidableEq, Repr

/-! ## The difference of two tables -/

section Difference

variable {σ : Type} (write : σ → EngineScore → Except String σ) (delete : σ → String → Except String σ)

def upsertIfChanged (existing : List NetworkScoreRow) (acc : σ × Nat) (row : EngineScore) :
    Except String (σ × Nat) :=
  if ∃ prev ∈ existing.find? fun r => r.principalId = row.principalId,
      scoreChanged prev.toEngineScore row = false then .ok acc
  else do .ok (← write acc.1 row, acc.2 + 1)

def deleteIfStale (nextIds : List String) (acc : σ × Nat) (row : NetworkScoreRow) :
    Except String (σ × Nat) :=
  if row.principalId ∈ nextIds then .ok acc
  else do .ok (← delete acc.1 row.principalId, acc.2 + 1)

/-- The two loops of `applyScoreTable`, on any state that scores are written to and deleted from. -/
def applyScoreRows (existing : List NetworkScoreRow) (engineRows : List EngineScore) (s : σ) :
    Except String (σ × ApplyScoresResult) := do
  let nextIds := engineRows.map EngineScore.principalId
  let (s₁, upserts) ← engineRows.foldlM (upsertIfChanged write existing) (s, 0)
  let (s₂, deletes) ← existing.foldlM (deleteIfStale delete nextIds) (s₁, 0)
  .ok (s₂, ⟨upserts, deletes⟩)

abbrev ScoreChange := TableDiff.Change EngineScore String

def applyChange (s : σ) : ScoreChange → Except String σ
  | .put row => write s row
  | .drop principalId => delete s principalId

theorem scoreChanged_eq_false_iff {prev next : EngineScore} (h : prev.principalId = next.principalId) :
    scoreChanged prev next = false ↔ prev = next := by
  cases prev
  cases next
  simp only at h
  simp [scoreChanged, h]
  grind

variable {existing : List NetworkScoreRow}

theorem kept_iff (row : EngineScore) :
    (∃ prev ∈ existing.find? fun r => r.principalId = row.principalId,
      scoreChanged prev.toEngineScore row = false) ↔
    TableDiff.lookup EngineScore.principalId (existing.map NetworkScoreRow.toEngineScore)
      row.principalId = some row := by
  rw [TableDiff.lookup, List.find?_map, Option.map_eq_some_iff]
  apply exists_congr
  intro prev
  apply and_congr_right
  intro hprev
  have hid : prev.principalId = row.principalId := by simpa using List.find?_some hprev
  exact scoreChanged_eq_false_iff hid

theorem upsertIfChanged_eq (acc : σ × Nat) (row : EngineScore) :
    upsertIfChanged write existing acc row =
      if decide (TableDiff.lookup EngineScore.principalId (existing.map NetworkScoreRow.toEngineScore)
          row.principalId ≠ some row) = true then do
        .ok (← write acc.1 row, acc.2 + 1)
      else .ok acc := by
  unfold upsertIfChanged
  simp only [kept_iff, decide_eq_true_eq, ite_not]

theorem deleteIfStale_eq (nextIds : List String) (acc : σ × Nat) (row : NetworkScoreRow) :
    deleteIfStale delete nextIds acc row =
      if decide (row.principalId ∉ nextIds) = true then do
        .ok (← delete acc.1 row.principalId, acc.2 + 1)
      else .ok acc := by
  unfold deleteIfStale
  simp only [decide_eq_true_eq, ite_not]

variable {write delete} {rows : List EngineScore} {s s' : σ} {result : ApplyScoresResult}

/-- The loops make the changes that lead from the one table to the other. -/
theorem applyScoreRows_changes (h : applyScoreRows write delete existing rows s = .ok (s', result)) :
    (TableDiff.changes EngineScore.principalId (existing.map NetworkScoreRow.toEngineScore) rows).foldlM
      (applyChange write delete) s = .ok s' := by
  obtain ⟨⟨s₁, upserts⟩, hups, h⟩ := bind_eq_ok.mp h
  obtain ⟨⟨s₂, deletes⟩, hdels, h⟩ := bind_eq_ok.mp h
  cases h
  have hputs := (foldlM_counting write _ (upsertIfChanged_eq write) hups).1
  have hdrops := (foldlM_counting (fun s (row : NetworkScoreRow) => delete s row.principalId) _
    (deleteIfStale_eq delete _) hdels).1
  rw [TableDiff.changes, foldlM_append_of_ok]
  · rw [List.foldlM_map, List.filter_map, List.foldlM_map]
    exact hdrops
  · rw [List.foldlM_map]
    exact hputs

/-- A state that carries more follows the loops of the state it carries. -/
theorem applyScoreRows_map {τ : Type} {write' : τ → EngineScore → Except String τ}
    {delete' : τ → String → Except String τ} (f : σ → τ)
    (hwrite : ∀ s row s', write s row = .ok s' → write' (f s) row = .ok (f s'))
    (hdelete : ∀ s principalId s', delete s principalId = .ok s' → delete' (f s) principalId =
      .ok (f s'))
    (h : applyScoreRows write delete existing rows s = .ok (s', result)) :
    applyScoreRows write' delete' existing rows (f s) = .ok (f s', result) := by
  obtain ⟨⟨s₁, upserts⟩, hups, h⟩ := bind_eq_ok.mp h
  obtain ⟨⟨s₂, deletes⟩, hdels, h⟩ := bind_eq_ok.mp h
  cases h
  refine bind_eq_ok.mpr ⟨_, foldlM_ok_map (Prod.map f id) ?_ hups,
    bind_eq_ok.mpr ⟨_, foldlM_ok_map (Prod.map f id) ?_ hdels, rfl⟩⟩
  · intro acc row acc' hstep
    unfold upsertIfChanged at hstep ⊢
    split_ifs at hstep ⊢ with hkept
    · cases hstep
      rfl
    · obtain ⟨next, hnext, hstep⟩ := bind_eq_ok.mp hstep
      cases hstep
      exact bind_eq_ok.mpr ⟨f next, hwrite _ _ _ hnext, rfl⟩
  · intro acc row acc' hstep
    unfold deleteIfStale at hstep ⊢
    split_ifs at hstep ⊢ with hkept
    · cases hstep
      rfl
    · obtain ⟨next, hnext, hstep⟩ := bind_eq_ok.mp hstep
      cases hstep
      exact bind_eq_ok.mpr ⟨f next, hdelete _ _ _ hnext, rfl⟩

end Difference

namespace Database

def withoutScore (db : Database) (principalId : String) :
    Table NetworkScoreRow fun a b => a.principalId = b.principalId :=
  db.networkScores.filter fun r => r.principalId ≠ principalId

def upsertScore (db : Database) (row : EngineScore) (syncVersion : Int) (computedAt : Timestamp) :
    Except String Database :=
  if row.score < -2 ^ 31 ∨ 2 ^ 31 ≤ row.score then
    .error "value is out of range for type integer"
  else if row.scoreReason ≠ "propagated" ∧ row.scoreReason ≠ "blacklisted" then
    .error "new row for relation \"network_scores\" violates check constraint"
  else
    match (db.withoutScore row.principalId).insert? ⟨row, computedAt, syncVersion⟩ with
    | none => .error "duplicate key value violates unique constraint \"network_scores_pkey\""
    | some rows => .ok { db with networkScores := rows }

def checkHistory (db : Database) (row : EngineScore) : Except String Unit :=
  if row.entityKind ≠ "agent" ∧ row.entityKind ≠ "issuer" ∧ row.entityKind ≠ "both" then
    .error "new row for relation \"network_score_history\" violates check constraint"
  else if (db.findPrincipal row.principalId).isNone then
    .error "insert or update on table \"network_score_history\" violates foreign key constraint"
  else .ok ()

def recordScore (db : Database) (row : EngineScore) (computedAt : Timestamp) :
    Except String (Database × Int) := do
  let (db₁, v) ← db.appendEventWithClient .scoreUpsert (scoreJson row) (some row.principalId) none
  .ok (← db₁.upsertScore row v computedAt, v)

def writeScore (computedAt : Timestamp) (db : Database) (row : EngineScore) :
    Except String Database := do
  let (db₂, _) ← db.recordScore row computedAt
  db₂.checkHistory row
  .ok db₂

def deleteScore (db : Database) (principalId : String) : Except String Database := do
  let (db₁, _) ← db.appendEventWithClient .scoreDelete
    (.obj [("principal_id", .str principalId)]) (some principalId) none
  .ok { db₁ with networkScores := db₁.withoutScore principalId }

def applyScoreTable (db : Database) (engineRows : List EngineScore) (computedAt : Timestamp) :
    Except String (Database × ApplyScoresResult) :=
  applyScoreRows (writeScore computedAt) deleteScore db.networkScores.rows engineRows db

structure ScoreWritten (db : Database) (row : EngineScore) (t : Timestamp) (db' : Database) : Prop where
  frame : db' = { db with networkScores := db'.networkScores, syncEvents := db'.syncEvents }
  log : db'.syncEvents.rows = db.syncEvents.rows ++
    [db.nextEvent .scoreUpsert (scoreJson row) (some row.principalId) none]
  bound : db.highWater + 1 < 2 ^ 63
  scores : ∃ v, db'.networkScores.rows = (db.withoutScore row.principalId).rows ++ [⟨row, t, v⟩]
  lower : -2 ^ 31 ≤ row.score
  upper : row.score < 2 ^ 31
  principal : ∃ p ∈ db.principals.rows, p.id = row.principalId

variable {db db' : Database} {row : EngineScore} {t : Timestamp}

theorem upsertScore_eq_ok {v : Int} (h : db.upsertScore row v t = .ok db') :
    db' = { db with networkScores := db'.networkScores } ∧
      db'.networkScores.rows = (db.withoutScore row.principalId).rows ++ [⟨row, t, v⟩] ∧
      -2 ^ 31 ≤ row.score ∧ row.score < 2 ^ 31 := by
  unfold upsertScore at h
  by_cases hrange : row.score < -2 ^ 31 ∨ 2 ^ 31 ≤ row.score
  · rw [if_pos hrange] at h
    cases h
  rw [if_neg hrange] at h
  by_cases hreason : row.scoreReason ≠ "propagated" ∧ row.scoreReason ≠ "blacklisted"
  · rw [if_pos hreason] at h
    cases h
  rw [if_neg hreason] at h
  split at h
  · cases h
  · next rows hins =>
    cases h
    exact ⟨rfl, ((Table.insert?_eq_some_iff _ _ _).mp hins).2, by omega, by omega⟩

theorem checkHistory_eq_ok (h : db.checkHistory row = .ok ()) :
    ∃ p ∈ db.principals.rows, p.id = row.principalId := by
  unfold checkHistory at h
  split_ifs at h with hkind hfk
  cases hp : db.findPrincipal row.principalId with
  | none => simp [hp] at hfk
  | some p => exact ⟨p, (db.findPrincipal_eq_some_iff _ p).mp hp⟩

theorem writeScore_eq_ok (h : db.writeScore t row = .ok db') : ScoreWritten db row t db' := by
  obtain ⟨⟨db₂, v⟩, hrecord, h⟩ := bind_eq_ok.mp h
  obtain ⟨hhist, h⟩ := seq_eq_ok.mp h
  cases h
  obtain ⟨⟨db₁, v'⟩, happ, h⟩ := bind_eq_ok.mp hrecord
  obtain ⟨db₂, hup, h⟩ := bind_eq_ok.mp h
  cases h
  obtain ⟨hv, hbound, hframe₁, hlog⟩ := (db.appendEventWithClient_eq_ok db₁ _ _ _ _ v).mp happ
  obtain ⟨hframe₂, hscores, hlo, hhi⟩ := upsertScore_eq_ok hup
  have hevents : db'.syncEvents = db₁.syncEvents := by rw [hframe₂]
  have hold : db₁.networkScores = db.networkScores := by rw [hframe₁]
  have hprincipals : db'.principals = db.principals := by rw [hframe₂, hframe₁]
  constructor
  · rw [hframe₂, hframe₁]
  · rw [hevents, hlog]
  · omega
  · refine ⟨v, ?_⟩
    rw [hscores]
    simp only [withoutScore, hold]
  · exact hlo
  · exact hhi
  · rw [← hprincipals]
    exact checkHistory_eq_ok hhist

structure ScoreDeleted (db : Database) (principalId : String) (db' : Database) : Prop where
  frame : db' = { db with networkScores := db'.networkScores, syncEvents := db'.syncEvents }
  log : db'.syncEvents.rows = db.syncEvents.rows ++
    [db.nextEvent .scoreDelete (.obj [("principal_id", .str principalId)]) (some principalId) none]
  bound : db.highWater + 1 < 2 ^ 63
  scores : db'.networkScores = db.withoutScore principalId

theorem deleteScore_eq_ok {principalId : String} (h : db.deleteScore principalId = .ok db') :
    ScoreDeleted db principalId db' := by
  obtain ⟨⟨db₁, v⟩, happ, h⟩ := bind_eq_ok.mp h
  cases h
  obtain ⟨hv, hbound, hframe, hlog⟩ := (db.appendEventWithClient_eq_ok db₁ _ _ _ _ v).mp happ
  have hold : db₁.networkScores = db.networkScores := by rw [hframe]
  constructor
  · rw [hframe]
  · exact hlog
  · omega
  · simp only [withoutScore, hold]

variable {rows : List EngineScore} {result : ApplyScoresResult}

/-- A property that every written row and every deletion of a row of the old table keep is
kept by a whole score table. -/
theorem applyScoreTable_preserves {P : Database → Prop}
    (hwrite : ∀ s row s', P s → ScoreWritten s row t s' → P s')
    (hdelete : ∀ s r s', r ∈ db.networkScores.rows → P s → ScoreDeleted s r.principalId s' → P s')
    (hdb : P db) (h : db.applyScoreTable rows t = .ok (db', result)) : P db' := by
  refine foldlM_ok_of_mem _ P _ ?_ db db' hdb (applyScoreRows_changes h)
  intro s c s' hc hs hstep
  cases c with
  | put row => exact hwrite s row s' hs (writeScore_eq_ok hstep)
  | drop principalId =>
    obtain ⟨e, he, rfl⟩ := TableDiff.mem_of_drop _ hc
    obtain ⟨r, hr, rfl⟩ := List.mem_map.mp he
    exact hdelete s r s' hr hs (deleteScore_eq_ok hstep)

/-! ## Reading a score -/

def scoreAt (db : Database) (id : String) : Option NetworkScoreRow :=
  db.networkScores.rows.find? fun r => r.principalId = id

def engineScores (db : Database) :
    List EngineScore := db.networkScores.rows.map NetworkScoreRow.toEngineScore

def engineScoreAt (db : Database) : String → Option EngineScore :=
  Option.map NetworkScoreRow.toEngineScore ∘ db.scoreAt

theorem engineScoreAt_eq_lookup (db : Database) :
    db.engineScoreAt = TableDiff.lookup EngineScore.principalId db.engineScores := by
  funext id
  rw [TableDiff.lookup, engineScores, List.find?_map]
  rfl

theorem engineScores_nodup (db : Database) : (db.engineScores.map EngineScore.principalId).Nodup := by
  rw [engineScores, List.map_map]
  exact db.networkScores.nodup_map _ fun _ _ h => h

theorem scoreAt_eq_some {id : String} {r : NetworkScoreRow} :
    db.scoreAt id = some r ↔ r ∈ db.networkScores.rows ∧ r.principalId = id :=
  find?_key_eq_some_iff (fun r : NetworkScoreRow => r.principalId) _
    (db.networkScores.nodup_map _ fun _ _ h => h) id r

theorem find?_withoutScore (db : Database) (principalId : String) :
    (fun id => (db.withoutScore principalId).rows.find? fun r => r.principalId = id) =
      Function.update db.scoreAt principalId none := by
  funext id
  refine (find?_key_filter_ne (fun r : NetworkScoreRow => r.principalId) db.networkScores.rows
    principalId id).trans ?_
  rw [Function.update_apply]
  rfl

theorem scoreAt_written (hw : ScoreWritten db row t db') :
    ∃ v, db'.scoreAt = Function.update db.scoreAt row.principalId (some ⟨row, t, v⟩) := by
  obtain ⟨v, hscores⟩ := hw.scores
  refine ⟨v, funext fun id => ?_⟩
  have hrest := congrFun (find?_withoutScore db row.principalId) id
  rw [scoreAt, hscores, List.find?_append, hrest, Function.update_apply, Function.update_apply]
  by_cases hid : id = row.principalId
  · simp [hid]
  · have hne : ¬ row.principalId = id := fun h => hid h.symm
    simp [hid, hne]

theorem scoreAt_deleted {principalId : String} (hw : ScoreDeleted db principalId db') :
    db'.scoreAt = Function.update db.scoreAt principalId none := by
  rw [← find?_withoutScore, ← hw.scores]
  rfl

theorem engineScoreAt_written (hw : ScoreWritten db row t db') :
    db'.engineScoreAt = Function.update db.engineScoreAt row.principalId (some row) := by
  obtain ⟨v, hat⟩ := scoreAt_written hw
  rw [engineScoreAt, hat, Function.comp_update]
  rfl

theorem engineScoreAt_deleted {principalId : String} (hw : ScoreDeleted db principalId db') :
    db'.engineScoreAt = Function.update db.engineScoreAt principalId none := by
  rw [engineScoreAt, scoreAt_deleted hw, Function.comp_update]
  rfl

theorem engineScoreAt_changes {s : Database} {cs : List ScoreChange}
    (h : cs.foldlM (applyChange (writeScore t) deleteScore) db = .ok s) :
    s.engineScoreAt = TableDiff.run EngineScore.principalId db.engineScoreAt cs := by
  refine foldlM_ok_of_step _ (fun s seen => s.engineScoreAt = TableDiff.run _ db.engineScoreAt seen)
    ?_ cs db s rfl h
  intro s seen c s' hs hstep
  rw [TableDiff.run_concat, ← hs]
  cases c with
  | put row => exact engineScoreAt_written (writeScore_eq_ok hstep)
  | drop principalId => exact engineScoreAt_deleted (deleteScore_eq_ok hstep)

/-- A whole table: the stored scores are its rows. -/
theorem applyScoreTable_perm (hn : (rows.map EngineScore.principalId).Nodup)
    (h : db.applyScoreTable rows t = .ok (db', result)) : db'.engineScores.Perm rows := by
  have hscores := engineScoreAt_changes (applyScoreRows_changes h)
  rw [engineScoreAt_eq_lookup, engineScoreAt_eq_lookup] at hscores
  exact TableDiff.perm_of_lookup_eq _ db'.engineScores_nodup hn
    (hscores.trans (TableDiff.run_changes _ db.engineScores_nodup hn))

theorem applyScoreTable_computedAt (h : db.applyScoreTable rows t = .ok (db', result)) :
    ∀ r ∈ db'.networkScores.rows, r ∈ db.networkScores.rows ∨ r.computedAt = t := by
  refine applyScoreTable_preserves
    (P := fun s => ∀ r ∈ s.networkScores.rows, r ∈ db.networkScores.rows ∨ r.computedAt = t) ?_ ?_
      (fun r => .inl) h
  · intro s row s' hs hw r hr
    obtain ⟨v, hscores⟩ := hw.scores
    rw [hscores, List.mem_append, List.mem_singleton] at hr
    rcases hr with hr | rfl
    · exact hs r (List.mem_filter.mp hr).1
    · exact .inr rfl
  · intro s r s' _ hs hw r' hr'
    rw [hw.scores] at hr'
    exact hs r' (List.mem_filter.mp hr').1

end Database

end Verilink.ControlPlane

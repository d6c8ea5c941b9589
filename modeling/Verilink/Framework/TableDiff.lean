import Verilink.Framework.KeyedList

/-!
# The difference of two keyed tables

A table is read by its key, so two tables are compared as partial functions.
-/

namespace Verilink.Framework

namespace TableDiff

variable {α κ : Type*} [DecidableEq κ]

inductive Change (α κ : Type*)
  | put (row : α)
  | drop (k : κ)

namespace Change

variable (key : α → κ)

def target : Change α κ → κ
  | put row => key row
  | drop k => k

def value : Change α κ → Option α
  | put row => some row
  | drop _ => none

def apply (table : κ → Option α) (c : Change α κ) : κ → Option α :=
  Function.update table (c.target key) c.value

def puts (cs : List (Change α κ)) : List α := cs.filterMap value

end Change

variable (key : α → κ)

def lookup (rows : List α) (k : κ) : Option α := rows.find? fun row => key row = k

def run (table : κ → Option α) (cs : List (Change α κ)) : κ → Option α :=
  cs.foldl (Change.apply key) table

theorem run_concat (table : κ → Option α) (cs : List (Change α κ)) (c : Change α κ) :
    run key table (cs ++ [c]) = Change.apply key (run key table cs) c := by
  simp [run]

omit [DecidableEq κ] in
theorem puts_concat (cs : List (Change α κ)) (c : Change α κ) :
    Change.puts (cs ++ [c]) = Change.puts cs ++ c.value.toList := by
  cases hc : c.value <;> simp [Change.puts, hc]

theorem run_eq_run_filter (table : κ → Option α) (cs : List (Change α κ)) (k : κ) :
    run key table cs k = run key table (cs.filter fun c => c.target key = k) k := by
  induction cs using List.reverseRecOn with
  | nil => rfl
  | append_singleton cs c ih =>
    by_cases hk : c.target key = k
    · rw [List.filter_append, List.filter_cons_of_pos (by simpa using hk), List.filter_nil,
        run_concat, run_concat]
      simp [hk, Change.apply]
    · have hk' : k ≠ c.target key := fun h => hk h.symm
      rw [List.filter_append, List.filter_cons_of_neg (by simpa using hk), List.filter_nil,
        List.append_nil, run_concat, ← ih]
      simp [hk', Change.apply]

variable {old new : List α}

theorem filter_drops (hold : (old.map key).Nodup) (k : κ) :
    ((old.filter fun row => key row ∉ new.map key).map
        fun row => (Change.drop (key row) : Change α κ)).filter (fun c => c.target key = k) =
      if lookup key new k = none ∧ lookup key old k ≠ none then [.drop k] else [] := by
  have hgone : lookup key new k = none ↔ k ∉ new.map key := find?_key_eq_none_iff key new k
  rw [List.filter_map, List.filter_filter]
  have hcongr : (old.filter fun row =>
      ((fun c : Change α κ => decide (c.target key = k)) ∘ fun row => Change.drop (key row)) row &&
        decide (key row ∉ new.map key)) =
      (lookup key old k).toList.filter fun _ => lookup key new k = none := by
    have hrows : old.filter (fun row => key row = k) = (lookup key old k).toList :=
      filter_key_eq_toList key hold k
    rw [← hrows, List.filter_filter]
    apply List.filter_congr
    intro row _
    by_cases hkey : key row = k
    · simp [Change.target, hkey, hgone]
    · simp [Change.target, hkey]
  rw [hcongr]
  cases hrow : lookup key old k with
  | none => simp
  | some row =>
    have hkey := ((find?_key_eq_some_iff key old hold k row).mp hrow).2
    by_cases hnone : lookup key new k = none <;> simp [hnone, hkey]

theorem lookup_self_iff {rows : List α} (hn : (rows.map key).Nodup) {row : α} :
    lookup key rows (key row) = some row ↔ row ∈ rows :=
  (find?_key_eq_some_iff key rows hn (key row) row).trans (and_iff_left rfl)

theorem perm_of_lookup_eq {rows rows' : List α} (hn : (rows.map key).Nodup)
    (hn' : (rows'.map key).Nodup) (h : lookup key rows = lookup key rows') : rows.Perm rows' := by
  apply (List.perm_ext_iff_of_nodup (List.Nodup.of_map key hn) (List.Nodup.of_map key hn')).mpr
  intro row
  rw [← lookup_self_iff key hn, ← lookup_self_iff key hn', h]

variable [DecidableEq α]

def changes (old new : List α) : List (Change α κ) :=
  (new.filter fun row => lookup key old (key row) ≠ some row).map .put ++
    (old.filter fun row => key row ∉ new.map key).map fun row => .drop (key row)

theorem puts_changes (old new : List α) : Change.puts (changes key old new : List (Change α κ)) =
      new.filter fun row => lookup key old (key row) ≠ some row := by
  simp [Change.puts, changes, List.filterMap_append, List.filterMap_map, Function.comp_def, Change.value]

theorem filter_puts (hnew : (new.map key).Nodup) (k : κ) :
    ((new.filter fun row => lookup key old (key row) ≠ some row).map
        (Change.put : α → Change α κ)).filter (fun c => c.target key = k) =
      ((lookup key new k).toList.filter fun row => lookup key old k ≠ some row).map .put := by
  have hrows : new.filter (fun row => key row = k) = (lookup key new k).toList :=
    filter_key_eq_toList key hnew k
  rw [List.filter_map, List.filter_filter, ← hrows, List.filter_filter]
  apply congrArg
  apply List.filter_congr
  intro row _
  by_cases hkey : key row = k <;> simp [Change.target, hkey]

/-- The changes of one key: none where the tables agree, and one that leads from the old table
to the new one elsewhere. -/
theorem filter_changes (hold : (old.map key).Nodup) (hnew : (new.map key).Nodup) (k : κ) :
    (changes key old new : List (Change α κ)).filter (fun c => c.target key = k) =
      if lookup key old k = lookup key new k then []
      else [(lookup key new k).elim (.drop k) .put] := by
  rw [changes, List.filter_append, filter_puts key hnew, filter_drops key hold]
  cases hrow : lookup key new k with
  | none => by_cases hgone : lookup key old k = none <;> simp [hgone]
  | some row => by_cases hsame : lookup key old k = some row <;> simp [hsame]

theorem target_changes {c : Change α κ} (h : c ∈ changes key old new) :
    (∃ row ∈ Change.puts (changes key old new : List (Change α κ)), key row = c.target key) ∨
      ∃ row ∈ old, key row = c.target key := by
  rw [puts_changes]
  rcases List.mem_append.mp h with hput | hdrop
  · obtain ⟨row, hrow, rfl⟩ := List.mem_map.mp hput
    exact .inl ⟨row, hrow, rfl⟩
  · obtain ⟨row, hrow, rfl⟩ := List.mem_map.mp hdrop
    exact .inr ⟨row, (List.mem_filter.mp hrow).1, rfl⟩

theorem mem_of_drop {k : κ} (h : .drop k ∈ (changes key old new : List (Change α κ))) :
    ∃ row ∈ old, key row = k := by
  rcases List.mem_append.mp h with hput | hdrop
  · obtain ⟨row, _, hrow⟩ := List.mem_map.mp hput
    cases hrow
  · obtain ⟨row, hrow, heq⟩ := List.mem_map.mp hdrop
    cases heq
    exact ⟨row, (List.mem_filter.mp hrow).1, rfl⟩

/-- Replaying the changes on the old table gives the new one. -/
theorem run_changes (hold : (old.map key).Nodup) (hnew : (new.map key).Nodup) :
    run key (lookup key old) (changes key old new) = lookup key new := by
  funext k
  rw [run_eq_run_filter, filter_changes key hold hnew]
  by_cases hsame : lookup key old k = lookup key new k
  · rw [if_pos hsame]
    exact hsame
  · rw [if_neg hsame]
    cases hrow : lookup key new k with
    | none => simp [run, Change.apply, Change.target, Change.value]
    | some row =>
      have hkey := ((find?_key_eq_some_iff key new hnew k row).mp hrow).2
      simp [run, Change.apply, Change.target, Change.value, hkey]

end TableDiff

end Verilink.Framework

import Verilink.Framework.KeyedList

/-!
# Tables with uniqueness constraints

The uniqueness constraints of a table are one relation on rows: two rows conflict when some primary
key or unique index forbids them to be stored together.
-/

namespace Verilink.Framework

@[ext]
structure Table (α : Type) (conflict : α → α → Prop) where
  rows : List α
  consistent : rows.Pairwise fun a b => ¬ conflict a b

namespace Table

variable {α : Type} {conflict : α → α → Prop}

def empty : Table α conflict := ⟨[], List.Pairwise.nil⟩

def insert? [DecidableRel conflict] (t : Table α conflict) (a : α) : Option (Table α conflict) :=
  if h : ∀ b ∈ t.rows, ¬ conflict b a then
    some ⟨t.rows ++ [a], List.pairwise_append.mpr
      ⟨t.consistent, List.pairwise_singleton _ _, fun b hb c hc => by
        rw [List.mem_singleton.mp hc]
        exact h b hb⟩⟩
  else none

def filter (t : Table α conflict) (p : α → Bool) : Table α conflict :=
  ⟨t.rows.filter p, t.consistent.filter p⟩

def mapRows (t : Table α conflict) (f : α → α) (hf : ∀ a b, conflict (f a) (f b) → conflict a b) :
    Table α conflict :=
  ⟨t.rows.map f, List.pairwise_map.mpr (t.consistent.imp fun hab h => hab (hf _ _ h))⟩

theorem insert?_eq_some_iff [DecidableRel conflict] (t t' : Table α conflict) (a : α) :
    t.insert? a = some t' ↔
      (∀ b ∈ t.rows, ¬ conflict b a) ∧ t'.rows = t.rows ++ [a] := by
  unfold insert?
  by_cases h : ∀ b ∈ t.rows, ¬ conflict b a
  · rw [dif_pos h]
    constructor
    · intro heq
      cases heq
      exact ⟨h, rfl⟩
    · intro heq
      cases t'
      exact congrArg some (by cases heq.2; rfl)
  · rw [dif_neg h]
    constructor
    · intro heq
      cases heq
    · intro heq
      exact absurd heq.1 h

theorem exists_insert? [DecidableRel conflict] (t : Table α conflict) (a : α)
    (h : ∀ b ∈ t.rows, ¬ conflict b a) : ∃ t', t.insert? a = some t' := by
  unfold insert?
  rw [dif_pos h]
  exact ⟨_, rfl⟩

theorem nodup_map {κ : Type} (t : Table α conflict) (key : α → κ)
    (hkey : ∀ a b, key a = key b → conflict a b) : (t.rows.map key).Nodup := by
  rw [List.nodup_iff_pairwise_ne, List.pairwise_map]
  apply t.consistent.imp
  intro a b hab heq
  exact hab (hkey a b heq)

section InsertNew

variable [DecidableRel conflict]

def insertNew (t : Table α conflict) (a : α) : Table α conflict := (t.insert? a).getD t

theorem insertNew_cases (t : Table α conflict) (a : α) :
    ((∀ b ∈ t.rows, ¬ conflict b a) ∧ (t.insertNew a).rows = t.rows ++ [a]) ∨
      (∃ b ∈ t.rows, conflict b a) ∧ (t.insertNew a).rows = t.rows := by
  unfold insertNew
  cases hins : t.insert? a with
  | some t' => exact .inl ((insert?_eq_some_iff t t' a).mp hins)
  | none =>
    right
    refine ⟨?_, rfl⟩
    by_contra hfree
    push Not at hfree
    obtain ⟨t', ht'⟩ := exists_insert? t a hfree
    rw [hins] at ht'
    cases ht'

/-- After the insertions every old row is there, every row is old or new, and every new row is
there or stands behind one that it conflicts with. -/
theorem foldl_insertNew (hrefl : ∀ a, conflict a a) (l : List α) (t : Table α conflict) :
    t.rows ⊆ (l.foldl insertNew t).rows ∧ (∀ r ∈ (l.foldl insertNew t).rows, r ∈ t.rows ∨ r ∈ l) ∧
      ∀ a ∈ l, ∃ r ∈ (l.foldl insertNew t).rows, conflict r a := by
  induction l generalizing t with
  | nil => exact ⟨fun _ h => h, fun _ h => .inl h, by simp⟩
  | cons a l ih =>
    obtain ⟨hold, hnew, hconflict⟩ := ih (t.insertNew a)
    have hcases : t.rows ⊆ (t.insertNew a).rows ∧ (∀ r ∈ (t.insertNew a).rows, r ∈ t.rows ∨ r = a) ∧
        ∃ r ∈ (t.insertNew a).rows, conflict r a := by
      rcases t.insertNew_cases a with ⟨-, hrows⟩ | ⟨⟨b, hb, hba⟩, hrows⟩ <;> rw [hrows]
      · exact ⟨List.subset_append_left _ _, by simp, a, by simp, hrefl a⟩
      · exact ⟨fun _ h => h, fun _ h => .inl h, b, hb, hba⟩
    obtain ⟨hsub, hone, r, hr, hra⟩ := hcases
    refine ⟨List.Subset.trans hsub hold, ?_, ?_⟩
    · intro r hr
      rcases hnew r hr with hr | hr
      · rcases hone r hr with hr | rfl
        · exact .inl hr
        · exact .inr List.mem_cons_self
      · exact .inr (List.mem_cons_of_mem _ hr)
    · rw [List.forall_mem_cons]
      exact ⟨⟨r, hold hr, hra⟩, hconflict⟩

end InsertNew

end Table

end Verilink.Framework

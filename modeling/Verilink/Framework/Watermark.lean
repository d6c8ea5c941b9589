import Mathlib

/-!
# Acknowledging by watermark

A queue whose elements carry numbers is acknowledged by one number, the last of a batch that was
copied from its head some time ago.
-/

namespace Verilink.Framework

namespace Watermark

variable {α : Type} (seq : α → Int) (first : Int)

/-- Numbers grow along the queue, from `first` on. -/
def Grows (l : List α) : Prop := l.Pairwise fun a b => first ≤ seq b → seq a < seq b

/-- What the watermark `last` reaches is in the batch. -/
def Covers (last : Int) (batch l : List α) : Prop :=
  ∀ a ∈ l, first ≤ seq a → seq a ≤ last → a ∈ batch

variable {seq first} {l batch : List α} {last : Int}

theorem Grows.drop (h : Grows seq first l) (k : Nat) : Grows seq first (l.drop k) :=
  h.sublist (List.drop_sublist k l)

theorem Grows.concat (h : Grows seq first l) {x : α} (hx : ∀ a ∈ l, seq a < seq x) :
    Grows seq first (l ++ [x]) := by
  refine List.pairwise_append.mpr ⟨h, List.pairwise_singleton _ _, ?_⟩
  intro a ha b hb _
  rw [List.mem_singleton.mp hb]
  exact hx a ha

theorem grows_of_lt (h : ∀ a ∈ l, seq a < first) : Grows seq first l := by
  apply List.pairwise_iff_forall_sublist.mpr
  intro a b hab hb
  exact absurd hb (not_le.mpr (h b (hab.subset (by simp))))

theorem covers_take (h : Grows seq first l) {n : Nat} {x : α} (hx : (l.take n).getLast? = some x) :
    Covers seq first (seq x) (l.take n) l := by
  intro a ha hfirst hle
  rw [← List.take_append_drop n l] at ha h
  rcases List.mem_append.mp ha with htake | hdrop
  · exact htake
  · have hlt := (List.pairwise_append.mp h).2.2 x (List.mem_of_getLast? hx) a hdrop hfirst
    exact absurd hle (not_le.mpr hlt)

theorem Covers.drop (h : Covers seq first last batch l) (k : Nat) :
    Covers seq first last batch (l.drop k) :=
  fun a ha => h a (List.mem_of_mem_drop ha)

theorem Covers.concat (h : Covers seq first last batch l) {x : α} (hx : last < seq x) :
    Covers seq first last batch (l ++ [x]) := by
  intro a ha hfirst hle
  rcases List.mem_append.mp ha with hold | hnew
  · exact h a hold hfirst hle
  · rw [List.mem_singleton.mp hnew] at hle
    exact absurd hle (not_le.mpr hx)

theorem le_of_getLast? (h : l.Pairwise fun a b => seq a < seq b) {x : α} (hx : l.getLast? = some x) :
    ∀ a ∈ l, seq a ≤ seq x := by
  obtain ⟨ys, rfl⟩ := List.getLast?_eq_some_iff.mp hx
  rw [List.forall_mem_append, List.forall_mem_singleton]
  exact ⟨fun a ha => ((List.pairwise_append.mp h).2.2 a ha x (by simp)).le, le_rfl⟩

theorem lt_of_mem_drop_takeWhile (h : l.Pairwise fun a b => seq a < seq b) (t : Int) :
    ∀ a ∈ l.drop (l.takeWhile fun a => decide (seq a ≤ t)).length, t < seq a := by
  induction l with
  | nil => simp
  | cons b l ih =>
    obtain ⟨hb, hl⟩ := List.pairwise_cons.mp h
    by_cases hle : seq b ≤ t
    · simp only [List.takeWhile_cons, hle, decide_true, if_true]
      exact ih hl
    · simp only [List.takeWhile_cons, hle, decide_false]
      refine List.forall_mem_cons.mpr ⟨not_le.mp hle, fun a ha => ?_⟩
      exact (not_le.mp hle).trans (hb a ha)

end Watermark

end Verilink.Framework

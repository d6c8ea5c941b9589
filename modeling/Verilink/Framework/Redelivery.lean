import Mathlib

/-!
# Events that are delivered more than once

Events are applied to a state, each possibly several times, but none after a later one was.
-/

namespace Verilink.Framework

variable {σ ε : Type} (step : σ → ε → σ)

def Reapplicable : Prop := ∀ s e, step (step s e) e = step s e

/-- `s` is what some of the events give, in order and once each; they are the ones applied so far.
-/
def Delivered (es : List ε) (s₀ s : σ) (applied : List ε) : Prop :=
  ∃ once : List ε, once.Sublist es ∧ once.foldl step s₀ = s ∧ ∀ e, e ∈ applied ↔ e ∈ once

variable {step}

theorem delivered_nil (es : List ε) (s₀ : σ) : Delivered step es s₀ s₀ [] :=
  ⟨[], List.nil_sublist es, rfl, fun _ => Iff.rfl⟩

theorem Delivered.apply {es pre post applied : List ε} {s₀ s : σ} {e : ε} (hre : Reapplicable step)
    (h : Delivered step es s₀ s applied) (hes : es = pre ++ e :: post)
    (horder : ∀ a ∈ applied, a ∉ post) :
    Delivered step es s₀ (step s e) (applied ++ [e]) := by
  obtain ⟨once, hsub, rfl, hmem⟩ := h
  rw [hes, List.sublist_append_iff] at hsub
  obtain ⟨front, back, rfl, hfront, hback⟩ := hsub
  -- Of the events from `e` on only `e` itself can have been applied.
  have hnil : ∀ l : List ε, l.Sublist post → (∀ a ∈ l, a ∈ back) → l = [] := by
    intro l hl hin
    apply List.eq_nil_iff_forall_not_mem.mpr
    intro a ha
    exact horder a ((hmem a).mpr (List.mem_append_right _ (hin a ha))) (hl.subset ha)
  refine ⟨front ++ [e], ?_, ?_, ?_⟩
  · rw [hes]
    exact hfront.append (List.singleton_sublist.mpr List.mem_cons_self)
  · rw [List.foldl_append, List.foldl_append]
    cases hback with
    | cons _ hback =>
      rw [hnil back hback fun _ ha => ha]
      rfl
    | cons_cons _ hback =>
      rw [hnil _ hback fun _ ha => List.mem_cons_of_mem _ ha]
      exact (hre _ e).symm
  · intro a
    cases hback with
    | cons _ hback =>
      rw [List.mem_append, List.mem_append, hmem a, hnil back hback fun _ ha => ha, List.append_nil]
    | cons_cons _ hback =>
      have hl := hnil _ hback fun _ ha => List.mem_cons_of_mem _ ha
      simp [hmem a, hl]

/-- Once every event was applied, the state is the one they give in order. -/
theorem Delivered.foldl {es applied : List ε} {s₀ s : σ} (h : Delivered step es s₀ s applied)
    (hn : es.Nodup) (hall : ∀ e ∈ es, e ∈ applied) : s = es.foldl step s₀ := by
  obtain ⟨once, hsub, hfold, hmem⟩ := h
  have hlen : es.length ≤ once.length :=
    (List.subperm_of_subset hn fun e he => (hmem e).mp (hall e he)).length_le
  rw [← hsub.eq_of_length_le hlen]
  exact hfold.symm

end Verilink.Framework

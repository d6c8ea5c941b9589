/-!
# Steps that keep their state when they fail

A step of a program that changes a state and may return an error; what it did before the error
stays done. Sequencing stops at the first error.
-/

namespace Verilink.Framework

/-- The state afterwards, and the error if there is one. -/
abbrev Outcome (σ ε : Type) := σ × Option ε

namespace Outcome

variable {σ ε : Type}

def andThen (r : Outcome σ ε) (f : σ → Outcome σ ε) : Outcome σ ε :=
  match r with
  | (s, none) => f s
  | (s, some e) => (s, some e)

@[simp]
theorem andThen_none (s : σ) (f : σ → Outcome σ ε) : andThen (s, none) f = f s := rfl

@[simp]
theorem andThen_some (s : σ) (e : ε) (f : σ → Outcome σ ε) : andThen (s, some e) f = (s, some e) :=
  rfl

theorem andThen_cases (r : Outcome σ ε) (f : σ → Outcome σ ε) :
    (r.2 = none ∧ andThen r f = f r.1) ∨ (∃ e, r.2 = some e ∧ andThen r f = (r.1, some e)) := by
  obtain ⟨s, e⟩ := r
  cases e with
  | none => exact .inl ⟨rfl, rfl⟩
  | some e => exact .inr ⟨e, rfl, rfl⟩

variable {r : Outcome σ ε} {f : σ → Outcome σ ε}

theorem andThen_of_none (h : r.2 = none) (f : σ → Outcome σ ε) :
    andThen r f = f r.1 := by
  obtain ⟨s, e⟩ := r
  cases h
  rfl

theorem andThen_keeps {P : σ → Prop} (hr : P r.1) (hf : ∀ s, P s → P (f s).1) : P (andThen r f).1 := by
  rcases andThen_cases r f with ⟨-, h⟩ | ⟨e, -, h⟩
  · rw [h]
    exact hf r.1 hr
  · rw [h]
    exact hr

theorem andThen_eq_none :
    (andThen r f).2 = none ↔ r.2 = none ∧ (f r.1).2 = none := by
  obtain ⟨s, e⟩ := r
  cases e <;> simp

end Outcome

end Verilink.Framework

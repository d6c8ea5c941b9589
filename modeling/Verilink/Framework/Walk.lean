import Mathlib

/-!
# Walks and their gain

A walk is a list of edges in which every edge starts where the previous one ends. Each edge
multiplies what is carried along it by a gain, so the gain of a walk is the product of the gains of
its edges.
-/

namespace Verilink.Framework

variable {V E : Type*} (src tgt : E → V)

/-- `IsWalk src tgt u es v`: the edges `es` lead from `u` to `v`. -/
def IsWalk : V → List E → V → Prop
  | u, [], v => u = v
  | u, e :: es, v => src e = u ∧ IsWalk (tgt e) es v

@[simp]
theorem isWalk_nil (u v : V) : IsWalk src tgt u [] v ↔ u = v := Iff.rfl

@[simp]
theorem isWalk_cons (u v : V) (e : E) (es : List E) :
    IsWalk src tgt u (e :: es) v ↔ src e = u ∧ IsWalk src tgt (tgt e) es v := Iff.rfl

theorem isWalk_append (u v : V) (es fs : List E) : IsWalk src tgt u (es ++ fs) v ↔
      ∃ m, IsWalk src tgt u es m ∧ IsWalk src tgt m fs v := by
  induction es generalizing u with
  | nil => simp
  | cons e es ih => simp [ih, and_assoc]

theorem isWalk_snoc (u v : V) (es : List E) (e : E) :
    IsWalk src tgt u (es ++ [e]) v ↔ IsWalk src tgt u es (src e) ∧ tgt e = v := by
  rw [isWalk_append]
  constructor
  · rintro ⟨m, hes, hsrc, htgt⟩
    exact ⟨hsrc ▸ hes, htgt⟩
  · rintro ⟨hes, htgt⟩
    exact ⟨src e, hes, rfl, htgt⟩

section Gain

variable {K : Type*} [CommMonoid K] (gain : E → K)

def walkGain (es : List E) : K := (es.map gain).prod

@[simp]
theorem walkGain_nil : walkGain gain [] = 1 := rfl

theorem walkGain_snoc (es : List E) (e : E) :
    walkGain gain (es ++ [e]) = walkGain gain es * gain e := by
  simp [walkGain]

end Gain

/-- What reaches `v` along walks of at most `n` edges (at least one) out of `edges`,
when every source vertex `u` with `start u = some x` sends `x`. -/
def carriedTo {K : Type*} [CommMonoid K] (gain : E → K) (edges : List E)
    (start : V → Option K) (n : Nat) (v : V) : Set K :=
  {x | ∃ u a es, start u = some a ∧ es ≠ [] ∧ es.length ≤ n ∧ (∀ e ∈ es, e ∈ edges) ∧
    IsWalk src tgt u es v ∧ x = a * walkGain gain es}

section Carried

variable {K : Type*} [CommMonoid K] (gain : E → K) (edges : List E) (start : V → Option K)

@[simp]
theorem carriedTo_zero (v : V) : carriedTo src tgt gain edges start 0 v = ∅ := by
  ext x
  simp only [carriedTo, Set.mem_ofPred_eq, Set.mem_empty_iff_false, iff_false]
  rintro ⟨u, a, es, -, hne, hlen, -⟩
  exact hne (List.length_eq_zero_iff.mp (by omega))

theorem carriedTo_mono {m n : Nat} (hmn : m ≤ n) (v : V) :
    carriedTo src tgt gain edges start m v ⊆ carriedTo src tgt gain edges start n v := by
  rintro x ⟨u, a, es, hu, hne, hlen, hmem, hwalk, hx⟩
  exact ⟨u, a, es, hu, hne, hlen.trans hmn, hmem, hwalk, hx⟩

/-- Splitting off the last edge: what arrives within `n + 1` edges was sent out by the
source of the last edge, either as its own start value or as something carried to it. -/
theorem mem_carriedTo_succ (n : Nat) (v : V) (x : K) : x ∈ carriedTo src tgt gain edges start (n + 1) v ↔
      ∃ e ∈ edges, tgt e = v ∧ ∃ y, (start (src e) = some y ∨
        y ∈ carriedTo src tgt gain edges start n (src e)) ∧ x = y * gain e := by
  constructor
  · rintro ⟨u, a, es, hu, hne, hlen, hmem, hwalk, rfl⟩
    obtain ⟨fs, e, rfl⟩ := List.eq_nil_or_concat' es |>.resolve_left hne
    obtain ⟨hfs, htgt⟩ := (isWalk_snoc src tgt u v fs e).mp hwalk
    refine ⟨e, hmem e (by simp), htgt, a * walkGain gain fs, ?_, ?_⟩
    · cases fs with
      | nil =>
        left
        rw [← (isWalk_nil src tgt u (src e)).mp hfs, hu]
        simp
      | cons f fs =>
        right
        refine ⟨u, a, f :: fs, hu, by simp, ?_, ?_, hfs, rfl⟩
        · simp only [List.length_append, List.length_singleton] at hlen
          omega
        · intro g hg
          exact hmem g (List.mem_append_left _ hg)
    · rw [walkGain_snoc, mul_assoc]
  · rintro ⟨e, he, rfl, y, hy | ⟨u, a, es, hu, hne, hlen, hmem, hwalk, rfl⟩, rfl⟩
    · refine ⟨src e, y, [e], hy, by simp, by simp, by simpa using he, by simp, ?_⟩
      simp [walkGain]
    · refine ⟨u, a, es ++ [e], hu, by simp, by simpa using hlen, ?_, ?_, ?_⟩
      · intro g hg
        rcases List.mem_append.mp hg with hg | hg
        · exact hmem g hg
        · exact (List.mem_singleton.mp hg) ▸ he
      · exact (isWalk_snoc src tgt u (tgt e) es e).mpr ⟨hwalk, rfl⟩
      · rw [walkGain_snoc, mul_assoc]

end Carried

end Verilink.Framework

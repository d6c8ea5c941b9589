import Verilink.Trust.Reach

/-!
# Rational runs

Where the decays of all claims that can lend something are rational, a run has the scores of the run
over the rationals, which can be evaluated.
-/

namespace Verilink.Trust

section Maps

variable {K : Type} [Field K]

def CastsTo (m : Scores ℚ) (m' : Scores K) : Prop :=
  ∀ v, m'.lookup v = (m.lookup v).map Rat.cast

variable {m : Scores ℚ} {m' : Scores K}

theorem CastsTo.valueAt (h : CastsTo m m') (v : String) : valueAt m' v = valueAt m v := by
  unfold Trust.valueAt
  rw [h v]
  cases m.lookup v <;> simp

theorem CastsTo.insert (h : CastsTo m m') (id : String) (x : ℚ) :
    CastsTo (m.insert id x) (m'.insert id (x : K)) := by
  intro v
  by_cases hv : v = id
  · subst hv
    simp
  · rw [Finmap.lookup_insert_of_ne _ hv, Finmap.lookup_insert_of_ne _ hv, h v]

theorem CastsTo.foldl_insert {α : Type} (key : α → String) (val : α → ℚ) (l : List α)
    (h : CastsTo m m') : CastsTo (l.foldl (fun m a => m.insert (key a) (val a)) m)
      (l.foldl (fun m a => m.insert (key a) (val a : K)) m') := by
  induction l generalizing m m' with
  | nil => exact h
  | cons a l ih => exact ih (h.insert (key a) (val a))

/-- Only nodes within `reach` have a score. -/
def Within (reach : List String) (m : Scores ℚ) : Prop := ∀ v, (m.lookup v).isSome → v ∈ reach

variable {reach : List String}

theorem Within.insert (h : Within reach m) {id : String} (hid : id ∈ reach) (x : ℚ) :
    Within reach (m.insert id x) := by
  intro v hv
  by_cases hne : v = id
  · exact hne ▸ hid
  · rw [Finmap.lookup_insert_of_ne _ hne] at hv
    exact h v hv

theorem Within.foldl_insert {α : Type} (key : α → String) (val : α → ℚ) (l : List α)
    (hl : ∀ a ∈ l, key a ∈ reach) (h : Within reach m) :
    Within reach (l.foldl (fun m a => m.insert (key a) (val a)) m) := by
  induction l generalizing m with
  | nil => exact h
  | cons a l ih =>
    obtain ⟨ha, hl⟩ := List.forall_mem_cons.mp hl
    exact ih hl (h.insert ha (val a))

structure HopState.Casts (reach : List String) (st : HopState ℚ) (st' : HopState K) : Prop where
  scores : CastsTo st.scores st'.scores
  flags : st'.blacklistedNodes = st.blacklistedNodes
  within : Within reach st.scores

theorem HopState.Casts.keys {st : HopState ℚ} {st' : HopState K} (h : st.Casts reach st') :
    st'.scores.keys = st.scores.keys := by
  ext v
  rw [Finmap.mem_keys, Finmap.mem_keys, ← Finmap.lookup_isSome, ← Finmap.lookup_isSome, h.scores v,
    Option.isSome_map]

end Maps

variable {K : Type} [Field K] [LinearOrder K]

structure Graph.Casts (reach : List String) (g : Graph ℚ) (g' : Graph K) : Prop where
  edges : g'.edges = g.edges
  weights : ∀ v, valueAt g'.weightByDID v = valueAt g.weightByDID v
  decay : ∀ e ∈ g.edges, e.issuer ∈ reach → g'.timeDecay e = g.timeDecay e
  closed : ∀ e ∈ g.edges, e.issuer ∈ reach → e.subject ∈ reach

variable [IsStrictOrderedRing K] {reach : List String} {g : Graph ℚ} {g' : Graph K} {m : Scores ℚ}
  {m' : Scores K}

section Hop

variable (hg : g.Casts reach g')
include hg

theorem Graph.Casts.gain {e : Edge} (he : e ∈ g.edges) (hissuer : e.issuer ∈ reach) :
    g'.gain e = (g.gain e : ℚ) := by
  rw [Graph.gain, Graph.gain, hg.decay e he hissuer, hg.weights]
  push_cast [distanceDecay]
  rfl

theorem Graph.Casts.blacklistedThisHop (h : CastsTo m m') :
    g'.blacklistedThisHop m' = g.blacklistedThisHop m := by
  unfold Graph.blacklistedThisHop
  rw [hg.edges]
  refine List.filterMap_congr fun e _ => ?_
  rw [h e.issuer, hg.weights]
  cases m.lookup e.issuer with
  | none => rfl
  | some x =>
    have hthreshold : (blacklistIssuerThreshold : K) ≤ x * valueAt g.weightByDID e.issuer ↔
        (blacklistIssuerThreshold : ℚ) ≤ x * valueAt g.weightByDID e.issuer := by
      rw [← Rat.cast_mul, ← Rat.cast_intCast, Rat.cast_le]
    simp only [Option.map_some, hthreshold]

theorem Graph.Casts.relax (h : CastsTo m m') (hm : Within reach m) (black : List String) {es : List Edge}
    (hes : es ⊆ g.edges) (n : Scores ℚ) (n' : Scores K) (changed : Bool) (hn : CastsTo n n')
    (hin : Within reach n) :
    CastsTo (es.foldl (g.relaxEdge m black) (n, changed)).1
        (es.foldl (g'.relaxEdge m' black) (n', changed)).1 ∧
      Within reach (es.foldl (g.relaxEdge m black) (n, changed)).1 := by
  induction es generalizing n n' changed with
  | nil => exact ⟨hn, hin⟩
  | cons e es ih =>
    obtain ⟨he, hes⟩ := List.cons_subset.mp hes
    have hkeep := ih hes n n' changed hn hin
    rw [List.foldl_cons, List.foldl_cons]
    unfold Graph.relaxEdge at hkeep ⊢
    rw [h e.issuer]
    split_ifs
    · exact hkeep
    cases hx : m.lookup e.issuer with
    | none => exact hkeep
    | some x =>
      have hissuer := hm e.issuer (by rw [hx]; rfl)
      have hlt : valueAt n' e.subject < (x : K) * g'.gain e ↔ valueAt n e.subject < x * g.gain e := by
        rw [hn.valueAt, hg.gain he hissuer, ← Rat.cast_mul, Rat.cast_lt]
      simp only [Option.map_some, hlt]
      split_ifs
      · rw [hg.gain he hissuer, ← Rat.cast_mul]
        exact ih hes _ _ true (hn.insert _ _) (hin.insert (hg.closed e he hissuer) _)
      · exact hkeep

theorem Graph.Casts.nextState {st : HopState ℚ} {st' : HopState K} (h : st.Casts reach st') :
    (g.nextState st).Casts reach (g'.nextState st') := by
  have hblack := hg.blacklistedThisHop h.scores
  obtain ⟨hrelaxed, hwithin⟩ := hg.relax h.scores h.within (g.blacklistedThisHop st.scores)
    (List.Subset.refl _) st.scores st'.scores false h.scores h.within
  refine ⟨?_, ?_, ?_⟩
  · intro v
    rw [g'.nextState_lookup, g.nextState_lookup, hblack, hg.edges, hrelaxed v]
    split_ifs <;> simp
  · rw [g'.nextState_blacklistedNodes, g.nextState_blacklistedNodes, h.flags, hblack]
  · intro v hv
    rw [g.nextState_lookup] at hv
    split_ifs at hv with hb
    · obtain ⟨e, he, -, rfl, x, hx, -⟩ := (g.mem_blacklistedThisHop _ v).mp hb
      exact hg.closed e he (h.within _ (by rw [hx]; rfl))
    · exact hwithin v hv

theorem Graph.Casts.hopLoop {st : HopState ℚ} {st' : HopState K} (h : st.Casts reach st') (n : Nat) :
    (g.hopLoop n st).Casts reach (g'.hopLoop n st') := by
  rw [Graph.hopLoop_eq_iterate, Graph.hopLoop_eq_iterate]
  induction n generalizing st st' with
  | zero => exact h
  | succ n ih => exact ih (hg.nextState h)

end Hop

theorem rowScore_cast [FloorRing K] (x : ℚ) : rowScore (x : K) = rowScore x := by
  rw [rowScore_eq_floor, rowScore_eq_floor, ← Rat.floor_cast (α := K)]
  push_cast
  rfl

theorem HopState.Casts.scoreRow [FloorRing K] {st : HopState ℚ} {st' : HopState K}
    (h : st.Casts reach st')
    (kinds : Finmap fun _ : String => EntityKind) : scoreRow kinds st' = scoreRow kinds st := by
  funext v
  unfold Trust.scoreRow
  rw [h.scores.valueAt, rowScore_cast, h.flags]

end Verilink.Trust

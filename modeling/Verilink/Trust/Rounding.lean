import Verilink.Trust.Compare

/-!
# Runs that round alike

Two runs over the same claims whose starts differ by less than rounding shows, or whose trust
weights differ where nothing is held, end in the same rounded scores.
-/

namespace Verilink.Trust

variable {K : Type} [Field K] [LinearOrder K]

/-- Equal, or both below half a point. -/
def Alike (x y : K) : Prop := x = y ∨ (BelowHalf x ∧ BelowHalf y)

theorem Alike.symm {x y : K} (h : Alike x y) : Alike y x :=
  h.imp Eq.symm And.symm

theorem Alike.eq_of_half_le {x y : K} (h : Alike x y) (hx : 1 / 2 ≤ x) : x = y := by
  rcases h with h | h
  · exact h
  · exact absurd h.1 hx.not_gt

/-- No edge passes on more than its issuer holds, and negative claims pass on nothing. -/
structure Graph.Tame (g : Graph K) : Prop where
  gain_le : ∀ e ∈ g.edges, g.gain e ≤ 1
  gain_nonpos : ∀ e ∈ g.edges, e.score ≤ 0 → g.gain e ≤ 0
  weight_le : ∀ e ∈ g.edges, valueAt g.weightByDID e.issuer ≤ 1

/-- Two graphs with the same claims. The trust weights differ in quiet nodes only, for which nobody
else vouches. -/
structure Graph.Twins (g g' : Graph K) (quiet : Set String) : Prop where
  edges : g.edges = g'.edges
  timeDecay : g.timeDecay = g'.timeDecay
  weights : ∀ e ∈ g.edges, e.issuer ∉ quiet →
    valueAt g.weightByDID e.issuer = valueAt g'.weightByDID e.issuer
  inside : ∀ e ∈ g.edges, e.subject ∈ quiet → 0 < e.score → e.issuer ∈ quiet
  tame : g.Tame
  tame' : g'.Tame

theorem Graph.Twins.symm {g g' : Graph K} {quiet : Set String} (h : g.Twins g' quiet) :
    g'.Twins g quiet where
  edges := h.edges.symm
  timeDecay := h.timeDecay.symm
  weights e he hissuer := (h.weights e (h.edges ▸ he) hissuer).symm
  inside := h.edges ▸ h.inside
  tame := h.tame'
  tame' := h.tame

/-- Scores that rounding does not tell apart. Those of the issuers are alike, and the quiet nodes
hold less than half a point. -/
structure RoundsAlike [FloorRing K] (edges : List Edge) (quiet : Set String) (m m' : Scores K) :
    Prop where
  nonneg : ∀ v, 0 ≤ valueAt m v
  nonneg' : ∀ v, 0 ≤ valueAt m' v
  rounds : ∀ v, rowScore (valueAt m v) = rowScore (valueAt m' v)
  alike : ∀ e ∈ edges, Alike (valueAt m e.issuer) (valueAt m' e.issuer)
  quiet : ∀ v ∈ quiet, BelowHalf (valueAt m v) ∧ BelowHalf (valueAt m' v)

variable {g g' : Graph K} {quiet : Set String} {st st' : HopState K}

theorem RoundsAlike.symm [FloorRing K] {edges : List Edge} {m m' : Scores K}
    (h : RoundsAlike edges quiet m m') : RoundsAlike edges quiet m' m where
  nonneg := h.nonneg'
  nonneg' := h.nonneg
  rounds v := (h.rounds v).symm
  alike e he := (h.alike e he).symm
  quiet v hv := (h.quiet v hv).symm

theorem Graph.nextState_value_cases (g : Graph K) (st : HopState K) {v : String}
    (h : v ∉ g.blacklistedThisHop st.scores) :
    valueAt (g.nextState st).scores v = valueAt st.scores v ∨
      ∃ e ∈ g.edges, e.subject = v ∧ e.issuer ∉ g.blacklistedThisHop st.scores ∧
        valueAt (g.nextState st).scores v = valueAt st.scores e.issuer * g.gain e := by
  rcases g.nextState_value_attained st v h with hheld | ⟨e, he, hev, hlent⟩
  · exact .inl hheld
  · obtain ⟨hissuer, x, hx, hvalue⟩ := (g.lends_eq_some st e _).mp hlent
    exact .inr ⟨e, he, hev, hissuer, by rw [valueAt_of_lookup hx, hvalue]⟩

/-- A node without a row counts as one that holds nothing. -/
theorem Graph.offer_le_nextState_value (g : Graph K) (st : HopState K)
    (hnonneg : ∀ v, 0 ≤ valueAt st.scores v) {e : Edge} (he : e ∈ g.edges)
    (h : e.subject ∉ g.blacklistedThisHop st.scores)
    (hissuer : e.issuer ∉ g.blacklistedThisHop st.scores) :
    valueAt st.scores e.issuer * g.gain e ≤ valueAt (g.nextState st).scores e.subject := by
  obtain ⟨hheld, hlent⟩ := (g.nextState_value_le_iff st e.subject _ h).mp le_rfl
  cases hx : st.scores.lookup e.issuer with
  | none =>
    have hzero : valueAt st.scores e.issuer = 0 := by simp [valueAt, hx]
    rw [hzero, zero_mul]
    exact (hnonneg _).trans hheld
  | some x =>
    rw [valueAt_of_lookup hx]
    exact hlent e he rfl _ ((g.lends_eq_some st e _).mpr ⟨hissuer, x, hx, rfl⟩)

section Hop

variable [IsStrictOrderedRing K]

theorem mul_lt_half {x k : K} (hx : 0 ≤ x) (hsmall : x < 1 / 2) (hk : k ≤ 1) : x * k < 1 / 2 :=
  (mul_le_of_le_one_right hx hk).trans_lt hsmall

theorem Alike.mul {x y k : K} (h : Alike x y) (hx : 0 ≤ x) (hy : 0 ≤ y) (hk : k ≤ 1) :
    Alike (x * k) (y * k) := by
  rcases h with rfl | h
  · exact .inl rfl
  · exact .inr ⟨mul_lt_half hx h.1 hk, mul_lt_half hy h.2 hk⟩

theorem Alike.rowScore_eq [FloorRing K] {x y : K} (h : Alike x y) : rowScore x = rowScore y := by
  rcases h with rfl | h
  · rfl
  · rw [(rowScore_eq_zero_iff x).mpr h.1, (rowScore_eq_zero_iff y).mpr h.2]

variable [FloorRing K] (ht : g.Twins g' quiet) (h : RoundsAlike g.edges quiet st.scores st'.scores)
include ht h

theorem RoundsAlike.black {v : String} (hv : v ∈ g.blacklistedThisHop st.scores) :
    v ∈ g'.blacklistedThisHop st'.scores := by
  obtain ⟨e, he, hneg, hsubject, x, hx, hthreshold⟩ := (g.mem_blacklistedThisHop _ v).mp hv
  rw [← valueAt_of_lookup hx] at hthreshold
  have hlarge : (80 : K) ≤ valueAt st.scores e.issuer := by
    have hle := mul_le_of_le_one_right (h.nonneg e.issuer) (ht.tame.weight_le e he)
    norm_num [blacklistIssuerThreshold] at hthreshold
    exact hthreshold.trans hle
  have hissuer : e.issuer ∉ quiet := by
    intro hq
    have := (h.quiet _ hq).1
    linarith
  have hsame := (h.alike e he).eq_of_half_le (by linarith)
  rw [hsame] at hlarge hthreshold
  rw [ht.weights e he hissuer] at hthreshold
  have hrow : (st'.scores.lookup e.issuer).isSome := by
    by_contra hnone
    rw [Option.not_isSome_iff_eq_none] at hnone
    norm_num [valueAt, hnone] at hlarge
  obtain ⟨y, hy⟩ := Option.isSome_iff_exists.mp hrow
  rw [valueAt_of_lookup hy] at hthreshold
  exact (g'.mem_blacklistedThisHop _ v).mpr ⟨e, ht.edges ▸ he, hneg, hsubject, y, hy, hthreshold⟩

theorem RoundsAlike.offers {e : Edge} (he : e ∈ g.edges) :
    Alike (valueAt st.scores e.issuer * g.gain e) (valueAt st'.scores e.issuer * g'.gain e) := by
  by_cases hissuer : e.issuer ∈ quiet
  · obtain ⟨hsmall, hsmall'⟩ := h.quiet _ hissuer
    exact .inr ⟨mul_lt_half (h.nonneg _) hsmall (ht.tame.gain_le e he),
      mul_lt_half (h.nonneg' _) hsmall' (ht.tame'.gain_le e (ht.edges ▸ he))⟩
  · have hgain : g.gain e = g'.gain e := by
      rw [Graph.gain, Graph.gain, ht.timeDecay, ht.weights e he hissuer]
    rw [← hgain]
    exact (h.alike e he).mul (h.nonneg _) (h.nonneg' _) (ht.tame.gain_le e he)

theorem RoundsAlike.black_iff (v : String) :
    v ∈ g.blacklistedThisHop st.scores ↔ v ∈ g'.blacklistedThisHop st'.scores := by
  constructor
  · exact h.black ht
  · have hsymm := h.symm
    rw [ht.edges] at hsymm
    exact hsymm.black ht.symm

/-- What the next score of a node comes from is alike in the other run. -/
theorem RoundsAlike.exists_alike {v : String} (hb : v ∉ g.blacklistedThisHop st.scores) :
    valueAt (g.nextState st).scores v = valueAt st.scores v ∨
      ∃ y ≤ valueAt (g'.nextState st').scores v, Alike (valueAt (g.nextState st).scores v) y := by
  rcases g.nextState_value_cases st hb with hheld | ⟨e, he, rfl, hissuer, hvalue⟩
  · exact .inl hheld
  · rw [h.black_iff ht] at hb hissuer
    rw [hvalue]
    exact .inr ⟨_, g'.offer_le_nextState_value st' h.nonneg' (ht.edges ▸ he) hb hissuer, h.offers ht he⟩

theorem RoundsAlike.held_le {v : String} (hb : v ∉ g.blacklistedThisHop st.scores) :
    valueAt st'.scores v ≤ valueAt (g'.nextState st').scores v := by
  rw [h.black_iff ht] at hb
  exact ((g'.nextState_value_le_iff st' v _ hb).mp le_rfl).1

theorem RoundsAlike.rounds_le (v : String) :
    rowScore (valueAt (g.nextState st).scores v) ≤ rowScore (valueAt (g'.nextState st').scores v) := by
  by_cases hb : v ∈ g.blacklistedThisHop st.scores
  · rw [g.nextState_value_black st v hb, (rowScore_eq_zero_iff 0).mpr (by norm_num)]
    exact rowScore_nonneg _
  · rcases h.exists_alike ht hb with hheld | ⟨y, hy, halike⟩
    · rw [hheld, h.rounds v]
      exact rowScore_mono (h.held_le ht hb)
    · rw [halike.rowScore_eq]
      exact rowScore_mono hy

theorem RoundsAlike.le_of_half_le {v : String}
    (halike : Alike (valueAt st.scores v) (valueAt st'.scores v))
    (hhalf : 1 / 2 ≤ valueAt (g.nextState st).scores v) :
    valueAt (g.nextState st).scores v ≤ valueAt (g'.nextState st').scores v := by
  by_cases hb : v ∈ g.blacklistedThisHop st.scores
  · rw [g.nextState_value_black st v hb] at hhalf
    norm_num at hhalf
  · rcases h.exists_alike ht hb with hheld | ⟨y, hy, hoffer⟩
    · rw [hheld] at hhalf ⊢
      rw [halike.eq_of_half_le hhalf]
      exact h.held_le ht hb
    · rw [hoffer.eq_of_half_le hhalf]
      exact hy

theorem RoundsAlike.quiet_next {v : String} (hv : v ∈ quiet) :
    valueAt (g.nextState st).scores v < 1 / 2 := by
  by_cases hb : v ∈ g.blacklistedThisHop st.scores
  · rw [g.nextState_value_black st v hb]
    norm_num
  · rcases g.nextState_value_cases st hb with hheld | ⟨e, he, rfl, -, hvalue⟩
    · rw [hheld]
      exact (h.quiet v hv).1
    · rw [hvalue]
      by_cases hpos : 0 < e.score
      · exact mul_lt_half (h.nonneg _) (h.quiet _ (ht.inside e he hv hpos)).1 (ht.tame.gain_le e he)
      · have hnone := mul_nonpos_of_nonneg_of_nonpos (h.nonneg e.issuer)
          (ht.tame.gain_nonpos e he (not_lt.mp hpos))
        exact hnone.trans_lt (by norm_num)

theorem RoundsAlike.nextState :
    RoundsAlike g.edges quiet (g.nextState st).scores (g'.nextState st').scores := by
  have hsymm := h.symm
  rw [ht.edges] at hsymm
  refine ⟨g.nextState_nonneg h.nonneg, g'.nextState_nonneg h.nonneg', ?_, ?_, ?_⟩
  · intro v
    exact le_antisymm (h.rounds_le ht v) (hsymm.rounds_le ht.symm v)
  · intro e he
    have halike := h.alike e he
    by_cases hhalf : 1 / 2 ≤ valueAt (g.nextState st).scores e.issuer
    · have hle := h.le_of_half_le ht halike hhalf
      exact .inl (le_antisymm hle (hsymm.le_of_half_le ht.symm halike.symm (hhalf.trans hle)))
    · by_cases hhalf' : 1 / 2 ≤ valueAt (g'.nextState st').scores e.issuer
      · exact absurd (hhalf'.trans (hsymm.le_of_half_le ht.symm halike.symm hhalf')) hhalf
      · exact .inr ⟨not_le.mp hhalf, not_le.mp hhalf'⟩
  · intro v hv
    exact ⟨h.quiet_next ht hv, hsymm.quiet_next ht.symm hv⟩

omit h in
/-- Starts that rounding does not tell apart lead to such scores after every hop. -/
theorem Graph.Twins.roundsAlike {roots roots' : List (Root K)}
    (h : RoundsAlike g.edges quiet (initialScores roots) (initialScores roots')) (n : Nat) :
    RoundsAlike g.edges quiet (g.stateAt roots n).scores (g'.stateAt roots' n).scores := by
  induction n with
  | zero => exact h
  | succ n ih =>
    rw [g.stateAt_succ, g'.stateAt_succ]
    exact ih.nextState ht

end Hop

end Verilink.Trust

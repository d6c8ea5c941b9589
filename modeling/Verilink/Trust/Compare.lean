import Verilink.Trust.Blacklist

/-!
# Comparing two runs

Two graphs act alike on a state when they blacklist the same nodes and make the same best offers
above what the other nodes hold.
-/

namespace Verilink.Trust

theorem claimEdge_eq_some {evaluationTime : Time} {c : Option AttestationClaims} {e : Edge}
    (h : claimEdge evaluationTime c = some e) :
    ∃ a, c = some a ∧ e.issuer = a.issuer ∧ e.subject = a.subject ∧
      e.score = a.trustLevelDelta := by
  cases c with
  | none => cases h
  | some a =>
    cases hissued : a.issuedAt with
    | none => simp [claimEdge, hissued] at h
    | some issuedAt =>
      simp only [claimEdge, hissued] at h
      split_ifs at h
      all_goals
        cases h
        exact ⟨a, rfl, rfl, rfl, rfl⟩

variable {K : Type} [Field K] [LinearOrder K]

/-- Some edge offers `v` at least `c`. -/
def Graph.Offers (g : Graph K) (st : HopState K) (v : String) (c : K) : Prop :=
  ∃ e ∈ g.edges, e.subject = v ∧ ∃ d, g.lends st e = some d ∧ c ≤ d

structure Graph.ActsAlike (g g' : Graph K) (st : HopState K) : Prop where
  black : ∀ v, v ∈ g.blacklistedThisHop st.scores ↔ v ∈ g'.blacklistedThisHop st.scores
  offers : ∀ v, v ∉ g.blacklistedThisHop st.scores → ∀ c, valueAt st.scores v < c →
    (g.Offers st v c ↔ g'.Offers st v c)

structure HopState.Agree (st st' : HopState K) : Prop where
  scores : st.scores = st'.scores
  flags : ∀ v, v ∈ st.blacklistedNodes ↔ v ∈ st'.blacklistedNodes

/-- Above what a node holds, its next score tells the offers. -/
theorem Graph.offers_iff_le_nextState (g : Graph K) (st : HopState K) {v : String} {c : K}
    (h : v ∉ g.blacklistedThisHop st.scores) (hnew : valueAt st.scores v < c) :
    g.Offers st v c ↔ c ≤ valueAt (g.nextState st).scores v := by
  constructor
  · rintro ⟨e, he, hev, d, hd, hcd⟩
    exact hcd.trans (((g.nextState_value_le_iff st v _ h).mp le_rfl).2 e he hev d hd)
  · intro hle
    rcases g.nextState_value_attained st v h with hheld | ⟨e, he, hev, hd⟩
    · exact absurd hle (hheld ▸ hnew).not_ge
    · exact ⟨e, he, hev, _, hd, hle⟩

omit [LinearOrder K] in
theorem lookup_eq_of_value {m m' : Scores K} {v : String}
    (hrow : (m.lookup v).isSome ↔ (m'.lookup v).isSome) (hvalue : valueAt m v = valueAt m' v) :
    m.lookup v = m'.lookup v := by
  unfold valueAt at hvalue
  cases h : m.lookup v with
  | none =>
    rw [h] at hrow
    symm
    simpa using hrow
  | some x =>
    rw [h] at hrow hvalue
    obtain ⟨y, hy⟩ := Option.isSome_iff_exists.mp (hrow.mp rfl)
    rw [hy] at hvalue ⊢
    exact congrArg some hvalue

variable {g g' : Graph K} {st st' : HopState K}

/-- One node after a hop, in two runs: the same entry before, the same verdict of the blacklist
and the same best offers above what it held give the same entry after. -/
theorem Graph.nextState_lookup_congr {v : String} (hheld : st.scores.lookup v = st'.scores.lookup v)
    (hblack : v ∈ g.blacklistedThisHop st.scores ↔ v ∈ g'.blacklistedThisHop st'.scores)
    (hoffers : v ∉ g.blacklistedThisHop st.scores → ∀ c, valueAt st.scores v < c →
      (g.Offers st v c ↔ g'.Offers st' v c)) :
    (g.nextState st).scores.lookup v = (g'.nextState st').scores.lookup v := by
  have hvalue : valueAt st.scores v = valueAt st'.scores v := by
    unfold valueAt
    rw [hheld]
  by_cases hb : v ∈ g.blacklistedThisHop st.scores
  · rw [g.nextState_lookup, g'.nextState_lookup, if_pos hb, if_pos (hblack.mp hb)]
  have hb' : v ∉ g'.blacklistedThisHop st'.scores := fun hmem => hb (hblack.mpr hmem)
  apply lookup_eq_of_value
  · rw [g.nextState_isSome, g'.nextState_isSome, ← hheld]
    cases hl : st.scores.lookup v with
    | some x => simp
    | none =>
      have hzero : valueAt st.scores v = 0 := by simp [valueAt, hl]
      have hpositive : ∀ (h : Graph K) (st : HopState K), (∃ e ∈ h.edges, e.subject = v ∧
          ∃ c, h.lends st e = some c ∧ 0 < c) ↔ ∃ c, 0 < c ∧ h.Offers st v c := by
        intro h st
        constructor
        · rintro ⟨e, he, hev, c, hc, hpos⟩
          exact ⟨c, hpos, e, he, hev, c, hc, le_rfl⟩
        · rintro ⟨c, hpos, e, he, hev, d, hd, hcd⟩
          exact ⟨e, he, hev, d, hd, hpos.trans_le hcd⟩
      rw [hpositive, hpositive]
      have hsame : (∃ c, 0 < c ∧ g.Offers st v c) ↔ ∃ c, 0 < c ∧ g'.Offers st' v c :=
        exists_congr fun c => and_congr_right fun hpos => hoffers hb c (hzero ▸ hpos)
      simp [hb, hb', hsame]
  · have hkept : ∀ c, valueAt st.scores v < c →
        (c ≤ valueAt (g.nextState st).scores v ↔ c ≤ valueAt (g'.nextState st').scores v) := by
      intro c hnew
      rw [← g.offers_iff_le_nextState st hb hnew, hoffers hb c hnew,
        g'.offers_iff_le_nextState st' hb' (hvalue ▸ hnew)]
    have hlow := ((g.nextState_value_le_iff st v _ hb).mp le_rfl).1
    have hlow' := ((g'.nextState_value_le_iff st' v _ hb').mp le_rfl).1
    rcases hlow.eq_or_lt with heq | hlt
    · rcases hlow'.eq_or_lt with heq' | hlt'
      · rw [← heq, ← heq', hvalue]
      · exact absurd ((hkept _ (hvalue ▸ hlt')).mpr le_rfl) (heq ▸ hvalue ▸ hlt').not_ge
    · have hle := (hkept _ hlt).mp le_rfl
      exact le_antisymm hle ((hkept _ (hlt.trans_le hle)).mpr le_rfl)

theorem Graph.ActsAlike.nextState_scores (h : g.ActsAlike g' st) :
    (g.nextState st).scores = (g'.nextState st).scores := by
  apply Finmap.ext_lookup
  intro v
  exact Graph.nextState_lookup_congr rfl (h.black v) (h.offers v)

theorem Graph.ActsAlike.agree_nextState (h : g.ActsAlike g' st) (hst : st.Agree st') :
    (g.nextState st).Agree (g'.nextState st') := by
  obtain ⟨scores, flags⟩ := st
  obtain ⟨scores', flags'⟩ := st'
  obtain ⟨hscores, hflags⟩ := hst
  cases hscores
  refine ⟨h.nextState_scores, ?_⟩
  intro v
  rw [g.nextState_blacklistedNodes, g'.nextState_blacklistedNodes, List.mem_append,
    List.mem_append, hflags v, h.black v]

/-- Graphs that act alike on every state of one of the runs. -/
theorem Graph.agree_stateAt {roots roots' : List (Root K)}
    (hroots : initialScores roots = initialScores roots')
    (n : Nat) (h : ∀ k, k < n → g.ActsAlike g' (g.stateAt roots k)) :
    (g.stateAt roots n).Agree (g'.stateAt roots' n) := by
  induction n with
  | zero => exact ⟨hroots, fun _ => Iff.rfl⟩
  | succ n ih =>
    rw [g.stateAt_succ, g'.stateAt_succ]
    exact (h n (Nat.lt_succ_self n)).agree_nextState (ih fun k hk => h k (Nat.lt_succ_of_lt hk))

theorem propagateScores_eq_stateAt (timeDecay : Edge → K) (edges : List Edge)
    (principals : List (Principal K)) (roots : List (Root K)) :
    propagateScores timeDecay edges principals roots =
      (propagateGraph timeDecay edges principals).stateAt roots maxHops :=
  Graph.hopLoop_eq_iterate _ _ _

theorem Graph.nextState_nonneg (g : Graph K) {st : HopState K} (h : ∀ v, 0 ≤ valueAt st.scores v)
    (v : String) : 0 ≤ valueAt (g.nextState st).scores v := by
  by_cases hb : v ∈ g.blacklistedThisHop st.scores
  · rw [g.nextState_value_black _ v hb]
  · exact (h v).trans ((g.nextState_value_le_iff _ v _ hb).mp le_rfl).1

section Nonneg

variable [IsStrictOrderedRing K]

theorem valueAt_initialScores_nonneg (roots : List (Root K)) (h : ∀ r ∈ roots, 0 ≤ r.weight)
    (v : String) : 0 ≤ valueAt (initialScores roots) v := by
  apply valueAt_foldl_insert_nonneg Root.id Root.initialScore
  intro r hr
  exact mul_nonneg (by norm_num) (h r hr)

theorem Graph.stateAt_nonneg (g : Graph K) (roots : List (Root K))
    (h : ∀ r ∈ roots, 0 ≤ r.weight) (k : Nat) (v : String) :
    0 ≤ valueAt (g.stateAt roots k).scores v := by
  induction k generalizing v with
  | zero => exact valueAt_initialScores_nonneg roots h v
  | succ k ih =>
    rw [g.stateAt_succ]
    exact g.nextState_nonneg ih v

end Nonneg

variable [FloorRing K]

theorem scoreRow_agree (h : st.Agree st') (kinds : Finmap fun _ : String => EntityKind) (v : String) :
    scoreRow kinds st v = scoreRow kinds st' v := by
  unfold scoreRow
  simp only [h.scores, h.flags v]

theorem propagate_eq_of_agree {timeDecay timeDecay' : Edge → K} {edges edges' : List Edge}
    {principals principals' : List (Principal K)} {roots roots' : List (Root K)}
    (evaluationTime : Time) (hkinds : kindByDID principals = kindByDID principals')
    (h : (propagateScores timeDecay edges principals roots).Agree
      (propagateScores timeDecay' edges' principals' roots')) :
    propagate timeDecay edges principals roots evaluationTime =
      propagate timeDecay' edges' principals' roots' evaluationTime := by
  have hrow : scoreRow (kindByDID principals) (propagateScores timeDecay edges principals roots) =
      scoreRow (kindByDID principals') (propagateScores timeDecay' edges' principals' roots') := by
    funext v
    rw [hkinds]
    exact scoreRow_agree h _ v
  simp only [propagate]
  rw [h.scores, hrow]

end Verilink.Trust

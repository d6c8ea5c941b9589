import Verilink.Trust.Compare

/-!
# More trust in, more trust out

Without negative claims the engine is monotone: a further claim, a fresher claim, a heavier root or
a heavier issuer never lowers a score and never removes a row.
-/

namespace Verilink.Trust

section Hops

variable {K : Type} [Field K] [LinearOrder K]

structure ScoresLe (m m' : Scores K) : Prop where
  rows : ∀ v, (m.lookup v).isSome → (m'.lookup v).isSome
  values : ∀ v, valueAt m v ≤ valueAt m' v

/-- Every edge of `g` has an edge in `g'` between the same nodes that lends at least as much. -/
def Graph.Below (g g' : Graph K) : Prop :=
  ∀ e ∈ g.edges, ∃ e' ∈ g'.edges, e'.issuer = e.issuer ∧ e'.subject = e.subject ∧
    g.gain e ≤ g'.gain e'

theorem Graph.lends_of_nonneg (g : Graph K) (hdelta : ∀ e ∈ g.edges, 0 ≤ e.score) (st : HopState K)
    (e : Edge) (c : K) :
    g.lends st e = some c ↔ ∃ s, st.scores.lookup e.issuer = some s ∧ s * g.gain e = c := by
  rw [g.lends_eq_some, g.blacklistedThisHop_of_nonneg hdelta]
  simp

variable [IsStrictOrderedRing K] {g g' : Graph K} {st st' : HopState K} {e : Edge}

theorem Graph.Below.lends_le (h : g.Below g') (hdelta : ∀ e ∈ g.edges, 0 ≤ e.score)
    (hdelta' : ∀ e ∈ g'.edges, 0 ≤ e.score) (hgain : ∀ e ∈ g.edges, 0 ≤ g.gain e)
    (hst : ScoresLe st.scores st'.scores) (hnonneg : ∀ v, 0 ≤ valueAt st.scores v)
    (he : e ∈ g.edges) {c : K} (hc : g.lends st e = some c) :
    ∃ e' ∈ g'.edges, e'.subject = e.subject ∧ ∃ c', g'.lends st' e' = some c' ∧ c ≤ c' := by
  obtain ⟨s, hs, rfl⟩ := (g.lends_of_nonneg hdelta st e c).mp hc
  obtain ⟨e', he', hissuer, hsubject, hle⟩ := h e he
  obtain ⟨s', hs'⟩ := Option.isSome_iff_exists.mp (hst.rows e.issuer (by rw [hs]; rfl))
  have hss : s ≤ s' := by
    have := hst.values e.issuer
    rwa [valueAt_of_lookup hs, valueAt_of_lookup hs'] at this
  have hs0 : 0 ≤ s := valueAt_of_lookup hs ▸ hnonneg e.issuer
  refine ⟨e', he', hsubject, s' * g'.gain e', ?_, ?_⟩
  · exact (g'.lends_of_nonneg hdelta' st' e' _).mpr ⟨s', hissuer ▸ hs', rfl⟩
  · exact mul_le_mul hss hle (hgain e he) (hs0.trans hss)

theorem Graph.Below.nextState (h : g.Below g') (hdelta : ∀ e ∈ g.edges, 0 ≤ e.score)
    (hdelta' : ∀ e ∈ g'.edges, 0 ≤ e.score) (hgain : ∀ e ∈ g.edges, 0 ≤ g.gain e)
    (hst : ScoresLe st.scores st'.scores) (hnonneg : ∀ v, 0 ≤ valueAt st.scores v) :
    ScoresLe (g.nextState st).scores (g'.nextState st').scores := by
  have hblack : ∀ v, v ∉ g.blacklistedThisHop st.scores := by
    simp [g.blacklistedThisHop_of_nonneg hdelta]
  have hblack' : ∀ v, v ∉ g'.blacklistedThisHop st'.scores := by
    simp [g'.blacklistedThisHop_of_nonneg hdelta']
  constructor
  · intro v hv
    rw [g.nextState_isSome] at hv
    rw [g'.nextState_isSome]
    rcases hv with hb | hrow | ⟨e, he, hev, c, hc, hpos⟩
    · exact absurd hb (hblack v)
    · exact Or.inr (Or.inl (hst.rows v hrow))
    · obtain ⟨e', he', hev', c', hc', hle⟩ := h.lends_le hdelta hdelta' hgain hst hnonneg he hc
      exact Or.inr (Or.inr ⟨e', he', hev'.trans hev, c', hc', hpos.trans_le hle⟩)
  · intro v
    have hself := (g'.nextState_value_le_iff st' v _ (hblack' v)).mp le_rfl
    rw [g.nextState_value_le_iff st v _ (hblack v)]
    refine ⟨(hst.values v).trans hself.1, ?_⟩
    intro e he hev c hc
    obtain ⟨e', he', hev', c', hc', hle⟩ := h.lends_le hdelta hdelta' hgain hst hnonneg he hc
    exact hle.trans (hself.2 e' he' (hev'.trans hev) c' hc')

theorem Graph.Below.stateAt (h : g.Below g') {roots roots' : List (Root K)}
    (hdelta : ∀ e ∈ g.edges, 0 ≤ e.score)
    (hdelta' : ∀ e ∈ g'.edges, 0 ≤ e.score) (hgain : ∀ e ∈ g.edges, 0 ≤ g.gain e)
    (hroot : ∀ r ∈ roots, 0 ≤ r.weight)
    (hstart : ScoresLe (initialScores roots) (initialScores roots')) (n : Nat) :
    ScoresLe (g.stateAt roots n).scores (g'.stateAt roots' n).scores := by
  induction n with
  | zero => exact hstart
  | succ n ih =>
    rw [g.stateAt_succ, g'.stateAt_succ]
    exact h.nextState hdelta hdelta' hgain ih (g.stateAt_nonneg roots hroot n)

theorem Graph.gain_le {e' : Edge} (hscore : e'.score = e.score) (hdelta : 0 ≤ e.score)
    (hdecay : 0 ≤ g.timeDecay e)
    (hdecays : g.timeDecay e ≤ g'.timeDecay e') (hweight : 0 ≤ valueAt g.weightByDID e.issuer)
    (hweights : valueAt g.weightByDID e.issuer ≤ valueAt g'.weightByDID e'.issuer) :
    g.gain e ≤ g'.gain e' := by
  have hs : (0 : K) ≤ (e.score : K) := by exact_mod_cast hdelta
  unfold Graph.gain distanceDecay
  rw [hscore]
  have hd' := hdecay.trans hdecays
  gcongr

end Hops

section Load

variable {K α : Type} [Field K] [LinearOrder K] (key : α → String) (val : α → K)

theorem scoresLe_load (pre post : List α) (x x' : α) (hkey : key x' = key x) (hval : val x ≤ val x') :
    ScoresLe ((pre ++ x :: post).foldl (fun (m : Scores K) a => m.insert (key a) (val a)) ∅)
      ((pre ++ x' :: post).foldl (fun m a => m.insert (key a) (val a)) ∅) := by
  have hinsert : ∀ (m m' : Scores K) (k : String) (a b : K), ScoresLe m m' → a ≤ b →
      ScoresLe (m.insert k a) (m'.insert k b) := by
    intro m m' k a b hm hab
    constructor
    · intro v hv
      by_cases hk : v = k
      · rw [hk, Finmap.lookup_insert]
        rfl
      · rw [Finmap.lookup_insert_of_ne _ hk] at hv ⊢
        exact hm.rows v hv
    · intro v
      by_cases hk : v = k
      · rw [hk, valueAt_insert_self, valueAt_insert_self]
        exact hab
      · rw [valueAt_insert_ne _ _ hk, valueAt_insert_ne _ _ hk]
        exact hm.values v
  have hrest : ∀ (l : List α) (m m' : Scores K), ScoresLe m m' →
      ScoresLe (l.foldl (fun m a => m.insert (key a) (val a)) m)
        (l.foldl (fun m a => m.insert (key a) (val a)) m') := by
    intro l
    induction l with
    | nil => exact fun m m' hm => hm
    | cons a l ih =>
      intro m m' hm
      exact ih _ _ (hinsert m m' (key a) (val a) (val a) hm le_rfl)
  rw [List.foldl_append, List.foldl_append, List.foldl_cons, List.foldl_cons, hkey]
  exact hrest post _ _ (hinsert _ _ _ _ _ ⟨fun _ h => h, fun _ => le_rfl⟩ hval)

end Load

section Main

variable {K : Type} [Field K] [LinearOrder K]

structure RankInput (K : Type) where
  claims : List (Option AttestationClaims)
  principals : List (Principal K)
  roots : List (Root K)

structure RankInput.Valid (a : RankInput K) : Prop where
  claims : ∀ c, some c ∈ a.claims → 0 ≤ c.trustLevelDelta
  principals : ∀ p ∈ a.principals, 0 ≤ p.trustWeight ∧ p.trustWeight ≤ 1
  roots : ∀ r ∈ a.roots, 0 ≤ r.weight ∧ r.weight ≤ 1

inductive Improves (evaluationTime : Time) : RankInput K → RankInput K → Prop
  | addClaim (pre post : List (Option AttestationClaims)) (c : AttestationClaims)
      (principals : List (Principal K)) (roots : List (Root K)) :
      Improves evaluationTime ⟨pre ++ post, principals, roots⟩
        ⟨pre ++ some c :: post, principals, roots⟩
  | freshen (pre post : List (Option AttestationClaims)) (c : AttestationClaims) (t t' : Time)
      (principals : List (Principal K)) (roots : List (Root K)) (hissued : c.issuedAt = some t)
      (hfresher : t ≤ t') (hpast : t' ≤ evaluationTime) :
      Improves evaluationTime ⟨pre ++ some c :: post, principals, roots⟩
        ⟨pre ++ some { c with issuedAt := some t' } :: post, principals, roots⟩
  | raiseRoot (claims : List (Option AttestationClaims)) (principals : List (Principal K))
      (pre post : List (Root K)) (r : Root K) (w : K) (hw : r.weight ≤ w) :
      Improves evaluationTime ⟨claims, principals, pre ++ r :: post⟩
        ⟨claims, principals, pre ++ { r with weight := w } :: post⟩
  | raiseTrust (claims : List (Option AttestationClaims)) (pre post : List (Principal K))
      (p : Principal K) (w : K) (roots : List (Root K)) (hw : p.trustWeight ≤ w) :
      Improves evaluationTime ⟨claims, pre ++ p :: post, roots⟩
        ⟨claims, pre ++ { p with trustWeight := w } :: post, roots⟩

def RankInput.edges (a : RankInput K) (evaluationTime : Time) : List Edge :=
  a.claims.filterMap (claimEdge evaluationTime)

def RankInput.graph (a : RankInput K) (decayAt : Time → Time → K) (evaluationTime : Time) :
    Graph K :=
  propagateGraph (fun e => decayAt e.timestamp evaluationTime) (a.edges evaluationTime) a.principals

variable {a : RankInput K} {evaluationTime : Time}

omit [Field K] [LinearOrder K] in
theorem RankInput.edges_nonneg (h : ∀ c, some c ∈ a.claims → 0 ≤ c.trustLevelDelta)
    (evaluationTime : Time) :
    ∀ e ∈ a.edges evaluationTime, 0 ≤ e.score := by
  intro e he
  obtain ⟨c, hc, hedge⟩ := List.mem_filterMap.mp he
  obtain ⟨x, rfl, -, -, hscore⟩ := claimEdge_eq_some hedge
  exact hscore ▸ h x hc

theorem claimEdge_of_past {t : Time} {c : AttestationClaims} (hissued : c.issuedAt = some t)
    (hpast : t ≤ evaluationTime) :
    claimEdge evaluationTime (some c) = some ⟨c.issuer, c.subject, c.trustLevelDelta, t⟩ := by
  have hskew : ¬ evaluationTime + maxClockSkew < t :=
    not_lt.mpr (hpast.trans (Int.le_add_of_nonneg_right (by decide)))
  simp [claimEdge, hissued, hskew, not_lt.mpr hpast]

theorem ScoresLe.refl (m : Scores K) : ScoresLe m m := ⟨fun _ h => h, fun _ => le_rfl⟩

theorem Graph.below_of_subset (g : Graph K) {edges' : List Edge} (h : g.edges ⊆ edges') :
    g.Below { g with edges := edges' } :=
  fun e he => ⟨e, h he, rfl, rfl, le_rfl⟩

variable [IsStrictOrderedRing K]

theorem Improves.below {decayAt : Time → Time → K} {b : RankInput K}
    (h : Improves evaluationTime a b) (ha : a.Valid) (hdecay : ∀ t, 0 < decayAt t evaluationTime)
    (hage : ∀ t t', t ≤ t' → t' ≤ evaluationTime → decayAt t evaluationTime ≤
      decayAt t' evaluationTime) :
    (a.graph decayAt evaluationTime).Below (b.graph decayAt evaluationTime) ∧
      ScoresLe (initialScores a.roots) (initialScores b.roots) := by
  have hdelta := RankInput.edges_nonneg ha.claims evaluationTime
  have hweight := valueAt_weightByDID_nonneg a.principals fun p hp => (ha.principals p hp).1
  cases h with
  | addClaim pre post c principals roots =>
    refine ⟨Graph.below_of_subset _ ?_, ScoresLe.refl _⟩
    exact ((List.sublist_cons_self _ _).append_left pre).filterMap _ |>.subset
  | freshen pre post c t t' principals roots hissued hfresher hpast =>
    refine ⟨?_, ScoresLe.refl _⟩
    have hold := claimEdge_of_past hissued (hfresher.trans hpast)
    have hnew : claimEdge evaluationTime (some { c with issuedAt := some t' }) =
        some ⟨c.issuer, c.subject, c.trustLevelDelta, t'⟩ := claimEdge_of_past rfl hpast
    intro e he
    have he' := he
    simp only [RankInput.graph, propagateGraph, RankInput.edges, List.filterMap_append,
      List.filterMap_cons_some hold, List.mem_append, List.mem_cons] at he'
    simp only [RankInput.graph, propagateGraph, RankInput.edges, List.filterMap_append,
      List.filterMap_cons_some hnew, List.mem_append, List.mem_cons]
    rcases he' with hpre | rfl | hpost
    · exact ⟨e, .inl hpre, rfl, rfl, le_rfl⟩
    · refine ⟨_, .inr (.inl rfl), rfl, rfl, ?_⟩
      exact Graph.gain_le rfl (hdelta _ he) (hdecay t).le (hage t t' hfresher hpast) (hweight _) le_rfl
    · exact ⟨e, .inr (.inr hpost), rfl, rfl, le_rfl⟩
  | raiseRoot claims principals pre post r w hw =>
    refine ⟨Graph.below_of_subset _ (List.Subset.refl _), ?_⟩
    apply scoresLe_load Root.id Root.initialScore pre post r { r with weight := w } rfl
    exact mul_le_mul_of_nonneg_left hw (by norm_num)
  | raiseTrust claims pre post p w roots hw =>
    have hweights := scoresLe_load Principal.id Principal.trustWeight pre post p
      { p with trustWeight := w } rfl hw
    refine ⟨?_, ScoresLe.refl _⟩
    intro e he
    refine ⟨e, he, rfl, rfl, ?_⟩
    exact Graph.gain_le rfl (hdelta e he) (hdecay _).le le_rfl (hweight _) (hweights.values _)

variable [FloorRing K]

/-- A further claim, a fresher claim, a heavier root or a heavier issuer keeps every row and
lowers no score. -/
theorem runVeriRank_mono (decayAt : Time → Time → K) (evaluationTime : Time) (a b : RankInput K)
    (ha : a.Valid) (hb : b.Valid) (hdecay : ∀ t, 0 < decayAt t evaluationTime)
    (hage : ∀ t t', t ≤ t' → t' ≤ evaluationTime →
      decayAt t evaluationTime ≤ decayAt t' evaluationTime)
    (h : Improves evaluationTime a b) (row : ScoreRow)
    (hrow : row ∈ (runVeriRank decayAt a.claims a.principals a.roots evaluationTime).rows) :
    (∃ row' ∈ (runVeriRank decayAt b.claims b.principals b.roots evaluationTime).rows,
      row'.principalId = row.principalId) ∧
    ∀ row' ∈ (runVeriRank decayAt b.claims b.principals b.roots evaluationTime).rows,
      row'.principalId = row.principalId → row.score ≤ row'.score := by
  obtain ⟨hbelow, hstart⟩ := h.below ha hdecay hage
  have hdelta := RankInput.edges_nonneg ha.claims evaluationTime
  have hdelta' := RankInput.edges_nonneg hb.claims evaluationTime
  have hgain : ∀ e ∈ (a.graph decayAt evaluationTime).edges,
      0 ≤ (a.graph decayAt evaluationTime).gain e := by
    intro e he
    apply Graph.gain_nonneg _ _ (hdelta e he) (hdecay e.timestamp).le
    exact valueAt_weightByDID_nonneg a.principals (fun p hp => (ha.principals p hp).1) e.issuer
  have hfinal := hbelow.stateAt hdelta hdelta' hgain (fun r hr => (ha.roots r hr).1) hstart maxHops
  obtain ⟨v, hv, rfl⟩ := (mem_propagate_rows _ _ _ _ _ row).mp hrow
  rw [propagateScores_eq_stateAt] at hv
  constructor
  · apply (propagate_has_row_iff _ _ _ _ evaluationTime v).mpr
    rw [propagateScores_eq_stateAt]
    exact hfinal.rows v hv
  · intro row' hrow' hid
    obtain ⟨u, -, rfl⟩ := (mem_propagate_rows _ _ _ _ _ row').mp hrow'
    have huv : u = v := hid
    show rowScore (valueAt _ v) ≤ rowScore (valueAt _ u)
    rw [huv, propagateScores_eq_stateAt, propagateScores_eq_stateAt]
    exact rowScore_mono (hfinal.values v)

end Main

def oneClaimInput : RankInput ℚ where
  claims := [some ⟨"r", "a", some 0, 50⟩]
  principals := [⟨"r", .issuer, 1, true⟩, ⟨"a", .agent, 1, false⟩]
  roots := [⟨"r", 1⟩]

def twoClaimInput : RankInput ℚ :=
  { oneClaimInput with claims := [some ⟨"r", "a", some 0, 50⟩, some ⟨"r", "a", some 0, 90⟩] }

theorem runVeriRank_mono_twoClaims :
    ∃ row ∈ (runVeriRank (fun _ _ => (1 : ℚ)) oneClaimInput.claims oneClaimInput.principals
        oneClaimInput.roots 0).rows,
      (∃ row' ∈ (runVeriRank (fun _ _ => (1 : ℚ)) twoClaimInput.claims twoClaimInput.principals
        twoClaimInput.roots 0).rows, row'.principalId = row.principalId) ∧
      ∀ row' ∈ (runVeriRank (fun _ _ => (1 : ℚ)) twoClaimInput.claims twoClaimInput.principals
        twoClaimInput.roots 0).rows, row'.principalId = row.principalId →
          row.score ≤ row'.score := by
  have hrow : ∃ row ∈ (runVeriRank (fun _ _ => (1 : ℚ)) oneClaimInput.claims
      oneClaimInput.principals oneClaimInput.roots 0).rows, row.principalId = "a" := by
    apply (propagate_has_row_iff _ _ _ _ 0 "a").mpr
    decide +kernel
  obtain ⟨row, hrow, -⟩ := hrow
  refine ⟨row, hrow, runVeriRank_mono _ 0 oneClaimInput twoClaimInput ?_ ?_ (by simp) (by simp)
    (Improves.addClaim [some ⟨"r", "a", some 0, 50⟩] [] ⟨"r", "a", some 0, 90⟩ _ _) row hrow⟩
  · exact ⟨by simp [oneClaimInput], by simp [oneClaimInput], by simp [oneClaimInput]⟩
  · exact ⟨by simp [twoClaimInput], by simp [twoClaimInput, oneClaimInput],
      by simp [twoClaimInput, oneClaimInput]⟩

end Verilink.Trust

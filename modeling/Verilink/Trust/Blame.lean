import Verilink.Trust.Influence

/-!
# Who can blacklist

Every score is bounded by what a node starts with or by eighty, whichever is larger, in every hop
and also after resets.
-/

namespace Verilink.Trust

section Bound

variable {K : Type} [Field K] [LinearOrder K] [IsStrictOrderedRing K]

theorem Graph.stateAt_le (g : Graph K) (roots : List (Root K)) (bound : String → K)
    (hroots : ∀ r ∈ roots, 0 ≤ r.weight) (hinit : ∀ v, valueAt (initialScores roots) v ≤ bound v)
    (hedge : ∀ e ∈ g.edges, 0 ≤ g.gain e → bound e.issuer * g.gain e ≤ bound e.subject)
    (k : Nat) (v : String) : valueAt (g.stateAt roots k).scores v ≤ bound v := by
  have hnonneg : ∀ u, 0 ≤ bound u := fun u =>
    (valueAt_initialScores_nonneg roots hroots u).trans (hinit u)
  induction k generalizing v with
  | zero => exact hinit v
  | succ k ih =>
    rw [g.stateAt_succ]
    by_cases hb : v ∈ g.blacklistedThisHop (g.stateAt roots k).scores
    · rw [g.nextState_value_black _ v hb]
      exact hnonneg v
    · rw [g.nextState_value_le_iff _ v _ hb]
      refine ⟨ih v, ?_⟩
      intro e he hev c hc
      obtain ⟨-, s, hs, rfl⟩ := (g.lends_eq_some _ e c).mp hc
      have hheld := valueAt_of_lookup hs
      have hs0 : 0 ≤ s := hheld ▸ g.stateAt_nonneg roots hroots k e.issuer
      by_cases hgain : 0 ≤ g.gain e
      · calc s * g.gain e ≤ bound e.issuer * g.gain e :=
              mul_le_mul_of_nonneg_right (hheld ▸ ih e.issuer) hgain
          _ ≤ bound v := hev ▸ hedge e he hgain
      · exact (mul_nonpos_of_nonneg_of_nonpos hs0 (not_le.mp hgain).le).trans (hnonneg v)

/-- What a node holds is at most its start, or it was lent by an edge whose issuer kept the
bound. -/
theorem Graph.stateAt_lent (g : Graph K) (roots : List (Root K)) (bound : String → K)
    (hroots : ∀ r ∈ roots, 0 ≤ r.weight)
    (hbound : ∀ k v, valueAt (g.stateAt roots k).scores v ≤ bound v) (k : Nat) (v : String) :
    valueAt (g.stateAt roots k).scores v ≤ valueAt (initialScores roots) v ∨
      ∃ e ∈ g.edges, e.subject = v ∧ ∃ s, 0 ≤ s ∧ s ≤ bound e.issuer ∧
        valueAt (g.stateAt roots k).scores v = s * g.gain e := by
  induction k with
  | zero => exact .inl le_rfl
  | succ k ih =>
    rw [g.stateAt_succ]
    by_cases hb : v ∈ g.blacklistedThisHop (g.stateAt roots k).scores
    · rw [g.nextState_value_black _ v hb]
      exact .inl (valueAt_initialScores_nonneg roots hroots v)
    · rcases g.nextState_value_attained _ v hb with hheld | ⟨e, he, hev, hlent⟩
      · rw [hheld]
        exact ih
      · obtain ⟨-, s, hs, heq⟩ := (g.lends_eq_some _ e _).mp hlent
        have hs' := valueAt_of_lookup hs
        refine .inr ⟨e, he, hev, s, ?_, ?_, heq.symm⟩
        · exact hs' ▸ g.stateAt_nonneg roots hroots k e.issuer
        · exact hs' ▸ hbound k e.issuer

omit [LinearOrder K] [IsStrictOrderedRing K] in
theorem valueAt_foldl_insert_cases {α : Type} (key : α → String) (val : α → K) (l : List α)
    (v : String) :
    valueAt (l.foldl (fun m x => m.insert (key x) (val x)) ∅) v = 0 ∨
      ∃ x ∈ l, key x = v ∧ valueAt (l.foldl (fun m x => m.insert (key x) (val x)) ∅) v = val x := by
  suffices hgen : ∀ m : Scores K, valueAt (l.foldl (fun m x => m.insert (key x) (val x)) m) v =
      valueAt m v ∨
        ∃ x ∈ l, key x = v ∧ valueAt (l.foldl (fun m x => m.insert (key x) (val x)) m) v = val x by
    rcases hgen ∅ with hempty | hentry
    · exact .inl (hempty.trans (by simp [valueAt]))
    · exact .inr hentry
  induction l with
  | nil => exact fun m => .inl rfl
  | cons x l ih =>
    intro m
    rcases ih (m.insert (key x) (val x)) with hkept | ⟨y, hy, hid, hvalue⟩
    · by_cases hv : v = key x
      · subst hv
        exact .inr ⟨x, List.mem_cons_self, rfl, hkept.trans (valueAt_insert_self _ _ _)⟩
      · exact .inl (hkept.trans (valueAt_insert_ne _ _ hv))
    · exact .inr ⟨y, List.mem_cons_of_mem _ hy, hid, hvalue⟩

end Bound

section Blame

variable {K : Type} [Field K] [LinearOrder K] [IsStrictOrderedRing K]

structure InRange (decayAt : Time → Time → K) (claims : List (Option AttestationClaims))
    (principals : List (Principal K)) (roots : List (Root K)) (evaluationTime : Time) : Prop where
  delta : ∀ c, some c ∈ claims → -100 ≤ c.trustLevelDelta ∧ c.trustLevelDelta ≤ 100
  root : ∀ r ∈ roots, 0 ≤ r.weight ∧ r.weight ≤ 1
  trust : ∀ p ∈ principals, 0 ≤ p.trustWeight ∧ p.trustWeight ≤ 1
  decay : ∀ s, 0 < decayAt s evaluationTime ∧ decayAt s evaluationTime ≤ 1

def StrongRoot (principals : List (Principal K)) (roots : List (Root K)) (id : String) : Prop :=
  ∃ r ∈ roots, r.id = id ∧
    blacklistIssuerThreshold ≤ r.initialScore * valueAt (weightByDID principals) id

/-- Trust weight one, and a claim of delta 100 without decay from a root whose weights are one. -/
def FullyEndorsed (decayAt : Time → Time → K) (claims : List (Option AttestationClaims))
    (principals : List (Principal K)) (roots : List (Root K)) (evaluationTime : Time)
    (id : String) : Prop :=
  valueAt (weightByDID principals) id = 1 ∧
    ∃ c e, some c ∈ claims ∧ claimEdge evaluationTime (some c) = some e ∧ c.subject = id ∧
      c.trustLevelDelta = 100 ∧ decayAt e.timestamp evaluationTime = 1 ∧
      valueAt (weightByDID principals) c.issuer = 1 ∧
      ∃ r ∈ roots, r.id = c.issuer ∧ r.weight = 1

theorem valueAt_weightByDID_le_one (principals : List (Principal K))
    (h : ∀ p ∈ principals, p.trustWeight ≤ 1) (id : String) :
    valueAt (weightByDID principals) id ≤ 1 := by
  rcases valueAt_foldl_insert_cases Principal.id Principal.trustWeight principals id with
    hzero | ⟨p, hp, -, hvalue⟩
  · exact hzero.trans_le zero_le_one
  · exact hvalue.trans_le (h p hp)

theorem eq_one_of_one_le_mul {a b : K} (ha : 0 ≤ a ∧ a ≤ 1) (hb : 0 ≤ b ∧ b ≤ 1)
    (h : 1 ≤ a * b) : a = 1 ∧ b = 1 := by
  constructor
  · exact le_antisymm ha.2 (h.trans (mul_le_of_le_one_right ha.1 hb.2))
  · exact le_antisymm hb.2 (h.trans (mul_le_of_le_one_left hb.1 ha.2))

theorem exists_claim_of_edge {claims : List (Option AttestationClaims)} {evaluationTime : Time}
    {e : Edge} (he : e ∈ claims.filterMap (claimEdge evaluationTime)) :
    ∃ c, some c ∈ claims ∧ claimEdge evaluationTime (some c) = some e ∧ e.issuer = c.issuer ∧
      e.subject = c.subject ∧ e.score = c.trustLevelDelta := by
  obtain ⟨c, hc, hedge⟩ := List.mem_filterMap.mp he
  obtain ⟨a, rfl, hissuer, hsubject, hscore⟩ := claimEdge_eq_some hedge
  exact ⟨a, hc, hedge, hissuer, hsubject, hscore⟩

section Range

variable {decayAt : Time → Time → K} {claims : List (Option AttestationClaims)}
  {principals : List (Principal K)} {roots : List (Root K)} {evaluationTime : Time}
  (h : InRange decayAt claims principals roots evaluationTime)

include h

theorem InRange.trustWeight (id : String) :
    0 ≤ valueAt (weightByDID principals) id ∧ valueAt (weightByDID principals) id ≤ 1 :=
  ⟨valueAt_weightByDID_nonneg principals (fun p hp => (h.trust p hp).1) id,
    valueAt_weightByDID_le_one principals (fun p hp => (h.trust p hp).2) id⟩

theorem InRange.initial_le (v : String) : valueAt (initialScores roots) v ≤ 100 := by
  rcases valueAt_foldl_insert_cases Root.id Root.initialScore roots v with
    hzero | ⟨r, hr, -, hvalue⟩
  · exact hzero.trans_le (by norm_num)
  · have hle := (h.root r hr).2
    exact hvalue.trans_le (by linarith)

theorem InRange.delta_le {e : Edge} (he : e ∈ claims.filterMap (claimEdge evaluationTime)) :
    (e.score : K) / 100 ≤ 1 := by
  obtain ⟨c, hc, -, -, -, hscore⟩ := exists_claim_of_edge he
  have hle : (e.score : K) ≤ 100 := by exact_mod_cast hscore ▸ (h.delta c hc).2
  linarith

theorem InRange.decayed (t : Time) (id : String) :
    0 ≤ decayAt t evaluationTime * valueAt (weightByDID principals) id ∧
      decayAt t evaluationTime * valueAt (weightByDID principals) id ≤ 1 := by
  have hdecay := h.decay t
  have hweight := h.trustWeight id
  exact ⟨mul_nonneg hdecay.1.le hweight.1, mul_le_one₀ hdecay.2 hweight.1 hweight.2⟩

omit h in
theorem claimGraph_gain (e : Edge) : (claimGraph decayAt claims principals evaluationTime).gain e =
    8 / 10 * ((e.score : K) / 100 * (decayAt e.timestamp evaluationTime *
      valueAt (weightByDID principals) e.issuer)) := by
  simp only [Graph.gain, claimGraph, propagateGraph, distanceDecay]
  ring

theorem InRange.gain_le {e : Edge} (he : e ∈ claims.filterMap (claimEdge evaluationTime)) :
    (claimGraph decayAt claims principals evaluationTime).gain e ≤ 8 / 10 := by
  have hrest := h.decayed e.timestamp e.issuer
  have hproduct := (mul_le_mul_of_nonneg_right (h.delta_le he) hrest.1).trans_eq (one_mul _)
  rw [claimGraph_gain]
  linarith

theorem InRange.stateAt_le (k : Nat) (v : String) :
    valueAt ((claimGraph decayAt claims principals evaluationTime).stateAt roots k).scores v ≤
        max (valueAt (initialScores roots) v) 80 := by
  apply Graph.stateAt_le _ roots _ (fun r hr => (h.root r hr).1)
  · exact fun u => le_max_left _ _
  · intro e he hgain
    have hbound : max (valueAt (initialScores roots) e.issuer) 80 ≤ 100 :=
      max_le (h.initial_le e.issuer) (by norm_num)
    calc max (valueAt (initialScores roots) e.issuer) 80 * _
        ≤ 100 * (8 / 10) := mul_le_mul hbound (h.gain_le he) hgain (by norm_num)
      _ = 80 := by norm_num
      _ ≤ max (valueAt (initialScores roots) e.subject) 80 := le_max_right _ _

theorem InRange.fully_lent {e : Edge} (he : e ∈ claims.filterMap (claimEdge evaluationTime)) {s : K}
    (hs : 0 ≤ s) (hbound : s ≤ max (valueAt (initialScores roots) e.issuer) 80)
    (hlent : 80 ≤ s * (claimGraph decayAt claims principals evaluationTime).gain e) :
    e.score = 100 ∧ decayAt e.timestamp evaluationTime = 1 ∧
      valueAt (weightByDID principals) e.issuer = 1 ∧ ∃ r ∈ roots, r.id = e.issuer ∧ r.weight = 1 := by
  have hdecay := h.decay e.timestamp
  have hweight := h.trustWeight e.issuer
  have hs100 : s ≤ 100 := hbound.trans (max_le (h.initial_le e.issuer) (by norm_num))
  have hdelta1 := h.delta_le he
  have hdelta0 : 0 ≤ (e.score : K) / 100 := by
    by_contra hneg
    have hnonpos := Graph.gain_nonpos (claimGraph decayAt claims principals evaluationTime) e
      (by
        have : (e.score : K) ≤ 0 := by linarith [not_le.mp hneg]
        exact_mod_cast this) hdecay.1.le hweight.1
    linarith [mul_nonpos_of_nonneg_of_nonpos hs hnonpos]
  -- The four factors are at most one, and their product is one.
  have hproduct : 1 ≤ s / 100 * ((e.score : K) / 100 * (decayAt e.timestamp evaluationTime *
      valueAt (weightByDID principals) e.issuer)) := by
    rw [claimGraph_gain] at hlent
    linarith
  have htail := h.decayed e.timestamp e.issuer
  obtain ⟨hsOne, hrest⟩ := eq_one_of_one_le_mul ⟨by linarith, by linarith⟩
    ⟨mul_nonneg hdelta0 htail.1, mul_le_one₀ hdelta1 htail.1 htail.2⟩ hproduct
  obtain ⟨hdeltaOne, htailOne⟩ := eq_one_of_one_le_mul ⟨hdelta0, hdelta1⟩ htail hrest.ge
  obtain ⟨hdecayOne, hweightOne⟩ := eq_one_of_one_le_mul ⟨hdecay.1.le, hdecay.2⟩ hweight htailOne.ge
  refine ⟨?_, hdecayOne, hweightOne, ?_⟩
  · have : (e.score : K) = 100 := by linarith
    exact_mod_cast this
  · have hstart : 100 ≤ valueAt (initialScores roots) e.issuer := by
      by_contra hlt
      have := max_lt (not_le.mp hlt) (by norm_num : (80 : K) < 100)
      linarith
    rcases valueAt_foldl_insert_cases Root.id Root.initialScore roots e.issuer with
      hzero | ⟨r, hr, hid, hvalue⟩
    · linarith [hzero.symm.trans_ge hstart]
    · refine ⟨r, hr, hid, le_antisymm (h.root r hr).2 ?_⟩
      linarith [hvalue.symm.trans_ge hstart]

end Range

variable [FloorRing K]

/-- Only strong roots and fully endorsed principals of full trust weight blacklist. -/
theorem blacklisted_by_full_trust (decayAt : Time → Time → K)
    (claims : List (Option AttestationClaims)) (principals : List (Principal K))
    (roots : List (Root K)) (evaluationTime : Time)
    (h : InRange decayAt claims principals roots evaluationTime) (v : String)
    (hv : (runVeriRank decayAt claims principals roots evaluationTime).Blacklists v) :
    ∃ c, some c ∈ claims ∧ c.subject = v ∧ c.trustLevelDelta < 0 ∧
      (StrongRoot principals roots c.issuer ∨
        FullyEndorsed decayAt claims principals roots evaluationTime c.issuer) := by
  let g := claimGraph decayAt claims principals evaluationTime
  obtain ⟨k, -, hblack⟩ := (propagate_blacklists_iff _ _ _ _ _ v).mp hv
  obtain ⟨e, he, hneg, hsubject, x, hx, hthreshold⟩ := (g.mem_blacklistedThisHop _ v).mp hblack
  obtain ⟨c, hc, -, hissuer, hcsubject, hscore⟩ := exists_claim_of_edge he
  refine ⟨c, hc, hcsubject.symm.trans hsubject, hscore ▸ hneg, ?_⟩
  rw [← hissuer]
  have hroots : ∀ r ∈ roots, 0 ≤ r.weight := fun r hr => (h.root r hr).1
  have hweight := h.trustWeight e.issuer
  have heighty : 80 ≤ x * valueAt (weightByDID principals) e.issuer := by
    have hcast : ((80 : Int) : K) ≤ x * valueAt (weightByDID principals) e.issuer := hthreshold
    simpa using hcast
  have hvalue : valueAt (g.stateAt roots k).scores e.issuer = x := valueAt_of_lookup hx
  rcases g.stateAt_lent roots _ hroots h.stateAt_le k e.issuer with hstart | hlent
  · -- The issuer holds no more than it started with, so it is a root.
    rw [hvalue] at hstart
    have hscaled := heighty.trans (mul_le_mul_of_nonneg_right hstart hweight.1)
    rcases valueAt_foldl_insert_cases Root.id Root.initialScore roots e.issuer with
      hzero | ⟨r, hr, hid, hroot⟩
    · rw [initialScores, hzero, zero_mul] at hscaled
      linarith
    · rw [initialScores, hroot] at hscaled
      exact .inl ⟨r, hr, hid, by simpa [blacklistIssuerThreshold] using hscaled⟩
  · obtain ⟨e', he', hsubject', s, hs, hbound, hlent⟩ := hlent
    rw [hvalue] at hlent
    have hx0 : 0 ≤ x := hvalue ▸ g.stateAt_nonneg roots hroots k e.issuer
    have hx80 : 80 ≤ s * g.gain e' := by
      rw [← hlent]
      exact heighty.trans (mul_le_of_le_one_right hx0 hweight.2)
    obtain ⟨hfull, hdecay, hissuerWeight, r, hr, hid, hone⟩ := h.fully_lent he' hs hbound hx80
    obtain ⟨c', hc', hedge', hissuer', hcsubject', hscore'⟩ := exists_claim_of_edge he'
    have hxle : x ≤ 80 := by
      rw [hlent]
      have hs100 := hbound.trans (max_le (h.initial_le e'.issuer) (by norm_num : (80 : K) ≤ 100))
      nlinarith [h.gain_le he']
    refine .inr ⟨le_antisymm hweight.2 ?_, c', e', hc', hedge', hcsubject'.symm.trans hsubject',
      hscore' ▸ hfull, hdecay, hissuer' ▸ hissuerWeight, r, hr, hid.trans hissuer', hone⟩
    nlinarith [hweight.1]

/-- The endorsed `b` reports the root `p`. -/
theorem blacklisted_by_full_trust_lateReport :
    (runVeriRank (fun _ _ => (1 : ℚ)) lateReportClaims lateReportPrincipals lateReportRoots
      0).Blacklists "p" ∧
    ∃ c, some c ∈ lateReportClaims ∧ c.subject = "p" ∧ c.trustLevelDelta < 0 ∧
      (StrongRoot lateReportPrincipals lateReportRoots c.issuer ∨
        FullyEndorsed (fun _ _ => (1 : ℚ)) lateReportClaims lateReportPrincipals lateReportRoots 0
          c.issuer) :=
  ⟨lateReport_blacklists, blacklisted_by_full_trust (fun _ _ => 1) lateReportClaims
    lateReportPrincipals lateReportRoots 0
    ⟨by simp [lateReportClaims], by simp [lateReportRoots], by simp [lateReportPrincipals],
      fun _ => ⟨one_pos, le_rfl⟩⟩ "p" lateReport_blacklists⟩

/-- A hop loses a fifth, so only roots stand above 80, and none above its own weight. -/
theorem runVeriRank_score_le (decayAt : Time → Time → K) (claims : List (Option AttestationClaims))
    (principals : List (Principal K)) (roots : List (Root K)) (evaluationTime : Time)
    (h : InRange decayAt claims principals roots evaluationTime) {row : ScoreRow}
    (hrow : row ∈ (runVeriRank decayAt claims principals roots evaluationTime).rows) :
    row.score ≤ 80 ∨ ∃ r ∈ roots, r.id = row.principalId ∧ row.score ≤ rowScore (100 * r.weight) := by
  obtain ⟨v, -, rfl⟩ := (mem_propagate_rows _ _ _ _ _ _).mp hrow
  have heighty : ∀ x : K, x ≤ 80 → rowScore x ≤ 80 := by
    intro x hx
    refine (rowScore_mono hx).trans_eq ?_
    rw [rowScore_eq_floor, Int.floor_eq_iff]
    norm_num
  have hle : valueAt (propagateScores (fun e => decayAt e.timestamp evaluationTime)
      (claims.filterMap (claimEdge evaluationTime)) principals roots).scores v ≤
        max (valueAt (initialScores roots) v) 80 := by
    rw [propagateScores, Graph.hopLoop_eq_iterate]
    exact h.stateAt_le maxHops v
  rcases le_max_iff.mp hle with hstart | hlent
  · rcases valueAt_foldl_insert_cases Root.id Root.initialScore roots v with hzero | ⟨r, hr, hid, hvalue⟩
    · exact .inl (heighty _ (hstart.trans (hzero.trans_le (by norm_num))))
    · exact .inr ⟨r, hr, hid, rowScore_mono (hstart.trans_eq hvalue)⟩
  · exact .inl (heighty _ hlent)

theorem runVeriRank_score_le_lateReport : ∃ row ∈ (runVeriRank (fun _ _ => (1 : ℚ)) lateReportClaims
    lateReportPrincipals lateReportRoots
      0).rows, row.score ≤ 80 ∨ ∃ r ∈ lateReportRoots, r.id = row.principalId ∧
      row.score ≤ rowScore (100 * r.weight) := by
  obtain ⟨row, hrow, -⟩ := lateReport_blacklists
  exact ⟨row, hrow,
    runVeriRank_score_le _ _ _ _ _ ⟨by simp [lateReportClaims], by simp [lateReportRoots],
    by simp [lateReportPrincipals], fun _ => ⟨one_pos, le_rfl⟩⟩ hrow⟩

end Blame

end Verilink.Trust

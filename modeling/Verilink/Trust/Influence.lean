import Verilink.Trust.Compare

/-!
# Who influences whom

Claims that offer nothing and blacklist nobody can be removed without a trace.
-/

namespace Verilink.Trust

theorem filterMap_claimEdge_filter (evaluationTime : Time) (claims : List (Option AttestationClaims))
    (keep : Option AttestationClaims → Bool) (keepEdge : Edge → Bool)
    (h : ∀ c e, claimEdge evaluationTime c = some e → keep c = keepEdge e) :
    (claims.filter keep).filterMap (claimEdge evaluationTime) =
      (claims.filterMap (claimEdge evaluationTime)).filter keepEdge := by
  induction claims with
  | nil => rfl
  | cons c claims ih =>
    cases hc : claimEdge evaluationTime c with
    | none =>
      rw [List.filterMap_cons_none hc]
      by_cases hk : keep c
      · rw [List.filter_cons_of_pos hk, List.filterMap_cons_none hc, ih]
      · rw [List.filter_cons_of_neg hk, ih]
    | some e =>
      rw [List.filterMap_cons_some hc]
      by_cases hk : keep c
      · have hke : keepEdge e = true := h c e hc ▸ hk
        rw [List.filter_cons_of_pos hk, List.filterMap_cons_some hc, List.filter_cons_of_pos hke, ih]
      · have hke : ¬ keepEdge e = true := h c e hc ▸ hk
        rw [List.filter_cons_of_neg hk, List.filter_cons_of_neg hke, ih]

section Remove

variable {K : Type} [Field K] [LinearOrder K]

def Graph.keep (g : Graph K) (p : Edge → Bool) : Graph K :=
  { g with edges := g.edges.filter p }

theorem Graph.mem_blacklistedThisHop_keep (g : Graph K) (p : Edge → Bool) (scores : Scores K)
    (hblack : ∀ e ∈ g.edges, p e = false → e.score < 0 → ∀ x, scores.lookup e.issuer = some x →
      x * valueAt g.weightByDID e.issuer < (blacklistIssuerThreshold : K)) (v : String) :
    v ∈ g.blacklistedThisHop scores ↔ v ∈ (g.keep p).blacklistedThisHop scores := by
  rw [Graph.mem_blacklistedThisHop, Graph.mem_blacklistedThisHop]
  constructor
  · rintro ⟨e, he, hneg, hev, x, hx, hge⟩
    have hkept : p e = true := by
      by_contra hdrop
      exact (hblack e he (by simpa using hdrop) hneg x hx).not_ge hge
    exact ⟨e, List.mem_filter.mpr ⟨he, hkept⟩, hneg, hev, x, hx, hge⟩
  · rintro ⟨e, he, hrest⟩
    exact ⟨e, (List.mem_filter.mp he).1, hrest⟩

variable {g : Graph K} {p : Edge → Bool} {st : HopState K}

theorem Graph.lends_keep
    (hsame : ∀ v, v ∈ g.blacklistedThisHop st.scores ↔ v ∈ (g.keep p).blacklistedThisHop st.scores)
    (e : Edge) : (g.keep p).lends st e = g.lends st e := by
  unfold Graph.lends Graph.contribution
  simp only [hsame]
  rfl

/-- A dropped edge offers more than is held already and than every edge that is kept. -/
def Graph.Missed (g : Graph K) (p : Edge → Bool) (st : HopState K) : Prop :=
  ∃ e ∈ g.edges, p e = false ∧ e.subject ∉ g.blacklistedThisHop st.scores ∧
    ∃ c ∈ g.lends st e, valueAt st.scores e.subject < c ∧
      ∀ f ∈ g.edges, p f = true → f.subject = e.subject → ∀ d ∈ g.lends st f, d < c

instance (g : Graph K) (p : Edge → Bool) (st : HopState K) : Decidable (g.Missed p st) :=
  inferInstanceAs (Decidable (∃ e ∈ g.edges, p e = false ∧
    e.subject ∉ g.blacklistedThisHop st.scores ∧ ∃ c ∈ g.lends st e, valueAt st.scores e.subject < c ∧
      ∀ f ∈ g.edges, p f = true → f.subject = e.subject → ∀ d ∈ g.lends st f, d < c))

/-- Dropped edges that blacklist nobody leave no trace in a hop exactly when none is missed. -/
theorem Graph.actsAlike_keep_iff
    (hsame : ∀ v, v ∈ g.blacklistedThisHop st.scores ↔ v ∈ (g.keep p).blacklistedThisHop st.scores) :
    g.ActsAlike (g.keep p) st ↔ ¬ g.Missed p st := by
  constructor
  · rintro ⟨-, hoffers⟩ ⟨e, he, hdrop, hfree, c, hc, hnew, hbest⟩
    obtain ⟨f, hf, hfv, d, hd, hcd⟩ :=
      (hoffers e.subject hfree c hnew).mp ⟨e, he, rfl, c, hc, le_rfl⟩
    obtain ⟨hf, hkept⟩ := List.mem_filter.mp hf
    rw [Graph.lends_keep hsame] at hd
    exact (hbest f hf hkept hfv d hd).not_ge hcd
  · intro hmissed
    refine ⟨hsame, ?_⟩
    intro v hfree c hnew
    constructor
    · rintro ⟨e, he, rfl, d, hd, hcd⟩
      by_contra hnone
      have hlow : ∀ f ∈ g.edges, p f = true → f.subject = e.subject →
          ∀ d, g.lends st f = some d → d < c := by
        intro f hf hkept hfv d' hd'
        by_contra hge
        exact hnone ⟨f, List.mem_filter.mpr ⟨hf, hkept⟩, hfv, d',
          (Graph.lends_keep hsame f).trans hd', not_lt.mp hge⟩
      have hdrop : p e = false := by
        by_contra hkept
        exact (hlow e he (by simpa using hkept) rfl d hd).not_ge hcd
      exact hmissed ⟨e, he, hdrop, hfree, d, hd, hnew.trans_le hcd,
        fun f hf hkept hfv d' hd' => (hlow f hf hkept hfv d' hd').trans_le hcd⟩
    · rintro ⟨e, he, hev, d, hd, hcd⟩
      exact ⟨e, (List.mem_filter.mp he).1, hev, d, (Graph.lends_keep hsame e).symm.trans hd, hcd⟩

variable [IsStrictOrderedRing K]

theorem Graph.gain_nonpos (g : Graph K) (e : Edge) (hdelta : e.score ≤ 0)
    (hdecay : 0 ≤ g.timeDecay e) (hweight : 0 ≤ valueAt g.weightByDID e.issuer) :
    g.gain e ≤ 0 := by
  have hscore : (e.score : K) ≤ 0 := by exact_mod_cast hdelta
  have hrest : 0 ≤ distanceDecay * g.timeDecay e * valueAt g.weightByDID e.issuer := by
    unfold distanceDecay
    positivity
  have hgain : g.gain e = (e.score : K) / 100 *
      (distanceDecay * g.timeDecay e * valueAt g.weightByDID e.issuer) := by
    unfold Graph.gain
    ring
  rw [hgain]
  exact mul_nonpos_of_nonpos_of_nonneg (div_nonpos_of_nonpos_of_nonneg hscore (by norm_num)) hrest

end Remove

section Cluster

variable {K : Type} [Field K] [LinearOrder K] [IsStrictOrderedRing K]

/-- A set of nodes without roots that gets positive claims from its own members only. -/
structure Graph.Unrooted (g : Graph K) (roots : List (Root K)) (U : Set String) : Prop where
  no_root : ∀ r ∈ roots, r.id ∉ U
  inside : ∀ e ∈ g.edges, e.subject ∈ U → 0 < e.score → e.issuer ∈ U

omit [LinearOrder K] [IsStrictOrderedRing K] in
theorem valueAt_initialScores_of_no_root (roots : List (Root K)) (v : String)
    (h : ∀ r ∈ roots, r.id ≠ v) : valueAt (initialScores roots) v = 0 := by
  have hnone : (initialScores roots).lookup v = none := by
    by_contra hsome
    obtain ⟨r, hr, hid⟩ :=
      List.mem_map.mp (initialScores_isSome roots v (Option.isSome_iff_ne_none.mpr hsome))
    exact h r hr hid
  simp [valueAt, hnone]

theorem Graph.Unrooted.value_zero {g : Graph K} {roots : List (Root K)} {U : Set String}
    (h : g.Unrooted roots U) (hroot : ∀ r ∈ roots, 0 ≤ r.weight)
    (hdecay : ∀ e ∈ g.edges, 0 ≤ g.timeDecay e) (hweight : ∀ u, 0 ≤ valueAt g.weightByDID u)
    (k : Nat) (u : String) (hu : u ∈ U) : valueAt (g.stateAt roots k).scores u = 0 := by
  induction k generalizing u with
  | zero =>
    apply valueAt_initialScores_of_no_root
    intro r hr hid
    exact h.no_root r hr (hid ▸ hu)
  | succ k ih =>
    rw [g.stateAt_succ]
    by_cases hb : u ∈ g.blacklistedThisHop (g.stateAt roots k).scores
    · exact g.nextState_value_black _ u hb
    · apply le_antisymm
      · rw [g.nextState_value_le_iff _ u 0 hb]
        refine ⟨(ih u hu).le, ?_⟩
        intro e he hev c hc
        obtain ⟨-, x, hx, rfl⟩ := (g.lends_eq_some _ e c).mp hc
        have hheld := valueAt_of_lookup hx
        by_cases hpos : 0 < e.score
        · rw [← hheld, ih e.issuer (h.inside e he (hev ▸ hu) hpos), zero_mul]
        · have hgain := g.gain_nonpos e (not_lt.mp hpos) (hdecay e he) (hweight e.issuer)
          exact mul_nonpos_of_nonneg_of_nonpos (hheld ▸ g.stateAt_nonneg roots hroot k e.issuer) hgain
      · rw [← g.stateAt_succ]
        exact g.stateAt_nonneg roots hroot (k + 1) u

theorem Graph.Unrooted.actsAlike {g : Graph K} {roots : List (Root K)} {U : Set String}
    [DecidablePred (· ∈ U)] (h : g.Unrooted roots U) (hroot : ∀ r ∈ roots, 0 ≤ r.weight)
    (hdecay : ∀ e ∈ g.edges, 0 ≤ g.timeDecay e) (hweight : ∀ u, 0 ≤ valueAt g.weightByDID u)
    (k : Nat) : g.ActsAlike (g.keep fun e => e.issuer ∉ U) (g.stateAt roots k) := by
  have hzero : ∀ e ∈ g.edges, decide (e.issuer ∉ U) = false → ∀ x,
      (g.stateAt roots k).scores.lookup e.issuer = some x → x = 0 := by
    intro e he hin x hx
    rw [← valueAt_of_lookup hx]
    exact h.value_zero hroot hdecay hweight k e.issuer (by simpa using hin)
  rw [Graph.actsAlike_keep_iff]
  · rintro ⟨e, he, hin, -, c, hc, hnew, -⟩
    obtain ⟨-, x, hx, rfl⟩ := (g.lends_eq_some _ e c).mp hc
    rw [hzero e he hin x hx, zero_mul] at hnew
    exact hnew.not_ge (g.stateAt_nonneg roots hroot k e.subject)
  · apply g.mem_blacklistedThisHop_keep
    intro e he hin _ x hx
    rw [hzero e he hin x hx, zero_mul]
    norm_num [blacklistIssuerThreshold]

variable [FloorRing K]

/-- Removing every claim that members of an unrooted set make changes no row, and a row of a
member has score zero. -/
theorem runVeriRank_unrooted_cluster (decayAt : Time → Time → K)
    (claims : List (Option AttestationClaims)) (principals : List (Principal K))
    (roots : List (Root K)) (evaluationTime : Time) (U : Set String) [DecidablePred (· ∈ U)]
    (hroot : ∀ r ∈ roots, 0 ≤ r.weight ∧ r.weight ≤ 1)
    (htrust : ∀ p ∈ principals, 0 ≤ p.trustWeight ∧ p.trustWeight ≤ 1)
    (hdecay : ∀ t, 0 < decayAt t evaluationTime)
    (hno : ∀ r ∈ roots, r.id ∉ U)
    (hinside : ∀ c, some c ∈ claims → c.subject ∈ U → 0 < c.trustLevelDelta → c.issuer ∈ U) :
    runVeriRank decayAt (claims.filter fun c => ∀ a ∈ c, a.issuer ∉ U) principals roots
        evaluationTime =
      runVeriRank decayAt claims principals roots evaluationTime ∧
    ∀ row ∈ (runVeriRank decayAt claims principals roots evaluationTime).rows,
      row.principalId ∈ U → row.score = 0 := by
  let g := propagateGraph (fun e => decayAt e.timestamp evaluationTime)
    (claims.filterMap (claimEdge evaluationTime)) principals
  have hunrooted : g.Unrooted roots U := by
    refine ⟨hno, ?_⟩
    intro e he hsubject hpos
    obtain ⟨c, hc, hedge⟩ := List.mem_filterMap.mp he
    obtain ⟨a, rfl, hissuer, hsub, hscore⟩ := claimEdge_eq_some hedge
    rw [hissuer]
    exact hinside a hc (hsub ▸ hsubject) (hscore ▸ hpos)
  have hdecay' : ∀ e ∈ g.edges, 0 ≤ g.timeDecay e := fun e _ => (hdecay e.timestamp).le
  have hweight : ∀ u, 0 ≤ valueAt g.weightByDID u :=
    valueAt_weightByDID_nonneg principals fun p hp => (htrust p hp).1
  have hroot' : ∀ r ∈ roots, 0 ≤ r.weight := fun r hr => (hroot r hr).1
  constructor
  · symm
    apply propagate_eq_of_agree evaluationTime rfl
    rw [propagateScores_eq_stateAt, propagateScores_eq_stateAt,
      filterMap_claimEdge_filter evaluationTime claims _ (fun e => e.issuer ∉ U)]
    · exact Graph.agree_stateAt rfl maxHops fun k _ => hunrooted.actsAlike hroot' hdecay' hweight k
    · intro c e hedge
      obtain ⟨a, rfl, hissuer, -, -⟩ := claimEdge_eq_some hedge
      simp [hissuer]
  · intro row hrow hmem
    obtain ⟨v, -, rfl⟩ := (mem_propagate_rows _ _ _ _ _ row).mp hrow
    show rowScore (valueAt _ v) = 0
    rw [propagateScores_eq_stateAt, hunrooted.value_zero hroot' hdecay' hweight maxHops v hmem,
      rowScore_eq_zero_iff]
    norm_num

def sybils : Set String := {v | v = "s" ∨ v = "t"}

instance : DecidablePred (· ∈ sybils) := fun v => inferInstanceAs (Decidable (v = "s" ∨ v = "t"))

def sybilClaims : List (Option AttestationClaims) :=
  [some ⟨"s", "t", some 0, 100⟩, some ⟨"t", "s", some 0, 100⟩, some ⟨"s", "a", some 0, 100⟩,
    some ⟨"r", "s", some 0, -100⟩, some ⟨"r", "a", some 0, 50⟩]

def sybilPrincipals : List (Principal ℚ) :=
  [⟨"r", .issuer, 1, true⟩, ⟨"s", .both, 1, false⟩, ⟨"t", .both, 1, false⟩, ⟨"a", .agent, 1, false⟩]

theorem runVeriRank_unrooted_cluster_sybils :
    runVeriRank (fun _ _ => (1 : ℚ)) (sybilClaims.filter fun c => ∀ a ∈ c, a.issuer ∉ sybils)
        sybilPrincipals [⟨"r", 1⟩] 0 =
      runVeriRank (fun _ _ => 1) sybilClaims sybilPrincipals [⟨"r", 1⟩] 0 ∧
    ∀ row ∈ (runVeriRank (fun _ _ => (1 : ℚ)) sybilClaims sybilPrincipals [⟨"r", 1⟩] 0).rows,
      row.principalId ∈ sybils → row.score = 0 :=
  runVeriRank_unrooted_cluster _ sybilClaims sybilPrincipals [⟨"r", 1⟩] 0 sybils (by simp)
    (by simp [sybilPrincipals]) (by simp) (by decide)
    (by simp [sybilClaims, sybils])

end Cluster

section Endorser

variable {K : Type} [Field K] [LinearOrder K]

/-- The edge is not a positive claim of `P`. -/
def notEndorsedBy (P : String) (e : Edge) : Bool := ¬ (e.issuer = P ∧ 0 < e.score)

/-- A positive claim of `P` offers its subject more than the subject holds and more than every other
claim offers it. A claim offers nothing in a hop that blacklists its issuer, and the subject is not
one that the hop resets to zero. -/
def Graph.LoanTaken (g : Graph K) (P : String) (st : HopState K) : Prop :=
  g.Missed (notEndorsedBy P) st

theorem Graph.mem_blacklistedThisHop_without (g : Graph K) (P : String) (scores : Scores K)
    (v : String) :
    v ∈ g.blacklistedThisHop scores ↔ v ∈ (g.keep (notEndorsedBy P)).blacklistedThisHop scores := by
  apply g.mem_blacklistedThisHop_keep
  intro e _ hdrop hneg
  simp [notEndorsedBy, hneg.le] at hdrop

/-- No loan is taken in any hop exactly when the run without the endorsements goes the same way. -/
theorem Graph.no_loan_iff_agree (g : Graph K) (roots : List (Root K)) (P : String) (n : Nat) :
    (∀ k, k < n → ¬ g.LoanTaken P (g.stateAt roots k)) ↔
      ∀ k, k ≤ n → (g.stateAt roots k).Agree ((g.keep (notEndorsedBy P)).stateAt roots k) := by
  have hacts : ∀ st, g.ActsAlike (g.keep (notEndorsedBy P)) st ↔ ¬ g.LoanTaken P st := fun st =>
    Graph.actsAlike_keep_iff (g.mem_blacklistedThisHop_without P st.scores)
  constructor
  · intro hnone k hk
    exact Graph.agree_stateAt rfl k fun j hj => (hacts _).mpr (hnone j (hj.trans_le hk))
  · intro hagree k hk
    rw [← hacts]
    refine ⟨g.mem_blacklistedThisHop_without P _, ?_⟩
    intro v hfree c hnew
    -- after the hop the two runs hold the same, so they were offered the same
    have hheld := (hagree k hk.le).scores
    have hnext := (hagree (k + 1) hk).scores
    rw [g.stateAt_succ, Graph.stateAt_succ] at hnext
    have hstep : ((g.keep (notEndorsedBy P)).nextState (g.stateAt roots k)).scores =
        ((g.keep (notEndorsedBy P)).nextState
          ((g.keep (notEndorsedBy P)).stateAt roots k)).scores := by
      unfold Graph.nextState Graph.hop
      rw [hheld]
    rw [g.offers_iff_le_nextState _ hfree hnew, Graph.offers_iff_le_nextState _ _
      (mt (g.mem_blacklistedThisHop_without P _ v).mpr hfree) hnew, hnext, hstep]

variable [FloorRing K]

def ScoreTable.Blacklists (table : ScoreTable) (P : String) : Prop :=
  ∃ row ∈ table.rows, row.principalId = P ∧ row.blacklisted = true

theorem propagate_blacklists_iff (timeDecay : Edge → K) (edges : List Edge)
    (principals : List (Principal K)) (roots : List (Root K)) (evaluationTime : Time) (P : String) :
    (propagate timeDecay edges principals roots evaluationTime).Blacklists P ↔
      ∃ k, k < maxHops ∧ (propagateGraph timeDecay edges principals).BlacklistedAt roots k P := by
  let g := propagateGraph timeDecay edges principals
  have hfinal := propagateScores_eq_stateAt timeDecay edges principals roots
  constructor
  · intro ⟨row, hrow, hid, hflag⟩
    obtain ⟨v, -, rfl⟩ := (mem_propagate_rows timeDecay edges principals roots _ row).mp hrow
    have hv : v = P := hid
    rw [hfinal] at hflag
    rw [← hv]
    exact (g.mem_blacklistedNodes_stateAt roots maxHops v).mp (of_decide_eq_true hflag)
  · intro ⟨k, hk, hb⟩
    have hrow : ((g.stateAt roots maxHops).scores.lookup P).isSome := by
      have hnext : ((g.stateAt roots (k + 1)).scores.lookup P).isSome := by
        rw [g.stateAt_succ, g.nextState_isSome]
        exact Or.inl hb
      exact g.isSome_stateAt_mono roots P hk hnext
    refine ⟨_, (mem_propagate_rows timeDecay edges principals roots evaluationTime _).mpr
      ⟨P, hfinal ▸ hrow, rfl⟩, rfl, ?_⟩
    rw [hfinal]
    exact decide_eq_true ((g.mem_blacklistedNodes_stateAt roots maxHops P).mpr ⟨k, hk, hb⟩)

def withoutEndorsements (P : String) (claims : List (Option AttestationClaims)) :
    List (Option AttestationClaims) :=
  claims.filter fun c => ∀ a ∈ c, ¬ (a.issuer = P ∧ 0 < a.trustLevelDelta)

def ScoreTable.othersThan (table : ScoreTable) (P : String) : List ScoreRow :=
  table.rows.filter fun row => row.principalId ≠ P

theorem filterMap_withoutEndorsements (evaluationTime : Time) (P : String)
    (claims : List (Option AttestationClaims)) :
    (withoutEndorsements P claims).filterMap (claimEdge evaluationTime) =
      (claims.filterMap (claimEdge evaluationTime)).filter (notEndorsedBy P) := by
  apply filterMap_claimEdge_filter
  intro c e hedge
  obtain ⟨a, rfl, hissuer, -, hscore⟩ := claimEdge_eq_some hedge
  simp [notEndorsedBy, hissuer, hscore]

def claimGraph (decayAt : Time → Time → K) (claims : List (Option AttestationClaims))
    (principals : List (Principal K)) (evaluationTime : Time) : Graph K :=
  propagateGraph (fun e => decayAt e.timestamp evaluationTime)
    (claims.filterMap (claimEdge evaluationTime)) principals

def NoLoanTaken (decayAt : Time → Time → K) (claims : List (Option AttestationClaims))
    (principals : List (Principal K)) (roots : List (Root K)) (evaluationTime : Time) (P : String) :
    Prop :=
  ∀ k < maxHops, ¬ (claimGraph decayAt claims principals evaluationTime).LoanTaken P
    ((claimGraph decayAt claims principals evaluationTime).stateAt roots k)

/-- The root `p` vouches for `a` in the first hop; `b`, raised by the root `r` in that hop,
reports `p` in the second. -/
def lateReportClaims : List (Option AttestationClaims) :=
  [some ⟨"p", "a", some 0, 100⟩, some ⟨"r", "b", some 0, 100⟩, some ⟨"b", "p", some 0, -100⟩]

def lateReportPrincipals : List (Principal ℚ) :=
  [⟨"p", .issuer, 1, true⟩, ⟨"r", .issuer, 1, true⟩, ⟨"b", .issuer, 1, false⟩,
    ⟨"a", .agent, 1, false⟩]

def lateReportRoots : List (Root ℚ) := [⟨"p", 1⟩, ⟨"r", 1⟩]

theorem blacklists_of_late (claims : List (Option AttestationClaims))
    (h : "p" ∈ (claimGraph (fun _ _ => (1 : ℚ)) claims lateReportPrincipals 0).blacklistedThisHop
      ((claimGraph (fun _ _ => (1 : ℚ)) claims lateReportPrincipals 0).stateAt lateReportRoots
        1).scores) :
    (runVeriRank (fun _ _ => (1 : ℚ)) claims lateReportPrincipals lateReportRoots 0).Blacklists "p" :=
  (propagate_blacklists_iff _ _ _ _ _ "p").mpr ⟨1, by decide, h⟩

theorem lateReport_blacklists : (runVeriRank (fun _ _ => (1 : ℚ)) lateReportClaims
    lateReportPrincipals lateReportRoots 0).Blacklists "p" :=
  blacklists_of_late _ (by decide +kernel)

end Endorser

end Verilink.Trust

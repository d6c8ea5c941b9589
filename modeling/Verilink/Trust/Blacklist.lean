import Verilink.Trust.Reach

/-!
# Blacklist flags and scores

A blacklisted node is reset to zero in the hop that blacklists it, and its flag is sticky.
-/

namespace Verilink.Trust

variable {K : Type} [Field K] [LinearOrder K]

def Graph.stateAt (g : Graph K) (roots : List (Root K)) (k : Nat) : HopState K :=
  g.nextState^[k] ⟨initialScores roots, []⟩

def Graph.BlacklistedAt (g : Graph K) (roots : List (Root K)) (k : Nat) (v : String) : Prop :=
  v ∈ g.blacklistedThisHop (g.stateAt roots k).scores

theorem Graph.stateAt_succ (g : Graph K) (roots : List (Root K)) (k : Nat) :
    g.stateAt roots (k + 1) = g.nextState (g.stateAt roots k) :=
  Function.iterate_succ_apply' _ _ _

theorem Graph.mem_blacklistedNodes_stateAt (g : Graph K) (roots : List (Root K)) (n : Nat) (v : String) :
    v ∈ (g.stateAt roots n).blacklistedNodes ↔ ∃ k, k < n ∧ g.BlacklistedAt roots k v := by
  induction n with
  | zero => simp [Graph.stateAt]
  | succ n ih =>
    rw [g.stateAt_succ, g.nextState_blacklistedNodes, List.mem_append, ih]
    constructor
    · rintro (⟨k, hk, hb⟩ | hb)
      · exact ⟨k, by omega, hb⟩
      · exact ⟨n, by omega, hb⟩
    · rintro ⟨k, hk, hb⟩
      by_cases hkn : k = n
      · exact Or.inr (hkn ▸ hb)
      · exact Or.inl ⟨k, by omega, hb⟩

theorem Graph.isSome_stateAt_mono (g : Graph K) (roots : List (Root K)) (v : String) {m n : Nat}
    (hmn : m ≤ n) (h : ((g.stateAt roots m).scores.lookup v).isSome) :
    ((g.stateAt roots n).scores.lookup v).isSome := by
  induction n, hmn using Nat.le_induction with
  | base => exact h
  | succ n _ ih =>
    rw [g.stateAt_succ, g.nextState_isSome]
    exact Or.inr (Or.inl ih)

theorem exists_last_below {P : Nat → Prop} {n k : Nat} (hk : k < n) (h : P k) :
    ∃ m, m < n ∧ P m ∧ ∀ j, m < j → j < n → ¬ P j := by
  induction n with
  | zero => omega
  | succ n ih =>
    by_cases hn : P n
    · exact ⟨n, by omega, hn, fun j hj hj' => by omega⟩
    · have hkn : k < n := by
        by_contra hge
        have : k = n := by omega
        exact hn (this ▸ h)
      obtain ⟨m, hm, hPm, hlast⟩ := ih hkn
      refine ⟨m, by omega, hPm, ?_⟩
      intro j hj hj' hPj
      by_cases hjn : j = n
      · exact hn (hjn ▸ hPj)
      · exact hlast j hj (by omega) hPj

theorem Graph.value_lt_iff_since_blacklisted (g : Graph K) (roots : List (Root K)) (v : String)
    (k n : Nat) (hkn : k < n) (hblack : g.BlacklistedAt roots k v)
    (hlast : ∀ j, k < j → j < n → ¬ g.BlacklistedAt roots j v) (x : K) (hx : 0 < x) :
    valueAt (g.stateAt roots n).scores v < x ↔ ∀ j, k < j → j < n → ∀ e ∈ g.edges, e.subject = v → ∀ c,
        g.lends (g.stateAt roots j) e = some c → c < x := by
  induction n with
  | zero => omega
  | succ n ih =>
    rw [g.stateAt_succ]
    by_cases hk : k = n
    · subst hk
      rw [g.nextState_value_black _ v hblack]
      exact ⟨fun _ j hj hj' => by omega, fun _ => hx⟩
    · have hkn' : k < n := by omega
      have hnot := hlast n hkn' (by omega)
      have hrec := ih hkn' (fun j hj hj' => hlast j hj (by omega))
      have hle := (g.nextState_value_le_iff _ v _ hnot).mp le_rfl
      constructor
      · intro hlt j hj hj' e he hev c hc
        by_cases hjn : j = n
        · subst hjn
          exact (hle.2 e he hev c hc).trans_lt hlt
        · exact hrec.mp (hle.1.trans_lt hlt) j hj (by omega) e he hev c hc
      · intro hall
        rcases g.nextState_value_attained _ v hnot with h | ⟨e, he, hev, hc⟩
        · rw [h]
          apply hrec.mpr
          intro j hj hj'
          exact hall j hj (by omega)
        · exact hall n hkn' (by omega) e he hev _ hc

/-- After its last blacklisting a node is offered less than half a point by every claim about
it. A claim offers nothing while its issuer is blacklisted. -/
def Graph.NoTrustAfterBlacklist (g : Graph K) (roots : List (Root K)) : Prop :=
  ∀ v k, k < maxHops → g.BlacklistedAt roots k v →
    (∀ j, k < j → j < maxHops → ¬ g.BlacklistedAt roots j v) →
    ∀ j, k < j → j < maxHops → ∀ e ∈ g.edges, e.subject = v → ∀ c,
      g.lends (g.stateAt roots j) e = some c → BelowHalf c

variable [IsStrictOrderedRing K] [FloorRing K]

theorem rowScore_eq_zero_iff (x : K) : rowScore x = 0 ↔ x < 1 / 2 := by
  rw [rowScore_eq_floor, Int.floor_eq_zero_iff, Set.mem_Ico]
  have hlow : 0 ≤ max 0 (min x 100) := le_max_left _ _
  constructor
  · intro h
    have hmax : max 0 (min x 100) < 1 / 2 := by linarith [h.2]
    have hmin : min x 100 < 1 / 2 := (le_max_right _ _).trans_lt hmax
    rcases min_lt_iff.mp hmin with hx | h100
    · exact hx
    · norm_num at h100
  · intro h
    have hmin : min x 100 < 1 / 2 := (min_le_left x 100).trans_lt h
    have hmax : max 0 (min x 100) < 1 / 2 := max_lt (by norm_num) hmin
    constructor <;> linarith

/-- Every blacklisted row has score zero exactly when no blacklisted node is offered half a
point or more in a hop after the last one that blacklists it. -/
theorem propagate_blacklisted_zero_iff (timeDecay : Edge → K) (edges : List Edge)
    (principals : List (Principal K)) (roots : List (Root K)) (evaluationTime : Time) :
    (∀ row ∈ (propagate timeDecay edges principals roots evaluationTime).rows,
      row.blacklisted = true → row.score = 0) ↔
    (propagateGraph timeDecay edges principals).NoTrustAfterBlacklist roots := by
  let g := propagateGraph timeDecay edges principals
  have hfinal : propagateScores timeDecay edges principals roots = g.stateAt roots maxHops :=
    g.hopLoop_eq_iterate maxHops _
  have hhalf : (0 : K) < 1 / 2 := by norm_num
  constructor
  · intro hzero v k hk hb hlast
    have hrow : ((g.stateAt roots maxHops).scores.lookup v).isSome := by
      apply g.isSome_stateAt_mono roots v (m := k + 1) (by omega)
      rw [g.stateAt_succ, g.nextState_isSome]
      exact Or.inl hb
    have hmem := (mem_propagate_rows timeDecay edges principals roots evaluationTime _).mpr
      ⟨v, hfinal ▸ hrow, rfl⟩
    have hflag : v ∈ (g.stateAt roots maxHops).blacklistedNodes :=
      (g.mem_blacklistedNodes_stateAt roots maxHops v).mpr ⟨k, hk, hb⟩
    have hscore := hzero _ hmem (by rw [hfinal]; exact decide_eq_true hflag)
    rw [hfinal] at hscore
    exact (g.value_lt_iff_since_blacklisted roots v k maxHops hk hb hlast _ hhalf).mp
      ((rowScore_eq_zero_iff _).mp hscore)
  · intro hno row hrow hflag
    obtain ⟨v, -, rfl⟩ := (mem_propagate_rows timeDecay edges principals roots _ row).mp hrow
    rw [hfinal] at hflag ⊢
    obtain ⟨k, hk, hb⟩ := (g.mem_blacklistedNodes_stateAt roots maxHops v).mp
      (of_decide_eq_true hflag)
    obtain ⟨m, hm, hbm, hlast⟩ := exists_last_below (P := fun j => g.BlacklistedAt roots j v) hk hb
    apply (rowScore_eq_zero_iff _).mpr
    exact (g.value_lt_iff_since_blacklisted roots v m maxHops hm hbm hlast _ hhalf).mpr
      (hno v m hm hbm hlast)

def mutualBlacklistEdges : List Edge :=
  [⟨"a", "b", -100, 0⟩, ⟨"b", "a", -100, 0⟩, ⟨"c", "a", 100, 0⟩]

def mutualBlacklistPrincipals : List (Principal ℚ) :=
  [⟨"a", .issuer, 1, true⟩, ⟨"b", .issuer, 1, true⟩, ⟨"c", .issuer, 1, true⟩]

def mutualBlacklistRoots : List (Root ℚ) := [⟨"a", 1⟩, ⟨"b", 1⟩, ⟨"c", 1⟩]

theorem propagate_blacklisted_zero_iff_mutual :
    (∀ row ∈ (propagate (fun _ => (1 : ℚ)) mutualBlacklistEdges mutualBlacklistPrincipals
      mutualBlacklistRoots 0).rows, row.blacklisted = true → row.score = 0) ↔
    (propagateGraph (fun _ => 1) mutualBlacklistEdges
      mutualBlacklistPrincipals).NoTrustAfterBlacklist mutualBlacklistRoots :=
  propagate_blacklisted_zero_iff (fun _ => 1) mutualBlacklistEdges mutualBlacklistPrincipals
    mutualBlacklistRoots 0

theorem propagate_blacklisted_nonzero :
    ¬ ∀ row ∈ (propagate (fun _ => 1) mutualBlacklistEdges mutualBlacklistPrincipals
      mutualBlacklistRoots 0).rows, row.blacklisted = true → row.score = 0 := by
  intro hzero
  have hrow := (mem_propagate_rows (fun _ => (1 : ℚ)) mutualBlacklistEdges
    mutualBlacklistPrincipals mutualBlacklistRoots 0 _).mpr ⟨"a", by decide +kernel, rfl⟩
  have hscore := hzero _ hrow (by decide +kernel)
  exact absurd hscore (by decide +kernel)

end Verilink.Trust

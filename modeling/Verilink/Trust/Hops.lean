import Verilink.Trust.Engine

/-!
# What one hop does

A hop is described by the contributions of the edges against the previous snapshot: away from the
blacklisted subjects the next score is the largest of the old score and the contributions, and a
blacklisted subject is reset to zero.
-/

namespace Verilink.Trust

variable {K : Type} [Field K]

theorem valueAt_insert_self (m : Scores K) (id : String) (x : K) :
    valueAt (m.insert id x) id = x := by
  simp [valueAt]

theorem valueAt_insert_ne (m : Scores K) {id id' : String} (x : K) (h : id' ≠ id) :
    valueAt (m.insert id x) id' = valueAt m id' := by
  simp [valueAt, Finmap.lookup_insert_of_ne m h]

theorem valueAt_of_lookup {m : Scores K} {id : String} {x : K} (h : m.lookup id = some x) :
    valueAt m id = x := by
  simp [valueAt, h]

theorem lookup_foldl_insert_zero (black : List String) (m : Scores K) (v : String) :
    (black.foldl (fun m subject => m.insert subject 0) m).lookup v =
      if v ∈ black then some 0 else m.lookup v := by
  induction black generalizing m with
  | nil => simp
  | cons b bs ih =>
    rw [List.foldl_cons, ih]
    by_cases hv : v ∈ bs
    · simp [hv]
    · by_cases hb : v = b
      · subst hb
        simp
      · simp [hv, hb, Finmap.lookup_insert_of_ne _ hb]

variable [LinearOrder K]

/-- What an edge offers its subject in a hop; nothing when its issuer is blacklisted in this
hop or has no score yet. -/
def Graph.contribution (g : Graph K) (scores : Scores K) (black : List String) (e : Edge) :
    Option K :=
  if e.issuer ∈ black then none else (scores.lookup e.issuer).map (· * g.gain e)

variable (g : Graph K) (scores : Scores K)

theorem Graph.relaxEdge_none (black : List String)
    (acc : Scores K × Bool) (e : Edge) (h : g.contribution scores black e = none) :
    g.relaxEdge scores black acc e = acc := by
  unfold Graph.contribution at h
  unfold Graph.relaxEdge
  split
  · rfl
  · rename_i hb
    rw [if_neg hb, Option.map_eq_none_iff] at h
    rw [h]

theorem Graph.relaxEdge_some (black : List String)
    (acc : Scores K × Bool) (e : Edge) (c : K) (h : g.contribution scores black e = some c) :
    g.relaxEdge scores black acc e =
      if valueAt acc.1 e.subject < c then (acc.1.insert e.subject c, true) else acc := by
  unfold Graph.contribution at h
  unfold Graph.relaxEdge
  split at h
  · cases h
  · rename_i hb
    obtain ⟨s, hs, rfl⟩ := Option.map_eq_some_iff.mp h
    rw [if_neg hb, hs]

theorem Graph.relaxEdge_value (black : List String)
    (acc : Scores K × Bool) (e : Edge) (c : K) (h : g.contribution scores black e = some c)
    (v : String) :
    valueAt (g.relaxEdge scores black acc e).1 v =
      if e.subject = v then max (valueAt acc.1 v) c else valueAt acc.1 v := by
  rw [g.relaxEdge_some scores black acc e c h]
  by_cases hv : e.subject = v
  · subst hv
    rw [if_pos rfl]
    split
    · rename_i hlt
      rw [valueAt_insert_self, max_eq_right hlt.le]
    · rename_i hlt
      rw [max_eq_left (not_lt.mp hlt)]
  · rw [if_neg hv]
    split
    · rw [valueAt_insert_ne _ _ (Ne.symm hv)]
    · rfl

theorem Graph.relax_le_iff (black : List String) (es : List Edge) (acc : Scores K × Bool)
    (v : String) (x : K) :
    valueAt (es.foldl (g.relaxEdge scores black) acc).1 v ≤ x ↔ valueAt acc.1 v ≤ x ∧
        ∀ e ∈ es, e.subject = v → ∀ c, g.contribution scores black e = some c → c ≤ x := by
  induction es generalizing acc with
  | nil => simp
  | cons e es ih =>
    rw [List.foldl_cons, ih, List.forall_mem_cons]
    cases hc : g.contribution scores black e with
    | none =>
      rw [g.relaxEdge_none scores black acc e hc]
      simp
    | some c =>
      rw [g.relaxEdge_value scores black acc e c hc]
      by_cases hv : e.subject = v
      · simp [hv, and_assoc]
      · simp [hv]

theorem Graph.relax_attained (black : List String) (es : List Edge) (acc : Scores K × Bool)
    (v : String) :
    valueAt (es.foldl (g.relaxEdge scores black) acc).1 v = valueAt acc.1 v ∨
      ∃ e ∈ es, e.subject = v ∧ g.contribution scores black e =
        some (valueAt (es.foldl (g.relaxEdge scores black) acc).1 v) := by
  induction es generalizing acc with
  | nil => exact Or.inl rfl
  | cons e es ih =>
    rw [List.foldl_cons]
    rcases ih (g.relaxEdge scores black acc e) with h | ⟨f, hf, hfv, hfc⟩
    · rw [h]
      cases hc : g.contribution scores black e with
      | none =>
        rw [g.relaxEdge_none scores black acc e hc]
        exact Or.inl rfl
      | some c =>
        rw [g.relaxEdge_value scores black acc e c hc]
        by_cases hv : e.subject = v
        · rw [if_pos hv]
          rcases max_choice (valueAt acc.1 v) c with hm | hm
          · exact Or.inl hm
          · exact Or.inr ⟨e, by simp, hv, by rw [hm, hc]⟩
        · exact Or.inl (if_neg hv)
    · exact Or.inr ⟨f, List.mem_cons_of_mem _ hf, hfv, hfc⟩

theorem Graph.relax_isSome (black : List String) (es : List Edge) (acc : Scores K × Bool) (v : String) :
    ((es.foldl (g.relaxEdge scores black) acc).1.lookup v).isSome ↔ (acc.1.lookup v).isSome ∨
        ∃ e ∈ es, e.subject = v ∧ ∃ c, g.contribution scores black e = some c ∧ 0 < c := by
  induction es generalizing acc with
  | nil => simp
  | cons e es ih =>
    rw [List.foldl_cons, ih]
    cases hc : g.contribution scores black e with
    | none =>
      rw [g.relaxEdge_none scores black acc e hc]
      simp [hc]
    | some c =>
      rw [g.relaxEdge_some scores black acc e c hc]
      by_cases hv : e.subject = v
      · subst hv
        cases hl : acc.1.lookup e.subject with
        | none =>
          have hz : valueAt acc.1 e.subject = 0 := by simp [valueAt, hl]
          rw [hz]
          by_cases hpos : 0 < c
          · simp [hpos, hc]
          · simp [hpos, hc, hl]
        | some s => split <;> simp [hl]
      · have hne : v ≠ e.subject := Ne.symm hv
        split <;> simp [hv, Finmap.lookup_insert_of_ne _ hne]

theorem Graph.relax_unchanged (black : List String) (es : List Edge) (acc : Scores K × Bool)
    (h : (es.foldl (g.relaxEdge scores black) acc).2 = false) :
    es.foldl (g.relaxEdge scores black) acc = acc := by
  induction es generalizing acc with
  | nil => rfl
  | cons e es ih =>
    rw [List.foldl_cons] at h ⊢
    have hfix := ih _ h
    rw [hfix] at h ⊢
    cases hc : g.contribution scores black e with
    | none => exact g.relaxEdge_none scores black acc e hc
    | some c =>
      rw [g.relaxEdge_some scores black acc e c hc] at h ⊢
      split at h
      · cases h
      · rename_i hlt
        exact if_neg hlt

def Graph.nextState (g : Graph K) (st : HopState K) : HopState K := (g.hop st).1

def Graph.lends (g : Graph K) (st : HopState K) (e : Edge) : Option K :=
  g.contribution st.scores (g.blacklistedThisHop st.scores) e

variable (st : HopState K)

theorem Graph.lends_eq_some (e : Edge) (c : K) : g.lends st e = some c ↔
    e.issuer ∉ g.blacklistedThisHop st.scores ∧
      ∃ s, st.scores.lookup e.issuer = some s ∧ s * g.gain e = c := by
  unfold Graph.lends Graph.contribution
  split_ifs with hb
  · simp [hb]
  · rw [Option.map_eq_some_iff]
    simp [hb]

theorem Graph.mem_blacklistedThisHop (v : String) : v ∈ g.blacklistedThisHop scores ↔
      ∃ e ∈ g.edges, e.score < 0 ∧ e.subject = v ∧ ∃ x, scores.lookup e.issuer = some x ∧
        (blacklistIssuerThreshold : K) ≤ x * valueAt g.weightByDID e.issuer := by
  unfold Graph.blacklistedThisHop
  rw [List.mem_filterMap]
  refine exists_congr fun e => and_congr_right fun _ => ?_
  by_cases hneg : e.score < (0 : Int)
  · rw [if_pos hneg]
    cases scores.lookup e.issuer with
    | none => simp
    | some x => by_cases hx : (blacklistIssuerThreshold : K) ≤ x * valueAt g.weightByDID e.issuer <;>
        simp [hx, hneg]
  · simp [hneg]

theorem Graph.nextState_lookup (v : String) : (g.nextState st).scores.lookup v =
      if v ∈ g.blacklistedThisHop st.scores then some 0
      else (g.edges.foldl (g.relaxEdge st.scores (g.blacklistedThisHop st.scores)) (st.scores,
        false)).1.lookup v :=
  lookup_foldl_insert_zero _ _ v

theorem Graph.nextState_blacklistedNodes : (g.nextState st).blacklistedNodes =
      st.blacklistedNodes ++ g.blacklistedThisHop st.scores := rfl

theorem Graph.nextState_value_black (v : String)
    (h : v ∈ g.blacklistedThisHop st.scores) : valueAt (g.nextState st).scores v = 0 := by
  rw [valueAt, g.nextState_lookup, if_pos h, Option.getD_some]

theorem Graph.nextState_value_le_iff (v : String) (x : K) (h : v ∉ g.blacklistedThisHop st.scores) :
    valueAt (g.nextState st).scores v ≤ x ↔ valueAt st.scores v ≤ x ∧
        ∀ e ∈ g.edges, e.subject = v → ∀ c, g.lends st e = some c → c ≤ x := by
  have hl := g.nextState_lookup st v
  rw [if_neg h] at hl
  rw [valueAt, hl]
  exact g.relax_le_iff _ _ _ _ v x

theorem Graph.nextState_value_attained (v : String) (h : v ∉ g.blacklistedThisHop st.scores) :
    valueAt (g.nextState st).scores v = valueAt st.scores v ∨ ∃ e ∈ g.edges, e.subject = v ∧
        g.lends st e = some (valueAt (g.nextState st).scores v) := by
  have hl := g.nextState_lookup st v
  rw [if_neg h] at hl
  rw [valueAt, hl]
  exact g.relax_attained _ _ _ _ v

theorem Graph.nextState_isSome (v : String) :
    ((g.nextState st).scores.lookup v).isSome ↔ v ∈ g.blacklistedThisHop st.scores ∨
    (st.scores.lookup v).isSome ∨
        ∃ e ∈ g.edges, e.subject = v ∧ ∃ c, g.lends st e = some c ∧ 0 < c := by
  rw [g.nextState_lookup]
  split
  · rename_i h
    simp [h]
  · rename_i h
    rw [g.relax_isSome]
    simp [h, Graph.lends]

theorem Graph.nextState_unchanged (h : (g.hop st).2 = false) :
    g.nextState st = st := by
  obtain ⟨hrelax, hblack⟩ := Bool.or_eq_false_iff.mp h
  have hnil : g.blacklistedThisHop st.scores = [] := by
    simpa using hblack
  have hfix := g.relax_unchanged _ _ _ _ hrelax
  have hscores : (g.nextState st).scores = st.scores := by
    change (g.blacklistedThisHop st.scores).foldl _ _ = st.scores
    rw [hfix, hnil, List.foldl_nil]
  have hnodes : (g.nextState st).blacklistedNodes = st.blacklistedNodes := by
    rw [g.nextState_blacklistedNodes, hnil, List.append_nil]
  cases hn : g.nextState st with
  | mk scores nodes =>
    rw [hn] at hscores hnodes
    cases st
    simp_all

/-- The early exit is invisible: the loop is the plain iteration of hops. -/
theorem Graph.hopLoop_eq_iterate (n : Nat) (st : HopState K) :
    g.hopLoop n st = g.nextState^[n] st := by
  induction n generalizing st with
  | zero => rfl
  | succ n ih =>
    rw [Function.iterate_succ_apply, Graph.hopLoop]
    by_cases hch : (g.hop st).2 = true
    · rw [if_pos hch, ih]
      rfl
    · have hfix := g.nextState_unchanged st (Bool.eq_false_iff.mpr hch)
      rw [if_neg hch, hfix, Function.iterate_fixed hfix]
      exact hfix

end Verilink.Trust

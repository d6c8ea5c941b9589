import Verilink.Framework.KeyedList
import Verilink.Framework.Walk
import Verilink.Trust.Hops

/-!
# Propagation without negative claims

Without negative claims nobody is blacklisted, and the hop loop computes the best walk from a root:
after `n` hops a node holds the largest of its own root score and of what walks of at most `n` edges
carry to it.
-/

namespace Verilink.Trust

open Framework

variable {K : Type} [Field K]

/-- Scores carried from the roots to `v` along walks of one to `n` edges. -/
def walkScores (timeDecay : Edge → K) (edges : List Edge) (principals : List (Principal K))
    (roots : List (Root K)) (n : Nat) (v : String) : Set K :=
  {x | ∃ r ∈ roots, ∃ es : List Edge, 1 ≤ es.length ∧ es.length ≤ n ∧ (∀ e ∈ es, e ∈ edges) ∧
    IsWalk Edge.issuer Edge.subject r.id es v ∧
    x = r.initialScore * (es.map (propagateGraph timeDecay edges principals).gain).prod}

def initialRootScore (roots : List (Root K)) (v : String) : K :=
  ((roots.find? fun r => r.id = v).map Root.initialScore).getD 0

theorem initialScores_lookup (roots : List (Root K)) (hroots : (roots.map Root.id).Nodup) (v : String) :
    (initialScores roots).lookup v =
      (roots.find? fun r => r.id = v).map Root.initialScore := by
  have h := lookup_foldl_insert Root.id Root.initialScore roots hroots ∅ v
  rw [Finmap.lookup_empty, Option.or_none] at h
  exact h

theorem initialScores_lookup_eq_some_iff (roots : List (Root K))
    (hroots : (roots.map Root.id).Nodup) (v : String) (x : K) :
    (initialScores roots).lookup v = some x ↔ ∃ r ∈ roots, r.id = v ∧ x = r.initialScore := by
  rw [initialScores_lookup roots hroots, Option.map_eq_some_iff]
  constructor
  · rintro ⟨r, hr, rfl⟩
    obtain ⟨hmem, hid⟩ := (find?_key_eq_some_iff Root.id roots hroots v r).mp hr
    exact ⟨r, hmem, hid, rfl⟩
  · rintro ⟨r, hr, hid, rfl⟩
    exact ⟨r, (find?_key_eq_some_iff Root.id roots hroots v r).mpr ⟨hr, hid⟩, rfl⟩

theorem initialScores_isSome_iff (roots : List (Root K)) (hroots : (roots.map Root.id).Nodup)
    (v : String) :
    ((initialScores roots).lookup v).isSome ↔ ∃ r ∈ roots, r.id = v := by
  rw [Option.isSome_iff_exists]
  constructor
  · rintro ⟨x, hx⟩
    obtain ⟨r, hr, hid, -⟩ := (initialScores_lookup_eq_some_iff roots hroots v x).mp hx
    exact ⟨r, hr, hid⟩
  · rintro ⟨r, hr, hid⟩
    exact ⟨_, (initialScores_lookup_eq_some_iff roots hroots v _).mpr ⟨r, hr, hid, rfl⟩⟩

theorem valueAt_initialScores (roots : List (Root K)) (hroots : (roots.map Root.id).Nodup)
    (v : String) : valueAt (initialScores roots) v = initialRootScore roots v := by
  rw [valueAt, initialScores_lookup roots hroots, initialRootScore]

/-- The walk sets of the engine are the carried sets of the library. -/
theorem walkScores_eq_carriedTo (timeDecay : Edge → K) (edges : List Edge)
    (principals : List (Principal K)) (roots : List (Root K))
    (hroots : (roots.map Root.id).Nodup) (n : Nat) (v : String) :
    walkScores timeDecay edges principals roots n v =
      carriedTo Edge.issuer Edge.subject (propagateGraph timeDecay edges principals).gain edges
        (fun u => (initialScores roots).lookup u) n v := by
  ext x
  constructor
  · rintro ⟨r, hr, es, hpos, hlen, hmem, hwalk, hx⟩
    have hne : es ≠ [] := List.ne_nil_of_length_pos hpos
    exact ⟨r.id, r.initialScore, es, (initialScores_lookup_eq_some_iff roots hroots _ _).mpr ⟨r, hr,
      rfl, rfl⟩, hne, hlen, hmem, hwalk, hx⟩
  · rintro ⟨u, a, es, hu, hne, hlen, hmem, hwalk, hx⟩
    obtain ⟨r, hr, rfl, rfl⟩ := (initialScores_lookup_eq_some_iff roots hroots u a).mp hu
    exact ⟨r, hr, es, List.length_pos_of_ne_nil hne, hlen, hmem, hwalk, hx⟩

variable [LinearOrder K]

theorem valueAt_foldl_insert_nonneg {α : Type} (key : α → String) (val : α → K) (l : List α)
    (h : ∀ x ∈ l, 0 ≤ val x) (id : String) :
    0 ≤ valueAt (l.foldl (fun m x => m.insert (key x) (val x)) ∅) id := by
  suffices hfold : ∀ m : Scores K, 0 ≤ valueAt m id →
      0 ≤ valueAt (l.foldl (fun m x => m.insert (key x) (val x)) m) id from
    hfold ∅ (by simp [valueAt])
  induction l with
  | nil => exact fun m hm => hm
  | cons x l ih =>
    intro m hm
    obtain ⟨hx, hl⟩ := List.forall_mem_cons.mp h
    apply ih hl
    by_cases hid : id = key x
    · rw [hid, valueAt_insert_self]
      exact hx
    · rwa [valueAt_insert_ne _ _ hid]

theorem valueAt_weightByDID_nonneg (principals : List (Principal K))
    (h : ∀ p ∈ principals, 0 ≤ p.trustWeight) (id : String) :
    0 ≤ valueAt (weightByDID principals) id :=
  valueAt_foldl_insert_nonneg Principal.id Principal.trustWeight principals h id

theorem Graph.blacklistedThisHop_of_nonneg (g : Graph K) (h : ∀ e ∈ g.edges, 0 ≤ e.score)
    (scores : Scores K) : g.blacklistedThisHop scores = [] := by
  apply List.filterMap_eq_nil_iff.mpr
  intro e he
  rw [if_neg (not_lt.mpr (h e he))]

def Graph.carried (g : Graph K) (start : Scores K) : Nat → String → Set K :=
  carriedTo Edge.issuer Edge.subject g.gain g.edges fun u => start.lookup u

/-- Every node holds the best of what it began with and of what walks of at most `n` edges carry to
it; those have a row that began with one or that a walk of positive value reaches. -/
structure Graph.BestWalks (g : Graph K) (start : Scores K) (n : Nat) (scores : Scores K) : Prop where
  best : ∀ v, IsGreatest ({valueAt start v} ∪ g.carried start n v) (valueAt scores v)
  row : ∀ v, (scores.lookup v).isSome ↔ (start.lookup v).isSome ∨ ∃ x ∈ g.carried start n v, 0 < x

namespace Graph.BestWalks

variable {g : Graph K} {start : Scores K} {n : Nat} {st : HopState K} (h : g.BestWalks start n st.scores)
include h

/-- A value that reaches a node is at most what the node holds. -/
theorem held {u : String} {y : K} (hy : start.lookup u = some y ∨ y ∈ g.carried start n u) :
    y ≤ valueAt st.scores u := by
  apply (h.best u).2
  rcases hy with hy | hy
  · exact Set.mem_union_left _ (valueAt_of_lookup hy).symm
  · exact Set.mem_union_right _ hy

/-- What the issuer of an edge holds, when it holds something positive, was carried to it. -/
theorem carry {e : Edge} (he : e ∈ g.edges) (hpos : 0 < valueAt st.scores e.issuer) :
    valueAt st.scores e.issuer * g.gain e ∈ g.carried start (n + 1) e.subject := by
  apply (mem_carriedTo_succ Edge.issuer Edge.subject g.gain g.edges _ n e.subject _).mpr
  refine ⟨e, he, rfl, valueAt st.scores e.issuer, ?_, rfl⟩
  rcases (h.best e.issuer).1 with hs | hs
  · left
    have hs' : valueAt st.scores e.issuer = valueAt start e.issuer := hs
    cases hl : start.lookup e.issuer with
    | none =>
      have hz : valueAt start e.issuer = 0 := by simp [valueAt, hl]
      rw [hs', hz] at hpos
      exact absurd hpos (lt_irrefl 0)
    | some s => rw [hs', valueAt_of_lookup hl]
  · exact Or.inr hs

theorem mem_succ (v : String) : valueAt st.scores v ∈ {valueAt start v} ∪ g.carried start (n + 1) v :=
  Set.union_subset_union_right _ (carriedTo_mono _ _ _ _ _ (Nat.le_succ n) v) (h.best v).1

theorem nonneg (hstart : ∀ v, 0 ≤ valueAt start v) (v : String) : 0 ≤ valueAt st.scores v :=
  (hstart v).trans ((h.best v).2 (Set.mem_union_left _ rfl))

omit h

section Hop

variable (hdelta : ∀ e ∈ g.edges, 0 ≤ e.score)
include hdelta

theorem lends_iff {e : Edge} {c : K} :
    g.lends st e = some c ↔ ∃ s, st.scores.lookup e.issuer = some s ∧ s * g.gain e = c := by
  simp [g.lends_eq_some, g.blacklistedThisHop_of_nonneg hdelta st.scores]

theorem not_blacklisted (v : String) : v ∉ g.blacklistedThisHop st.scores := by
  simp [g.blacklistedThisHop_of_nonneg hdelta st.scores]

theorem le_next (v : String) : valueAt st.scores v ≤ valueAt (g.nextState st).scores v :=
  ((g.nextState_value_le_iff st v _ (not_blacklisted hdelta v)).mp le_rfl).1

include h

theorem next_mem (hstart : ∀ v, 0 ≤ valueAt start v) (v : String) :
    valueAt (g.nextState st).scores v ∈ {valueAt start v} ∪ g.carried start (n + 1) v := by
  rcases g.nextState_value_attained st v (not_blacklisted hdelta v) with hkept | ⟨e, he, rfl, hc⟩
  · rw [hkept]
    exact h.mem_succ v
  · obtain ⟨s, hs, hsc⟩ := (lends_iff hdelta).mp hc
    rw [← valueAt_of_lookup hs] at hsc
    rcases (h.nonneg hstart e.issuer).lt_or_eq with hpos | hzero
    · right
      rw [← hsc]
      exact h.carry he hpos
    · have hz : valueAt (g.nextState st).scores e.subject = 0 := by rw [← hsc, ← hzero, zero_mul]
      rw [← le_antisymm (le_next hdelta e.subject) (hz.trans_le (h.nonneg hstart _))]
      exact h.mem_succ e.subject

variable [IsStrictOrderedRing K] (hgain : ∀ e ∈ g.edges, 0 ≤ g.gain e)
include hgain

theorem next_le (hstart : ∀ v, 0 ≤ valueAt start v) (v : String) :
    ∀ x ∈ {valueAt start v} ∪ g.carried start (n + 1) v, x ≤ valueAt (g.nextState st).scores v := by
  have hgrow : valueAt st.scores v ≤ valueAt (g.nextState st).scores v := le_next hdelta v
  rintro x (hx | hx)
  · have hx' : x = valueAt start v := hx
    rw [hx']
    exact ((h.best v).2 (Set.mem_union_left _ rfl)).trans hgrow
  · obtain ⟨e, he, hev, y, hy, rfl⟩ :=
      (mem_carriedTo_succ Edge.issuer Edge.subject g.gain g.edges _ n v x).mp hx
    have hyle := mul_le_mul_of_nonneg_right (h.held hy) (hgain e he)
    cases hl : st.scores.lookup e.issuer with
    | none =>
      have hz : valueAt st.scores e.issuer = 0 := by simp [valueAt, hl]
      rw [hz, zero_mul] at hyle
      exact hyle.trans ((h.nonneg hstart v).trans hgrow)
    | some s =>
      rw [valueAt_of_lookup hl] at hyle
      have hoffered := ((g.nextState_value_le_iff st v _ (not_blacklisted hdelta v)).mp le_rfl).2
      exact hyle.trans (hoffered e he hev _ ((lends_iff hdelta).mpr ⟨s, hl, rfl⟩))

theorem next_row (v : String) : ((g.nextState st).scores.lookup v).isSome ↔
    (start.lookup v).isSome ∨ ∃ x ∈ g.carried start (n + 1) v, 0 < x := by
  rw [g.nextState_isSome, h.row v]
  constructor
  · rintro (hb | (hs | ⟨x, hx, hpos⟩) | ⟨e, he, rfl, c, hc, hpos⟩)
    · exact absurd hb (not_blacklisted hdelta v)
    · exact Or.inl hs
    · exact Or.inr ⟨x, carriedTo_mono _ _ _ _ _ (Nat.le_succ n) v hx, hpos⟩
    · obtain ⟨s, hs, rfl⟩ := (lends_iff hdelta).mp hc
      have hspos : 0 < s := pos_of_mul_pos_left hpos (hgain e he)
      rw [← valueAt_of_lookup hs] at hspos hpos
      exact Or.inr ⟨_, h.carry he hspos, hpos⟩
  · rintro (hs | ⟨x, hx, hpos⟩)
    · exact Or.inr (Or.inl (Or.inl hs))
    · obtain ⟨e, he, hev, y, hy, rfl⟩ :=
        (mem_carriedTo_succ Edge.issuer Edge.subject g.gain g.edges _ n v x).mp hx
      have hissuer : (st.scores.lookup e.issuer).isSome := by
        rw [h.row]
        rcases hy with hy | hy
        · exact Or.inl (by simp [hy])
        · exact Or.inr ⟨y, hy, pos_of_mul_pos_left hpos (hgain e he)⟩
      obtain ⟨s, hs⟩ := Option.isSome_iff_exists.mp hissuer
      have hys : y ≤ s := valueAt_of_lookup hs ▸ h.held hy
      refine Or.inr (Or.inr ⟨e, he, hev, s * g.gain e, (lends_iff hdelta).mpr ⟨s, hs, rfl⟩, ?_⟩)
      exact hpos.trans_le (mul_le_mul_of_nonneg_right hys (hgain e he))

/-- One hop over non-negative gains adds the walks of one more edge. -/
theorem next (hstart : ∀ v, 0 ≤ valueAt start v) : g.BestWalks start (n + 1)
    (g.nextState st).scores where
  best v := ⟨h.next_mem hdelta hstart v, h.next_le hdelta hgain hstart v⟩
  row := h.next_row hdelta hgain

end Hop

end Graph.BestWalks

section Ordered

variable [IsStrictOrderedRing K]

theorem Graph.gain_nonneg (g : Graph K) (e : Edge) (hdelta : 0 ≤ e.score)
    (hdecay : 0 ≤ g.timeDecay e) (hweight : 0 ≤ valueAt g.weightByDID e.issuer) :
    0 ≤ g.gain e := by
  have hscore : (0 : K) ≤ (e.score : K) := by exact_mod_cast hdelta
  unfold Graph.gain distanceDecay
  positivity

theorem initialRootScore_nonneg (roots : List (Root K)) (h : ∀ r ∈ roots, 0 ≤ r.weight)
    (v : String) : 0 ≤ initialRootScore roots v := by
  unfold initialRootScore
  cases hf : roots.find? (fun r => r.id = v) with
  | none => simp
  | some r =>
    have hr := h r (List.mem_of_find?_eq_some hf)
    simp only [Option.map_some, Option.getD_some]
    positivity

theorem propagate_hops_isGreatest (timeDecay : Edge → K) (edges : List Edge)
    (principals : List (Principal K)) (roots : List (Root K))
    (hdelta : ∀ e ∈ edges, 0 ≤ e.score) (hroots : (roots.map Root.id).Nodup)
    (hroot : ∀ r ∈ roots, 0 ≤ r.weight) (htrust : ∀ p ∈ principals, 0 ≤ p.trustWeight)
    (hdecay : ∀ e ∈ edges, 0 ≤ timeDecay e) (n : Nat) :
    (propagateGraph timeDecay edges principals).BestWalks
      (initialScores roots) n
      ((propagateGraph timeDecay edges principals).nextState^[n] ⟨initialScores roots, []⟩).scores := by
  have hstart : ∀ u, 0 ≤ valueAt (initialScores roots) u := by
    intro u
    rw [valueAt_initialScores roots hroots]
    exact initialRootScore_nonneg roots hroot u
  have hgain : ∀ e ∈ edges, 0 ≤ (propagateGraph timeDecay edges principals).gain e := by
    intro e he
    apply Graph.gain_nonneg _ _ (hdelta e he) (hdecay e he)
    exact valueAt_weightByDID_nonneg principals htrust e.issuer
  induction n with
  | zero =>
    constructor
    · intro v
      rw [Graph.carried, carriedTo_zero, Set.union_empty]
      exact isGreatest_singleton
    · intro v
      rw [Graph.carried, carriedTo_zero]
      simp
  | succ n ih =>
    rw [Function.iterate_succ_apply']
    exact ih.next hdelta hgain hstart

end Ordered

section Rows

omit [LinearOrder K] in
theorem initialScores_isSome (roots : List (Root K)) (v : String)
    (h : ((initialScores roots).lookup v).isSome) : v ∈ roots.map Root.id := by
  suffices hkeys : ∀ m : Scores K,
      ((roots.foldl (fun m r => m.insert r.id r.initialScore) m).lookup v).isSome →
        v ∈ roots.map Root.id ∨ (m.lookup v).isSome by
    simpa using hkeys ∅ h
  clear h
  induction roots with
  | nil => exact fun m hm => Or.inr hm
  | cons r roots ih =>
    intro m hm
    rcases ih _ hm with hin | hin
    · exact Or.inl (List.mem_cons_of_mem _ hin)
    · by_cases hv : v = r.id
      · exact Or.inl (hv ▸ List.mem_cons_self)
      · rw [Finmap.lookup_insert_of_ne _ hv] at hin
        exact Or.inr hin

theorem Graph.iterate_isSome_cases (g : Graph K) (roots : List (Root K)) (n : Nat) (v : String)
    (h : ((g.nextState^[n] ⟨initialScores roots, []⟩).scores.lookup v).isSome) :
    v ∈ roots.map Root.id ∨ v ∈ g.edges.map Edge.subject := by
  induction n with
  | zero => exact Or.inl (initialScores_isSome roots v h)
  | succ n ih =>
    rw [Function.iterate_succ_apply', g.nextState_isSome] at h
    rcases h with hblack | hold | ⟨e, he, hsubject, -⟩
    · obtain ⟨e, he, -, hsubject, -⟩ := (g.mem_blacklistedThisHop _ v).mp hblack
      exact Or.inr (List.mem_map.mpr ⟨e, he, hsubject⟩)
    · exact ih hold
    · exact Or.inr (List.mem_map.mpr ⟨e, he, hsubject⟩)

variable [FloorRing K] (timeDecay : Edge → K)

theorem mem_propagate_rows (edges : List Edge)
    (principals : List (Principal K)) (roots : List (Root K)) (t : Time) (row : ScoreRow) :
    row ∈ (propagate timeDecay edges principals roots t).rows ↔
      ∃ v, ((propagateScores timeDecay edges principals roots).scores.lookup v).isSome ∧
        row = scoreRow (kindByDID principals) (propagateScores timeDecay edges principals roots) v := by
  simp only [propagate, List.mem_map, mem_sortedKeys]
  constructor
  · rintro ⟨v, hv, rfl⟩
    exact ⟨v, hv, rfl⟩
  · rintro ⟨v, hv, rfl⟩
    exact ⟨v, hv, rfl⟩

theorem propagate_has_row_iff (edges : List Edge)
    (principals : List (Principal K)) (roots : List (Root K)) (t : Time) (v : String) :
    (∃ row ∈ (propagate timeDecay edges principals roots t).rows, row.principalId = v) ↔
      ((propagateScores timeDecay edges principals roots).scores.lookup v).isSome := by
  constructor
  · rintro ⟨row, hrow, rfl⟩
    obtain ⟨u, hu, rfl⟩ := (mem_propagate_rows timeDecay edges principals roots t row).mp hrow
    exact hu
  · intro hv
    exact ⟨_, (mem_propagate_rows timeDecay edges principals roots t _).mpr ⟨v, hv, rfl⟩, rfl⟩

theorem propagate_row_cases (edges : List Edge)
    (principals : List (Principal K)) (roots : List (Root K)) (t : Time) (row : ScoreRow)
    (h : row ∈ (propagate timeDecay edges principals roots t).rows) :
    row.principalId ∈ roots.map Root.id ∨ row.principalId ∈ edges.map Edge.subject := by
  obtain ⟨v, hv, rfl⟩ := (mem_propagate_rows timeDecay edges principals roots t row).mp h
  rw [propagateScores, Graph.hopLoop_eq_iterate] at hv
  exact Graph.iterate_isSome_cases _ roots maxHops v hv

end Rows

section Main

variable [IsStrictOrderedRing K] [FloorRing K]

theorem rowScore_eq_floor (x : K) : rowScore x = ⌊max 0 (min x 100) + 1 / 2⌋ := by
  have hround : ∀ y : K, 0 ≤ y → mathRound y = ⌊y + 1 / 2⌋ := by
    intro y hy
    rw [mathRound, if_neg (not_lt.mpr hy)]
  unfold rowScore
  by_cases hneg : x < 0
  · have hmin : min x 100 ≤ 0 := (min_le_left x 100).trans hneg.le
    have h100 : ¬ (100 : K) < 0 := by norm_num
    simp only [if_pos hneg, if_neg h100]
    rw [hround 0 le_rfl, max_eq_left hmin]
  · have hpos : 0 ≤ x := not_lt.mp hneg
    simp only [if_neg hneg]
    by_cases hbig : 100 < x
    · rw [if_pos hbig, hround 100 (by norm_num), min_eq_right hbig.le, max_eq_right (by norm_num)]
    · rw [if_neg hbig, hround x hpos, min_eq_left (not_lt.mp hbig), max_eq_right hpos]

theorem rowScore_mono {x y : K} (h : x ≤ y) : rowScore x ≤ rowScore y := by
  rw [rowScore_eq_floor, rowScore_eq_floor]
  gcongr

theorem rowScore_nonneg (x : K) : 0 ≤ rowScore x := by
  rw [rowScore_eq_floor]
  apply Int.floor_nonneg.mpr
  positivity

/-- Without negative claims the score held for a node before rounding is the largest of its
own root score and of the scores carried by walks of one to four edges from a root, and rows
exist exactly for the roots and the nodes that a walk of positive value reaches. -/
theorem propagate_best_walk (timeDecay : Edge → K) (edges : List Edge)
    (principals : List (Principal K)) (roots : List (Root K)) (evaluationTime : Time)
    (hdelta : ∀ e ∈ edges, 0 ≤ e.score ∧ e.score ≤ 100)
    (hroots : (roots.map Root.id).Nodup)
    (hroot : ∀ r ∈ roots, 0 ≤ r.weight ∧ r.weight ≤ 1)
    (htrust : ∀ p ∈ principals, 0 ≤ p.trustWeight ∧ p.trustWeight ≤ 1)
    (hdecay : ∀ e ∈ edges, 0 < timeDecay e ∧ timeDecay e ≤ 1) (v : String) :
    IsGreatest ({initialRootScore roots v} ∪ walkScores timeDecay edges principals roots 4 v)
      (valueAt (propagateScores timeDecay edges principals roots).scores v) ∧
    ((∃ row ∈ (propagate timeDecay edges principals roots evaluationTime).rows,
        row.principalId = v) ↔
      (∃ r ∈ roots, r.id = v) ∨
        ∃ x ∈ walkScores timeDecay edges principals roots 4 v, 0 < x) := by
  have hbest := propagate_hops_isGreatest timeDecay edges principals roots (fun e he => (hdelta e he).1)
    hroots (fun r hr => (hroot r hr).1) (fun p hp => (htrust p hp).1)
      (fun e he => (hdecay e he).1.le) maxHops
  rw [propagate_has_row_iff, propagateScores, Graph.hopLoop_eq_iterate,
    ← valueAt_initialScores roots hroots,
    walkScores_eq_carriedTo _ _ _ _ hroots, ← initialScores_isSome_iff roots hroots]
  exact ⟨hbest.best v, hbest.row v⟩

theorem propagate_best_walk_one_edge :
    IsGreatest ({initialRootScore [⟨"r", 1⟩] "a"} ∪
        walkScores (fun _ => (1 : ℚ)) [⟨"r", "a", 100, 0⟩] [⟨"r", .issuer, 1, true⟩]
          [⟨"r", 1⟩] 4 "a") 80 := by
  have hbest := (propagate_best_walk (fun _ => (1 : ℚ)) [⟨"r", "a", 100, 0⟩]
    [⟨"r", .issuer, 1, true⟩] [⟨"r", 1⟩] 0 (by simp) (by simp) (by simp) (by simp) (by simp) "a").1
  have hvalue : valueAt (propagateScores (fun _ => (1 : ℚ)) [⟨"r", "a", 100, 0⟩]
      [⟨"r", .issuer, 1, true⟩] [⟨"r", 1⟩]).scores "a" = 80 := by decide +kernel
  rwa [hvalue] at hbest

end Main

end Verilink.Trust

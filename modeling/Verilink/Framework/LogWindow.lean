import Mathlib

/-!
# Following a log by version windows

A log holds events in ascending order of their versions, of which a reader sees only some. A window
is a half-open range of versions, low end excluded.
-/

namespace Verilink.Framework

inductive Frame (ε : Type)
  | event (e : ε)
  | cursor (v : Int)

section

variable {ε : Type} (version : ε → Int) (visible : ε → Bool)

abbrev Ascending (log : List ε) : Prop := log.Pairwise fun a b => version a < version b

/-- The visible events with `v < version ≤ w`. -/
def window (log : List ε) (v w : Int) : List ε :=
  log.filter fun e => v < version e ∧ version e ≤ w ∧ visible e

/-- The frames `fs` lead from version `v` to version `w` without a gap. -/
def Covers (log : List ε) : Int → List (Frame ε) → Int → Prop
  | v, [], w => w = v
  | v, .event e :: fs, w =>
    window version visible log v (version e) = [e] ∧ Covers log (version e) fs w
  | v, .cursor u :: fs, w =>
    v ≤ u ∧ window version visible log v u = [] ∧ Covers log u fs w

variable {version visible} {v w : Int} {log : List ε} {e : ε} {fs : List (Frame ε)}

theorem mem_window : e ∈ window version visible log v w ↔
      e ∈ log ∧ v < version e ∧ version e ≤ w ∧ visible e = true := by
  simp [window]

@[simp]
theorem window_self (log : List ε) (v : Int) : window version visible log v v = [] := by
  rw [List.eq_nil_iff_forall_not_mem]
  intro e he
  have := mem_window.mp he
  omega

theorem window_split (h : Ascending version log) {u : Int} (hvu : v ≤ u) (huw : u ≤ w) :
    window version visible log v w =
      window version visible log v u ++ window version visible log u w := by
  induction log with
  | nil => rfl
  | cons e log ih =>
    obtain ⟨hhead, htail⟩ := List.pairwise_cons.mp h
    have ih := ih htail
    unfold window at ih ⊢
    by_cases hu : version e ≤ u
    · -- The head lies in the first window or in none.
      have hw : version e ≤ w := hu.trans huw
      have hnot : ¬ u < version e := not_lt.mpr hu
      simp only [List.filter_cons, hu, hw, hnot, true_and, false_and, decide_false,
        Bool.false_eq_true, if_false]
      split_ifs
      · rw [ih, List.cons_append]
      · exact ih
    · -- The first window is empty, as the log ascends.
      have hempty : (e :: log).filter (fun e => v < version e ∧ version e ≤ u ∧ visible e) = [] := by
        rw [List.filter_eq_nil_iff]
        intro x hx
        rcases List.mem_cons.mp hx with rfl | hx
        · simp [hu]
        · have := hhead x hx
          have hxu : ¬ version x ≤ u := by omega
          simp [hxu]
      rw [hempty, List.nil_append]
      apply List.filter_congr
      intro x hx
      have hxu : u < version x := by
        rcases List.mem_cons.mp hx with rfl | hx
        · omega
        · have := hhead x hx
          omega
      simp [hxu, hvu.trans_lt hxu]

theorem window_append_later (log : List ε) (e : ε) (h : w < version e) :
    window version visible (log ++ [e]) v w = window version visible log v w := by
  have hnot : ¬ version e ≤ w := not_le.mpr h
  simp [window, hnot]

theorem window_to_head (h : Ascending version log) {rest : List ε}
    (hw : window version visible log v w = e :: rest) :
    window version visible log v (version e) = [e] ∧
      window version visible log (version e) w = rest := by
  have he := mem_window.mp (hw ▸ List.mem_cons_self : e ∈ window version visible log v w)
  have hsplit : window version visible log v w = _ := window_split h he.2.1.le he.2.2.1
  have hself : e ∈ window version visible log v (version e) :=
    mem_window.mpr ⟨he.1, he.2.1, le_refl _, he.2.2.2⟩
  cases hfirst : window version visible log v (version e) with
  | nil => simp [hfirst] at hself
  | cons x xs =>
    rw [hw, hfirst, List.cons_append, List.cons.injEq] at hsplit
    obtain ⟨rfl, hrest⟩ := hsplit
    cases xs with
    | nil => exact ⟨rfl, hrest.symm⟩
    | cons y ys =>
      -- A second event would have a version above that of the first.
      have hy := mem_window.mp (hfirst ▸ by simp : y ∈ window version visible log v (version e))
      have hasc : Ascending version (window version visible log v (version e)) := h.filter _
      rw [hfirst] at hasc
      have := (List.pairwise_cons.mp hasc).1 y (by simp)
      omega

theorem window_of_split {pre post : List ε} (h : Ascending version log)
    (hsplit : log.filter visible = pre ++ e :: post) (hpre : ∀ x ∈ pre, version x ≤ v)
    (hlt : v < version e) :
    window version visible log v (version e) = [e] := by
  have hwindow : window version visible log v (version e) =
      (log.filter visible).filter fun x => v < version x ∧ version x ≤ version e := by
    rw [List.filter_filter]
    apply List.filter_congr
    intro x _
    simp only [Bool.decide_and, Bool.decide_eq_true, Bool.and_assoc]
  have hasc : Ascending version (pre ++ e :: post) := hsplit ▸ h.filter _
  have hpost := (List.pairwise_cons.mp (List.pairwise_append.mp hasc).2.1).1
  have hnone : pre.filter (fun x => v < version x ∧ version x ≤ version e) = [] := by
    apply List.filter_eq_nil_iff.mpr
    intro x hx
    simp [not_lt.mpr (hpre x hx)]
  have hlater : post.filter (fun x => v < version x ∧ version x ≤ version e) = [] := by
    apply List.filter_eq_nil_iff.mpr
    intro x hx
    simp [not_le.mpr (hpost x hx)]
  rw [hwindow, hsplit, List.filter_append, hnone, List.filter_cons_of_pos (by simp [hlt]), hlater]
  rfl

theorem Covers.le (h : Covers version visible log v fs w) : v ≤ w := by
  induction fs generalizing v with
  | nil => exact h.symm.le
  | cons f fs ih =>
    cases f with
    | event e =>
      have he := mem_window.mp (h.1 ▸ List.mem_singleton_self e)
      exact he.2.1.le.trans (ih h.2)
    | cursor u => exact h.1.trans (ih h.2.2)

theorem covers_append {gs : List (Frame ε)} : Covers version visible log v (fs ++ gs) w ↔
      ∃ u, Covers version visible log v fs u ∧ Covers version visible log u gs w := by
  induction fs generalizing v with
  | nil => simp [Covers]
  | cons f fs ih =>
    cases f with
    | event e => simp only [List.cons_append, Covers, ih, exists_and_left, and_assoc]
    | cursor u => simp only [List.cons_append, Covers, ih, exists_and_left, and_assoc]

theorem Covers.append_later (e : ε) (h : Covers version visible log v fs w) (hlater : w < version e) :
    Covers version visible (log ++ [e]) v fs w := by
  induction fs generalizing v with
  | nil => exact h
  | cons f fs ih =>
    cases f with
    | event x =>
      refine ⟨?_, ih h.2⟩
      rw [window_append_later log e (h.2.le.trans_lt hlater)]
      exact h.1
    | cursor u =>
      refine ⟨h.1, ?_, ih h.2.2⟩
      rw [window_append_later log e (h.2.2.le.trans_lt hlater)]
      exact h.2.1

theorem covers_window (h : Ascending version log) (hvw : v ≤ w) :
    Covers version visible log v
      ((window version visible log v w).map .event ++ [.cursor w]) w := by
  generalize hes : window version visible log v w = es
  induction es generalizing v with
  | nil => exact ⟨hvw, hes, rfl⟩
  | cons e es ih =>
    have he := mem_window.mp (hes ▸ List.mem_cons_self : e ∈ window version visible log v w)
    obtain ⟨hhead, hrest⟩ := window_to_head h hes
    exact ⟨hhead, ih he.2.2.1 hrest⟩

end

end Verilink.Framework

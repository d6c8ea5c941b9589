import Verilink.Framework.KeyedList
import Mathlib.Data.List.Sort

/-!
# Grouping by a key

A fold that pushes every element onto the group of its key leaves one group per key, with the
elements of that key in their order.
-/

namespace Verilink.Framework

namespace Grouped

variable {α κ β : Type*} [DecidableEq κ]

def push (groups : List (κ × List α)) (k : κ) (x : α) : List (κ × List α) :=
  if groups.any (fun g => g.1 = k) then
    groups.map fun g => if g.1 = k then (g.1, g.2 ++ [x]) else g
  else groups ++ [(k, [x])]

def groupBy (key : α → κ) (l : List α) : List (κ × List α) :=
  l.foldl (fun groups x => push groups (key x) x) []

variable (key : α → κ)

theorem groupBy_concat (l : List α) (x : α) :
    groupBy key (l ++ [x]) = push (groupBy key l) (key x) x := by
  simp [groupBy]

theorem keys_push (groups : List (κ × List α)) (k : κ) (x : α) : (push groups k x).map Prod.fst =
      if k ∈ groups.map Prod.fst then groups.map Prod.fst else groups.map Prod.fst ++ [k] := by
  have hany : groups.any (fun g => g.1 = k) = true ↔ k ∈ groups.map Prod.fst := by
    simp [List.any_eq_true, List.mem_map]
  rw [push]
  by_cases hk : k ∈ groups.map Prod.fst
  · rw [if_pos (hany.mpr hk), if_pos hk, List.map_map]
    apply List.map_congr_left
    intro g _
    simp only [Function.comp_apply]
    split_ifs <;> rfl
  · rw [if_neg (fun h => hk (hany.mp h)), if_neg hk]
    simp

theorem mem_keys_groupBy (l : List α) (k : κ) :
    k ∈ (groupBy key l).map Prod.fst ↔ k ∈ l.map key := by
  induction l using List.reverseRecOn with
  | nil => simp [groupBy]
  | append_singleton l x ih =>
    rw [groupBy_concat, keys_push, List.map_append, List.mem_append, ← ih]
    split_ifs with hx
    · constructor
      · exact Or.inl
      · rintro (h | h)
        · exact h
        · simpa [List.mem_singleton.mp h] using hx
    · simp

theorem nodup_keys_groupBy (l : List α) : ((groupBy key l).map Prod.fst).Nodup := by
  induction l using List.reverseRecOn with
  | nil => simp [groupBy]
  | append_singleton l x ih =>
    rw [groupBy_concat, keys_push]
    split_ifs with hx
    · exact ih
    · exact List.Nodup.append ih (List.nodup_singleton _) (by simpa using hx)

theorem snd_of_mem_groupBy {l : List α} {g : κ × List α} (hg : g ∈ groupBy key l) :
    g.2 = l.filter fun x => key x = g.1 := by
  induction l using List.reverseRecOn generalizing g with
  | nil => simp [groupBy] at hg
  | append_singleton l x ih =>
    rw [groupBy_concat, push] at hg
    rw [List.filter_append]
    split_ifs at hg with hany
    · obtain ⟨g', hg', rfl⟩ := List.mem_map.mp hg
      by_cases hk : g'.1 = key x
      · simp [hk, ih hg']
      · simp [hk, Ne.symm hk, ih hg']
    · have hnew : key x ∉ l.map key := by
        rw [← mem_keys_groupBy]
        simpa [List.mem_map] using hany
      rcases List.mem_append.mp hg with hold | hlast
      · have hk : key x ≠ g.1 := by
          intro h
          apply hnew
          rw [h, ← mem_keys_groupBy]
          exact List.mem_map_of_mem hold
        simp [hk, ih hold]
      · rw [List.mem_singleton.mp hlast]
        have hnone : l.filter (fun y => key y = key x) = [] := by
          rw [List.filter_eq_nil_iff]
          intro y hy hkey
          exact hnew (List.mem_map.mpr ⟨y, hy, of_decide_eq_true hkey⟩)
        simp [hnone]

section Representatives

variable (r : α → α → Prop) [DecidableRel r]

def representatives (l : List α) : List α :=
  (groupBy key l).filterMap fun g => (g.2.insertionSort r).head?

variable [Std.Total r] [IsTrans α r]

theorem head?_insertionSort {l : List α} (hl : l ≠ []) :
    ∃ a ∈ l, (l.insertionSort r).head? = some a ∧ ∀ b ∈ l, r a b := by
  cases hsort : l.insertionSort r with
  | nil =>
    have hperm := List.perm_insertionSort r l
    rw [hsort] at hperm
    exact absurd hperm.symm.eq_nil hl
  | cons a rest =>
    have hmem : ∀ b, b ∈ a :: rest ↔ b ∈ l := by
      intro b
      rw [← hsort, List.mem_insertionSort]
    refine ⟨a, (hmem a).mp List.mem_cons_self, rfl, ?_⟩
    intro b hb
    have hsorted := List.pairwise_insertionSort r l
    rw [hsort, List.pairwise_cons] at hsorted
    rcases List.mem_cons.mp ((hmem b).mpr hb) with rfl | hrest
    · exact (Std.Total.total b b : r b b ∨ r b b).elim id id
    · exact hsorted.1 b hrest

/-- The representative of a group has its key and comes before the whole group. -/
theorem head?_of_mem_groupBy {l : List α} {g : κ × List α} (hg : g ∈ groupBy key l) :
    ∃ a ∈ l, (g.2.insertionSort r).head? = some a ∧ key a = g.1 ∧
      ∀ b ∈ l, key b = g.1 → r a b := by
  have hgroup := snd_of_mem_groupBy key hg
  have hne : g.2 ≠ [] := by
    obtain ⟨x, hx, hkey⟩ := List.mem_map.mp ((mem_keys_groupBy key l g.1).mp (List.mem_map_of_mem hg))
    rw [hgroup]
    exact List.ne_nil_of_mem (List.mem_filter.mpr ⟨hx, by simpa using hkey⟩)
  obtain ⟨a, ha, hhead, hfirst⟩ := head?_insertionSort r hne
  rw [hgroup] at ha hfirst
  simp only [List.mem_filter, decide_eq_true_eq] at ha hfirst
  exact ⟨a, ha.1, hhead, ha.2, fun b hb hkey => hfirst b ⟨hb, hkey⟩⟩

theorem map_key_representatives (l : List α) :
    (representatives key r l).map key = (groupBy key l).map Prod.fst := by
  have hsome : ∀ g ∈ groupBy key l, ((g.2.insertionSort r).head?).map key = some g.1 := by
    intro g hg
    obtain ⟨a, _, hhead, hkey, _⟩ := head?_of_mem_groupBy key r hg
    rw [hhead, Option.map_some, hkey]
  rw [representatives, List.map_filterMap]
  exact (List.filterMap_congr hsome).trans (by rw [List.filterMap_eq_map'])

theorem nodup_map_key_representatives (l : List α) :
    ((representatives key r l).map key).Nodup := by
  rw [map_key_representatives]
  exact nodup_keys_groupBy key l

theorem mem_map_key_representatives (l : List α) (k : κ) :
    k ∈ (representatives key r l).map key ↔ k ∈ l.map key := by
  rw [map_key_representatives]
  exact mem_keys_groupBy key l k

theorem of_mem_representatives {l : List α} {a : α} (ha : a ∈ representatives key r l) :
    a ∈ l ∧ ∀ b ∈ l, key b = key a → r a b := by
  obtain ⟨g, hg, hhead⟩ := List.mem_filterMap.mp ha
  obtain ⟨a', ha', hhead', hkey, hfirst⟩ := head?_of_mem_groupBy key r hg
  rw [hhead] at hhead'
  cases hhead'
  rw [hkey]
  exact ⟨ha', hfirst⟩

/-- Exactly one representative for every key that occurs. -/
theorem filter_representatives {l : List α} {x : α} (hx : x ∈ l) :
    ∃ a ∈ l, (representatives key r l).filter (fun b => key b = key x) = [a] ∧ key a = key x ∧
      ∀ b ∈ l, key b = key x → r a b := by
  obtain ⟨a, ha, hkey⟩ :=
    List.mem_map.mp ((mem_map_key_representatives key r l (key x)).mpr (List.mem_map_of_mem hx))
  obtain ⟨hmem, hfirst⟩ := of_mem_representatives key r ha
  rw [hkey] at hfirst
  refine ⟨a, hmem, ?_, hkey, hfirst⟩
  rw [← hkey]
  exact filter_key_of_mem key (nodup_map_key_representatives key r l) ha

/-- Values that the order determines within a group do not depend on the order of the list. -/
theorem map_representatives_perm {l l' : List α} (val : α → β) (hperm : l'.Perm l)
    (hval : ∀ a ∈ l, ∀ b ∈ l, key a = key b → r a b → r b a → val a = val b) :
    ((representatives key r l').map val).Perm ((representatives key r l).map val) := by
  apply map_perm_of_keys key val (nodup_map_key_representatives key r l')
    (nodup_map_key_representatives key r l)
  · intro k
    rw [mem_map_key_representatives, mem_map_key_representatives]
    exact (hperm.map key).mem_iff
  · intro a ha b hb hkey
    obtain ⟨ha', hfirst⟩ := of_mem_representatives key r ha
    obtain ⟨hb', hfirst'⟩ := of_mem_representatives key r hb
    have hal := hperm.mem_iff.mp ha'
    have hbl := hperm.mem_iff.mpr hb'
    exact hval a hal b hb' hkey (hfirst b hbl hkey.symm) (hfirst' a hal hkey)

end Representatives

end Grouped

end Verilink.Framework

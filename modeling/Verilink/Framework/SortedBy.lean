import Mathlib.Data.List.Sort

/-!
# Sorting by a key

When the key tells the elements of a list apart, the sorted list depends on which elements there
are and not on the order in which they come.
-/

namespace Verilink.Framework

variable {α β κ : Type} [LinearOrder κ]

def sortBy (key : α → κ) (l : List α) : List α := l.insertionSort fun a b => key a ≤ key b

variable {key : α → κ} {l l' : List α}

theorem perm_sortBy (key : α → κ) (l : List α) : (sortBy key l).Perm l := List.perm_insertionSort _ l

theorem pairwise_sortBy (key : α → κ) (l : List α) :
    (sortBy key l).Pairwise fun a b => key a ≤ key b := by
  have : Std.Total fun a b => key a ≤ key b := ⟨fun a b => le_total (key a) (key b)⟩
  have : IsTrans α fun a b => key a ≤ key b := ⟨fun _ _ _ => le_trans⟩
  exact List.pairwise_insertionSort _ l

theorem eq_of_pairwise_of_perm (hl : l.Pairwise fun a b => key a ≤ key b)
    (hl' : l'.Pairwise fun a b => key a ≤ key b) (hkey : (l.map key).Nodup) (h : l.Perm l') :
    l = l' := by
  refine h.eq_of_pairwise ?_ hl hl'
  intro a b ha hb hab hba
  exact List.inj_on_of_nodup_map hkey ha (h.mem_iff.mpr hb) (le_antisymm hab hba)

theorem sortBy_congr (hkey : (l.map key).Nodup) (h : l.Perm l') : sortBy key l = sortBy key l' := by
  have hperm : (sortBy key l).Perm (sortBy key l') :=
    ((perm_sortBy key l).trans h).trans (perm_sortBy key l').symm
  have hnodup : ((sortBy key l).map key).Nodup := ((perm_sortBy key l).map key).nodup_iff.mpr hkey
  exact eq_of_pairwise_of_perm (pairwise_sortBy key l) (pairwise_sortBy key l') hnodup hperm

end Verilink.Framework

import Verilink.Framework.Fallible

/-!
# Lists with a key

A table with a unique key is a list whose keys are distinct. Looking a key up in such a list
and loading the list into a finite map agree.
-/

namespace Verilink.Framework

variable {α κ β : Type*} [DecidableEq κ] (key : α → κ) (val : α → β) (l : List α)

theorem find?_key_eq_none_iff (k : κ) :
    l.find? (fun x => key x = k) = none ↔ k ∉ l.map key := by
  simp [List.find?_eq_none]

theorem find?_key_filter_ne (k k' : κ) : (l.filter fun x => key x ≠ k).find? (fun x => key x = k') =
      if k' = k then none else l.find? fun x => key x = k' := by
  induction l with
  | nil => simp
  | cons x l ih =>
    by_cases hx : key x = k
    · rw [List.filter_cons_of_neg (by simp [hx]), ih]
      by_cases hk : k' = k
      · simp [hk]
      · have hne : ¬ key x = k' := fun h => hk (h.symm.trans hx)
        simp [hk, hne]
    · rw [List.filter_cons_of_pos (by simp [hx])]
      by_cases hk' : key x = k'
      · have hne : ¬ k' = k := fun h => hx (hk'.trans h)
        simp [hk', hne]
      · rw [List.find?_cons_of_neg (by simp [hk']), ih, List.find?_cons_of_neg (by simp [hk'])]

theorem find?_key_eq_some_iff (hn : (l.map key).Nodup) (k : κ) (r : α) :
    l.find? (fun x => key x = k) = some r ↔ r ∈ l ∧ key r = k := by
  constructor
  · intro h
    exact ⟨List.mem_of_find?_eq_some h, by simpa using List.find?_some h⟩
  · rintro ⟨hr, rfl⟩
    cases hf : l.find? (fun x => key x = key r) with
    | none => exact absurd (List.mem_map_of_mem hr) ((find?_key_eq_none_iff key l _).mp hf)
    | some s =>
      have hs : key s = key r := by simpa using List.find?_some hf
      rw [List.inj_on_of_nodup_map hn (List.mem_of_find?_eq_some hf) hr hs]

theorem find?_key_perm {l l' : List α} (h : l.Perm l') (hn : (l.map key).Nodup) (k : κ) :
    l.find? (fun x => key x = k) = l'.find? fun x => key x = k := by
  have hn' : (l'.map key).Nodup := (h.map key).nodup hn
  apply Option.ext
  intro r
  rw [find?_key_eq_some_iff key l hn, find?_key_eq_some_iff key l' hn', h.mem_iff]

theorem filter_key_of_mem {l : List α} (hn : (l.map key).Nodup) {a : α} (ha : a ∈ l) :
    l.filter (fun x => key x = key a) = [a] := by
  induction l with
  | nil => cases ha
  | cons x l ih =>
    obtain ⟨hx, hl⟩ := List.nodup_cons.mp hn
    rcases List.mem_cons.mp ha with rfl | ha'
    · have hnone : l.filter (fun x => key x = key a) = [] := by
        rw [List.filter_eq_nil_iff]
        intro y hy hkey
        exact hx (List.mem_map.mpr ⟨y, hy, of_decide_eq_true hkey⟩)
      simp [hnone]
    · have hne : key x ≠ key a := fun h => hx (h ▸ List.mem_map_of_mem ha')
      rw [List.filter_cons_of_neg (by simpa using hne)]
      exact ih hl ha'

theorem filter_key_eq_toList {l : List α} (hn : (l.map key).Nodup) (k : κ) :
    l.filter (fun x => key x = k) = (l.find? fun x => key x = k).toList := by
  cases hfind : l.find? fun x => key x = k with
  | none =>
    have habsent := (find?_key_eq_none_iff key l k).mp hfind
    rw [Option.toList_none, List.filter_eq_nil_iff]
    intro x hx hkey
    exact habsent (List.mem_map.mpr ⟨x, hx, of_decide_eq_true hkey⟩)
  | some a =>
    obtain ⟨ha, rfl⟩ := (find?_key_eq_some_iff key l hn k a).mp hfind
    exact filter_key_of_mem key hn ha

theorem map_perm_of_keys {l l' : List α} (hn : (l.map key).Nodup) (hn' : (l'.map key).Nodup)
    (hkeys : ∀ k, k ∈ l.map key ↔ k ∈ l'.map key)
    (hval : ∀ a ∈ l, ∀ b ∈ l', key a = key b → val a = val b) :
    (l.map val).Perm (l'.map val) := by
  -- the value of a key, read in the second list
  let valueOf (k : κ) : Option β := (l'.find? fun x => key x = k).map val
  have hright : l'.map (fun b => some (val b)) = (l'.map key).map valueOf := by
    rw [List.map_map]
    apply List.map_congr_left
    intro b hb
    have hfind := (find?_key_eq_some_iff key l' hn' (key b) b).mpr ⟨hb, rfl⟩
    simp [valueOf, hfind]
  have hleft : l.map (fun a => some (val a)) = (l.map key).map valueOf := by
    rw [List.map_map]
    apply List.map_congr_left
    intro a ha
    obtain ⟨b, hb, hkey⟩ := List.mem_map.mp ((hkeys (key a)).mp (List.mem_map_of_mem ha))
    have hfind := (find?_key_eq_some_iff key l' hn' (key a) b).mpr ⟨hb, hkey⟩
    simp [valueOf, hfind, hval a ha b hb hkey.symm]
  have hperm : (l.map key).Perm (l'.map key) := (List.perm_ext_iff_of_nodup hn hn').mpr hkeys
  have hsome : ((l.map val).map some).Perm ((l'.map val).map some) := by
    rw [List.map_map, List.map_map]
    change (l.map fun a => some (val a)).Perm (l'.map fun b => some (val b))
    rw [hleft, hright]
    exact hperm.map valueOf
  exact (List.map_perm_map_iff (Option.some_injective β)).mp hsome

theorem lookup_foldl_insert (hn : (l.map key).Nodup) (m : Finmap fun _ : κ => β) (k : κ) :
    (l.foldl (fun m x => m.insert (key x) (val x)) m).lookup k =
      ((l.find? fun x => key x = k).map val).or (m.lookup k) := by
  induction l generalizing m with
  | nil => simp
  | cons x l ih =>
    obtain ⟨hx, hl⟩ := List.nodup_cons.mp hn
    rw [List.foldl_cons, ih hl]
    by_cases hk : key x = k
    · subst hk
      rw [(find?_key_eq_none_iff key l _).mpr hx]
      simp
    · rw [Finmap.lookup_insert_of_ne _ (Ne.symm hk)]
      simp [hk]

theorem foldl_insert_perm {l l' : List α} (h : l.Perm l') (hn : (l.map key).Nodup) :
    l.foldl (fun (m : Finmap fun _ : κ => β) x => m.insert (key x) (val x)) ∅ =
      l'.foldl (fun m x => m.insert (key x) (val x)) ∅ := by
  apply Finmap.ext_lookup
  intro k
  rw [lookup_foldl_insert key val l hn, lookup_foldl_insert key val l' ((h.map key).nodup hn),
    find?_key_perm key h hn]

def mapOf (l : List α) : Finmap fun _ : κ => α := l.foldl (fun m x => m.insert (key x) x) ∅

theorem lookup_mapOf (hn : (l.map key).Nodup) (k : κ) :
    (mapOf key l).lookup k = l.find? fun x => key x = k := by
  have h := lookup_foldl_insert key id l hn ∅ k
  simpa [mapOf] using h

theorem lookup_mapOf_eq_some_iff (hn : (l.map key).Nodup) (k : κ) (r : α) :
    (mapOf key l).lookup k = some r ↔ r ∈ l ∧ key r = k := by
  rw [lookup_mapOf key l hn, find?_key_eq_some_iff key l hn]

/-- The entries of a map, in some order. -/
structure Listing (m : Finmap fun _ : κ => β) where
  entries : List (Sigma fun _ : κ => β)
  nodup : entries.NodupKeys
  complete : entries.toFinmap = m

namespace Listing

variable {m : Finmap fun _ : κ => α} (l : Listing m) {key : α → κ}

def values : List α := l.entries.map Sigma.snd

theorem lookup_eq_some_iff {k : κ} {a : α} : m.lookup k = some a ↔ ⟨k, a⟩ ∈ l.entries := by
  have hlookup : m.lookup k = l.entries.dlookup k := by
    rw [← Finmap.dlookup_list_toFinmap, l.complete]
  rw [hlookup]
  exact List.mem_dlookup_iff l.nodup

theorem mem_values {a : α} : a ∈ l.values ↔ ∃ k, m.lookup k = some a := by
  simp only [l.lookup_eq_some_iff, values, List.mem_map, Sigma.exists, exists_eq_right]

theorem nodup_values (hkey : ∀ k a, m.lookup k = some a → key a = k) : (l.values.map key).Nodup := by
  have hkeys : l.values.map key = l.entries.keys := by
    unfold values
    rw [List.map_map]
    apply List.map_congr_left
    intro s hs
    exact hkey s.1 s.2 (l.lookup_eq_some_iff.mpr hs)
  rw [hkeys]
  exact l.nodup

theorem mapOf_values (hkey : ∀ k a, m.lookup k = some a → key a = k) : mapOf key l.values = m := by
  apply Finmap.ext_lookup
  intro k
  apply Option.ext
  intro a
  rw [lookup_mapOf_eq_some_iff key _ (l.nodup_values hkey), l.mem_values]
  constructor
  · rintro ⟨⟨k', hk'⟩, rfl⟩
    rw [hkey k' a hk']
    exact hk'
  · intro h
    exact ⟨⟨k, h⟩, hkey k a h⟩

end Listing

section Load

variable {α κ β ε : Type} [DecidableEq κ] (key : α → κ)
  (step : (Finmap fun _ : κ => α) → β → Except ε (Finmap fun _ : κ => α))
  (decode : β → Except ε α)

/-- Loading decoded entries one by one, with an error for a key that is already there,
succeeds exactly when every entry decodes and the keys are new and distinct. -/
theorem foldlM_load_eq_ok (hstep : ∀ m b m', step m b = .ok m' ↔
      ∃ a, decode b = .ok a ∧ m.lookup (key a) = none ∧ m' = m.insert (key a) a)
    (l : List β) (m m' : Finmap fun _ : κ => α) :
    l.foldlM step m = .ok m' ↔ ∃ as, l.mapM decode = .ok as ∧ (as.map key).Nodup ∧
      (∀ a ∈ as, m.lookup (key a) = none) ∧
        m' = as.foldl (fun m a => m.insert (key a) a) m := by
  induction l generalizing m with
  | nil =>
    simp only [List.foldlM_nil, List.mapM_nil, pure, Except.pure, Except.ok.injEq]
    constructor
    · intro h
      exact ⟨[], rfl, List.nodup_nil, by simp, h.symm⟩
    · rintro ⟨as, rfl, -, -, h⟩
      exact h.symm
  | cons b l ih =>
    rw [List.foldlM_cons, List.mapM_cons, bind_eq_ok]
    simp only [hstep, ih, bind_eq_ok]
    constructor
    · rintro ⟨_, ⟨a, hb, hnew, rfl⟩, as, has, hnodup, hfresh, hm'⟩
      have hne : ∀ c ∈ as, key c ≠ key a := by
        intro c hc heq
        have := hfresh c hc
        rw [heq, Finmap.lookup_insert] at this
        cases this
      refine ⟨a :: as, ⟨a, hb, as, has, rfl⟩, ?_, ?_, hm'⟩
      · rw [List.map_cons, List.nodup_cons]
        refine ⟨?_, hnodup⟩
        intro hmem
        obtain ⟨c, hc, heq⟩ := List.mem_map.mp hmem
        exact hne c hc heq
      · rw [List.forall_mem_cons]
        refine ⟨hnew, fun c hc => ?_⟩
        rw [← Finmap.lookup_insert_of_ne m (hne c hc)]
        exact hfresh c hc
    · rintro ⟨_, ⟨a, hb, as, has, hcons⟩, hnodup, hfresh, hm'⟩
      cases hcons
      rw [List.map_cons, List.nodup_cons] at hnodup
      rw [List.forall_mem_cons] at hfresh
      refine ⟨_, ⟨a, hb, hfresh.1, rfl⟩, as, has, hnodup.2, fun c hc => ?_, hm'⟩
      have hne : key c ≠ key a := fun heq => hnodup.1 (heq ▸ List.mem_map_of_mem hc)
      rw [Finmap.lookup_insert_of_ne m hne]
      exact hfresh.2 c hc

end Load

section Upsert

/-- `INSERT ... ON CONFLICT (key) DO UPDATE`: the row with the key of `a` is updated, and `a` is
stored if there is none. -/
def upsert (update : α → α) (a : α) : List α → List α
  | [] => [a]
  | x :: l => if key x = key a then update x :: l else x :: upsert update a l

variable {key} {update : α → α} {a : α}

variable (hkey : ∀ x, key (update x) = key x)
include hkey

theorem map_key_upsert (l : List α) : (upsert key update a l).map key =
      if key a ∈ l.map key then l.map key else l.map key ++ [key a] := by
  induction l with
  | nil => simp [upsert]
  | cons x l ih =>
    rw [upsert]
    by_cases hx : key x = key a
    · simp [hx, hkey]
    · rw [if_neg hx, List.map_cons, ih]
      by_cases hl : key a ∈ l.map key
      · simp [hl]
      · simp [hl, Ne.symm hx]

theorem nodup_upsert {l : List α} (hn : (l.map key).Nodup) :
    ((upsert key update a l).map key).Nodup := by
  rw [map_key_upsert hkey]
  by_cases hl : key a ∈ l.map key
  · rw [if_pos hl]
    exact hn
  · rw [if_neg hl]
    exact hn.append (List.nodup_singleton _) (by simpa using hl)

theorem upsert_upsert (htwice : ∀ x, update (update x) = update x) (hnew : update a = a) (l : List α) :
    upsert key update a (upsert key update a l) = upsert key update a l := by
  induction l with
  | nil => simp [upsert, hnew]
  | cons x l ih =>
    by_cases hx : key x = key a
    · simp [upsert, hx, hkey, htwice]
    · simp [upsert, hx, ih]

theorem filter_upsert (p : κ → Bool) (l : List α) : (upsert key update a l).filter (fun x => p (key x)) =
      if p (key a) then upsert key update a (l.filter fun x => p (key x))
      else l.filter fun x => p (key x) := by
  induction l with
  | nil => cases hp : p (key a) <;> simp [upsert, hp]
  | cons x l ih =>
    by_cases hx : key x = key a
    · cases hp : p (key a) <;> simp [upsert, hx, hkey, hp]
    · cases hp : p (key a) <;> cases hpx : p (key x) <;> simp_all [upsert]

omit hkey

theorem filter_upsert_const (a : α) (k : κ) (l : List α) :
    (upsert key (fun _ => a) a l).filter (fun x => key x = k) =
      if key a = k then a :: (l.filter fun x => key x = k).tail
      else l.filter fun x => key x = k := by
  induction l with
  | nil => by_cases hk : key a = k <;> simp [upsert, hk]
  | cons x l ih =>
    by_cases hx : key x = key a
    · by_cases hk : key a = k <;> simp [upsert, hx, hk]
    · by_cases hk : key a = k
      · subst hk
        simpa [upsert, hx] using ih
      · rw [if_neg hk] at ih ⊢
        rw [upsert, if_neg hx, List.filter_cons, List.filter_cons, ih]

end Upsert

section SortedKeys

variable {κ β : Type*} [LinearOrder κ] (m : Finmap fun _ : κ => β)

def sortedKeys : List κ := m.keys.sort (· ≤ ·)

theorem mem_sortedKeys (k : κ) : k ∈ sortedKeys m ↔ (m.lookup k).isSome := by
  rw [sortedKeys, Finset.mem_sort, Finmap.mem_keys, Finmap.lookup_isSome]

theorem nodup_sortedKeys : (sortedKeys m).Nodup := Finset.sort_nodup _ _

theorem sortedKeys_eq {keys : List κ} (hkeys : m.keys = keys.toFinset)
    (hsorted : keys.Pairwise (· < ·)) :
    sortedKeys m = keys := by
  rw [sortedKeys, hkeys]
  exact (List.toFinset_sort _ (hsorted.imp ne_of_lt)).mpr (hsorted.imp le_of_lt)

end SortedKeys

end Verilink.Framework

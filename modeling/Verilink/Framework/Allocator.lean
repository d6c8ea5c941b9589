import Verilink.Framework.Runs

/-!
# Keys allocated by transactions

A table with a numeric primary key whose inserts take the largest key they see plus one, written by
transactions at the level READ COMMITTED.
-/

namespace Verilink.Framework

/-- An open transaction: the rows it inserted, the row a started statement is to insert, whether it
holds the lock, and whether a statement failed on a key that was stored. -/
structure Txn (ρ : Type) where
  own : List (Nat × ρ) := []
  pending : Option (Nat × ρ) := none
  locked : Bool := false
  failed : Bool := false

def Txn.Ready {ρ : Type} (x : Txn ρ) : Prop := x.pending = none ∧ x.failed = false

def Txn.Allocating {ρ : Type} (x : Txn ρ) : Prop := x.pending ≠ none ∨ x.own ≠ []

/-- The committed rows, in the order in which they became visible, and the open transactions. -/
structure Allocator (τ ρ : Type) where
  committed : List (Nat × ρ) := []
  txn : τ → Option (Txn ρ) := fun _ => none

inductive AllocatorOp (ρ : Type)
  | begin
  | lock
  | start (row : ρ)
  | insert
  | duplicate
  | commit
  | abort

namespace Allocator

variable {τ ρ : Type}

def keys (rows : List (Nat × ρ)) : List Nat := rows.map Prod.fst

/-- `COALESCE(MAX(key), 0) + 1` of what the transaction sees. -/
def nextKey (s : Allocator τ ρ) (x : Txn ρ) : Nat := (keys (s.committed ++ x.own)).foldl max 0 + 1

variable [DecidableEq τ]

def set (s : Allocator τ ρ) (t : τ) (x : Option (Txn ρ)) : Allocator τ ρ :=
  { s with txn := Function.update s.txn t x }

/-- A step of the transaction `t`. An insert of a key that another open transaction holds has no
step: it waits. -/
inductive Step (s : Allocator τ ρ) : τ × AllocatorOp ρ → Allocator τ ρ → Prop
  | begin {t : τ} (hnew : s.txn t = none) : Step s (t, .begin) (s.set t (some {}))
  | lock {t : τ} {x : Txn ρ} (hopen : s.txn t = some x) (hready : x.Ready)
      (hfree : ∀ u y, s.txn u = some y → y.locked = false) :
      Step s (t, .lock) (s.set t (some { x with locked := true }))
  | start {t : τ} {x : Txn ρ} {row : ρ} (hopen : s.txn t = some x) (hready : x.Ready) :
      Step s (t, .start row) (s.set t (some { x with pending := some (s.nextKey x, row) }))
  | insert {t : τ} {x : Txn ρ} {r : Nat × ρ} (hopen : s.txn t = some x) (hpending : x.pending = some r)
      (hnew : r.1 ∉ keys (s.committed ++ x.own))
      (hfree : ∀ u y, u ≠ t → s.txn u = some y → r.1 ∉ keys y.own) :
      Step s (t, .insert) (s.set t (some { x with own := x.own ++ [r], pending := none }))
  | duplicate {t : τ} {x : Txn ρ} {r : Nat × ρ} (hopen : s.txn t = some x)
    (hpending : x.pending = some r)
      (hstored : r.1 ∈ keys (s.committed ++ x.own)) :
      Step s (t, .duplicate) (s.set t (some { x with pending := none, failed := true }))
  | commit {t : τ} {x : Txn ρ} (hopen : s.txn t = some x) (hready : x.Ready) :
      Step s (t, .commit) { committed := s.committed ++ x.own, txn := Function.update s.txn t none }
  | abort {t : τ} {x : Txn ρ} (hopen : s.txn t = some x) : Step s (t, .abort) (s.set t none)

variable (τ ρ) in
def system : System (Allocator τ ρ) (τ × AllocatorOp ρ) where
  init s := s = {}
  step := Step

/-! ## No gaps -/

theorem foldl_max_range' (n : Nat) : (List.range' 1 n).foldl max 0 = n := by
  induction n with
  | zero => rfl
  | succ n ih =>
    rw [List.range'_concat, List.foldl_append, ih]
    simp
    omega

/-- The committed keys are `1..n`; an open transaction holds the keys that follow them or none, and
only one holds any. A started statement is to insert at most the key after those. -/
structure Gapless (s : Allocator τ ρ) : Prop where
  committed : keys s.committed = List.range' 1 s.committed.length
  own : ∀ t x, s.txn t = some x → keys x.own = List.range' (s.committed.length + 1) x.own.length
  sole : ∀ t x u y, s.txn t = some x → s.txn u = some y → x.own ≠ [] → y.own ≠ [] → t = u
  pending : ∀ t x r, s.txn t = some x → x.pending = some r →
    0 < r.1 ∧ r.1 ≤ s.committed.length + x.own.length + 1 ∧
      (x.own ≠ [] → r.1 = s.committed.length + x.own.length + 1)

theorem txn_set (s : Allocator τ ρ) (t u : τ) (x : Option (Txn ρ)) :
    (s.set t x).txn u = if u = t then x else s.txn u :=
  Function.update_apply _ _ _ _

theorem ended {f : τ → Option (Txn ρ)} {t u : τ} {y : Txn ρ} (h : Function.update f t none u = some y) :
    u ≠ t ∧ f u = some y := by
  rw [Function.update_apply] at h
  split_ifs at h with hut
  exact ⟨hut, h⟩

omit [DecidableEq τ] in
theorem gapless_init : Gapless ({} : Allocator τ ρ) where
  committed := rfl
  own _ _ h := by cases h
  sole _ _ _ _ h := by cases h
  pending _ _ _ h := by cases h

namespace Gapless

variable {s : Allocator τ ρ} {t : τ} {x : Txn ρ}

theorem set (h : s.Gapless) (hown : keys x.own = List.range' (s.committed.length + 1) x.own.length)
    (hsole : x.own ≠ [] → ∀ u y, u ≠ t → s.txn u = some y → y.own = [])
    (hpending : ∀ r, x.pending = some r → 0 < r.1 ∧ r.1 ≤ s.committed.length + x.own.length + 1 ∧
      (x.own ≠ [] → r.1 = s.committed.length + x.own.length + 1)) :
    (s.set t (some x)).Gapless where
  committed := h.committed
  own u y hu := by
    rw [txn_set] at hu
    split_ifs at hu
    · cases hu
      exact hown
    · exact h.own u y hu
  sole u y v z hu hv hy hz := by
    rw [txn_set] at hu hv
    split_ifs at hu hv with hut hvt hvt
    · rw [hut, hvt]
    · cases hu
      exact absurd (hsole hy v z hvt hv) hz
    · cases hv
      exact absurd (hsole hz u y hut hu) hy
    · exact h.sole u y v z hu hv hy hz
  pending u y r hu hr := by
    rw [txn_set] at hu
    split_ifs at hu
    · cases hu
      exact hpending r hr
    · exact h.pending u y r hu hr

theorem set_none (h : s.Gapless) : (s.set t none).Gapless where
  committed := h.committed
  own u y hu := h.own u y (ended hu).2
  sole u y v z hu hv := h.sole u y v z (ended hu).2 (ended hv).2
  pending u y r hu := h.pending u y r (ended hu).2

omit [DecidableEq τ] in
theorem own_eq_nil (h : s.Gapless) (hopen : s.txn t = some x) (hx : x.own ≠ []) (u : τ) (y : Txn ρ)
    (hu : u ≠ t) (hy : s.txn u = some y) : y.own = [] := by
  by_contra hne
  exact hu (h.sole u y t x hy hopen hne hx)

omit [DecidableEq τ] in
theorem keys_view (h : s.Gapless) (hopen : s.txn t = some x) :
    keys (s.committed ++ x.own) = List.range' 1 (s.committed.length + x.own.length) := by
  have hsplit : List.range' 1 s.committed.length ++ List.range' (s.committed.length + 1) x.own.length =
      List.range' 1 (s.committed.length + x.own.length) := by
    rw [Nat.add_comm s.committed.length 1]
    exact List.range'_append_1
  rw [keys, List.map_append, ← keys, ← keys, h.committed, h.own t x hopen, hsplit]

omit [DecidableEq τ] in
theorem nextKey_eq (h : s.Gapless) (hopen : s.txn t = some x) :
    s.nextKey x = s.committed.length + x.own.length + 1 := by
  rw [nextKey, h.keys_view hopen, foldl_max_range']

omit [DecidableEq τ] in
theorem pending_eq (h : s.Gapless) {r : Nat × ρ} (hopen : s.txn t = some x)
    (hpending : x.pending = some r) (hnew : r.1 ∉ keys (s.committed ++ x.own)) :
    r.1 = s.committed.length + x.own.length + 1 := by
  obtain ⟨hpos, hle, -⟩ := h.pending t x r hopen hpending
  rw [h.keys_view hopen, List.mem_range'_1] at hnew
  omega

theorem insert (h : s.Gapless) {r : Nat × ρ} (hopen : s.txn t = some x) (hpending : x.pending = some r)
    (hnew : r.1 ∉ keys (s.committed ++ x.own))
    (hfree : ∀ u y, u ≠ t → s.txn u = some y → r.1 ∉ keys y.own) :
    (s.set t (some { x with own := x.own ++ [r], pending := none })).Gapless := by
  have hkey := h.pending_eq hopen hpending hnew
  apply h.set
  · have hown := h.own t x hopen
    simp only [keys, List.map_append, List.map_cons, List.map_nil, List.length_append,
      List.length_singleton]
    rw [keys] at hown
    rw [hown, hkey, List.range'_concat]
    congr 2
    omega
  · intro _ u y hu hy
    by_cases hx : x.own = []
    · by_contra hne
      -- The other transaction would hold the key that is inserted here.
      apply hfree u y hu hy
      rw [h.own u y hy, hkey, hx, List.mem_range'_1]
      have := List.length_pos_iff.mpr hne
      simp only [List.length_nil]
      omega
    · exact h.own_eq_nil hopen hx u y hu hy
  · intro r hr
    cases hr

theorem commit (h : s.Gapless) (hopen : s.txn t = some x) :
    Gapless { committed := s.committed ++ x.own, txn := Function.update s.txn t none } := by
  by_cases hx : x.own = []
  · rw [hx, List.append_nil]
    exact h.set_none
  · refine ⟨?_, ?_, ?_, ?_⟩
    · rw [h.keys_view hopen, List.length_append]
    · intro u y hu
      have hy := h.own_eq_nil hopen hx u y (ended hu).1 (ended hu).2
      simp [hy, keys]
    · intro u y v z hu _ hy
      exact absurd (h.own_eq_nil hopen hx u y (ended hu).1 (ended hu).2) hy
    · intro u y r hu hr
      obtain ⟨hpos, hle, -⟩ := h.pending u y r (ended hu).2 hr
      have hy := h.own_eq_nil hopen hx u y (ended hu).1 (ended hu).2
      refine ⟨hpos, ?_, fun hne => absurd hy hne⟩
      simp only [List.length_append]
      omega

theorem step (h : s.Gapless) {a : τ × AllocatorOp ρ} {s' : Allocator τ ρ} (hstep : Step s a s') :
    s'.Gapless := by
  cases hstep with
  | begin hnew => exact h.set rfl (fun hne => absurd rfl hne) (fun r hr => by cases hr)
  | @lock t x hopen hready hfree =>
    have hsole := h.own_eq_nil hopen
    exact h.set (h.own t x hopen) hsole (h.pending t x · hopen)
  | @start t x row hopen hready =>
    have hsole := h.own_eq_nil hopen
    refine h.set (h.own t x hopen) hsole ?_
    intro r hr
    cases hr
    rw [h.nextKey_eq hopen]
    exact ⟨Nat.succ_pos _, le_rfl, fun _ => rfl⟩
  | insert hopen hpending hnew hfree => exact h.insert hopen hpending hnew hfree
  | @duplicate t x r hopen hpending hstored =>
    have hsole := h.own_eq_nil hopen
    refine h.set (h.own t x hopen) hsole ?_
    intro r hr
    cases hr
  | commit hopen hready => exact h.commit hopen
  | abort hopen => exact h.set_none

end Gapless

theorem gapless_of_reachable {s : Allocator τ ρ} (h : (system τ ρ).Reachable s) : s.Gapless := by
  have hinit : ∀ s, (system τ ρ).init s → s.Gapless := by
    intro s hs
    rw [show s = {} from hs]
    exact gapless_init
  exact h.invariant hinit fun _ _ _ hs hstep => hs.step hstep

/-! ## One allocation at a time -/

/-- At most one transaction has the lock. -/
def LockHeldOnce (s : Allocator τ ρ) : Prop :=
  ∀ t x u y, s.txn t = some x → s.txn u = some y → x.locked = true → y.locked = true → t = u

omit [DecidableEq τ] in
theorem lockHeldOnce_init : LockHeldOnce ({} : Allocator τ ρ) := by
  intro t x u y ht
  cases ht

theorem LockHeldOnce.step {s s' : Allocator τ ρ} {a : τ × AllocatorOp ρ} (h : s.LockHeldOnce)
    (hstep : Step s a s') : s'.LockHeldOnce := by
  -- A step changes one transaction, which had the lock before or takes it when it is free.
  have hset : ∀ t x, (x.locked = true → ∀ u y, u ≠ t → s.txn u = some y → y.locked = false) →
      (s.set t (some x)).LockHeldOnce := by
    intro t x hx u y v z hu hv hy hz
    rw [txn_set] at hu hv
    split_ifs at hu hv with hut hvt hvt
    · rw [hut, hvt]
    · cases hu
      rw [hx hy v z hvt hv] at hz
      cases hz
    · cases hv
      rw [hx hz u y hut hu] at hy
      cases hy
    · exact h u y v z hu hv hy hz
  have hkeep : ∀ t x, s.txn t = some x → x.locked = true → ∀ u y, u ≠ t → s.txn u = some y →
      y.locked = false := by
    intro t x hopen hx u y hu hy
    by_contra hlocked
    exact hu (h u y t x hy hopen (by simpa using hlocked) hx)
  have hnone : ∀ t, (s.set t none).LockHeldOnce := fun _ u y v z hu hv =>
      h u y v z (ended hu).2 (ended hv).2
  cases hstep with
  | begin hnew => exact hset _ _ fun hlocked => by cases hlocked
  | lock hopen hready hfree => exact hset _ _ fun _ u y _ hy => hfree u y hy
  | start hopen hready => exact hset _ _ fun hlocked => hkeep _ _ hopen hlocked
  | insert hopen hpending hnew hfree => exact hset _ _ fun hlocked => hkeep _ _ hopen hlocked
  | duplicate hopen hpending hstored => exact hset _ _ fun hlocked => hkeep _ _ hopen hlocked
  | commit hopen hready => exact hnone _
  | abort hopen => exact hnone _

/-- Only one transaction allocates, so each started statement inserts the next key and none fails.
-/
structure Exclusive (s : Allocator τ ρ) : Prop where
  sole : ∀ t x u y, s.txn t = some x → s.txn u = some y → x.Allocating → y.Allocating → t = u
  pending : ∀ t x r, s.txn t = some x → x.pending = some r → r.1 = s.committed.length + x.own.length + 1
  clean : ∀ t x, s.txn t = some x → x.failed = false

omit [DecidableEq τ] in
theorem exclusive_init : Exclusive ({} : Allocator τ ρ) where
  sole _ _ _ _ h := by cases h
  pending _ _ _ h := by cases h
  clean _ _ h := by cases h

namespace Exclusive

variable {s : Allocator τ ρ} {t : τ} {x : Txn ρ}

theorem set (h : s.Exclusive) (hsole : x.Allocating → ∀ u y, u ≠ t → s.txn u = some y → ¬ y.Allocating)
    (hpending : ∀ r, x.pending = some r → r.1 = s.committed.length + x.own.length + 1)
    (hclean : x.failed = false) :
    (s.set t (some x)).Exclusive where
  sole u y v z hu hv hy hz := by
    rw [txn_set] at hu hv
    split_ifs at hu hv with hut hvt hvt
    · rw [hut, hvt]
    · cases hu
      exact absurd hz (hsole hy v z hvt hv)
    · cases hv
      exact absurd hy (hsole hz u y hut hu)
    · exact h.sole u y v z hu hv hy hz
  pending u y r hu hr := by
    rw [txn_set] at hu
    split_ifs at hu
    · cases hu
      exact hpending r hr
    · exact h.pending u y r hu hr
  clean u y hu := by
    rw [txn_set] at hu
    split_ifs at hu
    · cases hu
      exact hclean
    · exact h.clean u y hu

theorem set_none (h : s.Exclusive) : (s.set t none).Exclusive where
  sole u y v z hu hv := h.sole u y v z (ended hu).2 (ended hv).2
  pending u y r hu := h.pending u y r (ended hu).2
  clean u y hu := h.clean u y (ended hu).2

omit [DecidableEq τ] in
theorem not_allocating (h : s.Exclusive) (hopen : s.txn t = some x) (hx : x.Allocating) (u : τ)
    (y : Txn ρ) (hu : u ≠ t) (hy : s.txn u = some y) : ¬ y.Allocating :=
  fun halloc => hu (h.sole u y t x hy hopen halloc hx)

theorem commit (h : s.Exclusive) (hopen : s.txn t = some x) :
    Exclusive { committed := s.committed ++ x.own, txn := Function.update s.txn t none } := by
  by_cases hx : x.own = []
  · rw [hx, List.append_nil]
    exact h.set_none
  · have hother : ∀ u y, Function.update s.txn t none u = some y → s.txn u = some y ∧
        ¬ y.Allocating := by
      intro u y hu
      obtain ⟨hut, hy⟩ := ended hu
      exact ⟨hy, h.not_allocating hopen (.inr hx) u y hut hy⟩
    refine ⟨?_, ?_, ?_⟩
    · intro u y v z hu _ hy
      exact absurd hy (hother u y hu).2
    · intro u y r hu hr
      exact absurd (.inl (by simp [hr])) (hother u y hu).2
    · intro u y hu
      exact h.clean u y (hother u y hu).1

theorem step (h : s.Exclusive) (hgap : s.Gapless) {a : τ × AllocatorOp ρ} {s' : Allocator τ ρ}
    (hstart : ∀ row, a.2 = .start row → ∀ u y, u ≠ a.1 → s.txn u = some y → ¬ y.Allocating)
    (hstep : Step s a s') : s'.Exclusive := by
  cases hstep with
  | begin hnew =>
    refine h.set (fun halloc => ?_) (fun r hr => by cases hr) rfl
    simp [Txn.Allocating] at halloc
  | @lock t x hopen hready hfree =>
    have hsole := h.not_allocating hopen
    exact h.set hsole (h.pending t x · hopen) (h.clean t x hopen)
  | @start t x row hopen hready =>
    refine h.set (fun _ => hstart row rfl) ?_ (h.clean t x hopen)
    intro r hr
    cases hr
    exact hgap.nextKey_eq hopen
  | @insert t x r hopen hpending hnew hfree =>
    have hsole := h.not_allocating hopen (.inl (by simp [hpending]))
    refine h.set (fun _ => hsole) ?_ (h.clean t x hopen)
    intro r hr
    cases hr
  | @duplicate t x r hopen hpending hstored =>
    rw [hgap.keys_view hopen, List.mem_range'_1, h.pending t x r hopen hpending] at hstored
    omega
  | commit hopen hready => exact h.commit hopen
  | abort hopen => exact h.set_none

end Exclusive

end Allocator

end Verilink.Framework

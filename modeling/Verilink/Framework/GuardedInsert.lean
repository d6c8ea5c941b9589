import Verilink.Framework.Runs

/-!
# Inserts that are checked under a lock

Transactions at the level READ COMMITTED insert one row each.
-/

namespace Verilink.Framework

/-- The unique column, the group a row belongs to, the lock of a group, and what is compared. -/
structure Guard (α υ κ ℓ β : Type) where
  unique : α → υ
  group : α → Option κ
  lock : κ → ℓ
  value : α → β

inductive InsertPhase
  | begun
  | fresh
  | locked
  | checked
  | inserted
  deriving DecidableEq, Repr

structure InsertTxn (α : Type) where
  row : α
  phase : InsertPhase

structure Inserts (τ α : Type) where
  committed : List α := []
  txn : τ → Option (InsertTxn α) := fun _ => none

inductive InsertOp (α : Type)
  | begin (row : α)
  | dedup
  | lock
  | check
  | insert
  | commit
  | abort

variable {τ α υ κ ℓ β : Type}

def InsertTxn.held (g : Guard α υ κ ℓ β) (x : InsertTxn α) : Option ℓ :=
  if x.phase = .begun ∨ x.phase = .fresh then none else (g.group x.row).map g.lock

namespace Inserts

variable [DecidableEq τ]

def set (s : Inserts τ α) (t : τ) (x : Option (InsertTxn α)) : Inserts τ α :=
  { s with txn := Function.update s.txn t x }

/-- A step of the transaction `t`. An insert waits for an open transaction that has inserted the
same unique value, and fails, by an abort, once that is committed. -/
inductive Step (g : Guard α υ κ ℓ β) (admissible : α → Prop) (s : Inserts τ α) :
    τ × InsertOp α → Inserts τ α → Prop
  | begin {t : τ} {a : α} (hnew : s.txn t = none) (ha : admissible a) :
      Step g admissible s (t, .begin a) (s.set t (some ⟨a, .begun⟩))
  | dedup {t : τ} {a : α} (hopen : s.txn t = some ⟨a, .begun⟩)
      (hfresh : ∀ r ∈ s.committed, g.unique r ≠ g.unique a) :
      Step g admissible s (t, .dedup) (s.set t (some ⟨a, .fresh⟩))
  | lock {t : τ} {a : α} {k : κ} (hopen : s.txn t = some ⟨a, .fresh⟩) (hgroup : g.group a = some k)
      (hfree : ∀ u y, s.txn u = some y → y.held g ≠ some (g.lock k)) :
      Step g admissible s (t, .lock) (s.set t (some ⟨a, .locked⟩))
  | check {t : τ} {a : α} (hopen : s.txn t = some ⟨a, .locked⟩)
      (hpeer : (∀ r ∈ s.committed, g.group r ≠ g.group a) ∨
        ∃ r ∈ s.committed, g.group r = g.group a ∧ g.value r = g.value a) :
      Step g admissible s (t, .check) (s.set t (some ⟨a, .checked⟩))
  | insert {t : τ} {x : InsertTxn α} (hopen : s.txn t = some x)
      (hphase : x.phase = .checked ∨ (x.phase = .fresh ∧ g.group x.row = none))
      (hnew : ∀ r ∈ s.committed, g.unique r ≠ g.unique x.row)
      (hfree : ∀ u y, s.txn u = some y → y.phase = .inserted → g.unique y.row ≠ g.unique x.row) :
      Step g admissible s (t, .insert) (s.set t (some ⟨x.row, .inserted⟩))
  | commit {t : τ} {a : α} (hopen : s.txn t = some ⟨a, .inserted⟩) :
      Step g admissible s (t, .commit)
        { committed := s.committed ++ [a], txn := Function.update s.txn t none }
  | abort {t : τ} {x : InsertTxn α} (hopen : s.txn t = some x) :
      Step g admissible s (t, .abort) (s.set t none)

variable (τ) in
def system (g : Guard α υ κ ℓ β) (admissible : α → Prop) : System (Inserts τ α) (τ × InsertOp α) where
  init s := s = {}
  step := Step g admissible

theorem txn_set (s : Inserts τ α) (t u : τ) (x : Option (InsertTxn α)) :
    (s.set t x).txn u = if u = t then x else s.txn u :=
  Function.update_apply _ _ _ _

/-! ## Rows of one group agree -/

structure Agreeing (g : Guard α υ κ ℓ β) (s : Inserts τ α) : Prop where
  exclusive : ∀ t x u y l, s.txn t = some x → s.txn u = some y → x.held g = some l →
    y.held g = some l → t = u
  grouped : ∀ t x, s.txn t = some x → x.phase = .locked ∨ x.phase = .checked → g.group x.row ≠ none
  agree : ∀ r ∈ s.committed, ∀ r' ∈ s.committed, g.group r ≠ none → g.group r = g.group r' →
    g.value r = g.value r'
  checked : ∀ t x, s.txn t = some x → x.phase = .checked ∨ x.phase = .inserted → g.group x.row ≠ none →
    ∀ r ∈ s.committed, g.group r = g.group x.row → g.value r = g.value x.row

namespace Agreeing

variable {g : Guard α υ κ ℓ β} {s : Inserts τ α} {t : τ}

omit [DecidableEq τ] in
theorem init : Agreeing g ({} : Inserts τ α) where
  exclusive _ _ _ _ _ h := by cases h
  grouped _ _ h := by cases h
  agree _ h := by cases h
  checked _ _ h := by cases h

theorem set (h : Agreeing g s) {x : InsertTxn α}
    (hfree : ∀ u y l, u ≠ t → s.txn u = some y → y.held g = some l → x.held g ≠ some l)
    (hgrouped : x.phase = .locked ∨ x.phase = .checked → g.group x.row ≠ none)
    (hchecked : x.phase = .checked ∨ x.phase = .inserted → g.group x.row ≠ none →
      ∀ r ∈ s.committed, g.group r = g.group x.row → g.value r = g.value x.row) :
    Agreeing g (s.set t (some x)) where
  exclusive u y v z l hu hv hy hz := by
    rw [txn_set] at hu hv
    split_ifs at hu hv with hut hvt hvt
    · rw [hut, hvt]
    · cases hu
      exact absurd hy (hfree v z l hvt hv hz)
    · cases hv
      exact absurd hz (hfree u y l hut hu hy)
    · exact h.exclusive u y v z l hu hv hy hz
  grouped u y hu := by
    rw [txn_set] at hu
    split_ifs at hu
    · cases hu
      exact hgrouped
    · exact h.grouped u y hu
  agree := h.agree
  checked u y hu := by
    rw [txn_set] at hu
    split_ifs at hu
    · cases hu
      exact hchecked
    · exact h.checked u y hu

theorem set_none (h : Agreeing g s) : Agreeing g (s.set t none) where
  exclusive u y v z l hu hv := by
    rw [txn_set] at hu hv
    split_ifs at hu hv
    exact h.exclusive u y v z l hu hv
  grouped u y hu := by
    rw [txn_set] at hu
    split_ifs at hu
    exact h.grouped u y hu
  agree := h.agree
  checked u y hu := by
    rw [txn_set] at hu
    split_ifs at hu
    exact h.checked u y hu

omit [DecidableEq τ] in
theorem free_of_held (h : Agreeing g s) {x y : InsertTxn α} (hopen : s.txn t = some x)
    (hheld : ∀ l, y.held g = some l → x.held g = some l) :
    ∀ u z l, u ≠ t → s.txn u = some z → z.held g = some l → y.held g ≠ some l := by
  intro u z l hu hz hl hy
  exact hu (h.exclusive u z t x l hz hopen hl (hheld l hy))

theorem commit (h : Agreeing g s) {a : α} (hopen : s.txn t = some ⟨a, .inserted⟩) :
    Agreeing g { committed := s.committed ++ [a], txn := Function.update s.txn t none } where
  exclusive := h.set_none.exclusive
  grouped := h.set_none.grouped
  agree r hr r' hr' hgroup heq := by
    have hcommitted := h.checked t _ hopen (.inr rfl)
    rw [List.mem_append, List.mem_singleton] at hr hr'
    rcases hr with hr | rfl <;> rcases hr' with hr' | rfl
    · exact h.agree r hr r' hr' hgroup heq
    · exact hcommitted (heq ▸ hgroup) r hr heq
    · exact (hcommitted hgroup r' hr' heq.symm).symm
    · rfl
  checked u y hu hphase hgroup r hr heq := by
    have hu' : u ≠ t ∧ s.txn u = some y := by
      have := txn_set s t u none
      rw [show (s.set t none).txn u = some y from hu] at this
      split_ifs at this with hut
      exact ⟨hut, this.symm⟩
    rw [List.mem_append, List.mem_singleton] at hr
    rcases hr with hr | rfl
    · exact h.checked u y hu'.2 hphase hgroup r hr heq
    · -- Two transactions of one group would both hold its lock.
      obtain ⟨k, hk⟩ := Option.ne_none_iff_exists'.mp hgroup
      have hy : y.held g = some (g.lock k) := by
        rcases hphase with hphase | hphase <;> simp [InsertTxn.held, hphase, hk]
      have ht : InsertTxn.held g ⟨r, .inserted⟩ = some (g.lock k) := by
        simp [InsertTxn.held, heq, hk]
      exact absurd (h.exclusive u y t _ _ hu'.2 hopen hy ht) hu'.1

theorem step {admissible : α → Prop} {s' : Inserts τ α} {op : τ × InsertOp α} (h : Agreeing g s)
    (hstep : Step g admissible s op s') : Agreeing g s' := by
  cases hstep with
  | begin hnew ha => exact h.set (by simp [InsertTxn.held]) (by simp) (by simp)
  | dedup hopen hfresh => exact h.set (by simp [InsertTxn.held]) (by simp) (by simp)
  | @lock t a k hopen hgroup hfree =>
    refine h.set ?_ (by simp [hgroup]) (by simp)
    intro u y l _ hu hl hx
    have hlk : l = g.lock k := by simpa [InsertTxn.held, hgroup, eq_comm] using hx
    exact hfree u y hu (hlk ▸ hl)
  | @check t a hopen hpeer =>
    have hgroup := h.grouped t _ hopen (.inl rfl)
    refine h.set (h.free_of_held hopen fun l hl => hl) (fun _ => hgroup) ?_
    intro _ _ r hr heq
    rcases hpeer with hnone | ⟨p, hp, hpg, hpv⟩
    · exact absurd heq (hnone r hr)
    · exact (h.agree r hr p hp (heq ▸ hgroup) (heq.trans hpg.symm)).trans hpv
  | @insert t x hopen hphase hnew hfree =>
    refine h.set (h.free_of_held hopen ?_) (by simp) ?_
    · intro l hl
      rcases hphase with hphase | ⟨_, hgroup⟩
      · simpa [InsertTxn.held, hphase] using hl
      · simp [InsertTxn.held, hgroup] at hl
    · intro _ hgroup
      rcases hphase with hphase | ⟨_, hnone⟩
      · exact h.checked t x hopen (.inl hphase) hgroup
      · exact absurd hnone hgroup
  | commit hopen => exact h.commit hopen
  | abort hopen => exact h.set_none

end Agreeing

/-! ## The unique column -/

structure Unique (g : Guard α υ κ ℓ β) (s : Inserts τ α) : Prop where
  committed : s.committed.Pairwise fun r r' => g.unique r ≠ g.unique r'
  inserted : ∀ t x, s.txn t = some x → x.phase = .inserted →
    ∀ r ∈ s.committed, g.unique r ≠ g.unique x.row
  apart : ∀ t x u y, s.txn t = some x → s.txn u = some y → x.phase = .inserted → y.phase = .inserted →
    g.unique x.row = g.unique y.row → t = u

namespace Unique

variable {g : Guard α υ κ ℓ β} {s : Inserts τ α} {t : τ}

omit [DecidableEq τ] in
theorem init : Unique g ({} : Inserts τ α) where
  committed := List.Pairwise.nil
  inserted _ _ h := by cases h
  apart _ _ _ _ h := by cases h

theorem set (h : Unique g s) {x : InsertTxn α}
    (hnew : x.phase = .inserted → ∀ r ∈ s.committed, g.unique r ≠ g.unique x.row)
    (hfree : x.phase = .inserted → ∀ u y, s.txn u = some y → y.phase = .inserted →
      g.unique y.row ≠ g.unique x.row) : Unique g (s.set t (some x)) where
  committed := h.committed
  inserted u y hu := by
    rw [txn_set] at hu
    split_ifs at hu
    · cases hu
      exact hnew
    · exact h.inserted u y hu
  apart u y v z hu hv hy hz heq := by
    rw [txn_set] at hu hv
    split_ifs at hu hv with hut hvt hvt
    · rw [hut, hvt]
    · cases hu
      exact absurd heq.symm (hfree hy v z hv hz)
    · cases hv
      exact absurd heq (hfree hz u y hu hy)
    · exact h.apart u y v z hu hv hy hz heq

theorem set_none (h : Unique g s) : Unique g (s.set t none) where
  committed := h.committed
  inserted u y hu := by
    rw [txn_set] at hu
    split_ifs at hu
    exact h.inserted u y hu
  apart u y v z hu hv := by
    rw [txn_set] at hu hv
    split_ifs at hu hv
    exact h.apart u y v z hu hv

theorem commit (h : Unique g s) {a : α} (hopen : s.txn t = some ⟨a, .inserted⟩) :
    Unique g { committed := s.committed ++ [a], txn := Function.update s.txn t none } where
  committed := by
    rw [List.pairwise_append]
    refine ⟨h.committed, List.pairwise_singleton _ _, ?_⟩
    intro r hr a' ha'
    rw [List.mem_singleton.mp ha']
    exact h.inserted t _ hopen rfl r hr
  inserted u y hu hy r hr := by
    have hopen' := txn_set s t u none
    rw [show (s.set t none).txn u = some y from hu] at hopen'
    split_ifs at hopen' with hut
    rw [List.mem_append, List.mem_singleton] at hr
    rcases hr with hr | rfl
    · exact h.inserted u y hopen'.symm hy r hr
    · intro heq
      exact hut (h.apart u y t _ hopen'.symm hopen hy rfl heq.symm)
  apart := h.set_none.apart

theorem step {admissible : α → Prop} {s' : Inserts τ α} {op : τ × InsertOp α} (h : Unique g s)
    (hstep : Step g admissible s op s') : Unique g s' := by
  cases hstep with
  | begin hnew ha => exact h.set (by simp) (by simp)
  | dedup hopen hfresh => exact h.set (by simp) (by simp)
  | lock hopen hgroup hfree => exact h.set (by simp) (by simp)
  | check hopen hpeer => exact h.set (by simp) (by simp)
  | insert hopen hphase hnew hfree => exact h.set (fun _ => hnew) (fun _ => hfree)
  | commit hopen => exact h.commit hopen
  | abort hopen => exact h.set_none

end Unique

/-! ## All rows that were begun -/

def Known (s : Inserts τ α) (r : α) : Prop := r ∈ s.committed ∨ ∃ t x, s.txn t = some x ∧ x.row = r

variable {g : Guard α υ κ ℓ β} {admissible : α → Prop} {s : Inserts τ α}

theorem known_set {t : τ} {x : Option (InsertTxn α)} {r : α} (h : (s.set t x).Known r) :
    s.Known r ∨ ∃ y, x = some y ∧ y.row = r := by
  rcases h with h | ⟨u, y, hu, rfl⟩
  · exact .inl (.inl h)
  · rw [txn_set] at hu
    split_ifs at hu
    · exact .inr ⟨y, hu, rfl⟩
    · exact .inl (.inr ⟨u, y, hu, rfl⟩)

theorem known_of_step {s' : Inserts τ α} {op : τ × InsertOp α} {r : α}
    (hstep : Step g admissible s op s')
    (h : s'.Known r) : s.Known r ∨ (op.2 = .begin r ∧ admissible r) := by
  have hset : ∀ {t : τ} {x y : InsertTxn α}, s.txn t = some x →
      (s.set t (some y)).Known r → y.row = x.row → s.Known r := by
    intro t x y hopen hknown hrow
    rcases known_set hknown with hknown | ⟨z, hz, rfl⟩
    · exact hknown
    · cases hz
      exact .inr ⟨t, x, hopen, hrow.symm⟩
  cases hstep with
  | begin hnew ha =>
    rcases known_set h with h | ⟨y, hy, rfl⟩
    · exact .inl h
    · cases hy
      exact .inr ⟨rfl, ha⟩
  | dedup hopen hfresh => exact .inl (hset hopen h rfl)
  | lock hopen hgroup hfree => exact .inl (hset hopen h rfl)
  | check hopen hpeer => exact .inl (hset hopen h rfl)
  | insert hopen hphase hnew hfree => exact .inl (hset hopen h rfl)
  | @commit t a hopen =>
    rcases h with h | ⟨u, y, hu, rfl⟩
    · rw [List.mem_append, List.mem_singleton] at h
      rcases h with h | rfl
      · exact .inl (.inl h)
      · exact .inl (.inr ⟨t, _, hopen, rfl⟩)
    · rcases known_set (x := none) (.inr ⟨u, y, hu, rfl⟩ : (s.set t none).Known y.row) with
        h | ⟨_, hz, _⟩
      · exact .inl h
      · cases hz
  | abort hopen =>
    rcases known_set h with h | ⟨_, hz, _⟩
    · exact .inl h
    · cases hz

variable {ok : Inserts τ α → τ × InsertOp α → Prop}

/-- If each row that is begun is related to all that are known, all known rows are related. -/
theorem known_related {R : α → α → Prop} (hsymm : ∀ a b, R a b → R b a) (hself : ∀ a, R a a)
    (hok : ∀ s t a, ok s (t, .begin a) → ∀ r, s.Known r → R r a)
    (h : (system τ g admissible).ReachableVia ok s) :
    ∀ r r', s.Known r → s.Known r' → R r r' := by
  induction h with
  | init hinit =>
    rw [show _ = ({} : Inserts τ α) from hinit]
    rintro r r' (h | ⟨_, _, h, _⟩)
    · cases h
    · cases h
  | @step s s' op _ hop hstep ih =>
    intro r r' hr hr'
    have hbegin : ∀ a b, s.Known a → op.2 = .begin b → R a b := by
      intro a b ha hb
      obtain ⟨t, op⟩ := op
      cases hb
      exact hok s t b hop a ha
    rcases known_of_step hstep hr with hr | ⟨hr, _⟩ <;> rcases known_of_step hstep hr' with
      hr' | ⟨hr', _⟩
    · exact ih r r' hr hr'
    · exact hbegin r r' hr hr'
    · exact hsymm _ _ (hbegin r' r hr' hr)
    · rw [hr] at hr'
      cases hr'
      exact hself r

theorem known_all {P : α → Prop} (hbegin : ∀ s t a, ok s (t, .begin a) → admissible a → P a)
    (h : (system τ g admissible).ReachableVia ok s) : ∀ r, s.Known r → P r := by
  induction h with
  | init hinit =>
    rw [show _ = ({} : Inserts τ α) from hinit]
    rintro r (h | ⟨_, _, h, _⟩)
    · cases h
    · cases h
  | @step s s' op _ hop hstep ih =>
    intro r hr
    rcases known_of_step hstep hr with hr | ⟨hr, ha⟩
    · exact ih r hr
    · obtain ⟨t, op⟩ := op
      cases hr
      exact hbegin s t r hop ha

theorem exists_committed {t : τ} {a : α} {k : κ} (h : (system τ g admissible).ReachableVia ok s)
    (hidle : ∀ u, s.txn u = none) (ha : admissible a) (hnew : ∀ r ∈ s.committed, g.unique r ≠ g.unique a)
    (hgroup : g.group a = none ∨ (g.group a = some k ∧ ((∀ r ∈ s.committed, g.group r ≠ g.group a) ∨
      ∃ r ∈ s.committed, g.group r = g.group a ∧ g.value r = g.value a))) (hbegin : ok s (t, .begin a))
    (hok : ∀ s' op, (∀ b, op ≠ .begin b) → ok s' (t, op)) :
    ∃ s', (system τ g admissible).ReachableVia ok s' ∧ s'.committed = s.committed ++ [a] ∧
      ∀ u, s'.txn u = none := by
  have hnext : ∀ s op s', (system τ g admissible).ReachableVia ok s → ok s (t, op) →
      Step g admissible s (t, op) s' → (system τ g admissible).ReachableVia ok s' :=
    fun _ op _ hs hok hstep => hs.next (t, op) hok hstep
  have hself : ∀ x, (s.set t x).txn t = x := fun x => by rw [txn_set, if_pos rfl]
  have hset : ∀ x y, (s.set t x).set t y = s.set t y := fun x y => by simp [set]
  have hothers : ∀ x u, u ≠ t → (s.set t x).txn u = none := fun x u hu => by
    rw [txn_set, if_neg hu, hidle u]
  have hsole : ∀ x u y, (s.set t (some x)).txn u = some y → y = x := by
    intro x u y hu
    by_cases hut : u = t
    · rw [hut, hself] at hu
      exact (Option.some.inj hu).symm
    · rw [hothers _ u hut] at hu
      cases hu
  have h₁ := hnext s (.begin a) _ h hbegin (.begin (hidle t) ha)
  have h₂ := hnext _ .dedup _ h₁ (hok _ _ (by simp)) (.dedup (hself _) hnew)
  rw [hset] at h₂
  have hinserted : (system τ g admissible).ReachableVia ok (s.set t (some ⟨a, .inserted⟩)) := by
    rcases hgroup with hnone | ⟨hk, hpeer⟩
    · have h₃ := hnext _ .insert _ h₂ (hok _ _ (by simp)) (.insert (hself _) (.inr ⟨rfl, hnone⟩) hnew (by
        intro u y hu hy
        rw [hsole _ u y hu] at hy
        cases hy))
      rwa [hset] at h₃
    · have h₃ := hnext _ .lock _ h₂ (hok _ _ (by simp)) (.lock (hself _) hk (by
        intro u y hu
        rw [hsole _ u y hu]
        simp [InsertTxn.held]))
      rw [hset] at h₃
      have h₄ := hnext _ .check _ h₃ (hok _ _ (by simp)) (.check (hself _) hpeer)
      rw [hset] at h₄
      have h₅ := hnext _ .insert _ h₄ (hok _ _ (by simp)) (.insert (hself _) (.inl rfl) hnew (by
        intro u y hu hy
        rw [hsole _ u y hu] at hy
        cases hy))
      rwa [hset] at h₅
  have hlast := hnext _ .commit _ hinserted (hok _ _ (by simp)) (.commit (hself _))
  refine ⟨_, hlast, rfl, ?_⟩
  intro u
  change ((s.set t _).set t none).txn u = none
  rw [hset, txn_set]
  split_ifs
  · rfl
  · exact hidle u

end Inserts

end Verilink.Framework

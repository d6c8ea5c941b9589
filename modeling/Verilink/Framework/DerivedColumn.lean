import Verilink.Framework.Runs

/-!
# A column derived from another table

A table has a Boolean column that says whether a source table has a live row under the same key.
-/

namespace Verilink.Framework

/-- What a transaction writes before it derives the column: rows that are inserted where their key
is free, and a source row that is changed. -/
inductive SourceWrite (κ ρ : Type)
  | addFlag (k : κ)
  | addSource (k : κ) (row : ρ)
  | patch (k : κ) (f : ρ → ρ)

def SourceWrite.key {κ ρ : Type} : SourceWrite κ ρ → κ
  | addFlag k => k
  | addSource k _ => k
  | patch k _ => k

/-- The derivation is one statement: `view` is the source as it was when the statement started,
and `todo` are the rows that it has not written yet. -/
inductive DeriveStage (κ ρ : Type)
  | writing
  | running (view : κ → Option ρ) (todo : Set κ)
  | done

/-- An open transaction with the writes to come, the key it derives (`none`: every row) and the
rows that it has written. -/
structure DeriveTxn (κ ρ : Type) where
  writes : List (SourceWrite κ ρ)
  target : Option κ
  stage : DeriveStage κ ρ := .writing
  source : κ → Option ρ := fun _ => none
  flag : κ → Option Bool := fun _ => none

structure SourceTables (κ ρ : Type) where
  source : κ → Option ρ
  flag : κ → Option Bool

/-- The committed tables and the open transactions. -/
structure DerivedTables (τ κ ρ : Type) where
  tables : SourceTables κ ρ
  txn : τ → Option (DeriveTxn κ ρ) := fun _ => none

inductive DeriveOp (κ ρ : Type)
  | begin (writes : List (SourceWrite κ ρ)) (target : Option κ)
  | write
  | start
  | derive (k : κ)
  | finish
  | commit
  | abort

variable {τ κ ρ : Type}

namespace DeriveTxn

def Covers (target : Option κ) (k : κ) : Prop := ∀ only ∈ target, k = only

def sees (x : DeriveTxn κ ρ) (c : SourceTables κ ρ) : SourceTables κ ρ where
  source k := (x.source k).or (c.source k)
  flag k := (x.flag k).or (c.flag k)

/-- The rows that a derivation writes. -/
def rowsToDerive (x : DeriveTxn κ ρ) (c : SourceTables κ ρ) : Set κ :=
  {k | Covers x.target k ∧ (x.sees c).flag k ≠ none}

end DeriveTxn

namespace DerivedTables

variable [DecidableEq τ] [DecidableEq κ]

def set (s : DerivedTables τ κ ρ) (t : τ) (x : Option (DeriveTxn κ ρ)) : DerivedTables τ κ ρ :=
  { s with txn := Function.update s.txn t x }

/-- No other open transaction has written the row of the key. -/
def FlagFree (s : DerivedTables τ κ ρ) (t : τ) (k : κ) : Prop :=
  ∀ u y, u ≠ t → s.txn u = some y → y.flag k = none

def SourceFree (s : DerivedTables τ κ ρ) (t : τ) (k : κ) : Prop :=
  ∀ u y, u ≠ t → s.txn u = some y → y.source k = none

def merge (s : DerivedTables τ κ ρ) (t : τ) (x : DeriveTxn κ ρ) : DerivedTables τ κ ρ where
  tables := x.sees s.tables
  txn := Function.update s.txn t none

/-- A step of the transaction `t`; what has to wait has no step. A transaction whose source row is
missing ends without having written anything. -/
inductive Step (live : ρ → Bool) (jobs : List (SourceWrite κ ρ) → Option κ → Prop)
    (s : DerivedTables τ κ ρ) : τ × DeriveOp κ ρ → DerivedTables τ κ ρ → Prop
  | begin {t : τ} {writes : List (SourceWrite κ ρ)} {target : Option κ} (hnew : s.txn t = none)
      (hjob : jobs writes target) :
      Step live jobs s (t, .begin writes target) (s.set t (some { writes, target }))
  | keepFlag {t : τ} {x : DeriveTxn κ ρ} {k : κ} {rest : List (SourceWrite κ ρ)}
      (hopen : s.txn t = some x) (hstage : x.stage = .writing) (hnext : x.writes = .addFlag k :: rest)
      (hstored : (x.sees s.tables).flag k ≠ none) :
      Step live jobs s (t, .write) (s.set t (some { x with writes := rest }))
  | addFlag {t : τ} {x : DeriveTxn κ ρ} {k : κ} {rest : List (SourceWrite κ ρ)}
      (hopen : s.txn t = some x) (hstage : x.stage = .writing) (hnext : x.writes = .addFlag k :: rest)
      (hnew : (x.sees s.tables).flag k = none) (hfree : s.FlagFree t k) :
      Step live jobs s (t, .write) (s.set t (some
        { x with writes := rest, flag := Function.update x.flag k (some false) }))
  | keepSource {t : τ} {x : DeriveTxn κ ρ} {k : κ} {row : ρ} {rest : List (SourceWrite κ ρ)}
      (hopen : s.txn t = some x) (hstage : x.stage = .writing)
      (hnext : x.writes = .addSource k row :: rest) (hstored : (x.sees s.tables).source k ≠ none) :
      Step live jobs s (t, .write) (s.set t (some { x with writes := rest }))
  | addSource {t : τ} {x : DeriveTxn κ ρ} {k : κ} {row : ρ} {rest : List (SourceWrite κ ρ)}
      (hopen : s.txn t = some x) (hstage : x.stage = .writing)
      (hnext : x.writes = .addSource k row :: rest) (hnew : (x.sees s.tables).source k = none)
      (hfree : s.SourceFree t k) (hrefers : (x.sees s.tables).flag k ≠ none) :
      Step live jobs s (t, .write) (s.set t (some
        { x with writes := rest, source := Function.update x.source k (some row) }))
  | patchNone {t : τ} {x : DeriveTxn κ ρ} {k : κ} {f : ρ → ρ} {rest : List (SourceWrite κ ρ)}
      (hopen : s.txn t = some x) (hstage : x.stage = .writing) (hnext : x.writes = .patch k f :: rest)
      (hmissing : (x.sees s.tables).source k = none)
      (hfirst : ∀ k, x.source k = none ∧ x.flag k = none) :
      Step live jobs s (t, .write) (s.set t (some { x with writes := [], stage := .done }))
  | patch {t : τ} {x : DeriveTxn κ ρ} {k : κ} {f : ρ → ρ} {row : ρ}
      {rest : List (SourceWrite κ ρ)} (hopen : s.txn t = some x) (hstage : x.stage = .writing)
      (hnext : x.writes = .patch k f :: rest) (hrow : (x.sees s.tables).source k = some row)
      (hfree : s.SourceFree t k) :
      Step live jobs s (t, .write) (s.set t (some
        { x with writes := rest, source := Function.update x.source k (some (f row)) }))
  | start {t : τ} {x : DeriveTxn κ ρ} (hopen : s.txn t = some x) (hstage : x.stage = .writing)
      (hready : x.writes = []) :
      Step live jobs s (t, .start) (s.set t (some { x with
        stage := .running (x.sees s.tables).source (x.rowsToDerive s.tables) }))
  | derive {t : τ} {x : DeriveTxn κ ρ} {view : κ → Option ρ} {todo : Set κ} {k : κ}
      (hopen : s.txn t = some x) (hstage : x.stage = .running view todo) (hk : k ∈ todo)
      (hfree : s.FlagFree t k) :
      Step live jobs s (t, .derive k) (s.set t (some { x with
        stage := .running view (todo \ {k})
        flag := Function.update x.flag k (some ((view k).any live)) }))
  | finish {t : τ} {x : DeriveTxn κ ρ} {view : κ → Option ρ} (hopen : s.txn t = some x)
      (hstage : x.stage = .running view ∅) :
      Step live jobs s (t, .finish) (s.set t (some { x with stage := .done }))
  | commit {t : τ} {x : DeriveTxn κ ρ} (hopen : s.txn t = some x) (hstage : x.stage = .done) :
      Step live jobs s (t, .commit) (s.merge t x)
  | abort {t : τ} {x : DeriveTxn κ ρ} (hopen : s.txn t = some x) :
      Step live jobs s (t, .abort) (s.set t none)

end DerivedTables

/-- The column says which keys have a live source row. -/
def SourceTables.Agrees (live : ρ → Bool) (c : SourceTables κ ρ) : Prop :=
  ∀ k b, c.flag k = some b → b = (c.source k).any live

/-- Every source row refers to a row of the derived table. -/
def SourceTables.Refers (c : SourceTables κ ρ) : Prop := ∀ k, c.source k ≠ none → c.flag k ≠ none

namespace DerivedTables

/-- A start: no transaction is open, the column is right and the references hold. -/
structure Settled (live : ρ → Bool) (s : DerivedTables τ κ ρ) : Prop where
  closed : ∀ t, s.txn t = none
  agrees : s.tables.Agrees live
  refers : s.tables.Refers

def system [DecidableEq τ] [DecidableEq κ] (live : ρ → Bool)
    (jobs : List (SourceWrite κ ρ) → Option κ → Prop) :
    System (DerivedTables τ κ ρ) (τ × DeriveOp κ ρ) where
  init := Settled live
  step := Step live jobs

/-- A transaction that commits a source row and changes whether its key is live finds no running
derivation of another transaction that still has to write the row of that key. -/
def CommitsClear (live : ρ → Bool) (s : DerivedTables τ κ ρ) (a : τ × DeriveOp κ ρ) : Prop :=
  a.2 = .commit → ∀ x, s.txn a.1 = some x → ∀ k row, x.source k = some row →
    live row ≠ (s.tables.source k).any live →
    ∀ u y view todo, u ≠ a.1 → s.txn u = some y → y.stage = .running view todo → k ∉ todo

end DerivedTables

/-! ## Runs with clear commits -/

namespace DeriveTxn

variable {live : ρ → Bool} {x : DeriveTxn κ ρ} {c c' : SourceTables κ ρ}

/-- Outside `todo` the written source rows have their column written, and the written columns are
right for what the transaction sees. -/
structure Derived (live : ρ → Bool) (x : DeriveTxn κ ρ) (c : SourceTables κ ρ) (todo : Set κ) :
    Prop where
  covered : ∀ k ∉ todo, x.source k ≠ none → x.flag k ≠ none
  right : ∀ k ∉ todo, ∀ b, x.flag k = some b → b = ((x.sees c).source k).any live

/-- What holds of an open transaction at its stage. -/
def StageSound (live : ρ → Bool) (x : DeriveTxn κ ρ) (c : SourceTables κ ρ) :
    DeriveStage κ ρ → Prop
  | .writing => (∀ w ∈ x.writes, Covers x.target w.key) ∧
      ∀ k, x.source k ≠ none ∨ x.flag k ≠ none → Covers x.target k
  | .running view todo =>
    (∀ k ∈ todo, (view k).any live = ((x.sees c).source k).any live) ∧ x.Derived live c todo
  | .done => x.Derived live c ∅

structure Sound (live : ρ → Bool) (x : DeriveTxn κ ρ) (c : SourceTables κ ρ) : Prop where
  refers : ∀ k, x.source k ≠ none → (x.sees c).flag k ≠ none
  stage : x.StageSound live c x.stage

variable {k : κ}

theorem sees_flag_ne_none_of_own (h : x.flag k ≠ none) : (x.sees c).flag k ≠ none := by
  simp [sees, h]

theorem sees_flag_ne_none (h : c.flag k ≠ none) : (x.sees c).flag k ≠ none := by
  simp [sees, h]

theorem Derived.agrees (h : x.Derived live c ∅) (hc : c.Agrees live) :
    (x.sees c).Agrees live := by
  intro k b hb
  cases hflag : x.flag k with
  | some b' =>
    simp only [sees, hflag, Option.some_or, Option.some.injEq] at hb
    rw [← hb]
    exact h.right k (Set.notMem_empty k) b' hflag
  | none =>
    have hsource : x.source k = none := by
      by_contra hne
      exact h.covered k (Set.notMem_empty k) hne hflag
    simp only [sees, hflag, hsource, Option.none_or] at hb ⊢
    exact hc k b hb

theorem Derived.refers (h : x.Derived live c ∅) (hc : c.Refers) : (x.sees c).Refers := by
  intro k hk
  by_cases hsource : x.source k = none
  · simp only [sees, hsource, Option.none_or] at hk
    exact sees_flag_ne_none (hc k hk)
  · exact sees_flag_ne_none_of_own (h.covered k (Set.notMem_empty k) hsource)

theorem Sound.write (h : x.Sound live c) (hstage : x.stage = .writing) {w : SourceWrite κ ρ}
    {rest : List (SourceWrite κ ρ)} (hnext : x.writes = w :: rest) {source : κ → Option ρ}
    {flag : κ → Option Bool} (hsource : ∀ k, source k ≠ none → x.source k ≠ none ∨ k = w.key)
    (hflag : ∀ k, flag k ≠ none → x.flag k ≠ none ∨ k = w.key)
    (hrefers : ∀ k, source k ≠ none → (flag k).or (c.flag k) ≠ none) :
    ({ x with writes := rest, source := source, flag := flag } : DeriveTxn κ ρ).Sound live c := by
  have hsound := h.stage
  rw [hstage] at hsound
  obtain ⟨hwrites, hown⟩ := hsound
  rw [hnext, List.forall_mem_cons] at hwrites
  refine ⟨hrefers, ?_⟩
  show StageSound live _ c x.stage
  rw [hstage]
  refine ⟨hwrites.2, ?_⟩
  intro k hk
  rcases hk with hk | hk
  · rcases hsource k hk with hold | rfl
    · exact hown k (.inl hold)
    · exact hwrites.1
  · rcases hflag k hk with hold | rfl
    · exact hown k (.inr hold)
    · exact hwrites.1

theorem Sound.start (h : x.Sound live c) (hstage : x.stage = .writing) :
    ({ x with stage := .running (x.sees c).source (x.rowsToDerive c) } : DeriveTxn κ ρ).Sound
      live c := by
  have hsound := h.stage
  rw [hstage] at hsound
  refine ⟨h.refers, fun _ _ => rfl, ?_, ?_⟩
  · intro k hk hsource
    exact absurd ⟨hsound.2 k (.inl hsource), h.refers k hsource⟩ hk
  · intro k hk b hb
    have hflag : x.flag k ≠ none := by
      intro hnone
      rw [hnone] at hb
      cases hb
    exact absurd ⟨hsound.2 k (.inr hflag), sees_flag_ne_none_of_own hflag⟩ hk

theorem Sound.derive [DecidableEq κ] (h : x.Sound live c) {view : κ → Option ρ} {todo : Set κ}
    (hstage : x.stage = .running view todo) (hk : k ∈ todo) :
    ({ x with
        stage := .running view (todo \ ({k} : Set κ)),
        flag := Function.update x.flag k (some ((view k).any live)) } : DeriveTxn κ ρ).Sound
      live c := by
  have hsound := h.stage
  rw [hstage] at hsound
  obtain ⟨hview, hderived⟩ := hsound
  -- a row other than `k` that is not to be written was not to be written before
  have hrest : ∀ j ∉ todo \ {k}, j ≠ k → j ∉ todo := fun j hj hne hmem => hj ⟨hmem, hne⟩
  refine ⟨?_, fun j hj => hview j hj.1, ?_, ?_⟩
  · intro j hj
    by_cases hjk : j = k
    · simp [sees, hjk]
    · simpa [sees, hjk] using h.refers j hj
  · intro j hj hsource
    by_cases hjk : j = k
    · simp [hjk]
    · simpa [hjk] using hderived.covered j (hrest j hj hjk) hsource
  · intro j hj b hb
    by_cases hjk : j = k
    · subst hjk
      simp only [Function.update_self, Option.some.injEq] at hb
      rw [← hb]
      exact hview j hk
    · simp only [ne_eq, hjk, not_false_eq_true, Function.update_of_ne] at hb
      exact hderived.right j (hrest j hj hjk) b hb

theorem Sound.finish (h : x.Sound live c) {view : κ → Option ρ} (hstage : x.stage = .running view ∅) :
    ({ x with stage := .done } : DeriveTxn κ ρ).Sound live c := by
  have hsound := h.stage
  rw [hstage] at hsound
  exact ⟨h.refers, hsound.2.covered, hsound.2.right⟩

/-- What a transaction has derived stays right when others commit: a committed change of a source
row comes with a write of its column, which the transaction would have waited for, or leaves the
rows to come live or not as they were. -/
theorem Sound.commit {y : DeriveTxn κ ρ} (hy : y.Sound live c) (hx : x.Derived live c ∅)
    (hlocks : ∀ k, x.flag k ≠ none → y.flag k = none)
    (hclear : ∀ view todo, y.stage = .running view todo → ∀ k ∈ todo, ∀ row, x.source k = some row →
      live row = (c.source k).any live) :
    y.Sound live (x.sees c) := by
  have hright : ∀ k b, y.flag k = some b →
      ((y.sees (x.sees c)).source k).any live = ((y.sees c).source k).any live := by
    intro k b hb
    have hsource : x.source k = none := by
      by_contra hne
      rw [hlocks k (hx.covered k (Set.notMem_empty k) hne)] at hb
      cases hb
    simp [sees, hsource]
  refine ⟨?_, ?_⟩
  · intro k hk
    have hseen := hy.refers k hk
    by_cases hflag : y.flag k = none
    · simp only [sees, hflag, Option.none_or] at hseen ⊢
      exact sees_flag_ne_none (c := c) hseen
    · exact sees_flag_ne_none_of_own hflag
  · have hstage := hy.stage
    cases hs : y.stage with
    | writing =>
      rw [hs] at hstage
      exact hstage
    | running view todo =>
      rw [hs] at hstage
      refine ⟨?_, hstage.2.covered, ?_⟩
      · intro k hk
        rw [hstage.1 k hk]
        cases hown : y.source k with
        | some row => simp [sees, hown]
        | none =>
          cases hsource : x.source k with
          | none => simp [sees, hown, hsource]
          | some row => simp [sees, hown, hsource, hclear view todo hs k hk row hsource]
      · intro k hk b hb
        rw [hright k b hb]
        exact hstage.2.right k hk b hb
    | done =>
      rw [hs] at hstage
      refine ⟨hstage.covered, ?_⟩
      intro k hk b hb
      rw [hright k b hb]
      exact hstage.right k hk b hb

end DeriveTxn

namespace DerivedTables

variable {live : ρ → Bool} {jobs : List (SourceWrite κ ρ) → Option κ → Prop}

structure Inv (live : ρ → Bool) (s : DerivedTables τ κ ρ) : Prop where
  agrees : s.tables.Agrees live
  refers : s.tables.Refers
  txns : ∀ t x, s.txn t = some x → x.Sound live s.tables
  locks : ∀ t u x y, t ≠ u → s.txn t = some x → s.txn u = some y → ∀ k, x.flag k ≠ none →
    y.flag k = none

variable {s : DerivedTables τ κ ρ} {t : τ} {x : DeriveTxn κ ρ} {k : κ}

theorem Settled.inv (h : s.Settled live) : s.Inv live where
  agrees := h.agrees
  refers := h.refers
  txns t x hx := by simp [h.closed t] at hx
  locks t _ x _ _ hx := by simp [h.closed t] at hx

theorem Inv.locks_of (h : s.Inv live) (hopen : s.txn t = some x) :
    ∀ u y, u ≠ t → s.txn u = some y → ∀ k, x.flag k ≠ none → y.flag k = none :=
  fun u y hu hy => h.locks t u x y (Ne.symm hu) hopen hy

variable [DecidableEq τ]

theorem txn_set (s : DerivedTables τ κ ρ) (t u : τ) (x : Option (DeriveTxn κ ρ)) :
    (s.set t x).txn u = if u = t then x else s.txn u :=
  Function.update_apply _ _ _ _

theorem Inv.set (h : s.Inv live) (hsound : x.Sound live s.tables)
    (hlocks : ∀ u y, u ≠ t → s.txn u = some y → ∀ k, x.flag k ≠ none → y.flag k = none) :
    (s.set t (some x)).Inv live where
  agrees := h.agrees
  refers := h.refers
  txns u y hu := by
    rw [txn_set] at hu
    split_ifs at hu
    · cases hu
      exact hsound
    · exact h.txns u y hu
  locks u v y z huv hu hv k hk := by
    rw [txn_set] at hu hv
    split_ifs at hu hv with hut hvt hvt
    · exact absurd (hut.trans hvt.symm) huv
    · cases hu
      exact hlocks v z hvt hv k hk
    · cases hv
      by_contra hz
      exact hk (hlocks u y hut hu k hz)
    · exact h.locks u v y z huv hu hv k hk

theorem Inv.abort (h : s.Inv live) (t : τ) :
    (s.set t none).Inv live where
  agrees := h.agrees
  refers := h.refers
  txns u y hu := by
    rw [txn_set] at hu
    split_ifs at hu
    exact h.txns u y hu
  locks u v y z huv hu hv := by
    rw [txn_set] at hu hv
    split_ifs at hu hv
    exact h.locks u v y z huv hu hv

theorem Inv.commit (h : s.Inv live) (hopen : s.txn t = some x) (hstage : x.stage = .done)
    (hclear : CommitsClear live s (t, .commit)) : (s.merge t x).Inv live := by
  have hderived : x.Derived live s.tables ∅ := by
    have := (h.txns t x hopen).stage
    rwa [hstage] at this
  have hother : ∀ u y, (s.merge t x).txn u = some y → u ≠ t ∧ s.txn u = some y := by
    intro u y hu
    have hcases := (Function.update_apply s.txn t none u).symm.trans hu
    split_ifs at hcases with hut
    exact ⟨hut, hcases⟩
  constructor
  · exact hderived.agrees h.agrees
  · exact hderived.refers h.refers
  · intro u y hu
    obtain ⟨hut, hy⟩ := hother u y hu
    apply (h.txns u y hy).commit hderived (h.locks t u x y (Ne.symm hut) hopen hy)
    intro view todo hrunning k hk row hrow
    by_contra hlive
    exact hclear rfl x hopen k row hrow hlive u y view todo hut hy hrunning hk
  · intro u v y z huv hu hv
    exact h.locks u v y z huv (hother u y hu).2 (hother v z hv).2

variable [DecidableEq κ]

omit [DecidableEq τ] in
theorem Inv.locks_update (h : s.Inv live) (hopen : s.txn t = some x) (hfree : s.FlagFree t k)
    (b : Bool) :
    ∀ u y, u ≠ t → s.txn u = some y → ∀ j, Function.update x.flag k (some b) j ≠ none →
      y.flag j = none := by
  intro u y hu hy j hj
  by_cases hjk : j = k
  · rw [hjk]
    exact hfree u y hu hy
  · rw [Function.update_of_ne hjk] at hj
    exact h.locks_of hopen u y hu hy j hj

omit [DecidableEq τ] in
theorem eq_or_of_update {β : Type} {f : κ → Option β} {j : κ} {b : β}
    (h : Function.update f k (some b) j ≠ none) :
    f j ≠ none ∨ j = k := by
  by_cases hjk : j = k
  · exact .inr hjk
  · rw [Function.update_of_ne hjk] at h
    exact .inl h

theorem Inv.step (hfits : ∀ writes target, jobs writes target → ∀ w ∈ writes,
    DeriveTxn.Covers target w.key)
    {s' : DerivedTables τ κ ρ} {a : τ × DeriveOp κ ρ} (h : s.Inv live) (hclear : CommitsClear live s a)
    (hstep : Step live jobs s a s') : s'.Inv live := by
  cases hstep with
  | begin hnew hjob =>
    apply h.set
    · exact ⟨by simp, hfits _ _ hjob, by simp⟩
    · simp
  | @keepFlag t x k rest hopen hstage hnext hstored =>
    have hx := h.txns t x hopen
    exact h.set (hx.write hstage hnext (fun _ => .inl) (fun _ => .inl) hx.refers)
      (h.locks_of (x := x) hopen)
  | @addFlag t x k rest hopen hstage hnext hnew hfree =>
    have hx := h.txns t x hopen
    have hrefers : ∀ j, x.source j ≠ none →
        (Function.update x.flag k (some false) j).or (s.tables.flag j) ≠ none := by
      intro j hj
      by_cases hjk : j = k
      · simp [hjk]
      · simpa [hjk, DeriveTxn.sees] using hx.refers j hj
    exact h.set (hx.write hstage hnext (fun _ => .inl) (fun _ => eq_or_of_update) hrefers)
      (h.locks_update hopen hfree false)
  | @keepSource t x k row rest hopen hstage hnext hstored =>
    have hx := h.txns t x hopen
    exact h.set (hx.write hstage hnext (fun _ => .inl) (fun _ => .inl) hx.refers)
      (h.locks_of (x := x) hopen)
  | @addSource t x k row rest hopen hstage hnext hnew hfree hrefers =>
    have hx := h.txns t x hopen
    have hrefers' : ∀ j, Function.update x.source k (some row) j ≠ none →
        (x.sees s.tables).flag j ≠ none := by
      intro j hj
      rcases eq_or_of_update hj with hold | rfl
      · exact hx.refers j hold
      · exact hrefers
    exact h.set (hx.write hstage hnext (fun _ => eq_or_of_update) (fun _ => .inl) hrefers')
      (h.locks_of (x := x) hopen)
  | @patchNone t x k f rest hopen hstage hnext hmissing hfirst =>
    have hnothing : x.Derived live s.tables ∅ := by
      refine ⟨fun j _ hj => absurd (hfirst j).1 hj, ?_⟩
      intro j _ b hb
      rw [(hfirst j).2] at hb
      cases hb
    exact h.set ⟨(h.txns t x hopen).refers, hnothing.covered, hnothing.right⟩
      (h.locks_of (x := x) hopen)
  | @patch t x k f row rest hopen hstage hnext hrow hfree =>
    have hx := h.txns t x hopen
    have hrefers : ∀ j, Function.update x.source k (some (f row)) j ≠ none →
        (x.sees s.tables).flag j ≠ none := by
      intro j hj
      rcases eq_or_of_update hj with hold | rfl
      · exact hx.refers j hold
      · -- the row that is changed was the transaction's own or a committed one
        by_cases hown : x.source j = none
        · apply DeriveTxn.sees_flag_ne_none (x := x)
          apply h.refers
          simpa [DeriveTxn.sees, hown] using ne_of_eq_of_ne hrow (Option.some_ne_none row)
        · exact hx.refers j hown
    exact h.set (hx.write hstage hnext (fun _ => eq_or_of_update) (fun _ => .inl) hrefers)
      (h.locks_of (x := x) hopen)
  | @start t x hopen hstage hready =>
    exact h.set ((h.txns t x hopen).start hstage) (h.locks_of (x := x) hopen)
  | @derive t x view todo k hopen hstage hk hfree =>
    exact h.set ((h.txns t x hopen).derive hstage hk) (h.locks_update hopen hfree _)
  | @finish t x view hopen hstage =>
    exact h.set ((h.txns t x hopen).finish hstage) (h.locks_of (x := x) hopen)
  | @commit t x hopen hstage => exact h.commit hopen hstage hclear
  | abort hopen => exact h.abort _

/-- In runs with clear commits the committed column is right at all times. -/
theorem agrees_of_reachableVia
    (hfits : ∀ writes target, jobs writes target → ∀ w ∈ writes, DeriveTxn.Covers target w.key)
    (h : (system live jobs).ReachableVia (CommitsClear live) s) : s.tables.Agrees live := by
  have hinv : s.Inv live := by
    apply h.invariant (fun s hs => Settled.inv hs)
    intro s a s' hs hclear hstep
    exact hs.step hfits hclear hstep
  exact hinv.agrees

/-! ## One transaction at a time -/

/-- A label leads to one state at most. -/
theorem Step.unique {s' s'' : DerivedTables τ κ ρ} {a : τ × DeriveOp κ ρ} (h : Step live jobs s a s')
    (h' : Step live jobs s a s'') : s' = s'' := by
  cases h <;> cases h' <;> simp_all

omit [DecidableEq κ] in
theorem set_set (s : DerivedTables τ κ ρ) (t : τ) (x y : Option (DeriveTxn κ ρ)) :
    (s.set t x).set t y = s.set t y := by
  simp [set]

omit [DecidableEq κ] in
theorem txn_set_self (s : DerivedTables τ κ ρ) (t : τ) (x : Option (DeriveTxn κ ρ)) :
    (s.set t x).txn t = x := by
  simp [set]

omit [DecidableEq κ] in
theorem FlagFree.set (h : s.FlagFree t k) (x : Option (DeriveTxn κ ρ)) : (s.set t x).FlagFree t k := by
  intro u y hu hy
  rw [txn_set, if_neg hu] at hy
  exact h u y hu hy

omit [DecidableEq κ] in
theorem SourceFree.set (h : s.SourceFree t k) (x : Option (DeriveTxn κ ρ)) :
    (s.set t x).SourceFree t k := by
  intro u y hu hy
  rw [txn_set, if_neg hu] at hy
  exact h u y hu hy

/-- The write finds its row stored and does nothing. -/
def Kept (c : SourceTables κ ρ) : SourceWrite κ ρ → Prop
  | .addFlag k => c.flag k ≠ none
  | .addSource k _ => c.source k ≠ none
  | .patch _ _ => False

variable {ok : DerivedTables τ κ ρ → τ × DeriveOp κ ρ → Prop}

theorem run_kept (hstage : x.stage = .writing) (hkept : ∀ w ∈ x.writes, Kept (x.sees s.tables) w)
    (hok : ∀ x, ok (s.set t x) (t, .write)) :
    (system live jobs).RunVia ok (x.writes.map fun _ => (t, .write)) (s.set t (some x))
      (s.set t (some { x with writes := [] })) := by
  cases x with
  | mk writes target stage source flag =>
    induction writes with
    | nil => exact .nil
    | cons w rest ih =>
      rw [List.forall_mem_cons] at hkept
      refine .cons (hok _) ?_ (ih hstage hkept.2)
      rw [← set_set s t (some ⟨w :: rest, target, stage, source, flag⟩)
        (some ⟨rest, target, stage, source, flag⟩)]
      cases w with
      | addFlag k => exact .keepFlag (txn_set_self _ _ _) hstage rfl hkept.1
      | addSource k row => exact .keepSource (txn_set_self _ _ _) hstage rfl hkept.1
      | patch k f => exact hkept.1.elim

/-- The tables after one source row is changed and its column derived. -/
def patched (live : ρ → Bool) (c : SourceTables κ ρ) (k : κ) (row : ρ) : SourceTables κ ρ where
  source := Function.update c.source k (some row)
  flag := Function.update c.flag k (some (live row))

/-- The transaction `t` that changes one source row, from its begin to its commit. -/
def patchSteps (t : τ) (k : κ) (f : ρ → ρ) : List (τ × DeriveOp κ ρ) :=
  [(t, .begin [.patch k f] (some k)), (t, .write), (t, .start), (t, .derive k), (t, .finish),
    (t, .commit)]

/-- The others stand still, and none of them has written the rows of the key. -/
theorem run_patch {f : ρ → ρ} {row : ρ}
    (hjob : jobs [.patch k f] (some k)) (hnew : s.txn t = none) (hrow : s.tables.source k = some row)
    (hrefers : s.tables.Refers) (hflag : s.FlagFree t k) (hsource : s.SourceFree t k)
    (hok : ∀ s' op, (∀ u, u ≠ t → s'.txn u = s.txn u) → ok s' (t, op)) :
    (system live jobs).RunVia ok (patchSteps t k f) s
      ⟨patched live s.tables k (f row), s.txn⟩ := by
  have hok' : ∀ x op, ok (s.set t x) (t, op) := by
    intro x op
    apply hok
    intro u hu
    rw [txn_set, if_neg hu]
  let x₀ : DeriveTxn κ ρ := { writes := [.patch k f], target := some k }
  let x₁ : DeriveTxn κ ρ :=
    { x₀ with writes := [], source := Function.update x₀.source k (some (f row)) }
  let view := (x₁.sees s.tables).source
  have hview : view k = some (f row) := by simp [view, x₁, DeriveTxn.sees]
  have hrows : x₁.rowsToDerive s.tables \ {k} = ∅ := by
    ext j
    simp only [Set.mem_sdiff, Set.mem_singleton_iff, Set.mem_empty_iff_false, iff_false, not_and,
      not_not]
    exact fun hj => hj.1 k rfl
  have hmem : k ∈ x₁.rowsToDerive s.tables := by
    refine ⟨?_, DeriveTxn.sees_flag_ne_none (hrefers k (by simp [hrow]))⟩
    intro only honly
    exact Option.some.inj honly
  let x₂ : DeriveTxn κ ρ := { x₁ with stage := .running view (x₁.rowsToDerive s.tables) }
  let x₃ : DeriveTxn κ ρ :=
    { x₂ with
      stage := .running view (x₁.rowsToDerive s.tables \ {k}),
      flag := Function.update x₂.flag k (some ((view k).any live)) }
  let x₄ : DeriveTxn κ ρ := { x₃ with stage := .done }
  have h₁ : Step live jobs (s.set t (some x₀)) (t, .write) (s.set t (some x₁)) := by
    rw [← set_set s t (some x₀) (some x₁)]
    exact .patch (txn_set_self s t (some x₀)) rfl rfl
      (show (x₀.sees s.tables).source k = some row by simp [x₀, DeriveTxn.sees, hrow])
      (hsource.set (some x₀))
  have h₂ : Step live jobs (s.set t (some x₁)) (t, .start) (s.set t (some x₂)) := by
    rw [← set_set s t (some x₁) (some x₂)]
    exact .start (txn_set_self s t (some x₁)) rfl rfl
  have h₃ : Step live jobs (s.set t (some x₂)) (t, .derive k) (s.set t (some x₃)) := by
    rw [← set_set s t (some x₂) (some x₃)]
    exact .derive (txn_set_self s t (some x₂)) rfl hmem (hflag.set (some x₂))
  have h₄ : Step live jobs (s.set t (some x₃)) (t, .finish) (s.set t (some x₄)) := by
    have hstage : x₃.stage = .running view ∅ := by simp only [x₃, hrows]
    rw [← set_set s t (some x₃) (some x₄)]
    exact .finish (txn_set_self s t (some x₃)) hstage
  have h₅ : Step live jobs (s.set t (some x₄)) (t, .commit)
      ⟨patched live s.tables k (f row), s.txn⟩ := by
    have hmerge : (s.set t (some x₄)).merge t x₄ =
        ⟨patched live s.tables k (f row), s.txn⟩ := by
      have htxn : Function.update (s.set t (some x₄)).txn t none = s.txn := by
        rw [← hnew]
        simp [set]
      rw [merge, htxn]
      congr 1
      rw [DeriveTxn.sees, patched, SourceTables.mk.injEq]
      constructor
      · funext j
        by_cases hj : j = k <;> simp [x₄, x₃, x₂, x₁, x₀, set, hj]
      · funext j
        by_cases hj : j = k <;> simp [x₄, x₃, x₂, x₁, x₀, set, hj, hview]
    rw [← hmerge]
    exact .commit (txn_set_self s t (some x₄)) rfl
  have hbegin : Step live jobs s (t, .begin [.patch k f] (some k)) (s.set t (some x₀)) :=
    .begin hnew hjob
  refine .cons (hok s _ fun _ _ => rfl) hbegin (.cons (hok' _ _) h₁ (.cons (hok' _ _) h₂ ?_))
  exact .cons (hok' _ _) h₃ (.cons (hok' _ _) h₄ (.cons (hok' _ _) h₅ .nil))

end DerivedTables

end Verilink.Framework

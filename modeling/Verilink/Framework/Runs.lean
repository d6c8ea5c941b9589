import Mathlib

/-!
# Runs of a labelled transition system

States reached by runs whose every step meets a condition on the state before it and its
label, and the induction rule for invariants of such runs.
-/

namespace Verilink.Framework

structure System (σ ι : Type) where
  init : σ → Prop
  step : σ → ι → σ → Prop

namespace System

variable {σ ι : Type} (S : System σ ι) (ok : σ → ι → Prop)

inductive ReachableVia : σ → Prop
  | init {s : σ} : S.init s → ReachableVia s
  | step {s t : σ} {a : ι} : ReachableVia s → ok s a → S.step s a t → ReachableVia t

/-- Every run counts. -/
def Reachable : σ → Prop := S.ReachableVia fun _ _ => True

/-- The states that a run through the first state comes to later. -/
def LeadsVia : σ → σ → Prop := Relation.ReflTransGen fun s t => ∃ a, ok s a ∧ S.step s a t

def Leads : σ → σ → Prop := S.LeadsVia fun _ _ => True

/-- The runs that take the given labels in turn. -/
inductive RunVia : List ι → σ → σ → Prop
  | nil {s : σ} : RunVia [] s s
  | cons {s m t : σ} {a : ι} {labels : List ι} (hok : ok s a) (hst : S.step s a m)
      (hrest : RunVia labels m t) : RunVia (a :: labels) s t

variable {S ok}

theorem ReachableVia.invariant {Inv : σ → Prop} (hinit : ∀ s, S.init s → Inv s)
    (hstep : ∀ s a t, Inv s → ok s a → S.step s a t → Inv t) {s : σ}
    (h : S.ReachableVia ok s) : Inv s := by
  induction h with
  | init h => exact hinit _ h
  | step _ hok hst ih => exact hstep _ _ _ ih hok hst

theorem ReachableVia.next {s t : σ} (a : ι) (h : S.ReachableVia ok s) (hok : ok s a)
    (hst : S.step s a t) : S.ReachableVia ok t :=
  .step h hok hst

theorem ReachableVia.reachable {s : σ} (h : S.ReachableVia ok s) : S.Reachable s := by
  induction h with
  | init h => exact .init h
  | step _ _ hst ih => exact .step ih trivial hst

theorem Reachable.invariant {Inv : σ → Prop} (hinit : ∀ s, S.init s → Inv s)
    (hstep : ∀ s a t, Inv s → S.step s a t → Inv t) {s : σ} (h : S.Reachable s) : Inv s :=
  ReachableVia.invariant hinit (fun s a t hs _ hst => hstep s a t hs hst) h

theorem Reachable.start {s : σ} (h : S.init s) : S.Reachable s := ReachableVia.init h

theorem Reachable.next {s t : σ} (a : ι) (h : S.Reachable s) (hst : S.step s a t) : S.Reachable t :=
  ReachableVia.next a h trivial hst

theorem ReachableVia.run {next : σ → ι → Option σ} {allowed : σ → ι → Bool}
    (hstep : ∀ s a t, allowed s a = true → next s a = some t → ok s a ∧ S.step s a t) {s t : σ}
    (h : S.ReachableVia ok s) (labels : List ι)
    (hrun : labels.foldlM (fun s a => if allowed s a then next s a else none) s = some t) :
    S.ReachableVia ok t := by
  induction labels generalizing s with
  | nil =>
    cases hrun
    exact h
  | cons a labels ih =>
    rw [List.foldlM_cons, Option.bind_eq_bind, Option.bind_eq_some_iff] at hrun
    obtain ⟨m, hm, hrest⟩ := hrun
    split_ifs at hm with hallowed
    obtain ⟨hok, hst⟩ := hstep s a m hallowed hm
    exact ih (h.next a hok hst) hrest

theorem ReachableVia.leads {s t : σ} (h : S.ReachableVia ok s) (hst : S.LeadsVia ok s t) :
    S.ReachableVia ok t := by
  induction hst with
  | refl => exact h
  | tail _ hstep ih =>
    obtain ⟨a, hok, ha⟩ := hstep
    exact ih.next a hok ha

theorem ReachableVia.runVia {s t : σ} {labels : List ι} (h : S.ReachableVia ok s)
    (hrun : S.RunVia ok labels s t) : S.ReachableVia ok t := by
  induction hrun with
  | nil => exact h
  | cons hok hst _ ih => exact ih (h.next _ hok hst)

/-- Where a label leads to one state at most, so does a list of labels. -/
theorem RunVia.unique (hstep : ∀ s a t t', S.step s a t → S.step s a t' → t = t')
    {s t t' : σ} {labels : List ι} (h : S.RunVia ok labels s t) (h' : S.RunVia ok labels s t') :
    t = t' := by
  induction h with
  | nil =>
    cases h'
    rfl
  | cons _ hst _ ih =>
    cases h' with
    | cons _ hst' hrest' =>
      rw [hstep _ _ _ _ hst' hst] at hrest'
      exact ih hrest'

end System

end Verilink.Framework

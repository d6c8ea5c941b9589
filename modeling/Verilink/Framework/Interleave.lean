import Mathlib.Logic.Relation

/-!
# Programs that share their state

A program is a sequence of atomic actions. Each one reads the shared state and may change it, and
the rest of the program depends on what was read. Between any two actions the environment may take
any number of steps of its own.
-/

namespace Verilink.Framework

inductive Prog (σ α : Type) : Type
  | ret (a : α) : Prog σ α
  | act (update : σ → σ) (next : σ → Prog σ α) : Prog σ α

namespace Prog

open Relation

variable {σ α β : Type}

def bind : Prog σ α → (α → Prog σ β) → Prog σ β
  | ret a, k => k a
  | act update next, k => act update fun s => (next s).bind k

instance : Monad (Prog σ) where
  pure := ret
  bind := bind

def read (f : σ → α) : Prog σ α := act id fun s => ret (f s)

def update (f : σ → α × σ) : Prog σ α := act (fun s => (f s).2) fun s => ret (f s).1

def run : Prog σ α → σ → α × σ
  | ret a, s => (a, s)
  | act update next, s => (next s).run (update s)

@[simp]
theorem run_pure (a : α) (s : σ) : (pure a : Prog σ α).run s = (a, s) := rfl

@[simp]
theorem run_read (f : σ → α) (s : σ) : (read f).run s = (f s, s) := rfl

@[simp]
theorem run_update (f : σ → α × σ) (s : σ) : (update f).run s = f s := rfl

@[simp]
theorem run_bind (p : Prog σ α) (k : α → Prog σ β) (s : σ) :
    (p >>= k).run s = (k (p.run s).1).run (p.run s).2 := by
  change (p.bind k).run s = _
  induction p generalizing s with
  | ret a => rfl
  | act update next ih => exact ih s (update s)

/-- The runs of a program with the steps `env` of others in between. -/
inductive Runs (env : σ → σ → Prop) : Prog σ α → σ → α → σ → Prop
  | ret (a : α) (s : σ) : Runs env (.ret a) s a s
  | act {update : σ → σ} {next : σ → Prog σ α} {s t : σ} {a : α} :
      Runs env (next s) (update s) a t → Runs env (.act update next) s a t
  | env {p : Prog σ α} {s s' t : σ} {a : α} : env s s' → Runs env p s' a t → Runs env p s a t

variable {env : σ → σ → Prop} {s t : σ} {a : α} {p : Prog σ α}

theorem Runs.after {s' : σ} (h : ReflTransGen env s s') (hp : Runs env p s' a t) : Runs env p s a t := by
  induction h using ReflTransGen.head_induction_on with
  | refl => exact hp
  | head hstep _ ih => exact .env hstep ih

theorem runs_pure {b : α} :
    Runs env (pure a : Prog σ α) s b t ↔ b = a ∧ ReflTransGen env s t := by
  constructor
  · intro h
    generalize hp : (pure a : Prog σ α) = p at h
    induction h with
    | ret b s =>
      cases hp
      exact ⟨rfl, .refl⟩
    | act _ _ => cases hp
    | env hstep _ ih =>
      obtain ⟨hb, hrest⟩ := ih hp
      exact ⟨hb, .head hstep hrest⟩
  · rintro ⟨rfl, h⟩
    exact .after h (.ret b t)

theorem runs_act {update : σ → σ} {next : σ → Prog σ α} : Runs env (.act update next) s a t ↔
      ∃ m, ReflTransGen env s m ∧ Runs env (next m) (update m) a t := by
  constructor
  · intro h
    generalize hp : Prog.act update next = p at h
    induction h with
    | ret _ _ => cases hp
    | act h _ =>
      cases hp
      exact ⟨_, .refl, h⟩
    | env hstep _ ih =>
      obtain ⟨m, hm, hrest⟩ := ih hp
      exact ⟨m, .head hstep hm, hrest⟩
  · rintro ⟨m, hm, hrest⟩
    exact .after hm (.act hrest)

theorem runs_read {f : σ → α} :
    Runs env (read f) s a t ↔ ∃ m, ReflTransGen env s m ∧ a = f m ∧ ReflTransGen env m t := by
  simp only [read, runs_act]
  exact exists_congr fun m => and_congr_right fun _ => runs_pure

theorem runs_update {f : σ → α × σ} : Runs env (update f) s a t ↔
      ∃ m, ReflTransGen env s m ∧ a = (f m).1 ∧ ReflTransGen env (f m).2 t := by
  simp only [update, runs_act]
  exact exists_congr fun m => and_congr_right fun _ => runs_pure

theorem runs_bind {k : α → Prog σ β} {b : β} :
    Runs env (p >>= k) s b t ↔ ∃ a m, Runs env p s a m ∧ Runs env (k a) m b t := by
  change Runs env (p.bind k) s b t ↔ _
  constructor
  · induction p generalizing s with
    | ret a => exact fun h => ⟨a, s, .ret a s, h⟩
    | act update next ih =>
      intro h
      obtain ⟨m, hm, hrest⟩ := runs_act.mp h
      obtain ⟨a, m', hp, hk⟩ := ih m hrest
      exact ⟨a, m', runs_act.mpr ⟨m, hm, hp⟩, hk⟩
  · rintro ⟨a, m, hp, hk⟩
    induction hp with
    | ret a s => exact hk
    | act _ ih => exact .act (ih hk)
    | env hstep _ ih => exact .env hstep (ih hk)

/-- The program with one step `f` of another after `n` of its actions. -/
def runAt (f : σ → σ) : Nat → Prog σ α → σ → α × σ
  | 0, p, s => p.run (f s)
  | _ + 1, ret a, s => (a, s)
  | n + 1, act update next, s => (next s).runAt f n (update s)

/-- Every result of the program, whatever it reads. -/
inductive Ensures (P : α → Prop) : Prog σ α → Prop
  | ret {a : α} : P a → Ensures P (.ret a)
  | act {update : σ → σ} {next : σ → Prog σ α} : (∀ s, Ensures P (next s)) → Ensures P (.act update next)

theorem Ensures.bind {P : β → Prop} (p : Prog σ α) {k : α → Prog σ β} (h : ∀ a, Ensures P (k a)) :
    Ensures P (p >>= k) := by
  change Ensures P (p.bind k)
  induction p with
  | ret a => exact h a
  | act update next ih => exact .act ih

theorem Runs.ensures {P : α → Prop} (h : Runs env p s a t) (hp : Ensures P p) :
    P a := by
  induction h with
  | ret a s =>
    cases hp with
    | ret ha => exact ha
  | act _ ih =>
    cases hp with
    | act hnext => exact ih (hnext _)
  | env _ _ ih => exact ih hp

/-- A program alone is one of its runs. -/
theorem runs_run (p : Prog σ α) (s : σ) : Runs env p s (p.run s).1 (p.run s).2 := by
  induction p generalizing s with
  | ret a => exact .ret a s
  | act update next ih => exact .act (ih s (update s))

theorem runs_runAt {f : σ → σ} (h : ∀ s, env s (f s)) (n : Nat) (p : Prog σ α) (s : σ) :
    Runs env p s (p.runAt f n s).1 (p.runAt f n s).2 := by
  induction n generalizing p s with
  | zero => exact .env (h s) (runs_run p (f s))
  | succ n ih =>
    cases p with
    | ret a => exact .ret a s
    | act update next => exact .act (ih (next s) (update s))

end Prog

end Verilink.Framework

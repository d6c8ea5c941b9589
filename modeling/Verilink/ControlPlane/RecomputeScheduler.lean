import Verilink.Framework.Runs

/-!
# The recompute scheduler

`RecomputeScheduler`, one step for each callback: what runs between two of them is atomic.
-/

namespace Verilink.ControlPlane

open Verilink.Framework

/-- What the scheduler waits for: a recompute of the loop, the last recompute of a loop that is
being stopped, the `finally` callback of a loop that has ended, or the recompute of `stop` itself.
-/
inductive LoopPhase
  | idle
  | awaiting
  | draining
  | returned
  | stopDraining
  deriving DecidableEq, Repr

/-- The fields of the class; a timer is there or not. For the statements, `recomputes` counts the
recomputes that were started and `owed` says that `markDirty` was accepted after the last of them.
-/
structure Scheduler where
  running : Bool := false
  dirty : Bool := false
  stopping : Bool := false
  started : Bool := false
  debounceTimer : Bool := false
  intervalTimer : Bool := false
  activeRun : Bool := false
  phase : LoopPhase := .idle
  recomputes : Nat := 0
  owed : Bool := false
  deriving DecidableEq, Repr

namespace Scheduler

def start (s : Scheduler) : Scheduler :=
  { s with stopping := false, started := true, intervalTimer := true }

def scheduleDebounce (s : Scheduler) : Scheduler :=
  if s.stopping || s.debounceTimer then s else { s with debounceTimer := true }

def markDirty (s : Scheduler) : Scheduler :=
  if s.stopping || !s.started then s
  else if s.running then { s with dirty := true, owed := true }
  else scheduleDebounce { s with dirty := true, owed := true }

def callRecompute (s : Scheduler) (phase : LoopPhase) : Scheduler :=
  { s with dirty := false, phase := phase, recomputes := s.recomputes + 1, owed := false }

def kick (s : Scheduler) : Scheduler :=
  if s.stopping && !s.running then s
  else if s.running then { s with dirty := true }
  else callRecompute { s with debounceTimer := false, running := true, activeRun := true } .awaiting

def debounceFires (s : Scheduler) : Scheduler :=
  if s.stopping then { s with debounceTimer := false } else kick { s with debounceTimer := false }

def intervalFires (s : Scheduler) : Scheduler := if s.stopping then s else kick s

/-- The recompute of the loop has ended or failed; both lead to the same look at `dirty`. -/
def resume (s : Scheduler) : Scheduler :=
  if s.dirty && !s.stopping then callRecompute s .awaiting
  else if s.stopping && s.dirty then callRecompute s .draining
  else { s with phase := .returned }

def resumeDrain (s : Scheduler) : Scheduler := { s with dirty := false, phase := .returned }

def finish (s : Scheduler) : Scheduler :=
  { s with running := false, activeRun := false, phase := .idle }

def stop (s : Scheduler) : Scheduler :=
  let s := { s with stopping := true, started := false, debounceTimer := false, intervalTimer := false }
  if s.activeRun then s
  else if s.dirty then callRecompute { s with running := true } .stopDraining
  else s

def resumeStop (s : Scheduler) : Scheduler := { s with dirty := false, running := false, phase := .idle }

inductive Callback
  | markDirty
  | kick
  | debounce
  | interval
  | resume
  | resumeDrain
  | finish
  | stop
  | resumeStop
  deriving DecidableEq, Repr

def Enabled (s : Scheduler) : Callback → Prop
  | .debounce => s.debounceTimer = true
  | .interval => s.intervalTimer = true
  | .resume => s.phase = .awaiting
  | .resumeDrain => s.phase = .draining
  | .finish => s.phase = .returned
  | .resumeStop => s.phase = .stopDraining
  | _ => True

def next (s : Scheduler) : Callback → Scheduler
  | .markDirty => s.markDirty
  | .kick => s.kick
  | .debounce => s.debounceFires
  | .interval => s.intervalFires
  | .resume => s.resume
  | .resumeDrain => s.resumeDrain
  | .finish => s.finish
  | .stop => s.stop
  | .resumeStop => s.resumeStop

def system : System Scheduler Callback where
  init s := s = start {}
  step s c t := s.Enabled c ∧ t = s.next c

/-- No trigger between the end of the run loop and its `finally` callback. -/
def NotInGap (s : Scheduler) (c : Callback) : Prop :=
  s.phase = .returned → c ≠ .markDirty ∧ c ≠ .kick ∧ c ≠ .debounce ∧ c ≠ .interval

/-- Until `stop`: the flag `running` says whether the loop waits, a loop that has ended left nothing
dirty, and what is dirty while nothing runs has its timer. -/
structure Inv (s : Scheduler) : Prop where
  started : s.stopping = false → s.started = true
  running : s.stopping = false → (s.running = true ↔ s.phase = .awaiting ∨ s.phase = .returned)
  clean : s.stopping = false → s.phase = .returned → s.dirty = false
  armed : s.stopping = false → s.running = false → s.dirty = true → s.debounceTimer = true
  owed : s.stopping = false → s.owed = true → s.dirty = true
  undrained : s.stopping = false → s.phase ≠ .draining ∧ s.phase ≠ .stopDraining

theorem inv_start : Inv (start {}) := by
  constructor <;> decide

variable {s : Scheduler}

theorem Inv.markDirty (h : s.Inv) (hgap : s.phase ≠ .returned) : s.markDirty.Inv := by
  obtain ⟨hstarted, hrunning, hclean, harmed, howed, hundrained⟩ := h
  rw [Scheduler.markDirty, Scheduler.scheduleDebounce]
  split_ifs <;> constructor <;> simp_all

/-- Whether the timer is still there does not matter: a run that starts clears it. -/
theorem Inv.kick (h : s.Inv) (hstop : s.stopping = false) (hgap : s.phase ≠ .returned) (timer : Bool) :
    (Scheduler.kick { s with debounceTimer := timer }).Inv := by
  obtain ⟨hstarted, hrunning, hclean, harmed, howed, hundrained⟩ := h
  rw [Scheduler.kick, Scheduler.callRecompute]
  split_ifs <;> constructor <;> simp_all

theorem Inv.resume (h : s.Inv) (hphase : s.phase = .awaiting) : s.resume.Inv := by
  obtain ⟨hstarted, hrunning, hclean, harmed, howed, hundrained⟩ := h
  rw [Scheduler.resume, Scheduler.callRecompute, Scheduler.callRecompute]
  cases hdirty : s.dirty <;> cases hstop : s.stopping <;> constructor <;> simp_all

theorem Inv.finish (h : s.Inv) (hphase : s.phase = .returned) : s.finish.Inv := by
  obtain ⟨hstarted, hrunning, hclean, harmed, howed, hundrained⟩ := h
  rw [Scheduler.finish]
  constructor <;> simp_all

/-- Once `stop` was called nothing is asked. -/
theorem inv_of_stopping (h : s.stopping = true) : s.Inv := by
  constructor <;> simp [h]

theorem stopping_next (h : s.stopping = true) (c : Callback) : (s.next c).stopping = true := by
  cases c with
  | markDirty => simp [next, markDirty, h]
  | kick =>
    rw [next, kick]
    split_ifs <;> exact h
  | debounce => simp [next, debounceFires, h]
  | interval => simp [next, intervalFires, h]
  | resume =>
    rw [next, resume]
    split_ifs <;> exact h
  | stop =>
    rw [next, stop]
    dsimp only
    split_ifs <;> rfl
  | _ => exact h

theorem Inv.step {t : Scheduler} {c : Callback} (h : s.Inv) (hok : s.NotInGap c)
    (hstep : system.step s c t) :
    t.Inv := by
  obtain ⟨henabled, rfl⟩ := hstep
  by_cases hstop : s.stopping = true
  · exact inv_of_stopping (stopping_next hstop c)
  have hgap : c = .markDirty ∨ c = .kick ∨ c = .debounce ∨ c = .interval → s.phase ≠ .returned := by
    intro hc hphase
    obtain ⟨h₁, h₂, h₃, h₄⟩ := hok hphase
    rcases hc with hc | hc | hc | hc
    · exact h₁ hc
    · exact h₂ hc
    · exact h₃ hc
    · exact h₄ hc
  have hnotStop : s.stopping = false := by simpa using hstop
  cases c with
  | markDirty => exact h.markDirty (hgap (by simp))
  | kick => exact h.kick hnotStop (hgap (by simp)) s.debounceTimer
  | debounce =>
    rw [next, debounceFires, if_neg hstop]
    exact h.kick hnotStop (hgap (by simp)) false
  | interval =>
    rw [next, intervalFires, if_neg hstop]
    exact h.kick hnotStop (hgap (by simp)) s.debounceTimer
  | resume => exact h.resume henabled
  | finish => exact h.finish henabled
  | resumeDrain => exact absurd henabled (h.undrained hnotStop).1
  | resumeStop => exact absurd henabled (h.undrained hnotStop).2
  | stop =>
    apply inv_of_stopping
    rw [next, stop]
    dsimp only
    split_ifs <;> rfl

/-- What `markDirty` asked for is started by the debounce timer, which is there while nothing runs,
or by the loop that runs. -/
theorem dirty_is_scheduled {s : Scheduler} (h : system.ReachableVia NotInGap s)
    (hstop : s.stopping = false) :
    (s.running = false → s.dirty = true → s.debounceTimer = true) ∧
      (s.owed = true →
        (s.running = false ∧ s.debounceTimer = true ∧ s.debounceFires.recomputes = s.recomputes + 1 ∧
          s.debounceFires.owed = false) ∨
        (s.phase = .awaiting ∧ s.resume.recomputes = s.recomputes + 1 ∧ s.resume.owed = false)) := by
  have hinv : s.Inv := by
    have hinit : ∀ s, system.init s → s.Inv := by
      intro s hs
      rw [show s = start {} from hs]
      exact inv_start
    exact h.invariant hinit fun _ _ _ hs hok hstep => hs.step hok hstep
  refine ⟨hinv.armed hstop, ?_⟩
  intro howed
  have hdirty := hinv.owed hstop howed
  cases hrunning : s.running with
  | false =>
    refine .inl ⟨rfl, hinv.armed hstop hrunning hdirty, ?_, ?_⟩
    · simp [debounceFires, kick, callRecompute, hstop, hrunning]
    · simp [debounceFires, kick, callRecompute, hstop, hrunning]
  | true =>
    have hphase : s.phase = .awaiting := by
      rcases (hinv.running hstop).mp hrunning with hphase | hphase
      · exact hphase
      · rw [hinv.clean hstop hphase] at hdirty
        cases hdirty
    refine .inr ⟨hphase, ?_, ?_⟩
    · simp [resume, callRecompute, hstop, hdirty]
    · simp [resume, callRecompute, hstop, hdirty]

theorem dirty_is_scheduled_once :
    ∃ s, system.ReachableVia NotInGap s ∧ s.stopping = false ∧ s.owed = true ∧
      ((s.running = false ∧ s.debounceTimer = true ∧ s.debounceFires.recomputes = s.recomputes + 1 ∧
          s.debounceFires.owed = false) ∨
        (s.phase = .awaiting ∧ s.resume.recomputes = s.recomputes + 1 ∧ s.resume.owed = false)) := by
  have h₀ : system.ReachableVia NotInGap (start {}) := .init rfl
  have h₁ := h₀.next Callback.kick (fun hphase => by cases hphase) ⟨trivial, rfl⟩
  have h₂ := h₁.next Callback.markDirty (fun hphase => by cases hphase) ⟨trivial, rfl⟩
  exact ⟨_, h₂, rfl, rfl, (dirty_is_scheduled h₂ rfl).2 rfl⟩

/-- The loop has looked at `dirty` for the last time when `markDirty` comes; `finally` then leaves
it dirty without a timer. -/
theorem dirty_without_timer :
    ∃ s, system.Reachable s ∧ s.stopping = false ∧ s.running = false ∧ s.dirty = true ∧
      s.debounceTimer = false := by
  have h₀ : system.Reachable (start {}) := .start rfl
  have h₁ := h₀.next Callback.kick ⟨trivial, rfl⟩
  have h₂ := h₁.next Callback.resume ⟨rfl, rfl⟩
  have h₃ := h₂.next Callback.markDirty ⟨trivial, rfl⟩
  have h₄ := h₃.next Callback.finish ⟨rfl, rfl⟩
  exact ⟨_, h₄, rfl, rfl, rfl, rfl⟩

end Scheduler

end Verilink.ControlPlane

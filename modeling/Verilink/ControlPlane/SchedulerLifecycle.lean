import Verilink.ControlPlane.RecomputeScheduler

/-!
# Several lifecycles of one scheduler

The fields of the scheduler are shared by every call that has not returned: the run loops that
`kick` has started, and the calls of `stop` that drain by themselves.
-/

namespace Verilink.ControlPlane

open Verilink.Framework

namespace Scheduler

inductive Entry
  | start
  | markDirty
  | kick
  | debounce
  | interval
  | stop
  deriving DecidableEq, Repr

def CanEnter (s : Scheduler) : Entry → Prop
  | .debounce => s.debounceTimer = true
  | .interval => s.intervalTimer = true
  | _ => True

def enter (s : Scheduler) : Entry → Scheduler
  | .start => s.start
  | .markDirty => s.markDirty
  | .kick => s.kick
  | .debounce => s.debounceFires
  | .interval => s.intervalFires
  | .stop => s.stop

def proceed (s : Scheduler) : Scheduler :=
  match s.phase with
  | .idle => s
  | .awaiting => s.resume
  | .draining => s.resumeDrain
  | .returned => s.finish
  | .stopDraining => s.resumeStop

end Scheduler

structure Lifecycle where
  shared : Scheduler := {}
  tasks : List LoopPhase := []
  deriving DecidableEq, Repr

def LoopPhase.tasks : LoopPhase → List LoopPhase
  | .idle => []
  | p => [p]

namespace Lifecycle

def enter (s : Lifecycle) (e : Scheduler.Entry) : Lifecycle :=
  let t := Scheduler.enter { s.shared with phase := .idle } e
  ⟨t, s.tasks ++ t.phase.tasks⟩

def proceed (s : Lifecycle) (i : Nat) (p : LoopPhase) : Lifecycle :=
  let t := Scheduler.proceed { s.shared with phase := p }
  ⟨t, s.tasks.take i ++ t.phase.tasks ++ s.tasks.drop (i + 1)⟩

inductive Event
  | enter (e : Scheduler.Entry)
  | proceed (i : Nat)

inductive Step (s : Lifecycle) : Event → Lifecycle → Prop
  | enter {e : Scheduler.Entry} (h : s.shared.CanEnter e) : Step s (.enter e) (s.enter e)
  | proceed {i : Nat} {p : LoopPhase} (h : s.tasks[i]? = some p) : Step s (.proceed i) (s.proceed i p)

def system : System Lifecycle Event where
  init s := s = {}
  step := Step

def inFlight (s : Lifecycle) : Nat := s.tasks.countP fun p => p ≠ .returned

/-- No `stop` while an earlier one drains and something is dirty again. -/
def NoSecondDrain (s : Lifecycle) : Event → Prop
  | .enter .stop => s.shared.dirty = true → .stopDraining ∉ s.tasks
  | _ => True

/-- At most one task, and the flags say which one: `activeRun` is set for a run loop only. -/
structure Single (s : Lifecycle) : Prop where
  tasks : s.tasks = [] ∨ ∃ p, p ≠ .idle ∧ s.tasks = [p]
  running : s.shared.running = true ↔ s.tasks ≠ []
  activeRun : s.shared.activeRun = true ↔ ∃ p ∈ s.tasks, p ≠ .stopDraining

variable {s : Lifecycle}

theorem Single.inFlight_le (h : s.Single) : s.inFlight ≤ 1 := by
  have hlength : s.tasks.length ≤ 1 := by
    rcases h.tasks with htasks | ⟨p, -, htasks⟩ <;> simp [htasks]
  exact List.countP_le_length.trans hlength

theorem Single.of_flags (h : s.Single) {t : Scheduler} (hphase : t.phase = .idle)
    (hrunning : t.running = s.shared.running) (hactive : t.activeRun = s.shared.activeRun) :
    Single ⟨t, s.tasks ++ t.phase.tasks⟩ := by
  simp only [hphase, LoopPhase.tasks, List.append_nil]
  exact ⟨h.tasks, hrunning ▸ h.running, hactive ▸ h.activeRun⟩

theorem Single.kick (h : s.Single) {t : Scheduler} (hphase : t.phase = .idle)
    (hrunning : t.running = s.shared.running) (hactive : t.activeRun = s.shared.activeRun) :
    Single ⟨t.kick, s.tasks ++ t.kick.phase.tasks⟩ := by
  unfold Scheduler.kick
  split_ifs with hstopped hbusy
  · exact h.of_flags hphase hrunning hactive
  · exact h.of_flags hphase hrunning hactive
  · have hnone : s.tasks = [] := by
      by_contra htasks
      exact hbusy (hrunning.trans (h.running.mpr htasks))
    constructor <;> simp [Scheduler.callRecompute, LoopPhase.tasks, hnone]

theorem Single.stop (h : s.Single) (hok : s.NoSecondDrain (.enter .stop)) :
    (s.enter .stop).Single := by
  simp only [Lifecycle.enter, Scheduler.enter, Scheduler.stop]
  split_ifs with hactive hdirty
  · exact h.of_flags rfl rfl rfl
  · -- Neither a run loop nor an earlier drain is left.
    have hnone : s.tasks = [] := by
      rcases h.tasks with htasks | ⟨p, -, htasks⟩
      · exact htasks
      · have hdrain : p = .stopDraining := by
          by_contra hp
          exact hactive (h.activeRun.mpr ⟨p, by simp [htasks], hp⟩)
        exact absurd (by simp [htasks, hdrain]) (hok hdirty)
    have hidle : s.shared.activeRun = false := by simpa using hactive
    constructor <;> simp [Scheduler.callRecompute, LoopPhase.tasks, hnone, hidle]
  · exact h.of_flags rfl rfl rfl

theorem Single.enter (h : s.Single) (e : Scheduler.Entry) (hok : s.NoSecondDrain (.enter e)) :
    (s.enter e).Single := by
  cases e with
  | start => exact h.of_flags rfl rfl rfl
  | markDirty =>
    simp only [Lifecycle.enter, Scheduler.enter, Scheduler.markDirty, Scheduler.scheduleDebounce]
    split_ifs <;> exact h.of_flags rfl rfl rfl
  | kick => exact h.kick rfl rfl rfl
  | debounce =>
    simp only [Lifecycle.enter, Scheduler.enter, Scheduler.debounceFires]
    split_ifs
    · exact h.of_flags rfl rfl rfl
    · exact h.kick rfl rfl rfl
  | interval =>
    simp only [Lifecycle.enter, Scheduler.enter, Scheduler.intervalFires]
    split_ifs
    · exact h.of_flags rfl rfl rfl
    · exact h.kick rfl rfl rfl
  | stop => exact h.stop hok

theorem Single.proceed (h : s.Single) {i : Nat} {p : LoopPhase} (hp : s.tasks[i]? = some p) :
    (s.proceed i p).Single := by
  rcases h.tasks with htasks | ⟨q, hq, htasks⟩
  · simp [htasks] at hp
  obtain rfl : i = 0 := by
    rw [htasks] at hp
    exact Nat.lt_one_iff.mp (List.getElem?_eq_some_iff.mp hp).1
  obtain rfl : q = p := by simpa [htasks] using hp
  have hrunning : s.shared.running = true := h.running.mpr (by simp [htasks])
  have hactive : s.shared.activeRun = true ↔ q ≠ .stopDraining := by
    rw [h.activeRun, htasks]
    simp
  simp only [Lifecycle.proceed, Scheduler.proceed, htasks]
  cases q with
  | idle => exact absurd rfl hq
  | awaiting =>
    simp only [Scheduler.resume, Scheduler.callRecompute]
    split_ifs <;> constructor <;> simp_all [LoopPhase.tasks]
  | draining => constructor <;> simp_all [Scheduler.resumeDrain, LoopPhase.tasks]
  | returned => constructor <;> simp_all [Scheduler.finish, LoopPhase.tasks]
  | stopDraining => constructor <;> simp_all [Scheduler.resumeStop, LoopPhase.tasks]

/-- With no second drain there is never a second recompute. -/
theorem one_recompute_in_flight {s : Lifecycle} (h : system.ReachableVia NoSecondDrain s) :
    s.inFlight ≤ 1 := by
  apply Single.inFlight_le
  apply h.invariant
  · intro s hinit
    obtain rfl : s = {} := hinit
    constructor <;> simp
  · intro s e t hs hok hst
    cases hst with
    | enter _ => exact hs.enter _ hok
    | proceed hp => exact hs.proceed hp

/-- Started again while the drain of the `stop` before is in flight. -/
theorem one_recompute_in_flight_restarted :
    ∃ s, system.ReachableVia NoSecondDrain s ∧ s.shared.stopping = false ∧
      s.tasks = [.stopDraining] ∧ s.inFlight ≤ 1 := by
  have h₀ : system.ReachableVia NoSecondDrain {} := .init rfl
  have h₁ := h₀.next (Event.enter .start) trivial (Step.enter trivial)
  have h₂ := h₁.next (Event.enter .markDirty) trivial (Step.enter trivial)
  have h₃ := h₂.next (Event.enter .stop) (fun _ => by decide) (Step.enter trivial)
  have h₄ := h₃.next (Event.enter .start) trivial (Step.enter trivial)
  exact ⟨_, h₄, rfl, rfl, one_recompute_in_flight h₄⟩

/-- The second `stop` does not know of the drain of the first, which has no `activeRun`. -/
theorem two_recomputes_in_flight : ∃ s, system.Reachable s ∧ s.inFlight = 2 := by
  have h₀ : system.Reachable {} := .start rfl
  have h₁ := h₀.next (Event.enter .start) (Step.enter trivial)
  have h₂ := h₁.next (Event.enter .markDirty) (Step.enter trivial)
  have h₃ := h₂.next (Event.enter .stop) (Step.enter trivial)
  have h₄ := h₃.next (Event.enter .start) (Step.enter trivial)
  have h₅ := h₄.next (Event.enter .markDirty) (Step.enter trivial)
  have h₆ := h₅.next (Event.enter .stop) (Step.enter trivial)
  exact ⟨_, h₆, by decide⟩

end Lifecycle

end Verilink.ControlPlane

import Verilink.ControlPlane.SyncLog
import Verilink.Framework.Allocator

/-!
# Sync versions under concurrent transactions

`appendEventWithClient` allocates `MAX(sync_version) + 1` inside its insert.
-/

namespace Verilink.ControlPlane

open Verilink.Framework

structure EventBody where
  eventType : SyncEventType
  principalId : Option String
  tenantId : Option Uuid
  payload : Json

def EventBody.row (r : Nat × EventBody) : SyncEventRow :=
  ⟨r.1, r.2.eventType, r.2.principalId, r.2.tenantId, r.2.payload⟩

variable {τ : Type} [DecidableEq τ]

variable (τ) in
def syncTransactions : System (Allocator τ EventBody) (τ × AllocatorOp EventBody) :=
  Allocator.system τ EventBody

variable {s s' : Allocator τ EventBody}

omit [DecidableEq τ] in
/-- A statement allocates the version that `appendEventWithClient` gives on the rows it sees. -/
theorem nextEvent_eq_row {x : Txn EventBody} {db : Database}
    (hview : db.syncEvents.rows = (s.committed ++ x.own).map EventBody.row) (eventType : SyncEventType)
    (payload : Json) (principalId : Option String) (tenantId : Option Uuid) :
    db.nextEvent eventType payload principalId tenantId =
      EventBody.row (s.nextKey x, ⟨eventType, principalId.filter (· ≠ ""), tenantId, payload⟩) := by
  have hmax : ∀ (rows : List (Nat × EventBody)) (n : Nat),
      ((rows.map EventBody.row).map SyncEventRow.syncVersion).foldl max (n : Int) =
        (((rows.map Prod.fst).foldl max n : Nat) : Int) := by
    intro rows
    induction rows with
    | nil => intro n; rfl
    | cons r rows ih =>
      intro n
      rw [List.map_cons, List.map_cons, List.map_cons, List.foldl_cons, List.foldl_cons, ← ih]
      congr 1
      exact (Nat.cast_max n r.1).symm
  rw [Database.nextEvent, Database.highWater, hview, EventBody.row, Allocator.nextKey, Allocator.keys]
  rw [show (0 : Int) = ((0 : Nat) : Int) from rfl, hmax]
  rfl

/-- The visible versions are `1..n`, and what becomes visible later is larger. -/
theorem syncVersions_gapless {s : Allocator τ EventBody} (h : (syncTransactions τ).Reachable s) :
    Allocator.keys s.committed = List.range' 1 s.committed.length ∧
      ∀ t, (syncTransactions τ).Leads s t → ∀ v ∈ Allocator.keys t.committed,
        v ∉ Allocator.keys s.committed → ∀ w ∈ Allocator.keys s.committed, w < v := by
  have hs := (Allocator.gapless_of_reachable h).committed
  refine ⟨hs, ?_⟩
  intro t hlead v hv hnew w hw
  have ht := (Allocator.gapless_of_reachable (System.ReachableVia.leads h hlead)).committed
  rw [ht, List.mem_range'_1] at hv
  rw [hs, List.mem_range'_1] at hnew hw
  omega

def smallBody : EventBody := ⟨.scoreDelete, some "p", none, .null⟩

/-- Two transactions overlap, and the one that inserts later gets the larger version. -/
theorem syncVersions_gapless_overlapping :
    ∃ s t : Allocator Bool EventBody, Allocator.keys s.committed = [1] ∧
      Allocator.keys t.committed = [1, 2] ∧
      Allocator.keys s.committed = List.range' 1 s.committed.length ∧
      ∀ v ∈ Allocator.keys t.committed, v ∉ Allocator.keys s.committed →
        ∀ w ∈ Allocator.keys s.committed, w < v := by
  have hnext : ∀ s a t, (syncTransactions Bool).Reachable s → Allocator.Step s a t →
      (syncTransactions Bool).Reachable t := fun _ a _ hs hstep => hs.next a hstep
  have hlater : ∀ r s a t, (syncTransactions Bool).Leads r s → Allocator.Step s a t →
      (syncTransactions Bool).Leads r t := fun _ _ a _ hs hstep => hs.tail ⟨a, trivial, hstep⟩
  have h₀ : (syncTransactions Bool).Reachable {} := .start rfl
  have h₁ := hnext _ (true, .begin) _ h₀ (.begin rfl)
  have h₂ := hnext _ (false, .begin) _ h₁ (.begin rfl)
  have h₃ := hnext _ (true, .start smallBody) _ h₂ (.start rfl ⟨rfl, rfl⟩)
  have h₄ := hnext _ (true, .insert) _ h₃
      (.insert rfl rfl (by decide) (by simp [Allocator.txn_set, Allocator.keys]))
  have h₅ := hnext _ (true, .commit) _ h₄ (.commit rfl ⟨rfl, rfl⟩)
  have hrefl : ∀ s, (syncTransactions Bool).Reachable s → (syncTransactions Bool).Leads s s :=
    fun _ _ => .refl
  have h₆ := hlater _ _ (false, .start smallBody) _ (hrefl _ h₅) (.start rfl ⟨rfl, rfl⟩)
  have h₇ := hlater _ _ (false, .insert) _ h₆ (.insert rfl rfl (by decide) (by simp [Allocator.txn_set]))
  have h₈ := hlater _ _ (false, .commit) _ h₇ (.commit rfl ⟨rfl, rfl⟩)
  have hgapless := syncVersions_gapless h₅
  exact ⟨_, _, rfl, rfl, hgapless.1, hgapless.2 _ h₈⟩

/-! ## The callers -/

inductive Writer
  | replaceActivePolicy
  | applyScoreTable
  | appendEvent
  deriving DecidableEq

namespace Writer

def takesLock : Writer → Bool
  | replaceActivePolicy => false
  | applyScoreTable => true
  | appendEvent => true

/-- A single event; `applyScoreTable` appends one for each score that changes. -/
def appendsOnce : Writer → Bool
  | replaceActivePolicy => true
  | applyScoreTable => false
  | appendEvent => true

/-- The order of a writer's statements. Any of them can fail, so it may end by a rollback at any
time. -/
def Follows (w : Writer) (x : Txn EventBody) : AllocatorOp EventBody → Prop
  | .lock => w.takesLock = true ∧ x.locked = false ∧ x.own = []
  | .start _ => (w.takesLock = true → x.locked = true) ∧ (w.appendsOnce = true → x.own = [])
  | .commit => (w.takesLock = true → x.locked = true) ∧ (w.appendsOnce = true → x.own ≠ [])
  | _ => True

end Writer

/-- Transactions of the three writers; `kind` says which one each is. -/
def syncWriters (kind : τ → Writer) : System (Allocator τ EventBody) (τ × AllocatorOp EventBody) where
  init s := s = {}
  step s a s' := Allocator.Step s a s' ∧ ∀ x, s.txn a.1 = some x → (kind a.1).Follows x a.2

/-- No policy is replaced while another event is being appended: when an append starts, no other
open transaction has started one if either of the two is `replaceActivePolicy`. -/
def NoPolicyOverlap (kind : τ → Writer) (s : Allocator τ EventBody)
    (a : τ × AllocatorOp EventBody) : Prop :=
  ∀ row, a.2 = .start row → ∀ u y, u ≠ a.1 → s.txn u = some y → y.Allocating →
    kind a.1 ≠ .replaceActivePolicy ∧ kind u ≠ .replaceActivePolicy

def LockDiscipline (kind : τ → Writer) (s : Allocator τ EventBody) : Prop :=
  ∀ t x, s.txn t = some x → x.Allocating → (kind t).takesLock = true → x.locked = true

omit [DecidableEq τ] in
theorem lockDiscipline_init (kind : τ → Writer) : LockDiscipline kind {} := by
  intro t x ht
  cases ht

variable {kind : τ → Writer} {a : τ × AllocatorOp EventBody}

theorem LockDiscipline.step (h : LockDiscipline kind s) (hstep : (syncWriters kind).step s a s') :
    LockDiscipline kind s' := by
  have hset : ∀ t x, (x.Allocating → (kind t).takesLock = true → x.locked = true) →
      LockDiscipline kind (s.set t (some x)) := by
    intro t x hx u y hu
    rw [Allocator.txn_set] at hu
    split_ifs at hu with hut
    · cases hu
      rw [hut]
      exact hx
    · exact h u y hu
  have hnone : ∀ t, LockDiscipline kind (s.set t none) := fun _ u y hu => h u y (Allocator.ended hu).2
  obtain ⟨hstep, hfollows⟩ := hstep
  cases hstep with
  | begin hnew =>
    refine hset _ _ fun halloc => ?_
    simp [Txn.Allocating] at halloc
  | lock hopen hready hfree => exact hset _ _ fun _ _ => rfl
  | start hopen hready => exact hset _ _ fun _ hlock => (hfollows _ hopen).1 hlock
  | @insert t x r hopen hpending hnew hfree =>
    exact hset _ _ fun _ hlock => h t x hopen (.inl (by simp [hpending])) hlock
  | @duplicate t x r hopen hpending hstored =>
    exact hset _ _ fun _ hlock => h t x hopen (.inl (by simp [hpending])) hlock
  | commit hopen hready => exact hnone _
  | abort hopen => exact hnone _

structure WritersInv (kind : τ → Writer) (s : Allocator τ EventBody) : Prop where
  gapless : s.Gapless
  lockOnce : s.LockHeldOnce
  discipline : LockDiscipline kind s
  exclusive : s.Exclusive

theorem WritersInv.step (h : WritersInv kind s) (hok : NoPolicyOverlap kind s a)
    (hstep : (syncWriters kind).step s a s') : WritersInv kind s' where
  gapless := h.gapless.step hstep.1
  lockOnce := h.lockOnce.step hstep.1
  discipline := h.discipline.step hstep
  exclusive := by
    refine h.exclusive.step h.gapless ?_ hstep.1
    intro row hstart u y hu hy halloc
    obtain ⟨ht, hu'⟩ := hok row hstart u y hu hy halloc
    have hlocks : ∀ w : Writer, w ≠ .replaceActivePolicy → w.takesLock = true := by
      intro w hw
      cases w with
      | replaceActivePolicy => exact absurd rfl hw
      | applyScoreTable => rfl
      | appendEvent => rfl
    -- Both writers take the lock, and both have it.
    obtain ⟨x, hx⟩ : ∃ x, s.txn a.1 = some x := by
      cases hstep.1 with
      | @start t x row hopen hready => exact ⟨x, hopen⟩
      | _ => cases hstart
    have hfollows := hstep.2 x hx
    rw [hstart] at hfollows
    exact hu (h.lockOnce u y a.1 x hy hx (h.discipline u y hy halloc (hlocks _ hu'))
      (hfollows.1 (hlocks _ ht)))

/-- As long as no policy is replaced while another event is being appended, no append fails on a
version that another transaction allocated. -/
theorem no_duplicate_version {kind : τ → Writer} {s : Allocator τ EventBody}
    (h : (syncWriters kind).ReachableVia (NoPolicyOverlap kind) s) :
    ∀ t x, s.txn t = some x → x.failed = false := by
  have hinit : ∀ s, (syncWriters kind).init s → WritersInv kind s := by
    intro s hs
    rw [show s = {} from hs]
    exact ⟨Allocator.gapless_init, Allocator.lockHeldOnce_init, lockDiscipline_init kind,
      Allocator.exclusive_init⟩
  have hinv : WritersInv kind s := h.invariant hinit fun _ _ _ hs hok hstep => hs.step hok hstep
  exact hinv.exclusive.clean

def twoWriters : Bool → Writer
  | true => .appendEvent
  | false => .replaceActivePolicy

theorem lockless : (twoWriters false).takesLock ≠ true := by decide

theorem step_writer (t : τ) (op : AllocatorOp EventBody) {x : Txn EventBody}
    (hstep : Allocator.Step s (t, op) s')
    (hopen : s.txn t = some x) (hfollows : (kind t).Follows x op) :
    (syncWriters kind).step s (t, op) s' := by
  refine ⟨hstep, ?_⟩
  intro y hy
  cases hopen.symm.trans hy
  exact hfollows

/-- Two transactions that overlap; the policy is replaced when the event is committed. -/
theorem no_duplicate_version_overlapping :
    ∃ s, (syncWriters twoWriters).ReachableVia (NoPolicyOverlap twoWriters) s ∧ s.committed.length = 2 ∧
      ∀ t x, s.txn t = some x → x.failed = false := by
  have hop : ∀ t op, (∀ row, op ≠ .start row) → ∀ s, NoPolicyOverlap twoWriters s (t, op) := by
    intro t op hop s row hrow
    exact absurd hrow (hop row)
  have h₀ : (syncWriters twoWriters).ReachableVia (NoPolicyOverlap twoWriters) {} := .init rfl
  have h₁ := h₀.next (false, .begin) (hop false .begin (by simp) _) ⟨.begin rfl, nofun⟩
  have h₂ := h₁.next (true, .begin) (hop true .begin (by simp) _) ⟨.begin rfl, nofun⟩
  have h₃ := h₂.step (hop _ _ (by simp) _)
    (step_writer true .lock (.lock rfl ⟨rfl, rfl⟩ (by simp [Allocator.txn_set])) rfl ⟨rfl, rfl, rfl⟩)
  have h₄ := h₃.step (by simp [NoPolicyOverlap, Allocator.txn_set, Txn.Allocating])
    (step_writer true (.start smallBody) (.start rfl ⟨rfl, rfl⟩) rfl ⟨fun _ => rfl, fun _ => rfl⟩)
  have h₅ := h₄.step (hop _ _ (by simp) _)
    (step_writer true .insert
      (.insert rfl rfl (by decide) (by simp [Allocator.txn_set, Allocator.keys])) rfl trivial)
  have h₆ := h₅.step (hop _ _ (by simp) _)
    (step_writer true .commit (.commit rfl ⟨rfl, rfl⟩) rfl ⟨fun _ => rfl, fun _ => List.cons_ne_nil _ _⟩)
  have h₇ := h₆.step (by simp [NoPolicyOverlap, Allocator.txn_set])
    (step_writer false (.start smallBody) (.start rfl ⟨rfl, rfl⟩) rfl ⟨(absurd · lockless),
      fun _ => rfl⟩)
  have h₈ := h₇.step (hop _ _ (by simp) _)
    (step_writer false .insert (.insert rfl rfl (by decide) (by simp [Allocator.txn_set])) rfl trivial)
  have h₉ := h₈.step (hop _ _ (by simp) _)
    (step_writer false .commit (.commit rfl ⟨rfl, rfl⟩) rfl ⟨(absurd · lockless),
      fun _ => List.cons_ne_nil _ _⟩)
  exact ⟨_, h₉, rfl, no_duplicate_version h₉⟩

/-- Both read the same largest version; the event commits first and the policy fails. -/
theorem duplicate_version :
    ∃ s, (syncWriters twoWriters).Reachable s ∧ ∃ x, s.txn false = some x ∧ x.failed = true := by
  have h₀ : (syncWriters twoWriters).Reachable {} := .start rfl
  have h₁ := h₀.next (false, .begin) ⟨.begin rfl, nofun⟩
  have h₂ := h₁.step trivial
    (step_writer false (.start smallBody) (.start rfl ⟨rfl, rfl⟩) rfl ⟨(absurd · lockless),
      fun _ => rfl⟩)
  have h₃ := h₂.next (true, .begin) trivial ⟨.begin rfl, nofun⟩
  have h₄ := h₃.step trivial
    (step_writer true .lock (.lock rfl ⟨rfl, rfl⟩ (by simp [Allocator.txn_set])) rfl ⟨rfl, rfl, rfl⟩)
  have h₅ := h₄.step trivial
    (step_writer true (.start smallBody) (.start rfl ⟨rfl, rfl⟩) rfl ⟨fun _ => rfl, fun _ => rfl⟩)
  have h₆ := h₅.step trivial
    (step_writer true .insert
      (.insert rfl rfl (by decide) (by simp [Allocator.txn_set, Allocator.keys])) rfl trivial)
  have h₇ := h₆.step trivial
    (step_writer true .commit (.commit rfl ⟨rfl, rfl⟩) rfl ⟨fun _ => rfl, fun _ => List.cons_ne_nil _ _⟩)
  have h₈ := h₇.step trivial (step_writer false .duplicate (.duplicate rfl rfl (by decide)) rfl trivial)
  exact ⟨_, h₈, _, rfl, rfl⟩

end Verilink.ControlPlane

import Mathlib.Algebra.Order.Group.Int
import Mathlib.Logic.Function.Basic

/-!
# A cache of what was used

Each use of a key is remembered until a time to live has passed. What was used is known under a
name, and different names may have the same key.
-/

namespace Verilink.Framework

structure ReplayCache (κ : Type) where
  ttl : Int
  seen : κ → Option Int

namespace ReplayCache

variable {κ ι : Type} [DecidableEq κ]

def checkAndConsume (c : ReplayCache κ) (now : Int) (k : κ) : Bool × ReplayCache κ :=
  if ∃ exp ∈ c.seen k, now < exp then (false, c)
  else (true, { c with seen := Function.update c.seen k (some (now + c.ttl)) })

def sweep (c : ReplayCache κ) (now : Int) : ReplayCache κ :=
  { c with seen := fun k => (c.seen k).filter fun exp => ¬ exp < now }

/-- Each use of the history that is not over is in the cache. -/
def Remembers (key : ι → κ) (c : ReplayCache κ) (history : List (ι × Int)) (clock : Int) : Prop :=
  ∀ i t, (i, t) ∈ history → clock < t + c.ttl → ∃ exp ∈ c.seen (key i), t + c.ttl ≤ exp

variable {key : ι → κ} {c : ReplayCache κ} {history : List (ι × Int)} {clock now : Int} {i : ι}

@[simp]
theorem ttl_checkAndConsume (c : ReplayCache κ) (now : Int) (k : κ) :
    (c.checkAndConsume now k).2.ttl = c.ttl := by
  rw [checkAndConsume]
  split <;> rfl

omit [DecidableEq κ] in
theorem remembers_nil (key : ι → κ) (c : ReplayCache κ) (clock : Int) : c.Remembers key [] clock := nofun

omit [DecidableEq κ] in
theorem Remembers.later (h : c.Remembers key history clock) {clock' : Int} (hle : clock ≤ clock') :
    c.Remembers key history clock' :=
  fun i t hmem hlt => h i t hmem (hle.trans_lt hlt)

omit [DecidableEq κ] in
theorem Remembers.sweep (h : c.Remembers key history clock) (hnow : now ≤ clock) :
    (c.sweep now).Remembers key history clock := by
  intro i t hmem hlt
  obtain ⟨exp, hexp, hle⟩ := h i t hmem hlt
  refine ⟨exp, ?_, hle⟩
  have hkeep : now ≤ exp := by
    change clock < t + c.ttl at hlt
    omega
  change (c.seen (key i)).filter _ = some exp
  rw [Option.mem_def.mp hexp]
  simp [hkeep]

theorem Remembers.fresh (h : c.Remembers key history clock) (hnow : now ≤ clock)
    (hnew : (c.checkAndConsume now (key i)).1 = true) {j : ι} {t : Int} (ht : (j, t) ∈ history)
    (hkey : key j = key i) : t + c.ttl ≤ clock := by
  by_contra hlt
  obtain ⟨exp, hexp, hle⟩ := h j t ht (not_le.mp hlt)
  rw [checkAndConsume, if_pos ⟨exp, hkey ▸ hexp, by omega⟩] at hnew
  cases hnew

theorem checkAndConsume_of_used {k : κ} (h : (c.checkAndConsume now k).1 = false) :
    (c.checkAndConsume now k).2 = c := by
  rw [checkAndConsume] at h ⊢
  split
  · rfl
  · rw [if_neg ‹_›] at h
    cases h

/-- The use becomes part of the history. -/
theorem Remembers.consume (h : c.Remembers key history clock) (hnow : now ≤ clock)
    (hnew : (c.checkAndConsume now (key i)).1 = true) :
    (c.checkAndConsume now (key i)).2.Remembers key (history ++ [(i, now)]) clock := by
  have hnot : ¬ ∃ exp ∈ c.seen (key i), now < exp := by
    intro hused
    rw [checkAndConsume, if_pos hused] at hnew
    cases hnew
  rw [checkAndConsume, if_neg hnot]
  intro j t hmem hlt
  change clock < t + c.ttl at hlt
  by_cases hkey : key j = key i
  · refine ⟨now + c.ttl, by simp [hkey], ?_⟩
    change t + c.ttl ≤ now + c.ttl
    rcases List.mem_append.mp hmem with hold | hself
    · -- An older use of the same key is over, since the key was new.
      obtain ⟨exp, hexp, hle⟩ := h j t hold hlt
      exact absurd ⟨exp, hkey ▸ hexp, by omega⟩ hnot
    · obtain ⟨-, rfl⟩ : j = i ∧ t = now := by simpa using hself
      exact le_rfl
  · have hne : ¬ (j = i ∧ t = now) := fun heq => hkey (congrArg key heq.1)
    have hold : (j, t) ∈ history := by simpa [hne] using hmem
    obtain ⟨exp, hexp, hle⟩ := h j t hold hlt
    exact ⟨exp, by simpa [Function.update_of_ne hkey] using hexp, hle⟩

/-! ## Uses in the order of their times -/

/-- From `last` on, the cache rejects a key exactly if a use of the history is not over. -/
def Exact (key : ι → κ) (c : ReplayCache κ) (history : List (ι × Int)) (last : Int) : Prop :=
  ∀ k now, last ≤ now →
    ((∃ exp ∈ c.seen k, now < exp) ↔ ∃ i t, (i, t) ∈ history ∧ key i = k ∧ now < t + c.ttl)

omit [DecidableEq κ] in
theorem exact_new (key : ι → κ) (ttl last : Int) : Exact key ⟨ttl, fun _ => none⟩ [] last := by
  intro k now _
  simp

theorem Exact.check_iff (h : c.Exact key history clock) (hnow : clock ≤ now) :
    (c.checkAndConsume now (key i)).1 = true ↔
      ∀ j t, (j, t) ∈ history → key j = key i → t + c.ttl ≤ now := by
  have hexact := h (key i) now hnow
  rw [checkAndConsume]
  split_ifs with hused
  · obtain ⟨j, t, hmem, hkey, hlt⟩ := hexact.mp hused
    simp only [false_iff]
    exact fun hover => absurd hlt (not_lt.mpr (hover j t hmem hkey))
  · simp only [true_iff]
    intro j t hmem hkey
    by_contra hlt
    exact hused (hexact.mpr ⟨j, t, hmem, hkey, not_le.mp hlt⟩)

omit [DecidableEq κ] in
theorem Exact.sweep (h : c.Exact key history clock) (hnow : clock ≤ now) :
    (c.sweep now).Exact key history now := by
  intro k now' hle
  have hexact := h k now' (hnow.trans hle)
  change (∃ exp ∈ (c.seen k).filter _, now' < exp) ↔ _
  rw [show (c.sweep now).ttl = c.ttl from rfl, ← hexact]
  constructor
  · rintro ⟨exp, hexp, hlt⟩
    exact ⟨exp, (Option.mem_filter_iff.mp hexp).1, hlt⟩
  · rintro ⟨exp, hexp, hlt⟩
    refine ⟨exp, Option.mem_filter_iff.mpr ⟨hexp, ?_⟩, hlt⟩
    simp only [not_lt, decide_eq_true_eq]
    omega

/-- A use that the cache rejects leaves no trace. -/
theorem Exact.reject (h : c.Exact key history clock) (hnow : clock ≤ now)
    (hused : (c.checkAndConsume now (key i)).1 = false) :
    (c.checkAndConsume now (key i)).2.Exact key history now := by
  rw [checkAndConsume_of_used hused]
  exact fun k now' hle => h k now' (hnow.trans hle)

theorem Exact.consume (h : c.Exact key history clock) (hnow : clock ≤ now)
    (hnew : (c.checkAndConsume now (key i)).1 = true) :
    (c.checkAndConsume now (key i)).2.Exact key (history ++ [(i, now)]) now := by
  have hover := (h.check_iff hnow).mp hnew
  have hnot : ¬ ∃ exp ∈ c.seen (key i), now < exp := by
    intro hused
    rw [checkAndConsume, if_pos hused] at hnew
    cases hnew
  rw [checkAndConsume, if_neg hnot]
  intro k now' hle
  have hexact := h k now' (hnow.trans hle)
  change (∃ exp ∈ Function.update c.seen (key i) (some (now + c.ttl)) k, now' < exp) ↔
    ∃ j t, (j, t) ∈ history ++ [(i, now)] ∧ key j = k ∧ now' < t + c.ttl
  by_cases hk : k = key i
  · subst hk
    rw [Function.update_self]
    constructor
    · rintro ⟨exp, hexp, hlt⟩
      cases hexp
      exact ⟨i, now, by simp, rfl, hlt⟩
    · rintro ⟨j, t, hmem, hkey, hlt⟩
      refine ⟨now + c.ttl, rfl, ?_⟩
      rcases List.mem_append.mp hmem with hold | hself
      · -- Older uses of the key were over at `now`.
        have := hover j t hold hkey
        omega
      · obtain ⟨-, rfl⟩ : j = i ∧ t = now := by simpa using hself
        exact hlt
  · rw [Function.update_of_ne hk, hexact]
    constructor
    · rintro ⟨j, t, hmem, hrest⟩
      exact ⟨j, t, List.mem_append_left _ hmem, hrest⟩
    · rintro ⟨j, t, hmem, hkey, hlt⟩
      have hne : j ≠ i := fun heq => hk (hkey ▸ congrArg key heq)
      exact ⟨j, t, by simpa [hne] using hmem, hkey, hlt⟩

end ReplayCache

end Verilink.Framework

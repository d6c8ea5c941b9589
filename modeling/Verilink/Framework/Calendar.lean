import Mathlib

/-!
# Dates and time stamps

The proleptic Gregorian calendar from the year 0 on, the text of a JavaScript `Date` in JSON and the
RFC 3339 reader of Go's `time` package.
-/

namespace Verilink.Framework.Calendar

def isLeap (y : Nat) : Bool := y % 4 = 0 ∧ (y % 100 ≠ 0 ∨ y % 400 = 0)

def daysBeforeYear (y : Nat) : Nat := 365 * y + (y + 3) / 4 - (y + 99) / 100 + (y + 399) / 400

def daysBeforeMonth (leap : Bool) (m : Nat) : Nat :=
  ([0, 31, 59, 90, 120, 151, 181, 212, 243, 273, 304, 334, 365][m]?).getD 365 +
    if leap ∧ 2 ≤ m then 1 else 0

/-- Month and day count from one. -/
structure Civil where
  year : Nat
  month : Nat
  day : Nat
  deriving DecidableEq, Repr

def Civil.dayNumber (c : Civil) : Nat :=
  daysBeforeYear c.year + daysBeforeMonth (isLeap c.year) (c.month - 1) + (c.day - 1)

def daysInMonth (y m : Nat) : Nat :=
  daysBeforeMonth (isLeap y) m - daysBeforeMonth (isLeap y) (m - 1)

def Civil.Valid (c : Civil) : Prop :=
  1 ≤ c.month ∧ c.month ≤ 12 ∧ 1 ≤ c.day ∧ c.day ≤ daysInMonth c.year c.month

instance (c : Civil) : Decidable c.Valid := inferInstanceAs (Decidable (_ ∧ _))

def yearOfDay (n : Nat) : Nat := Nat.findGreatest (fun y => daysBeforeYear y ≤ n) (n / 365)

def monthOfDay (leap : Bool) (n : Nat) : Nat :=
  Nat.findGreatest (fun m => daysBeforeMonth leap m ≤ n) 11

def civilOfDay (n : Nat) : Civil :=
  let year := yearOfDay n
  let rest := n - daysBeforeYear year
  let month := monthOfDay (isLeap year) rest
  ⟨year, month + 1, rest - daysBeforeMonth (isLeap year) month + 1⟩

private theorem ceil_succ (y k : Nat) (hk : 0 < k) :
    (y + k) / k = (y + (k - 1)) / k + if y % k = 0 then 1 else 0 := by
  rw [Nat.add_div_right y hk]
  split
  · rename_i h
    obtain ⟨q, rfl⟩ := Nat.dvd_of_mod_eq_zero h
    rw [Nat.mul_add_div hk, Nat.mul_div_cancel_left q hk, Nat.div_eq_of_lt (by omega)]
  · rename_i h
    have hmod := Nat.div_add_mod y k
    have hlt := Nat.mod_lt y hk
    have hsplit : y + (k - 1) = k * (y / k) + (y % k + (k - 1)) := by omega
    have hone : (y % k + (k - 1)) / k = 1 := by
      rw [Nat.div_eq_iff hk]
      omega
    rw [hsplit, Nat.mul_add_div hk, hone]

theorem daysBeforeYear_succ (y : Nat) :
    daysBeforeYear (y + 1) = daysBeforeYear y + 365 + if isLeap y then 1 else 0 := by
  have h₄ : (y + 1 + 3) / 4 = (y + 3) / 4 + if y % 4 = 0 then 1 else 0 := ceil_succ y 4 (by omega)
  have h₁₀₀ : (y + 1 + 99) / 100 = (y + 99) / 100 + if y % 100 = 0 then 1 else 0 :=
    ceil_succ y 100 (by omega)
  have h₄₀₀ : (y + 1 + 399) / 400 = (y + 399) / 400 + if y % 400 = 0 then 1 else 0 :=
    ceil_succ y 400 (by omega)
  have hsub : (y + 99) / 100 ≤ 365 * y + (y + 3) / 4 := by omega
  have hfour : y % 100 = 0 → y % 4 = 0 := by omega
  have hhundred : y % 400 = 0 → y % 100 = 0 := by omega
  have hleap : (if isLeap y then 1 else 0) + (if y % 100 = 0 then 1 else 0) =
      (if y % 4 = 0 then 1 else 0) + if y % 400 = 0 then 1 else 0 := by
    by_cases h4 : y % 4 = 0 <;> by_cases h100 : y % 100 = 0 <;> by_cases h400 : y % 400 = 0 <;>
      simp [isLeap, h4, h100, h400] <;> omega
  have hone : (if y % 100 = 0 then 1 else 0) ≤ 1 := by split <;> omega
  generalize (if isLeap y then 1 else 0) = leap at hleap ⊢
  generalize (if y % 4 = 0 then 1 else 0) = a at h₄ hleap
  generalize (if y % 100 = 0 then 1 else 0) = b at h₁₀₀ hleap hone
  generalize (if y % 400 = 0 then 1 else 0) = c at h₄₀₀ hleap
  unfold daysBeforeYear
  rw [h₄, h₁₀₀, h₄₀₀]
  clear h₄ h₁₀₀ h₄₀₀ hfour hhundred
  omega

theorem yearOfDay_spec (n : Nat) :
    daysBeforeYear (yearOfDay n) ≤ n ∧ n < daysBeforeYear (yearOfDay n + 1) := by
  constructor
  · have hzero : daysBeforeYear 0 ≤ n := by
      have : daysBeforeYear 0 = 0 := by decide
      omega
    exact Nat.findGreatest_spec (P := fun y => daysBeforeYear y ≤ n) (Nat.zero_le _) hzero
  · by_contra hle
    have hle' : daysBeforeYear (yearOfDay n + 1) ≤ n := not_lt.mp hle
    have hbound : yearOfDay n + 1 ≤ n / 365 := by
      have hlin : 365 * (yearOfDay n + 1) ≤ daysBeforeYear (yearOfDay n + 1) := by
        unfold daysBeforeYear
        omega
      omega
    exact Nat.findGreatest_is_greatest (P := fun y => daysBeforeYear y ≤ n)
      (Nat.lt_succ_self _) hbound hle'

theorem monthOfDay_spec (leap : Bool) (n : Nat) (h : n < daysBeforeMonth leap 12) :
    monthOfDay leap n ≤ 11 ∧ daysBeforeMonth leap (monthOfDay leap n) ≤ n ∧
      n < daysBeforeMonth leap (monthOfDay leap n + 1) := by
  have hle : monthOfDay leap n ≤ 11 := Nat.findGreatest_le 11
  refine ⟨hle, ?_, ?_⟩
  · have hzero : daysBeforeMonth leap 0 ≤ n := by
      have : daysBeforeMonth leap 0 = 0 := by cases leap <;> decide
      omega
    exact Nat.findGreatest_spec (P := fun m => daysBeforeMonth leap m ≤ n) (Nat.zero_le _) hzero
  · by_contra hnot
    by_cases hlast : monthOfDay leap n = 11
    · rw [hlast] at hnot
      exact hnot h
    · have hstep : monthOfDay leap n + 1 ≤ 11 := by omega
      exact Nat.findGreatest_is_greatest (P := fun m => daysBeforeMonth leap m ≤ n)
        (Nat.lt_succ_self _) hstep (not_lt.mp hnot)

theorem civilOfDay_spec (n : Nat) : (civilOfDay n).dayNumber = n ∧ (civilOfDay n).Valid := by
  obtain ⟨hlow, hhigh⟩ := yearOfDay_spec n
  rw [daysBeforeYear_succ] at hhigh
  have hyear : n - daysBeforeYear (yearOfDay n) <
      daysBeforeMonth (isLeap (yearOfDay n)) 12 := by
    cases hleap : isLeap (yearOfDay n) with
    | false =>
      have h12 : daysBeforeMonth false 12 = 365 := by decide
      simp only [hleap, Bool.false_eq_true, if_false] at hhigh
      omega
    | true =>
      have h12 : daysBeforeMonth true 12 = 366 := by decide
      simp only [hleap, if_true] at hhigh
      omega
  obtain ⟨hm, hmlow, hmhigh⟩ := monthOfDay_spec _ _ hyear
  simp only [civilOfDay, Civil.dayNumber, Civil.Valid, daysInMonth, Nat.add_sub_cancel]
  constructor
  · omega
  · refine ⟨by omega, by omega, by omega, ?_⟩
    omega

end Verilink.Framework.Calendar

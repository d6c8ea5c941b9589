import Mathlib

/-!
# Texts of code units

A character outside the first plane is a pair of surrogates, high and low. A list of code units is
the encoding of a text exactly when its surrogates come in such pairs.
-/

namespace Verilink.Framework.Utf16

def isHigh (u : UInt16) : Bool := 0xD800 ≤ u.toNat ∧ u.toNat ≤ 0xDBFF

def isLow (u : UInt16) : Bool := 0xDC00 ≤ u.toNat ∧ u.toNat ≤ 0xDFFF

def encodeChar (c : Char) : List UInt16 :=
  if c.toNat < 0x10000 then [UInt16.ofNat c.toNat]
  else [UInt16.ofNat (0xD800 + (c.toNat - 0x10000) / 0x400),
    UInt16.ofNat (0xDC00 + (c.toNat - 0x10000) % 0x400)]

def encode (cs : List Char) : List UInt16 := cs.flatMap encodeChar

def pairChar (u v : UInt16) : Char :=
  Char.ofNat (0x10000 + (u.toNat - 0xD800) * 0x400 + (v.toNat - 0xDC00))

/-- The characters of a text, `none` when it has a lone surrogate. -/
def decode : List UInt16 → Option (List Char)
  | [] => some []
  | [u] => if isHigh u ∨ isLow u then none else some [Char.ofNat u.toNat]
  | u :: v :: us =>
    if isHigh u then
      if isLow v then (decode us).map (pairChar u v :: ·) else none
    else if isLow u then none
    else (decode (v :: us)).map (Char.ofNat u.toNat :: ·)

theorem toNat_ofNat_of_valid {n : Nat} (h : n.isValidChar) : (Char.ofNat n).toNat = n := by
  rw [Char.ofNat, dif_pos h]
  rfl

theorem encodeChar_unit {u : UInt16} (hhigh : isHigh u = false) (hlow : isLow u = false) :
    encodeChar (Char.ofNat u.toNat) = [u] := by
  have hlt := u.toNat_lt
  simp only [isHigh, isLow, decide_eq_false_iff_not] at hhigh hlow
  have hvalid : u.toNat.isValidChar := by
    unfold Nat.isValidChar
    omega
  rw [encodeChar, toNat_ofNat_of_valid hvalid, if_pos hlt, UInt16.ofNat_toNat]

theorem encodeChar_pair {u v : UInt16} (hhigh : isHigh u = true) (hlow : isLow v = true) :
    encodeChar (pairChar u v) = [u, v] := by
  simp only [isHigh, isLow, decide_eq_true_eq] at hhigh hlow
  have hvalid : (0x10000 + (u.toNat - 0xD800) * 0x400 + (v.toNat - 0xDC00)).isValidChar := by
    unfold Nat.isValidChar
    omega
  have hu : 0xD800 + (0x10000 + (u.toNat - 0xD800) * 0x400 + (v.toNat - 0xDC00) - 0x10000) / 0x400 =
      u.toNat := by
    omega
  have hv : 0xDC00 + (0x10000 + (u.toNat - 0xD800) * 0x400 + (v.toNat - 0xDC00) - 0x10000) % 0x400 =
      v.toNat := by
    omega
  rw [encodeChar, pairChar, toNat_ofNat_of_valid hvalid, if_neg (by omega), hu, hv, UInt16.ofNat_toNat,
    UInt16.ofNat_toNat]

theorem encode_of_decode {us : List UInt16} {cs : List Char} (h : decode us = some cs) :
    encode cs = us := by
  fun_induction decode us generalizing cs with
  | case1 =>
    cases h
    rfl
  | case2 u hsurrogate => cases h
  | case3 u hplain =>
    cases h
    simp only [not_or, Bool.not_eq_true] at hplain
    simp [encode, encodeChar_unit hplain.1 hplain.2]
  | case4 u v us hhigh hlow ih =>
    obtain ⟨cs', hcs', rfl⟩ := Option.map_eq_some_iff.mp h
    have hrest : cs'.flatMap encodeChar = us := ih hcs'
    simp [encode, encodeChar_pair hhigh hlow, hrest]
  | case5 u v us hhigh hlow => cases h
  | case6 u v us hhigh hlow => cases h
  | case7 u v us hhigh hlow ih =>
    obtain ⟨cs', hcs', rfl⟩ := Option.map_eq_some_iff.mp h
    have hrest : cs'.flatMap encodeChar = v :: us := ih hcs'
    simp [encode, encodeChar_unit (Bool.eq_false_of_not_eq_true hhigh)
      (Bool.eq_false_of_not_eq_true hlow), hrest]

end Verilink.Framework.Utf16

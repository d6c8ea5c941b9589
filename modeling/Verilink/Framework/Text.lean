import Verilink.Framework.JsonText

/-!
# Go strings as bytes

The functions of `strings` and `strconv` that the programs call, on the bytes of a string. White
space is the Unicode property; a multi-byte space is recognised by its encoding, at either end.
-/

namespace Verilink.Framework

namespace Text

/-- The characters of `unicode.IsSpace`. -/
def whiteSpace : List Char :=
  ([9, 10, 11, 12, 13, 0x20, 0x85, 0xA0, 0x1680, 0x2000, 0x2001, 0x2002, 0x2003, 0x2004, 0x2005,
    0x2006, 0x2007, 0x2008, 0x2009, 0x200A, 0x2028, 0x2029, 0x202F, 0x205F, 0x3000] : List Nat).map
    Char.ofNat

def spaceForms : List Bytes := whiteSpace.map String.utf8EncodeChar

def stripFirst (bs : Bytes) : Option Bytes :=
  (spaceForms.find? fun s => s.isPrefixOf bs).map fun s => bs.drop s.length

def stripLast (bs : Bytes) : Option Bytes :=
  (spaceForms.find? fun s => s.isSuffixOf bs).map fun s => bs.take (bs.length - s.length)

def stripAll (strip : Bytes → Option Bytes) : Nat → Bytes → Bytes
  | 0, bs => bs
  | n + 1, bs =>
    match strip bs with
    | none => bs
    | some rest => stripAll strip n rest

def trimLeftSpace (bs : Bytes) : Bytes := stripAll stripFirst bs.length bs

def trimRightSpace (bs : Bytes) : Bytes := stripAll stripLast bs.length bs

def trimSpace (bs : Bytes) : Bytes := trimRightSpace (trimLeftSpace bs)

def trimRight (cutset bs : Bytes) : Bytes := bs.rdropWhile (· ∈ cutset)

def cutPrefix (pre bs : Bytes) : Option Bytes :=
  if pre <+: bs then some (bs.drop pre.length) else none

def parseDigits (bs : Bytes) : Option Nat :=
  let cs := Json.asciiChars bs
  if cs ≠ [] ∧ cs.all Char.isDigit then some (Json.digitsValue cs) else none

def parseInt64 (bs : Bytes) : Option Int :=
  let value : Option Int := match bs with
    | 0x2D :: rest => (parseDigits rest).map fun n => -(n : Int)
    | 0x2B :: rest => (parseDigits rest).map Int.ofNat
    | _ => (parseDigits bs).map Int.ofNat
  value.filter fun n => -2 ^ 63 ≤ n ∧ n < 2 ^ 63

def isGraphic (b : UInt8) : Bool := 0x21 ≤ b ∧ b ≤ 0x7E

theorem spaceForms_head : ∀ s ∈ spaceForms, s ≠ [] ∧ s.head?.all (!isGraphic ·) = true := by
  decide

theorem spaceForms_last : ∀ s ∈ spaceForms, s ≠ [] ∧ s.getLast?.all (!isGraphic ·) = true := by
  decide

variable {b : UInt8} {bs : Bytes} {n : Int}

theorem stripFirst_graphic (hb : isGraphic b = true) (bs : Bytes) :
    stripFirst (b :: bs) = none := by
  rw [stripFirst, Option.map_eq_none_iff, List.find?_eq_none]
  intro s hs hpre
  obtain ⟨hne, hhead⟩ := spaceForms_head s hs
  obtain ⟨c, tail, rfl⟩ := List.exists_cons_of_ne_nil hne
  obtain ⟨rest, hrest⟩ := List.isPrefixOf_iff_prefix.mp hpre
  obtain rfl : c = b := (List.cons.inj hrest).1
  simp [hb] at hhead

theorem stripLast_graphic (hb : isGraphic b = true) (bs : Bytes) :
    stripLast (bs ++ [b]) = none := by
  rw [stripLast, Option.map_eq_none_iff, List.find?_eq_none]
  intro s hs hsuf
  obtain ⟨hne, hlast⟩ := spaceForms_last s hs
  obtain ⟨rest, hrest⟩ := List.isSuffixOf_iff_suffix.mp hsuf
  have hends := congrArg List.getLast? hrest
  rw [List.getLast?_append_of_ne_nil _ hne, List.getLast?_concat] at hends
  simp [hends, hb] at hlast

theorem isPrefix_stripLast {rest : Bytes} (h : stripLast bs = some rest) : rest <+: bs := by
  obtain ⟨s, -, rfl⟩ := Option.map_eq_some_iff.mp h
  exact List.take_prefix _ _

theorem stripAll_of_none {strip : Bytes → Option Bytes} (h : strip bs = none) (n : Nat) :
    stripAll strip n bs = bs := by
  cases n with
  | zero => rfl
  | succ n => rw [stripAll, h]

theorem isPrefix_trimRightSpace (bs : Bytes) : trimRightSpace bs <+: bs := by
  have hall : ∀ n bs, stripAll stripLast n bs <+: bs := by
    intro n
    induction n with
    | zero => exact fun bs => List.prefix_rfl
    | succ n ih =>
      intro bs
      rw [stripAll]
      split
      · exact List.prefix_rfl
      · rename_i rest hrest
        exact (ih rest).trans (isPrefix_stripLast hrest)
  exact hall _ bs

theorem trimLeftSpace_of_head (h : ∀ b ∈ bs.head?, isGraphic b = true) :
    trimLeftSpace bs = bs := by
  cases bs with
  | nil => rfl
  | cons b bs => exact stripAll_of_none (stripFirst_graphic (h b rfl) bs) _

theorem trimLeftSpace_cons (h : ∀ b ∈ bs.head?, isGraphic b = true) :
    trimLeftSpace (0x20 :: bs) = bs := by
  have hspace : stripFirst (0x20 :: bs) = some bs := by
    have hforms : spaceForms = [[9], [10], [11], [12], [13], [0x20]] ++ spaceForms.drop 6 := by decide
    rw [stripFirst, hforms]
    simp [List.isPrefixOf]
  rw [trimLeftSpace, List.length_cons, stripAll, hspace]
  exact trimLeftSpace_of_head h

theorem trimRightSpace_of_last (h : ∀ b ∈ bs.getLast?, isGraphic b = true) :
    trimRightSpace bs = bs := by
  rcases List.eq_nil_or_concat' bs with rfl | ⟨l, b, rfl⟩
  · rfl
  · exact stripAll_of_none (stripLast_graphic (h b (by simp)) l) _

theorem isPrefix_trimSpace_cons (h : ∀ b ∈ bs.head?, isGraphic b = true) :
    trimSpace (0x20 :: bs) <+: bs := by
  rw [trimSpace, trimLeftSpace_cons h]
  exact isPrefix_trimRightSpace bs

theorem trimSpace_cons (hhead : ∀ b ∈ bs.head?, isGraphic b = true)
    (hlast : ∀ b ∈ bs.getLast?, isGraphic b = true) :
    trimSpace (0x20 :: bs) = bs := by
  rw [trimSpace, trimLeftSpace_cons hhead, trimRightSpace_of_last hlast]

theorem parseDigits_toDigits (n : Nat) :
    parseDigits (utf8 (String.ofList (Nat.toDigits 10 n))) = some n := by
  have hdigits : ∀ c ∈ Nat.toDigits 10 n, c.isDigit = true := fun c hc =>
    Nat.isDigit_of_mem_toDigits (by decide) (by decide) hc
  have hascii : ∀ c ∈ Nat.toDigits 10 n, c.toNat < 128 := fun c hc =>
    (Json.isDigit_bounds (hdigits c hc)).2.trans_lt (by decide)
  have hvalue : Json.digitsValue (Nat.toDigits 10 n) = n := Nat.ofDigitChars_ten_toDigits
  simp only [parseDigits, utf8, String.toList_ofList, Json.asciiChars_flatMap _ hascii]
  rw [if_pos ⟨Nat.toDigits_ne_nil, List.all_eq_true.mpr hdigits⟩, hvalue]

theorem parseInt64_intText_of_nonneg (hlo : 0 ≤ n) :
    parseInt64 (Json.intText n) = Option.filter (fun n => -2 ^ 63 ≤ n ∧ n < 2 ^ 63) (some n) := by
  have htext : Json.intText n = utf8 (String.ofList (Nat.toDigits 10 n.natAbs)) := by
    simp [Json.intText, not_lt.mpr hlo]
  have hparse := parseDigits_toDigits n.natAbs
  rw [← htext] at hparse
  -- A sign would not be a digit.
  have hsign : ∀ b rest, Json.intText n = b :: rest → b ≠ 0x2D ∧ b ≠ 0x2B := by
    intro b rest hb
    constructor <;> rintro rfl <;> rw [hb] at hparse <;>
      simp [parseDigits, Json.asciiChars, Char.isDigit] at hparse
  have hvalue : Int.ofNat n.natAbs = n := Int.natAbs_of_nonneg hlo
  unfold parseInt64
  split
  · rename_i rest hb
    exact absurd rfl (hsign _ rest hb).1
  · rename_i rest hb
    exact absurd rfl (hsign _ rest hb).2
  · rw [hparse, Option.map_some, hvalue]

theorem parseInt64_intText (hlo : 0 ≤ n) (hhi : n < 2 ^ 63) :
    parseInt64 (Json.intText n) = some n := by
  have hrange : -2 ^ 63 ≤ n ∧ n < 2 ^ 63 := ⟨by omega, hhi⟩
  rw [parseInt64_intText_of_nonneg hlo, Option.filter_some, if_pos (decide_eq_true hrange)]

end Text

end Verilink.Framework

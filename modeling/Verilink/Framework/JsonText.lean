import Verilink.Framework.Json
import Mathlib.Data.List.Infix

/-!
# JSON as bytes

Printing a JSON value the way `JSON.stringify` and `json.Marshal` do (no spaces, object members in
order), for any way of escaping the characters of a string, and reading it back the way
`json.Unmarshal` does: a scanner that finds the end of each value, and the decoding of string
contents, in which invalid UTF-8 and lone surrogates become U+FFFD.
-/

namespace Verilink.Framework

abbrev Bytes := List UInt8

def utf8 (s : String) : Bytes := s.toList.flatMap String.utf8EncodeChar

namespace Json

/-! ## String contents -/

/-- The state of the scanner between two bytes of a string. -/
inductive StringState
  | plain
  | escape
  | hex (left : Nat)
  deriving DecidableEq

def isHex (b : UInt8) : Bool := (48 ≤ b ∧ b ≤ 57) ∨ (97 ≤ b ∧ b ≤ 102) ∨ (65 ≤ b ∧ b ≤ 70)

def escapeBytes : Bytes := utf8 "bfnrt\\/\""

def StringState.next : StringState → UInt8 → Option StringState
  | plain, b => if b = 0x5C then some escape else if b < 0x20 then none else some plain
  | escape, b => if b ∈ escapeBytes then some plain else if b = 0x75 then some (hex 3) else none
  | hex 0, b => if isHex b then some plain else none
  | hex (n + 1), b => if isHex b then some (hex n) else none

def scanString : StringState → Bytes → Option (Bytes × Bytes)
  | _, [] => none
  | st, b :: bs =>
    if st = .plain ∧ b = 0x22 then some ([], bs)
    else match st.next b with
      | none => none
      | some st' => (scanString st' bs).map fun r => (b :: r.1, r.2)

def hexValue (b : UInt8) : Nat :=
  if b ≤ 57 then b.toNat - 48 else if b ≤ 70 then b.toNat - 55 else b.toNat - 87

def codeUnit : Bytes → Option Nat
  | 0x5C :: 0x75 :: a :: b :: c :: d :: _ =>
    if isHex a ∧ isHex b ∧ isHex c ∧ isHex d then
      some (((hexValue a * 16 + hexValue b) * 16 + hexValue c) * 16 + hexValue d)
    else none
  | _ => none

def replacementChar : Char := Char.ofNat 0xFFFD

def decodeRune (bs : Bytes) : Char × Nat :=
  match (bs.take 4).toByteArray.utf8DecodeChar? 0 with
  | some c => (c, c.utf8Size)
  | none => (replacementChar, 1)

def unescape (b : UInt8) : Char :=
  if b = 0x62 then Char.ofNat 8 else if b = 0x66 then Char.ofNat 12 else if b = 0x6E then '\n'
  else if b = 0x72 then '\r' else if b = 0x74 then '\t' else Char.ofNat b.toNat

def unquoteOne (bs : Bytes) : Char × Nat :=
  match bs with
  | 0x5C :: e :: rest =>
    if e = 0x75 then
      match codeUnit (0x5C :: e :: rest) with
      | none => (replacementChar, 6)
      | some u =>
        if 0xD800 ≤ u ∧ u < 0xE000 then
          match codeUnit (rest.drop 4) with
          | some l =>
            if u < 0xDC00 ∧ 0xDC00 ≤ l ∧ l < 0xE000 then
              (Char.ofNat (0x10000 + (u - 0xD800) * 0x400 + (l - 0xDC00)), 12)
            else (replacementChar, 6)
          | none => (replacementChar, 6)
        else (Char.ofNat u, 6)
    else (unescape e, 2)
  | bs => decodeRune bs

def unquote : Nat → Bytes → List Char
  | _, [] => []
  | skip + 1, _ :: bs => unquote skip bs
  | 0, b :: bs => (unquoteOne (b :: bs)).1 :: unquote ((unquoteOne (b :: bs)).2 - 1) bs

/-! ## Values -/

def isNumberByte (b : UInt8) : Bool := (48 ≤ b ∧ b ≤ 57) ∨ b ∈ utf8 "+-.eE"

def asciiChars (bs : Bytes) : List Char := bs.map fun b => Char.ofNat b.toNat

def fracValue (text : List Char) : ℚ :=
  let neg := text.head? = some '-'
  let body := if neg then text.tail else text
  let (whole, rest) := spanDigits body
  let (part, rest) := match rest with
    | '.' :: cs => spanDigits cs
    | cs => ([], cs)
  let exponent : Int := match rest with
    | _ :: '-' :: cs => -(digitsValue cs : Int)
    | _ :: '+' :: cs => digitsValue cs
    | _ :: cs => digitsValue cs
    | [] => 0
  let mantissa : ℚ := digitsValue (whole ++ part) * (10 : ℚ) ^ (exponent - part.length)
  if neg then -mantissa else mantissa

def numberOfToken (token : Bytes) : Option Json :=
  match Number.ofText (asciiChars token) with
  | some (.int n) => some (int n)
  | some .other => some (frac (fracValue (asciiChars token)))
  | none => none

def scanNumber (bs : Bytes) : Option (Json × Bytes) :=
  (numberOfToken (bs.takeWhile isNumberByte)).map fun v => (v, bs.dropWhile isNumberByte)

def isSpace (b : UInt8) : Bool := b ∈ ([0x20, 0x09, 0x0A, 0x0D] : Bytes)

def skipSpace (bs : Bytes) : Bytes := bs.dropWhile isSpace

def scanLiteral (word : Bytes) (v : Json) (bs : Bytes) : Option (Json × Bytes) :=
  if word <+: bs then some (v, bs.drop word.length) else none

def scanScalar : Bytes → Option (Json × Bytes)
  | [] => none
  | b :: bs =>
    if b = 0x22 then (scanString .plain bs).map fun r => (str (String.ofList (unquote 0 r.1)), r.2)
    else if b = 0x74 then scanLiteral (utf8 "true") (bool true) (b :: bs)
    else if b = 0x66 then scanLiteral (utf8 "false") (bool false) (b :: bs)
    else if b = 0x6E then scanLiteral (utf8 "null") null (b :: bs)
    else scanNumber (b :: bs)

def expect (b : UInt8) (bs : Bytes) : Option Bytes :=
  match skipSpace bs with
  | [] => none
  | c :: rest => if c = b then some rest else none

/-- After an element: whether the closing byte or a comma follows. -/
def delimiter (close : UInt8) (bs : Bytes) : Option (Bool × Bytes) :=
  match skipSpace bs with
  | [] => none
  | c :: rest => if c = close then some (true, rest) else if c = 0x2C then some (false, rest) else none

def scanKey (bs : Bytes) : Option (String × Bytes) := do
  let bs ← expect 0x22 bs
  let (key, bs) ← scanString .plain bs
  let bs ← expect 0x3A bs
  return (String.ofList (unquote 0 key), bs)

mutual

/-- One value at the front of a text. The first argument bounds the recursion. -/
def scanValue : Nat → Bytes → Option (Json × Bytes)
  | 0, _ => none
  | n + 1, bs =>
    match skipSpace bs with
    | [] => none
    | b :: rest =>
      if b = 0x5B then
        match expect 0x5D rest with
        | some rest => some (arr [], rest)
        | none => (scanElems n rest).map fun r => (arr r.1, r.2)
      else if b = 0x7B then
        match expect 0x7D rest with
        | some rest => some (obj [], rest)
        | none => (scanMembers n rest).map fun r => (obj r.1, r.2)
      else scanScalar (b :: rest)

def scanElems : Nat → Bytes → Option (List Json × Bytes)
  | 0, _ => none
  | n + 1, bs => do
    let (v, bs) ← scanValue n bs
    let (last, bs) ← delimiter 0x5D bs
    if last then return ([v], bs)
    let (vs, bs) ← scanElems n bs
    return (v :: vs, bs)

def scanMembers : Nat → Bytes → Option (List (String × Json) × Bytes)
  | 0, _ => none
  | n + 1, bs => do
    let (key, bs) ← scanKey bs
    let (v, bs) ← scanValue n bs
    let (last, bs) ← delimiter 0x7D bs
    if last then return ([(key, v)], bs)
    let (ms, bs) ← scanMembers n bs
    return ((key, v) :: ms, bs)

end

def parse (bs : Bytes) : Option Json :=
  match scanValue (2 * bs.length + 2) bs with
  | some (v, rest) => if skipSpace rest = [] then some v else none
  | none => none

/-! ## Printing -/

def intText (n : Int) : Bytes :=
  (if n < 0 then [0x2D] else []) ++ utf8 (String.ofList (Nat.toDigits 10 n.natAbs))

def quoteText (escape : Char → Bytes) (s : String) : Bytes :=
  0x22 :: (s.toList.flatMap escape ++ [0x22])

mutual

def print (escape : Char → Bytes) (fracText : ℚ → Bytes) : Json → Bytes
  | null => utf8 "null"
  | bool b => utf8 (if b then "true" else "false")
  | int n => intText n
  | frac q => fracText q
  | str s => quoteText escape s
  | arr elems => 0x5B :: (printElems escape fracText elems ++ [0x5D])
  | obj fields => 0x7B :: (printMembers escape fracText fields ++ [0x7D])

def printElems (escape : Char → Bytes) (fracText : ℚ → Bytes) : List Json → Bytes
  | [] => []
  | [v] => print escape fracText v
  | v :: w :: vs => print escape fracText v ++ 0x2C :: printElems escape fracText (w :: vs)

def printMembers (escape : Char → Bytes) (fracText : ℚ → Bytes) : List (String × Json) → Bytes
  | [] => []
  | [(k, v)] => quoteText escape k ++ 0x3A :: print escape fracText v
  | (k, v) :: m :: ms =>
    quoteText escape k ++ 0x3A :: (print escape fracText v ++
      0x2C :: printMembers escape fracText (m :: ms))

end

/-! ## A text that goes on

A value that ends before its text does is read the same way when the text goes on. Only a number
at the very end of the text is not. -/

variable {b : UInt8} {bs rest r : Bytes} {v : Json} {n : Nat} {st : StringState} {close : UInt8}

theorem scanString_of_next {st' : StringState} (h : st.next b = some st')
    (hquote : ¬ (st = .plain ∧ b = 0x22)) (bs : Bytes) :
    scanString st (b :: bs) = (scanString st' bs).map fun r => (b :: r.1, r.2) := by
  rw [scanString, if_neg hquote, h]

theorem scanString_append {raw : Bytes} (h : scanString st bs = some (raw, r)) (s : Bytes) :
    scanString st (bs ++ s) = some (raw, r ++ s) := by
  induction bs generalizing st raw with
  | nil => cases h
  | cons b bs ih =>
    by_cases hquote : st = .plain ∧ b = 0x22
    · simp_all [scanString]
    · cases hnext : st.next b with
      | none => simp [scanString, hquote, hnext] at h
      | some st' =>
        rw [scanString_of_next hnext hquote] at h
        obtain ⟨r', hrest, heq⟩ := Option.map_eq_some_iff.mp h
        cases heq
        rw [List.cons_append, scanString_of_next hnext hquote, ih hrest]
        rfl

theorem skipSpace_append (h : skipSpace bs = b :: rest) (s : Bytes) :
    skipSpace (bs ++ s) = b :: (rest ++ s) := by
  unfold skipSpace at h ⊢
  simp [List.dropWhile_append, h]

theorem expect_eq_some :
    expect b bs = some rest ↔ skipSpace bs = b :: rest := by
  unfold expect
  split
  · simp_all
  · rename_i c tail htail
    simp only [htail, Option.ite_none_right_eq_some, Option.some.injEq, List.cons.injEq]

theorem expect_cons (h : isSpace b = false) (rest : Bytes) :
    expect b (b :: rest) = some rest := by
  simp [expect, skipSpace, h]

theorem expect_append (h : expect b bs = some rest) (s : Bytes) :
    expect b (bs ++ s) = some (rest ++ s) :=
  expect_eq_some.mpr (skipSpace_append (expect_eq_some.mp h) s)

theorem expect_append_none (h : expect b bs = none) (hne : skipSpace bs ≠ []) (s : Bytes) :
    expect b (bs ++ s) = none := by
  obtain ⟨c, rest, hc⟩ := List.exists_cons_of_ne_nil hne
  unfold expect at h ⊢
  simp_all [skipSpace_append hc s]

theorem delimiter_append {last : Bool} (h : delimiter close bs = some (last, rest)) (s : Bytes) :
    delimiter close (bs ++ s) = some (last, rest ++ s) := by
  unfold delimiter at h ⊢
  split at h
  · cases h
  · rename_i c tail htail
    rw [skipSpace_append htail s]
    dsimp only
    split at h
    · cases h
      simp_all
    · split at h
      · cases h
        simp_all
      · cases h

theorem scanKey_append {key : String} (h : scanKey bs = some (key, rest)) (s : Bytes) :
    scanKey (bs ++ s) = some (key, rest ++ s) := by
  simp only [scanKey, Option.bind_eq_bind, Option.bind_eq_some_iff, Option.pure_def,
    Option.some.injEq, Prod.mk.injEq, Prod.exists] at h ⊢
  obtain ⟨bs₁, h₁, raw, bs₂, h₂, bs₃, h₃, hkey, rfl⟩ := h
  exact ⟨_, expect_append h₁ s, raw, _, scanString_append h₂ s, _, expect_append h₃ s, hkey, rfl⟩

theorem scanLiteral_append {word : Bytes} {w : Json} (h : scanLiteral word v bs = some (w, r))
    (s : Bytes) :
    scanLiteral word v (bs ++ s) = some (w, r ++ s) := by
  unfold scanLiteral at h ⊢
  split at h
  · rename_i hword
    cases h
    rw [if_pos (hword.trans (List.prefix_append bs s)), List.drop_append_of_le_length hword.length_le]
  · cases h

theorem scanNumber_append (h : scanNumber bs = some (v, r)) (hr : r ≠ []) (s : Bytes) :
    scanNumber (bs ++ s) = some (v, r ++ s) := by
  obtain ⟨w, hw, heq⟩ := Option.map_eq_some_iff.mp h
  cases heq
  have htake : (bs ++ s).takeWhile isNumberByte = bs.takeWhile isNumberByte := by
    rw [List.takeWhile_append, if_neg]
    intro hlen
    have hsplit := congrArg List.length (List.takeWhile_append_dropWhile (p := isNumberByte) (l := bs))
    rw [List.length_append, hlen] at hsplit
    exact hr (List.length_eq_zero_iff.mp (by omega))
  have hdrop : (bs ++ s).dropWhile isNumberByte = bs.dropWhile isNumberByte ++ s := by
    rw [List.dropWhile_append, if_neg (by simpa using hr)]
  rw [scanNumber, htake, hdrop, hw]
  rfl

theorem scanScalar_append (h : scanScalar bs = some (v, r)) (hr : r ≠ []) (s : Bytes) :
    scanScalar (bs ++ s) = some (v, r ++ s) := by
  cases bs with
  | nil => cases h
  | cons b bs =>
    rw [List.cons_append]
    simp only [scanScalar] at h ⊢
    split_ifs at h ⊢
    · obtain ⟨r', hrest, heq⟩ := Option.map_eq_some_iff.mp h
      cases heq
      rw [scanString_append hrest s]
      rfl
    · exact scanLiteral_append h s
    · exact scanLiteral_append h s
    · exact scanLiteral_append h s
    · exact scanNumber_append h hr s

theorem scanValue_skipSpace {x : Json × Bytes} (h : scanValue n bs = some x) :
    skipSpace bs ≠ [] := by
  intro hnil
  cases n <;> simp [scanValue, hnil] at h

theorem scanElems_skipSpace {x : List Json × Bytes} (h : scanElems n bs = some x) :
    skipSpace bs ≠ [] := by
  cases n with
  | zero => cases h
  | succ n =>
    obtain ⟨y, hy, -⟩ := Option.bind_eq_some_iff.mp h
    exact scanValue_skipSpace hy

theorem scanMembers_skipSpace {x : List (String × Json) × Bytes} (h : scanMembers n bs = some x) :
    skipSpace bs ≠ [] := by
  cases n with
  | zero => cases h
  | succ n =>
    obtain ⟨y, hy, -⟩ := Option.bind_eq_some_iff.mp h
    obtain ⟨rest, hrest, -⟩ := Option.bind_eq_some_iff.mp hy
    simp [expect_eq_some.mp hrest]

theorem delimiter_ne_nil {x : Bool × Bytes} (h : delimiter close bs = some x) : bs ≠ [] := by
  rintro rfl
  cases h

/-- The induction is on the recursion bound, for the three scanners together. -/
theorem scan_append (n : Nat) :
    (∀ bs v r, scanValue n bs = some (v, r) → (r ≠ [] ∨ (skipSpace bs).head? = some 0x7B) →
      ∀ m, n ≤ m → ∀ s, scanValue m (bs ++ s) = some (v, r ++ s)) ∧
    (∀ bs vs r, scanElems n bs = some (vs, r) → ∀ m, n ≤ m → ∀ s,
      scanElems m (bs ++ s) = some (vs, r ++ s)) ∧
    (∀ bs ms r, scanMembers n bs = some (ms, r) →
      ∀ m, n ≤ m → ∀ s, scanMembers m (bs ++ s) = some (ms, r ++ s)) := by
  induction n with
  | zero => simp [scanValue, scanElems, scanMembers]
  | succ n ih =>
    obtain ⟨ihValue, ihElems, ihMembers⟩ := ih
    refine ⟨?_, ?_, ?_⟩
    · intro bs v r h hr m hm s
      obtain ⟨m, rfl⟩ := Nat.exists_eq_add_of_le' (Nat.one_le_of_lt hm)
      obtain ⟨b, rest, hb⟩ := List.exists_cons_of_ne_nil (scanValue_skipSpace h)
      simp only [scanValue, hb, skipSpace_append hb s] at h ⊢
      split_ifs at h ⊢ with harr hobj
      · cases hclose : expect 0x5D rest with
        | some rest' =>
          rw [hclose] at h
          cases h
          rw [expect_append hclose s]
        | none =>
          rw [hclose] at h
          obtain ⟨x, hx, heq⟩ := Option.map_eq_some_iff.mp h
          cases heq
          rw [expect_append_none hclose (scanElems_skipSpace hx) s]
          dsimp only
          rw [ihElems _ _ _ hx m (by omega) s]
          rfl
      · cases hclose : expect 0x7D rest with
        | some rest' =>
          rw [hclose] at h
          cases h
          rw [expect_append hclose s]
        | none =>
          rw [hclose] at h
          obtain ⟨x, hx, heq⟩ := Option.map_eq_some_iff.mp h
          cases heq
          rw [expect_append_none hclose (scanMembers_skipSpace hx) s]
          dsimp only
          rw [ihMembers _ _ _ hx m (by omega) s]
          rfl
      · have hne : r ≠ [] := hr.resolve_right (by simp [hb, hobj])
        exact scanScalar_append h hne s
    · intro bs vs r h m hm s
      obtain ⟨m, rfl⟩ := Nat.exists_eq_add_of_le' (Nat.one_le_of_lt hm)
      simp only [scanElems, Option.bind_eq_bind, Option.bind_eq_some_iff, Prod.exists] at h ⊢
      obtain ⟨v, bs₁, hv, last, bs₂, hlast, hrest⟩ := h
      refine ⟨v, bs₁ ++ s, ihValue _ _ _ hv (.inl (delimiter_ne_nil hlast)) m (by omega) s, last,
        bs₂ ++ s, delimiter_append hlast s, ?_⟩
      cases last with
      | true => simp_all
      | false =>
        simp only [Bool.false_eq_true, if_false, Option.bind_eq_some_iff, Prod.exists] at hrest ⊢
        obtain ⟨ws, bs₃, hws, heq⟩ := hrest
        exact ⟨ws, bs₃ ++ s, ihElems _ _ _ hws m (by omega) s, by simp_all⟩
    · intro bs ms r h m hm s
      obtain ⟨m, rfl⟩ := Nat.exists_eq_add_of_le' (Nat.one_le_of_lt hm)
      simp only [scanMembers, Option.bind_eq_bind, Option.bind_eq_some_iff, Prod.exists] at h ⊢
      obtain ⟨key, bs₀, hkey, v, bs₁, hv, last, bs₂, hlast, hrest⟩ := h
      refine ⟨key, bs₀ ++ s, scanKey_append hkey s, v, bs₁ ++ s,
        ihValue _ _ _ hv (.inl (delimiter_ne_nil hlast)) m (by omega) s, last,
        bs₂ ++ s, delimiter_append hlast s, ?_⟩
      cases last with
      | true => simp_all
      | false =>
        simp only [Bool.false_eq_true, if_false, Option.bind_eq_some_iff, Prod.exists] at hrest ⊢
        obtain ⟨ws, bs₃, hws, heq⟩ := hrest
        exact ⟨ws, bs₃ ++ s, ihMembers _ _ _ hws m (by omega) s, by simp_all⟩

/-! ## Reading back what was printed -/

/-- A way of escaping characters, with what makes it readable: the escape of a character has no
control characters, neither ends the string nor leaves the scanner inside an escape, and stands
for that character. -/
structure Escaper where
  escape : Char → Bytes
  visible : ∀ c, ∀ b ∈ escape c, 0x20 ≤ b
  scan : ∀ c rest, scanString .plain (escape c ++ rest) =
    (scanString .plain rest).map fun r => (escape c ++ r.1, r.2)
  read : ∀ c rest, unquoteOne (escape c ++ rest) = (c, (escape c).length)

structure FracText where
  text : ℚ → Bytes
  token : ∀ q, ∀ b ∈ text q, isNumberByte b = true
  number : ∀ q, (numberOfToken (text q)).isSome

/-- What the text of a number that is not an integer is read as. -/
def FracText.read (t : FracText) (q : ℚ) : Json := (numberOfToken (t.text q)).get (t.number q)

mutual

/-- The value that a printed value is read as. It differs in the numbers that are not integers,
which need not have a finite decimal expansion. -/
def reread (t : FracText) : Json → Json
  | frac q => t.read q
  | arr elems => arr (rereadElems t elems)
  | obj fields => obj (rereadMembers t fields)
  | null => null
  | bool b => bool b
  | int n => int n
  | str s => str s

def rereadElems (t : FracText) : List Json → List Json
  | [] => []
  | v :: vs => reread t v :: rereadElems t vs

def rereadMembers (t : FracText) : List (String × Json) → List (String × Json)
  | [] => []
  | (k, v) :: ms => (k, reread t v) :: rereadMembers t ms

end

theorem unquote_skip (l rest : Bytes) : unquote l.length (l ++ rest) = unquote 0 rest := by
  induction l with
  | nil => rfl
  | cons b l ih => exact ih

theorem decodeRune_pos (bs : Bytes) : 0 < (decodeRune bs).2 := by
  unfold decodeRune
  split
  · exact Char.utf8Size_pos _
  · exact Nat.one_pos

namespace Escaper

variable (e : Escaper)

theorem escape_ne_nil (c : Char) : e.escape c ≠ [] := by
  intro hnil
  have hread := e.read c []
  rw [hnil] at hread
  have hpos := decodeRune_pos []
  rw [show decodeRune [] = (c, 0) from hread] at hpos
  exact Nat.lt_irrefl 0 hpos

theorem unquote_escape (cs : List Char) : unquote 0 (cs.flatMap e.escape) = cs := by
  induction cs with
  | nil => rfl
  | cons c cs ih =>
    have hread := e.read c (cs.flatMap e.escape)
    rw [List.flatMap_cons]
    obtain ⟨b, l, hbl⟩ := List.exists_cons_of_ne_nil (e.escape_ne_nil c)
    rw [hbl, List.cons_append] at hread ⊢
    simp only [unquote, hread, List.length_cons, Nat.add_sub_cancel]
    rw [unquote_skip, ih]

theorem scanString_escape (cs : List Char) (rest : Bytes) :
    scanString .plain (cs.flatMap e.escape ++ 0x22 :: rest) = some (cs.flatMap e.escape, rest) := by
  induction cs with
  | nil => rfl
  | cons c cs ih => simp [List.flatMap_cons, e.scan, ih]

theorem scanScalar_quoteText (s : String) (rest : Bytes) :
    scanScalar (quoteText e.escape s ++ rest) = some (str s, rest) := by
  simp [quoteText, scanScalar, e.scanString_escape, e.unquote_escape]

theorem scanKey_quoteText (s : String) (rest : Bytes) :
    scanKey (quoteText e.escape s ++ 0x3A :: rest) = some (s, rest) := by
  have hquote : expect 0x22 (quoteText e.escape s ++ 0x3A :: rest) =
      some (s.toList.flatMap e.escape ++ 0x22 :: 0x3A :: rest) := by
    simp [quoteText, expect_cons (b := 0x22) (by decide)]
  simp only [scanKey, hquote, Option.bind_eq_bind, Option.bind_some, e.scanString_escape]
  simp [expect_cons (b := 0x3A) (by decide), e.unquote_escape]

end Escaper

variable {token : Bytes} {c : Char}

theorem scanNumber_token (htoken : ∀ b ∈ token, isNumberByte b = true)
    (hv : numberOfToken token = some v) (hrest : ∀ b ∈ rest.head?, isNumberByte b = false) :
    scanNumber (token ++ rest) = some (v, rest) := by
  have hsplit : rest.takeWhile isNumberByte = [] ∧ rest.dropWhile isNumberByte = rest := by
    cases rest with
    | nil => exact ⟨rfl, rfl⟩
    | cons b rest => simp [hrest b rfl]
  rw [scanNumber, List.takeWhile_append_of_pos htoken, List.dropWhile_append_of_pos htoken, hsplit.1,
    hsplit.2, List.append_nil, hv]
  rfl

/-! Integers are printed in decimal. -/

theorem utf8EncodeChar_ascii (h : c.toNat < 128) :
    String.utf8EncodeChar c = [UInt8.ofNat c.toNat] := by
  have hle : c.toNat ≤ 127 := Nat.le_of_lt_succ h
  simp [String.utf8EncodeChar, hle]

theorem asciiChars_flatMap (cs : List Char) (h : ∀ c ∈ cs, c.toNat < 128) :
    asciiChars (cs.flatMap String.utf8EncodeChar) = cs := by
  induction cs with
  | nil => rfl
  | cons c cs ih =>
    have hc := h c (by simp)
    have hrest : asciiChars (cs.flatMap String.utf8EncodeChar) = cs := ih fun d hd => h d (by simp [hd])
    have hbyte : (UInt8.ofNat c.toNat).toNat = c.toNat := by
      rw [UInt8.toNat_ofNat', Nat.mod_eq_of_lt (by omega)]
    rw [List.flatMap_cons, utf8EncodeChar_ascii hc]
    simp only [asciiChars, List.singleton_append, List.map_cons, hbyte, Char.ofNat_toNat]
    exact congrArg (c :: ·) hrest

theorem isDigit_bounds (h : c.isDigit = true) : 48 ≤ c.toNat ∧ c.toNat ≤ 57 := by
  simp only [Char.isDigit, Bool.and_eq_true, decide_eq_true_eq] at h
  exact ⟨UInt32.le_iff_toNat_le.mp h.1, UInt32.le_iff_toNat_le.mp h.2⟩

theorem toDigits_head_zero (n : Nat) (h : (Nat.toDigits 10 n).head? = some '0') : n = 0 := by
  induction n using Nat.strong_induction_on with
  | _ n ih =>
    rcases Nat.lt_or_ge n 10 with hn | hn
    · rw [Nat.toDigits_of_lt_base hn] at h
      interval_cases n <;> simp_all [Nat.digitChar]
    · rw [Nat.toDigits_of_base_le (by decide) hn, List.head?_append_of_ne_nil _ (by simp)] at h
      have := ih (n / 10) (by omega) h
      omega

theorem spanDigits_digits {cs : List Char} (h : ∀ c ∈ cs, c.isDigit = true) :
    spanDigits cs = (cs, []) := by
  rw [spanDigits, List.span_eq_takeWhile_dropWhile, List.takeWhile_eq_self_iff.mpr h,
    List.dropWhile_eq_nil_iff.mpr h]

theorem numberOfText_toDigits (n : Nat) (neg : Bool) :
    Number.ofText ((if neg then ['-'] else []) ++ Nat.toDigits 10 n) =
      some (.int (if neg then -(n : Int) else n)) := by
  have hdigits : ∀ c ∈ Nat.toDigits 10 n, c.isDigit = true := fun c hc =>
    Nat.isDigit_of_mem_toDigits (by decide) (by decide) hc
  have hsign : (Nat.toDigits 10 n).head? ≠ some '-' := by
    intro hhead
    exact absurd (hdigits '-' (List.mem_of_head? hhead)) (by decide)
  have hlead : (Nat.toDigits 10 n).head? = some '0' → (Nat.toDigits 10 n).length = 1 := by
    intro hhead
    rw [toDigits_head_zero n hhead]
    rfl
  have hvalue : digitsValue (Nat.toDigits 10 n) = n := Nat.ofDigitChars_ten_toDigits
  cases neg with
  | true => simpa [Number.ofText, spanDigits_digits hdigits, hvalue] using hlead
  | false => simpa [Number.ofText, spanDigits_digits hdigits, hvalue, hsign] using hlead

theorem asciiChars_intText (n : Int) :
    asciiChars (intText n) = (if n < 0 then ['-'] else []) ++ Nat.toDigits 10 n.natAbs := by
  have hdigits : ∀ c ∈ Nat.toDigits 10 n.natAbs, c.toNat < 128 := fun c hc =>
    (isDigit_bounds (Nat.isDigit_of_mem_toDigits (by decide) (by decide) hc)).2.trans_lt (by decide)
  have htail := asciiChars_flatMap _ hdigits
  unfold intText utf8
  rw [String.toList_ofList]
  unfold asciiChars at htail ⊢
  rw [List.map_append, htail]
  split <;> rfl

theorem numberOfToken_intText (n : Int) : numberOfToken (intText n) = some (int n) := by
  have hsplit : (if n < 0 then -(n.natAbs : Int) else n.natAbs) = n := by
    split <;> omega
  have htext := numberOfText_toDigits n.natAbs (decide (n < 0))
  simp only [decide_eq_true_eq, hsplit] at htext
  rw [numberOfToken, asciiChars_intText, htext]

theorem intText_token (n : Int) : ∀ b ∈ intText n, isNumberByte b = true := by
  intro b hb
  rw [intText, utf8, String.toList_ofList, List.mem_append, List.mem_flatMap] at hb
  rcases hb with hsign | ⟨c, hc, hb⟩
  · split at hsign
    · simp only [List.mem_singleton] at hsign
      subst hsign
      decide
    · cases hsign
  · obtain ⟨hlo, hhi⟩ := isDigit_bounds (Nat.isDigit_of_mem_toDigits (by decide) (by decide) hc)
    rw [utf8EncodeChar_ascii (by omega), List.mem_singleton] at hb
    rw [hb]
    generalize c.toNat = k at hlo hhi
    interval_cases k <;> decide

/-! Whole values. The bound of the recursion is measured against the printed text. -/

section RoundTrip

variable (e : Escaper) (t : FracText)

/-- The first byte of a printed value: not a space, and no closing bracket. -/
def Opens (bs : Bytes) : Prop :=
  ∃ b rest, bs = b :: rest ∧ isSpace b = false ∧ b ≠ 0x5D ∧ b ≠ 0x7D

variable {b : UInt8} {rest text tail token : Bytes} {v : Json} {n : Nat} {vs : List Json}
  {ms : List (String × Json)}

theorem isNumberByte_visible (h : isNumberByte b = true) : 0x21 ≤ b ∧ b ≤ 0x7E := by
  revert b
  decide +kernel

theorem isNumberByte_opens (h : isNumberByte b = true) :
    isSpace b = false ∧ b ∉ utf8 "]\x7d[\x7b\"tfn" := by
  revert b
  decide +kernel

variable {bs : Bytes} {close : UInt8} {k : String}

theorem Opens.skipSpace (h : Opens bs) (rest : Bytes) :
    Json.skipSpace (bs ++ rest) = bs ++ rest := by
  obtain ⟨b, tail, rfl, hspace, -⟩ := h
  simp [Json.skipSpace, hspace]

theorem Opens.expect_bracket (h : Opens bs) (rest : Bytes) :
    expect 0x5D (bs ++ rest) = none := by
  have hskip := h.skipSpace rest
  obtain ⟨b, tail, rfl, -, hb, -⟩ := h
  rw [List.cons_append] at hskip ⊢
  simp [expect, hskip, hb]

theorem opens_of_token (htoken : ∀ b ∈ token, isNumberByte b = true) (hne : token ≠ []) :
    Opens token := by
  obtain ⟨b, rest, rfl⟩ := List.exists_cons_of_ne_nil hne
  obtain ⟨hspace, hb⟩ := isNumberByte_opens (htoken b (by simp))
  refine ⟨b, rest, rfl, hspace, ?_, ?_⟩
  · rintro rfl
    exact hb (by decide)
  · rintro rfl
    exact hb (by decide)

theorem scanScalar_token (htoken : ∀ b ∈ token, isNumberByte b = true)
    (hv : numberOfToken token = some v) (hrest : ∀ b ∈ rest.head?, isNumberByte b = false) :
    scanScalar (token ++ rest) = some (v, rest) := by
  have hscan := scanNumber_token htoken hv hrest
  cases token with
  | nil => cases hv
  | cons b token =>
    have hb := (isNumberByte_opens (htoken b (by simp))).2
    have hne : ∀ c ∈ utf8 "]\x7d[\x7b\"tfn", b ≠ c := fun c hc heq => hb (heq ▸ hc)
    rw [List.cons_append] at hscan ⊢
    simp only [scanScalar]
    rw [if_neg (hne _ (by decide)), if_neg (hne _ (by decide)), if_neg (hne _ (by decide)),
      if_neg (hne _ (by decide)), hscan]

theorem print_opens (v : Json) : Opens (print e.escape t.text v) := by
  cases v with
  | null => exact ⟨_, _, rfl, by decide⟩
  | bool b => cases b <;> exact ⟨_, _, rfl, by decide⟩
  | int n =>
    apply opens_of_token (intText_token n)
    intro hnil
    have hread := numberOfToken_intText n
    rw [hnil] at hread
    cases hread
  | frac q =>
    apply opens_of_token (t.token q)
    intro hnil
    have hread := t.number q
    rw [hnil] at hread
    cases hread
  | str s => exact ⟨_, _, rfl, by decide⟩
  | arr vs => exact ⟨_, _, rfl, by decide⟩
  | obj ms => exact ⟨_, _, rfl, by decide⟩

theorem scanValue_scalar {w : Json} (hn : 2 * (print e.escape t.text v).length ≤ n)
    (hhead : ∀ b ∈ (print e.escape t.text v).head?, b ≠ 0x5B ∧ b ≠ 0x7B)
    (h : scanScalar (print e.escape t.text v ++ rest) = some (w, rest)) :
    scanValue n (print e.escape t.text v ++ rest) = some (w, rest) := by
  have hskip := (print_opens e t v).skipSpace rest
  obtain ⟨b, tail, htext, -⟩ := print_opens e t v
  obtain ⟨harr, hobj⟩ := hhead b (by rw [htext]; rfl)
  rw [htext, List.length_cons] at hn
  obtain ⟨n, rfl⟩ := Nat.exists_eq_add_of_le' (show 1 ≤ n by omega)
  rw [htext, List.cons_append] at h hskip ⊢
  simp only [scanValue, hskip]
  rw [if_neg harr, if_neg hobj, h]

theorem token_head (htoken : ∀ b ∈ token, isNumberByte b = true) :
    ∀ b ∈ token.head?, b ≠ 0x5B ∧ b ≠ 0x7B := by
  intro b hb
  have hnot := (isNumberByte_opens (htoken b (List.mem_of_head? hb))).2
  constructor
  · rintro rfl
    exact hnot (by decide)
  · rintro rfl
    exact hnot (by decide)

theorem boundary_cons (hb : isNumberByte b = false) (rest : Bytes) :
    ∀ c ∈ (b :: rest).head?, isNumberByte c = false := by
  simp [hb]

theorem utf8_null : utf8 "null" = [0x6E, 0x75, 0x6C, 0x6C] := by decide

theorem utf8_true : utf8 "true" = [0x74, 0x72, 0x75, 0x65] := by decide

theorem utf8_false : utf8 "false" = [0x66, 0x61, 0x6C, 0x73, 0x65] := by decide

theorem scanScalar_null (rest : Bytes) : scanScalar (utf8 "null" ++ rest) = some (null, rest) := by
  simp [scanScalar, scanLiteral, utf8_null]

theorem scanScalar_bool (b : Bool) (rest : Bytes) :
    scanScalar (utf8 (if b then "true" else "false") ++ rest) = some (bool b, rest) := by
  cases b <;> simp [scanScalar, scanLiteral, utf8_true, utf8_false]

theorem delimiter_cons (hclose : isSpace close = false) (rest : Bytes) :
    delimiter close (close :: rest) = some (true, rest) := by
  simp [delimiter, skipSpace, hclose]

theorem delimiter_comma (hclose : close ≠ 0x2C) (rest : Bytes) :
    delimiter close (0x2C :: rest) = some (false, rest) := by
  have hspace : isSpace 0x2C = false := by decide
  simp [delimiter, skipSpace, hspace, hclose.symm]

theorem scanElems_last (hv : scanValue n text = some (v, tail))
    (hclose : delimiter 0x5D tail = some (true, rest)) :
    scanElems (n + 1) text = some ([v], rest) := by
  simp [scanElems, hv, hclose]

theorem scanElems_more (hv : scanValue n text = some (v, 0x2C :: tail))
    (hvs : scanElems n tail = some (vs, rest)) :
    scanElems (n + 1) text = some (v :: vs, rest) := by
  simp [scanElems, hv, delimiter_comma (show (0x5D : UInt8) ≠ 0x2C by decide), hvs]

theorem scanMembers_last (hv : scanValue n text = some (v, tail))
    (hclose : delimiter 0x7D tail = some (true, rest)) :
    scanMembers (n + 1) (quoteText e.escape k ++ 0x3A :: text) = some ([(k, v)], rest) := by
  simp [scanMembers, e.scanKey_quoteText, hv, hclose]

theorem scanMembers_more (hv : scanValue n text = some (v, 0x2C :: tail))
    (hms : scanMembers n tail = some (ms, rest)) :
    scanMembers (n + 1) (quoteText e.escape k ++ 0x3A :: text) = some ((k, v) :: ms, rest) := by
  simp [scanMembers, e.scanKey_quoteText, hv,
    delimiter_comma (show (0x7D : UInt8) ≠ 0x2C by decide), hms]

theorem scanValue_arr (hopen : expect 0x5D text = none) (h : scanElems n text = some (vs, rest)) :
    scanValue (n + 1) (0x5B :: text) = some (arr vs, rest) := by
  have hspace : isSpace 0x5B = false := by decide
  simp [scanValue, skipSpace, hspace, hopen, h]

theorem scanValue_obj (hopen : expect 0x7D text = none) (h : scanMembers n text = some (ms, rest)) :
    scanValue (n + 1) (0x7B :: text) = some (obj ms, rest) := by
  have hspace : isSpace 0x7B = false := by decide
  simp [scanValue, skipSpace, hspace, hopen, h]

theorem printElems_opens (h : vs ≠ []) (rest : Bytes) :
    expect 0x5D (printElems e.escape t.text vs ++ rest) = none := by
  match vs, h with
  | [v], _ => exact (print_opens e t v).expect_bracket rest
  | v :: w :: vs, _ => simpa [printElems] using (print_opens e t v).expect_bracket _

theorem printMembers_opens (h : ms ≠ []) (rest : Bytes) :
    expect 0x7D (printMembers e.escape t.text ms ++ rest) = none := by
  have hspace : isSpace 0x22 = false := by decide
  match ms, h with
  | [(k, v)], _ => simp [printMembers, quoteText, expect, skipSpace, hspace]
  | (k, v) :: m :: ms, _ => simp [printMembers, quoteText, expect, skipSpace, hspace]

mutual

/-- What is printed is read back, whatever follows that cannot be part of a number. -/
theorem scanValue_print : ∀ (v : Json) (n : Nat), 2 * (print e.escape t.text v).length ≤ n →
    ∀ rest, (∀ b ∈ rest.head?, isNumberByte b = false) →
      scanValue n (print e.escape t.text v ++ rest) = some (reread t v, rest)
  | null, n, hn, rest, _ => scanValue_scalar e t hn (by simp [print, utf8_null]) (scanScalar_null rest)
  | bool b, n, hn, rest, _ =>
    scanValue_scalar e t hn (by cases b <;> simp [print, utf8_true, utf8_false])
      (scanScalar_bool b rest)
  | int i, n, hn, rest, hrest =>
    scanValue_scalar e t hn (token_head (intText_token i))
      (scanScalar_token (intText_token i) (numberOfToken_intText i) hrest)
  | frac q, n, hn, rest, hrest =>
    scanValue_scalar e t hn (token_head (t.token q))
      (scanScalar_token (t.token q) (Option.some_get (t.number q)).symm hrest)
  | str s, n, hn, rest, _ =>
    scanValue_scalar e t hn (by simp [print, quoteText]) (e.scanScalar_quoteText s rest)
  | arr vs, n, hn, rest, _ => by
    have hlen : 2 * (printElems e.escape t.text vs).length + 4 ≤ n := by
      simp only [print, List.length_cons, List.length_append, List.length_nil] at hn
      omega
    obtain ⟨n, rfl⟩ := Nat.exists_eq_add_of_le' (show 1 ≤ n by omega)
    by_cases hvs : vs = []
    · subst hvs
      simp [print, printElems, scanValue, skipSpace, expect, reread, rereadElems,
        show isSpace 0x5B = false by decide, show isSpace 0x5D = false by decide]
    · simp only [print, List.cons_append, List.append_assoc]
      exact scanValue_arr (printElems_opens e t hvs _) (scanElems_print vs n hvs (by omega) rest)
  | obj ms, n, hn, rest, _ => by
    have hlen : 2 * (printMembers e.escape t.text ms).length + 4 ≤ n := by
      simp only [print, List.length_cons, List.length_append, List.length_nil] at hn
      omega
    obtain ⟨n, rfl⟩ := Nat.exists_eq_add_of_le' (show 1 ≤ n by omega)
    by_cases hms : ms = []
    · subst hms
      simp [print, printMembers, scanValue, skipSpace, expect, reread, rereadMembers,
        show isSpace 0x7B = false by decide, show isSpace 0x7D = false by decide]
    · simp only [print, List.cons_append, List.append_assoc]
      exact scanValue_obj (printMembers_opens e t hms _) (scanMembers_print ms n hms (by omega) rest)

theorem scanElems_print : ∀ (vs : List Json) (n : Nat), vs ≠ [] →
    2 * (printElems e.escape t.text vs).length + 1 ≤ n →
    ∀ rest, scanElems n (printElems e.escape t.text vs ++ 0x5D :: rest) = some (rereadElems t vs, rest)
  | [], _, hne, _, _ => absurd rfl hne
  | [v], n, _, hn, rest => by
    obtain ⟨n, rfl⟩ := Nat.exists_eq_add_of_le' (show 1 ≤ n by omega)
    exact scanElems_last (scanValue_print v n (by simp only [printElems] at hn; omega) _
      (boundary_cons (by decide) rest)) (delimiter_cons (by decide) rest)
  | v :: w :: vs, n, _, hn, rest => by
    obtain ⟨n, rfl⟩ := Nat.exists_eq_add_of_le' (show 1 ≤ n by omega)
    rw [printElems, List.length_append, List.length_cons] at hn
    rw [printElems, List.append_assoc, List.cons_append]
    exact scanElems_more (scanValue_print v n (by omega) _ (boundary_cons (by decide) _))
      (scanElems_print (w :: vs) n (by simp) (by omega) rest)

theorem scanMembers_print : ∀ (ms : List (String × Json)) (n : Nat), ms ≠ [] →
    2 * (printMembers e.escape t.text ms).length + 1 ≤ n →
    ∀ rest, scanMembers n (printMembers e.escape t.text ms ++ 0x7D :: rest) =
      some (rereadMembers t ms, rest)
  | [], _, hne, _, _ => absurd rfl hne
  | [(k, v)], n, _, hn, rest => by
    obtain ⟨n, rfl⟩ := Nat.exists_eq_add_of_le' (show 1 ≤ n by omega)
    rw [printMembers, List.length_append, List.length_cons] at hn
    rw [printMembers, List.append_assoc, List.cons_append]
    exact scanMembers_last e (scanValue_print v n (by omega) _ (boundary_cons (by decide) _))
      (delimiter_cons (by decide) rest)
  | (k, v) :: m :: ms, n, _, hn, rest => by
    obtain ⟨n, rfl⟩ := Nat.exists_eq_add_of_le' (show 1 ≤ n by omega)
    rw [printMembers, List.length_append, List.length_cons, List.length_append, List.length_cons] at hn
    rw [printMembers, List.append_assoc, List.cons_append, List.append_assoc, List.cons_append]
    exact scanMembers_more e (scanValue_print v n (by omega) _ (boundary_cons (by decide) _))
      (scanMembers_print (m :: ms) n (by simp) (by omega) rest)

end

theorem parse_print (v : Json) : parse (print e.escape t.text v) = some (reread t v) := by
  have hscan := scanValue_print e t v (2 * (print e.escape t.text v).length + 2) (by omega) [] (by simp)
  rw [List.append_nil] at hscan
  simp [parse, hscan, skipSpace]

/-- The text of an object that is cut anywhere before its end is not JSON. -/
theorem parse_cut {fields : List (String × Json)} {p s : Bytes}
    (h : p ++ s = print e.escape t.text (obj fields)) (hs : s ≠ []) : parse p = none := by
  by_contra hparse
  obtain ⟨v, hv⟩ := Option.ne_none_iff_exists'.mp hparse
  unfold parse at hv
  split at hv
  · rename_i w rest hscan
    obtain ⟨b, tail, hp⟩ : ∃ b tail, p = b :: tail := by
      cases p with
      | nil => simp [scanValue, skipSpace] at hscan
      | cons b tail => exact ⟨b, tail, rfl⟩
    have hopen : b = 0x7B := by
      rw [hp, print, List.cons_append] at h
      exact (List.cons.inj h).1
    have hhead : (skipSpace p).head? = some 0x7B := by
      rw [hp, hopen]
      rfl
    have hwhole := (scan_append _).1 p w rest hscan (.inr hhead) (2 * (p ++ s).length + 2) (by simp) s
    have hprint := scanValue_print e t (obj fields) (2 * (p ++ s).length + 2) (by rw [h]; omega) []
      (by simp)
    rw [List.append_nil, ← h, hwhole] at hprint
    simp only [Option.some.injEq, Prod.mk.injEq, List.append_eq_nil_iff] at hprint
    exact hs hprint.2.2
  · cases hv

/-! Printed JSON is one line: it has no control characters. -/

theorem token_ge (htoken : ∀ b ∈ token, isNumberByte b = true) :
    ∀ b ∈ token, 0x20 ≤ b := fun b hb =>
  UInt8.le_trans (by decide) (isNumberByte_visible (htoken b hb)).1

theorem quoteText_ge (s : String) : ∀ b ∈ quoteText e.escape s, 0x20 ≤ b := by
  intro b hb
  simp only [quoteText, List.mem_cons, List.mem_append, List.mem_flatMap, List.not_mem_nil,
    or_false] at hb
  rcases hb with rfl | ⟨c, -, hb⟩ | rfl
  · decide
  · exact e.visible c b hb
  · decide

mutual

theorem print_ge : ∀ v : Json, ∀ b ∈ print e.escape t.text v, 0x20 ≤ b
  | null => by simp [print, utf8_null]
  | bool b => by cases b <;> simp [print, utf8_true, utf8_false]
  | int n => token_ge (intText_token n)
  | frac q => token_ge (t.token q)
  | str s => quoteText_ge e s
  | arr vs => by
    intro b hb
    simp only [print, List.mem_cons, List.mem_append, List.not_mem_nil, or_false] at hb
    rcases hb with rfl | hb | rfl
    · decide
    · exact printElems_ge vs b hb
    · decide
  | obj ms => by
    intro b hb
    simp only [print, List.mem_cons, List.mem_append, List.not_mem_nil, or_false] at hb
    rcases hb with rfl | hb | rfl
    · decide
    · exact printMembers_ge ms b hb
    · decide

theorem printElems_ge : ∀ vs : List Json, ∀ b ∈ printElems e.escape t.text vs, 0x20 ≤ b
  | [] => by simp [printElems]
  | [v] => print_ge v
  | v :: w :: vs => by
    intro b hb
    rw [printElems, List.mem_append, List.mem_cons] at hb
    rcases hb with hb | rfl | hb
    · exact print_ge v b hb
    · decide
    · exact printElems_ge (w :: vs) b hb

theorem printMembers_ge : ∀ ms : List (String × Json),
    ∀ b ∈ printMembers e.escape t.text ms, 0x20 ≤ b
  | [] => by simp [printMembers]
  | [(k, v)] => by
    intro b hb
    rw [printMembers, List.mem_append, List.mem_cons] at hb
    rcases hb with hb | rfl | hb
    · exact quoteText_ge e k b hb
    · decide
    · exact print_ge v b hb
  | (k, v) :: m :: ms => by
    intro b hb
    rw [printMembers, List.mem_append, List.mem_cons, List.mem_append, List.mem_cons] at hb
    rcases hb with hb | rfl | hb | rfl | hb
    · exact quoteText_ge e k b hb
    · decide
    · exact print_ge v b hb
    · decide
    · exact printMembers_ge (m :: ms) b hb

end

end RoundTrip

end Json

end Verilink.Framework

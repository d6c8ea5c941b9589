import Verilink.Framework.Fallible

/-!
# JSON values and the Go decoder

JSON values as they travel between the two programs, and the part of `encoding/json` that stores
such a value in the fields of a Go struct.
-/

namespace Verilink.Framework

/-- `int` is a number literal without fraction and exponent, `frac` any other one. -/
inductive Json
  | null
  | bool (b : Bool)
  | int (n : Int)
  | frac (q : ℚ)
  | str (s : String)
  | arr (elems : List Json)
  | obj (fields : List (String × Json))

namespace Json

/-- The case folding of `encoding/json`: ASCII letters, the long s and the Kelvin sign. -/
def foldChar (c : Char) : Char :=
  if 'A' ≤ c ∧ c ≤ 'Z' then Char.ofNat (c.toNat + 32)
  else if c = 'ſ' then 's'
  else if c = Char.ofNat 0x212A then 'k'
  else c

def keyMatches (name key : String) : Bool :=
  key.toList.map foldChar = name.toList.map foldChar

def decodeString (cur : String) : Json → Except String String
  | null => .ok cur
  | str s => .ok s
  | _ => .error "json: cannot unmarshal into Go value of type string"

def decodeStringPtr (_cur : Option String) : Json → Except String (Option String)
  | null => .ok none
  | str s => .ok (some s)
  | _ => .error "json: cannot unmarshal into Go value of type string"

def decodeBool (cur : Bool) : Json → Except String Bool
  | null => .ok cur
  | bool b => .ok b
  | _ => .error "json: cannot unmarshal into Go value of type bool"

/-- `int` and `int64` are 64 bits wide. -/
def decodeInt (cur : Int) : Json → Except String Int
  | null => .ok cur
  | int n =>
    if -2 ^ 63 ≤ n ∧ n < 2 ^ 63 then .ok n
    else .error "json: cannot unmarshal number into Go value of type int"
  | _ => .error "json: cannot unmarshal into Go value of type int"

/-- A valid `json.Number`: only integer literals have an integer value. -/
inductive Number
  | int (n : Int)
  | other
  deriving DecidableEq

def digitsValue (cs : List Char) : Nat := cs.foldl (fun n c => 10 * n + (c.toNat - '0'.toNat)) 0

def spanDigits (cs : List Char) : List Char × List Char := cs.span Char.isDigit

def exponentRest : List Char → Option (List Char)
  | c :: cs =>
    if c = 'e' ∨ c = 'E' then
      let body := match cs with
        | '+' :: rest => rest
        | '-' :: rest => rest
        | rest => rest
      if (spanDigits body).1 = [] then none else some (spanDigits body).2
    else some (c :: cs)
  | [] => some []

def fractionRest : List Char → Option (List Char)
  | '.' :: cs => if (spanDigits cs).1 = [] then none else some (spanDigits cs).2
  | cs => some cs

/-- `isValidNumber`: a minus sign, an integer part without leading zeros, a fraction, an
exponent. -/
def Number.ofText (text : List Char) : Option Number :=
  let neg := text.head? = some '-'
  let body := if neg then text.tail else text
  let (digits, rest) := spanDigits body
  if digits = [] ∨ (digits.head? = some '0' ∧ digits.length ≠ 1) then none
  else if rest = [] then
    some (.int (if neg then -(digitsValue digits : Int) else digitsValue digits))
  else
    match (fractionRest rest).bind exponentRest with
    | some [] => some .other
    | _ => none

def decodeNumber (cur : Option Number) : Json → Except String (Option Number)
  | null => .ok cur
  | int n => .ok (some (.int n))
  | frac _ => .ok (some .other)
  | str s =>
    match Number.ofText s.toList with
    | some n => .ok (some n)
    | none => .error "json: invalid number literal, trying to unmarshal into Number"
  | _ => .error "json: cannot unmarshal into Go value of type json.Number"

def decodeSlice {α : Type} (elem : Json → Except String α) : Json → Except String (List α)
  | null => .ok []
  | arr elems => elems.mapM elem
  | _ => .error "json: cannot unmarshal into Go slice"

/-- A nil slice and an empty one are both the empty list. -/
def decodeStringSlice : Json → Except String (List String) := decodeSlice (decodeString "")

/-- A field of a struct type `σ`: its key, and what storing a value there does. -/
structure Field (σ : Type) where
  name : String
  store : σ → Json → Except String σ

variable {σ : Type}

def storeKey (fields : List (Field σ)) (s : σ) : String × Json → Except String σ
  | (key, value) =>
    match fields.find? fun f => keyMatches f.name key with
    | none => .ok s
    | some f => f.store s value

/-- `json.Unmarshal` into a struct with the given fields. -/
def decodeStruct (fields : List (Field σ)) (zero : σ) : Json → Except String σ
  | null => .ok zero
  | obj entries => entries.foldlM (storeKey fields) zero
  | _ => .error "json: cannot unmarshal into Go struct"

@[simp]
theorem decodeInt_int (cur n : Int) (hlo : -2 ^ 63 ≤ n) (hhi : n < 2 ^ 63) :
    decodeInt cur (int n) = .ok n := by
  rw [decodeInt, if_pos ⟨hlo, hhi⟩]

theorem decodeSlice_map {α β : Type} (elem : Json → Except String α) (toJson : β → Json)
    (val : β → α) (l : List β) (h : ∀ b ∈ l, elem (toJson b) = .ok (val b)) :
    decodeSlice elem (arr (l.map toJson)) = .ok (l.map val) :=
  mapM_map_of_ok elem toJson val l h

theorem decodeStruct_preserves {P : σ → Prop} {fields : List (Field σ)} {zero s : σ} {v : Json}
    (hzero : P zero) (hstore : ∀ f ∈ fields, ∀ s v s', P s → f.store s v = .ok s' → P s')
    (h : decodeStruct fields zero v = .ok s) : P s := by
  have hkey : ∀ s entry s', P s → storeKey fields s entry = .ok s' → P s' := by
    rintro s ⟨key, value⟩ s' hs hst
    rw [storeKey] at hst
    cases hfield : fields.find? fun f => keyMatches f.name key with
    | none =>
      rw [hfield] at hst
      cases hst
      exact hs
    | some f =>
      rw [hfield] at hst
      exact hstore f (List.mem_of_find?_eq_some hfield) s value s' hs hst
  cases v with
  | null =>
    cases h
    exact hzero
  | obj entries =>
    change entries.foldlM (storeKey fields) zero = .ok s at h
    induction entries generalizing zero with
    | nil =>
      cases h
      exact hzero
    | cons entry entries ih =>
      obtain ⟨m, hm, hrest⟩ := foldlM_cons_eq_ok.mp h
      exact ih (hkey zero entry m hzero hm) hrest
  | _ => cases h

theorem decodeInt_range {cur n : Int} {v : Json} (hcur : -2 ^ 63 ≤ cur ∧ cur < 2 ^ 63)
    (h : decodeInt cur v = .ok n) : -2 ^ 63 ≤ n ∧ n < 2 ^ 63 := by
  cases v with
  | null =>
    cases h
    exact hcur
  | int k =>
    rw [decodeInt] at h
    split_ifs at h with hrange
    cases h
    exact hrange
  | _ => cases h

theorem decodeSlice_forall {α : Type} {P : α → Prop} {elem : Json → Except String α} {v : Json}
    {l : List α} (helem : ∀ v a, elem v = .ok a → P a) (h : decodeSlice elem v = .ok l) :
    ∀ a ∈ l, P a := by
  cases v with
  | null =>
    cases h
    simp
  | arr elems =>
    intro a ha
    obtain ⟨b, -, hb⟩ := mem_of_mapM_eq_ok h ha
    exact helem b a hb
  | _ => cases h

end Json

end Verilink.Framework

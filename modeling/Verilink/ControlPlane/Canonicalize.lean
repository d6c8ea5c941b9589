import Verilink.Framework.Utf16
import Verilink.Framework.SortedBy
import Verilink.Framework.JsValue

/-!
# The canonical text of a value

`canonicalize` follows RFC 8785: the entries of an object in the order of the code units of their
keys, no spaces, and no text with a lone surrogate.
-/

namespace Verilink.ControlPlane.Jcs

open Verilink.Framework

abbrev JsString := List UInt16

abbrev JsValue (F : Type) := Framework.JsValue JsString F

def literalValue : Json → ℚ
  | .int n => n
  | .frac q => q
  | _ => 0

/-- `String` on the finite numbers, and what `JSON.parse` takes the value of a literal for. A number
is written as a literal that is read as that number. -/
structure NumberText (F : Type) where
  zero : F
  text : F → Bytes
  round : ℚ → F
  token : ∀ x, ∀ b ∈ text x, Json.isNumberByte b = true
  readBack : ∀ x, ∃ v, Json.numberOfToken (text x) = some v ∧ round (literalValue v) = x

variable {F : Type} (numbers : NumberText F)

def canonicalizeNumber (n : JsNumber F) : Bytes :=
  match n.toFinite numbers.zero with
  | none => utf8 "null"
  | some x => numbers.text x

def checkSurrogates : JsString → Except String Unit
  | [] => .ok ()
  | [u] =>
    if Utf16.isHigh u then .error "JCS: lone high surrogate in string (RFC 8785 violation)"
    else if Utf16.isLow u then .error "JCS: lone low surrogate in string (RFC 8785 violation)"
    else .ok ()
  | u :: v :: us =>
    if Utf16.isHigh u then
      if Utf16.isLow v then checkSurrogates us
      else .error "JCS: lone high surrogate in string (RFC 8785 violation)"
    else if Utf16.isLow u then .error "JCS: lone low surrogate in string (RFC 8785 violation)"
    else checkSurrogates (v :: us)

def JsString.text (s : JsString) : String := String.ofList ((Utf16.decode s).getD [])

/-- `JSON.stringify` is not reached with a lone surrogate. -/
def canonicalizeString (s : JsString) : Except String Bytes := do
  checkSurrogates s
  return Json.quoteText Json.jsEscape (JsString.text s)

def compareKeys : JsString → JsString → Int
  | u :: us, v :: vs => if u ≠ v then (u.toNat : Int) - v.toNat else compareKeys us vs
  | us, vs => (us.length : Int) - vs.length

def sortEntries {α : Type} (entries : List (JsString × α)) : List (JsString × α) :=
  entries.insertionSort fun e f => compareKeys e.1 f.1 ≤ 0

def isUndefined : JsValue F → Bool
  | .undefined => true
  | _ => false

def joinComma (items : List Bytes) : Bytes := [0x2C].intercalate items

def canonicalizeEntry (e : JsString × Except String Bytes) : Except String Bytes := do
  let key ← canonicalizeString e.1
  let value ← e.2
  return key ++ 0x3A :: value

mutual

def canonicalizeValue : JsValue F → Except String Bytes
  | .null => .ok (utf8 "null")
  | .undefined => .ok (utf8 "null")
  | .bool b => .ok (utf8 (if b then "true" else "false"))
  | .number n => .ok (canonicalizeNumber numbers n)
  | .string s => canonicalizeString s
  | .array elems => do
    let items ← canonicalizeElems elems
    return 0x5B :: (joinComma items ++ [0x5D])
  | .object entries => do
    -- a text that cannot be written stops the sorted entries, when its turn comes
    let pairs ← (sortEntries (canonicalizeEntries entries)).mapM canonicalizeEntry
    return 0x7B :: (joinComma pairs ++ [0x7D])
  | .other s => canonicalizeString s

def canonicalizeElems : List (JsValue F) → Except String (List Bytes)
  | [] => .ok []
  | v :: vs => do
    let item ← canonicalizeValue v
    let items ← canonicalizeElems vs
    return item :: items

def canonicalizeEntries : List (JsString × JsValue F) → List (JsString × Except String Bytes)
  | [] => []
  | (k, v) :: es =>
    if isUndefined v then canonicalizeEntries es else (k, canonicalizeValue v) :: canonicalizeEntries es

end

def canonicalize (v : JsValue F) : Except String Bytes := canonicalizeValue numbers v

def computeFactsHash (sha256Hex : Bytes → String) (facts : JsValue F) : Except String String :=
  (canonicalize numbers facts).map sha256Hex

/-! ## Reading a text -/

mutual

def ofJson : Json → JsValue F
  | .null => .null
  | .bool b => .bool b
  | .int n => .number (.finite (numbers.round n))
  | .frac q => .number (.finite (numbers.round q))
  | .str s => .string (Utf16.encode s.toList)
  | .arr vs => .array (ofJsonElems vs)
  | .obj ms => .object (ofJsonMembers ms)

def ofJsonElems : List Json → List (JsValue F)
  | [] => []
  | v :: vs => ofJson v :: ofJsonElems vs

def ofJsonMembers : List (String × Json) → List (JsString × JsValue F)
  | [] => []
  | (k, v) :: ms => (Utf16.encode k.toList, ofJson v) :: ofJsonMembers ms

end

def jsonParse (text : Bytes) : Option (JsValue F) := (Json.jsParse text).map (ofJson numbers)

/-! ## JSON values -/

/-- A value that JSON has: its numbers are finite, and no object has a key twice. -/
inductive IsJson : JsValue F → Prop
  | null : IsJson .null
  | bool (b : Bool) : IsJson (.bool b)
  | number {n : JsNumber F} (finite : (n.toFinite numbers.zero).isSome) : IsJson (.number n)
  | string (s : JsString) : IsJson (.string s)
  | array {vs : List (JsValue F)} (elems : ∀ v ∈ vs, IsJson v) : IsJson (.array vs)
  | object {es : List (JsString × JsValue F)} (distinct : (es.map Prod.fst).Nodup)
      (values : ∀ e ∈ es, IsJson e.2) : IsJson (.object es)

inductive LoneSurrogate : JsValue F → Prop
  | string {s : JsString} (h : Utf16.decode s = none) : LoneSurrogate (.string s)
  | elem {vs : List (JsValue F)} {v : JsValue F} (hv : v ∈ vs) (h : LoneSurrogate v) : LoneSurrogate
    (.array vs)
  | key {es : List (JsString × JsValue F)} {e : JsString × JsValue F} (he : e ∈ es)
      (h : Utf16.decode e.1 = none) : LoneSurrogate (.object es)
  | value {es : List (JsString × JsValue F)} {e : JsString × JsValue F} (he : e ∈ es)
      (h : LoneSurrogate e.2) : LoneSurrogate (.object es)

/-- Equal up to the order of keys, at every depth: objects have the same keys, and the same values
under each of them. -/
inductive Same : JsValue F → JsValue F → Prop
  | null : Same .null .null
  | bool (b : Bool) : Same (.bool b) (.bool b)
  | number {m n : JsNumber F} (h : m.toFinite numbers.zero = n.toFinite numbers.zero) : Same
    (.number m) (.number n)
  | string (s : JsString) : Same (.string s) (.string s)
  | array {vs ws : List (JsValue F)} (length : vs.length = ws.length)
      (elems : ∀ (i : Nat) v w, vs[i]? = some v → ws[i]? = some w → Same v w) :
      Same (.array vs) (.array ws)
  | object {es fs : List (JsString × JsValue F)} (keys : (es.map Prod.fst).Perm (fs.map Prod.fst))
      (values : ∀ k v w, (k, v) ∈ es → (k, w) ∈ fs → Same v w) : Same (.object es) (.object fs)

/-! ## The order of keys -/

theorem compareKeys_nonpos_iff (a b : JsString) :
    compareKeys a b ≤ 0 ↔ a.map UInt16.toNat ≤ b.map UInt16.toNat := by
  rw [← not_lt, ← not_lt, not_iff_not]
  induction a generalizing b with
  | nil =>
    cases b with
    | nil => simp [compareKeys]
    | cons v vs =>
      simp only [compareKeys, List.length_nil, List.length_cons, List.map_nil, List.not_lt_nil,
        iff_false]
      omega
  | cons u us ih =>
    cases b with
    | nil =>
      simp only [compareKeys, List.length_nil, List.length_cons, List.map_nil, List.map_cons,
        List.nil_lt_cons, iff_true]
      omega
    | cons v vs =>
      rw [compareKeys, List.map_cons, List.map_cons, List.cons_lt_cons_iff, ← ih vs, UInt16.toNat_inj]
      split_ifs with h
      · simp only [Ne.symm h, false_and, or_false]
        omega
      · simp [not_not.mp h]

def unitsOf {α : Type} (e : JsString × α) : List Nat := e.1.map UInt16.toNat

variable {α : Type} {s : JsString}

theorem sortEntries_eq_sortBy (es : List (JsString × α)) : sortEntries es = sortBy unitsOf es := by
  have hle : (fun e f : JsString × α => compareKeys e.1 f.1 ≤ 0) = fun e f => unitsOf e ≤ unitsOf f := by
    funext e f
    exact propext (compareKeys_nonpos_iff e.1 f.1)
  unfold sortEntries sortBy
  simp only [hle]

theorem nodup_unitsOf {es : List (JsString × α)} (h : (es.map Prod.fst).Nodup) :
    (es.map unitsOf).Nodup := by
  have hinj : Function.Injective fun k : JsString => k.map UInt16.toNat :=
    List.map_injective_iff.mpr fun _ _ => UInt16.toNat_inj.mp
  have hmap : es.map unitsOf = (es.map Prod.fst).map fun k => k.map UInt16.toNat := by
    rw [List.map_map]
    rfl
  rw [hmap]
  exact h.map hinj

theorem perm_sortEntries (es : List (JsString × α)) : (sortEntries es).Perm es :=
  List.perm_insertionSort _ es

theorem sortEntries_congr {es fs : List (JsString × α)} (hkeys : (es.map Prod.fst).Nodup)
    (h : es.Perm fs) :
    sortEntries es = sortEntries fs := by
  rw [sortEntries_eq_sortBy, sortEntries_eq_sortBy]
  exact sortBy_congr (nodup_unitsOf hkeys) h

theorem sortEntries_map {β : Type} (f : α → β) (es : List (JsString × α)) :
    sortEntries (es.map fun e => (e.1, f e.2)) = (sortEntries es).map fun e => (e.1, f e.2) := by
  unfold sortEntries
  exact (List.map_insertionSort (fun e e' : JsString × α => compareKeys e.1 e'.1 ≤ 0)
    (fun e e' : JsString × β => compareKeys e.1 e'.1 ≤ 0)
      (fun e => (e.1, f e.2)) es fun _ _ _ _ => Iff.rfl).symm

/-! ## Surrogates -/

theorem checkSurrogates_ok_iff (s : JsString) : checkSurrogates s = .ok () ↔ Utf16.decode s ≠ none := by
  fun_induction checkSurrogates s with
  | case1 => simp [Utf16.decode]
  | case2 u hhigh => simp [Utf16.decode, hhigh]
  | case3 u hhigh hlow => simp [Utf16.decode, hlow]
  | case4 u hhigh hlow => simp [Utf16.decode, hhigh, hlow]
  | case5 u v us hhigh hlow ih => simpa [Utf16.decode, hhigh, hlow] using ih
  | case6 u v us hhigh hlow => simp [Utf16.decode, hhigh, hlow]
  | case7 u v us hhigh hlow => simp [Utf16.decode, hhigh, hlow]
  | case8 u v us hhigh hlow ih => simpa [Utf16.decode, hhigh, hlow] using ih

theorem canonicalizeString_ok (h : Utf16.decode s ≠ none) :
    canonicalizeString s = .ok (Json.quoteText Json.jsEscape (JsString.text s)) := by
  rw [canonicalizeString, (checkSurrogates_ok_iff s).mpr h]
  rfl

theorem canonicalizeString_error (h : Utf16.decode s = none) :
    ∃ message, canonicalizeString s = .error message := by
  cases hcheck : checkSurrogates s with
  | ok _ => exact absurd h ((checkSurrogates_ok_iff s).mp hcheck)
  | error message =>
    rw [canonicalizeString, hcheck]
    exact ⟨message, rfl⟩

theorem encode_text (h : Utf16.decode s ≠ none) : Utf16.encode (JsString.text s).toList = s := by
  obtain ⟨cs, hcs⟩ := Option.ne_none_iff_exists'.mp h
  rw [JsString.text, hcs, Option.getD_some, String.toList_ofList, Utf16.encode_of_decode hcs]

/-! ## The value that is printed -/

namespace NumberText

def literal (x : F) : ℚ := ((Json.numberOfToken (numbers.text x)).map literalValue).getD 0

theorem round_literal (x : F) : numbers.round (numbers.literal x) = x := by
  obtain ⟨v, hv, hround⟩ := numbers.readBack x
  rw [literal, hv, Option.map_some, Option.getD_some, hround]

def fracText : Json.FracText where
  text q := numbers.text (numbers.round q)
  token q := numbers.token (numbers.round q)
  number q := by
    obtain ⟨v, hv, -⟩ := numbers.readBack (numbers.round q)
    rw [hv]
    rfl

end NumberText

mutual

def tree : JsValue F → Json
  | .null => .null
  | .undefined => .null
  | .bool b => .bool b
  | .number n => ((n.toFinite numbers.zero).map fun x => Json.frac (numbers.literal x)).getD .null
  | .string s => .str (JsString.text s)
  | .array vs => .arr (treeElems vs)
  | .object es => .obj ((sortEntries (treeEntries es)).map fun e => (JsString.text e.1, e.2))
  | .other s => .str (JsString.text s)

def treeElems : List (JsValue F) → List Json
  | [] => []
  | v :: vs => tree v :: treeElems vs

def treeEntries : List (JsString × JsValue F) → List (JsString × Json)
  | [] => []
  | (k, v) :: es => (k, tree v) :: treeEntries es

end

variable {numbers}

theorem treeElems_eq (vs : List (JsValue F)) : treeElems numbers vs = vs.map (tree numbers) := by
  induction vs with
  | nil => simp [treeElems]
  | cons v vs ih => simp [treeElems, ih]

theorem treeEntries_eq (es : List (JsString × JsValue F)) :
    treeEntries numbers es = es.map fun e => (e.1, tree numbers e.2) := by
  induction es with
  | nil => simp [treeEntries]
  | cons e es ih => simp [treeEntries, ih]

theorem canonicalizeElems_eq (vs : List (JsValue F)) :
    canonicalizeElems numbers vs = vs.mapM (canonicalizeValue numbers) := by
  induction vs with
  | nil => rw [canonicalizeElems]; rfl
  | cons v vs ih => rw [canonicalizeElems, ih, List.mapM_cons]

variable {es : List (JsString × JsValue F)}

theorem canonicalizeEntries_eq (h : ∀ e ∈ es, IsJson numbers e.2) :
    canonicalizeEntries numbers es = es.map fun e => (e.1, canonicalizeValue numbers e.2) := by
  induction es with
  | nil => rw [canonicalizeEntries]; rfl
  | cons e es ih =>
    obtain ⟨k, v⟩ := e
    have hv : isUndefined v = false := by cases h (k, v) List.mem_cons_self <;> rfl
    rw [canonicalizeEntries, hv, if_neg Bool.false_ne_true,
      ih fun e he => h e (List.mem_cons_of_mem _ he), List.map_cons]

theorem joinComma_cons (x y : Bytes) (xs : List Bytes) :
    joinComma (x :: y :: xs) = x ++ 0x2C :: joinComma (y :: xs) := by
  simp [joinComma, List.intercalate_cons_cons]

theorem printElems_eq (escape : Char → Bytes) (fracText : ℚ → Bytes) (vs : List Json) :
    Json.printElems escape fracText vs = joinComma (vs.map (Json.print escape fracText)) := by
  induction vs with
  | nil => rfl
  | cons v vs ih =>
    cases vs with
    | nil => simp [Json.printElems, joinComma]
    | cons w vs => simp only [Json.printElems, ih, List.map_cons, joinComma_cons]

theorem printMembers_eq (escape : Char → Bytes) (fracText : ℚ → Bytes) (ms : List (String × Json)) :
    Json.printMembers escape fracText ms =
      joinComma (ms.map fun m => Json.quoteText escape m.1 ++
        0x3A :: Json.print escape fracText m.2) := by
  induction ms with
  | nil => rfl
  | cons m ms ih =>
    cases ms with
    | nil => simp [Json.printMembers, joinComma]
    | cons m' ms => simp only [Json.printMembers, ih, List.map_cons, joinComma_cons,
      List.append_assoc, List.cons_append]

def jsPrint (numbers : NumberText F) (v : Json) : Bytes :=
  Json.print Json.jsEscape numbers.fracText.text v

theorem canonicalizeEntry_ok {e : JsString × Json} (h : Utf16.decode e.1 ≠ none) :
    canonicalizeEntry (e.1, .ok (jsPrint numbers e.2)) =
      .ok (Json.quoteText Json.jsEscape (JsString.text e.1) ++ 0x3A :: jsPrint numbers e.2) := by
  rw [canonicalizeEntry, canonicalizeString_ok h]
  rfl

theorem canonicalizeSorted_ok {ts : List (JsString × Json)} (h : ∀ e ∈ ts, Utf16.decode e.1 ≠ none) :
    (sortEntries (ts.map fun e => (e.1, Except.ok (jsPrint numbers e.2)))).mapM canonicalizeEntry =
      .ok ((sortEntries ts).map fun e =>
        Json.quoteText Json.jsEscape (JsString.text e.1) ++ 0x3A :: jsPrint numbers e.2) := by
  rw [sortEntries_map fun v => Except.ok (jsPrint numbers v)]
  apply mapM_map_of_ok
  intro e he
  exact canonicalizeEntry_ok (h e ((perm_sortEntries ts).mem_iff.mp he))

variable {v : JsValue F}

theorem canonicalizeValue_ok (h : IsJson numbers v) (hlone : ¬ LoneSurrogate v) :
    canonicalizeValue numbers v = .ok (jsPrint numbers (tree numbers v)) := by
  induction h with
  | null => simp [canonicalizeValue, tree, jsPrint, Json.print]
  | bool b => simp [canonicalizeValue, tree, jsPrint, Json.print]
  | @number n hfinite =>
    obtain ⟨x, hx⟩ := Option.isSome_iff_exists.mp hfinite
    simp only [canonicalizeValue, canonicalizeNumber, tree, hx, Option.map_some, Option.getD_some,
      jsPrint, Json.print, NumberText.fracText, numbers.round_literal]
  | string s =>
    have hs : Utf16.decode s ≠ none := fun hnone => hlone (.string hnone)
    rw [canonicalizeValue, canonicalizeString_ok hs, tree, jsPrint, Json.print]
  | @array vs _ ih =>
    have hitems : (vs.map id).mapM (canonicalizeValue numbers) =
        .ok (vs.map fun v => jsPrint numbers (tree numbers v)) :=
      mapM_map_of_ok _ _ _ vs fun v hv => ih v hv fun hlv => hlone (.elem hv hlv)
    rw [List.map_id] at hitems
    rw [canonicalizeValue, canonicalizeElems_eq, hitems, tree, treeElems_eq, jsPrint, Json.print,
      printElems_eq, List.map_map]
    rfl
  | @object es _ hvalues ih =>
    have hpairs : es.map (fun e => (e.1, canonicalizeValue numbers e.2)) =
        (treeEntries numbers es).map fun e => (e.1, .ok (jsPrint numbers e.2)) := by
      rw [treeEntries_eq, List.map_map]
      apply List.map_congr_left
      intro e he
      rw [ih e he fun hle => hlone (.value he hle)]
      rfl
    have hkeys : ∀ e ∈ treeEntries numbers es, Utf16.decode e.1 ≠ none := by
      intro e he hnone
      rw [treeEntries_eq] at he
      obtain ⟨e', he', rfl⟩ := List.mem_map.mp he
      exact hlone (.key he' hnone)
    rw [canonicalizeValue, canonicalizeEntries_eq hvalues, hpairs, canonicalizeSorted_ok hkeys,
      tree, jsPrint, Json.print, printMembers_eq, List.map_map]
    rfl

theorem canonicalizeEntry_error {e : JsString × JsValue F}
    (h : Utf16.decode e.1 = none ∨ ∃ message, canonicalizeValue numbers e.2 = .error message) :
    ∃ message, canonicalizeEntry (e.1, canonicalizeValue numbers e.2) = .error message := by
  unfold canonicalizeEntry
  obtain hkey | ⟨message, hvalue⟩ := h
  · obtain ⟨message, hmessage⟩ := canonicalizeString_error hkey
    exact ⟨message, by rw [hmessage]; rfl⟩
  · cases hkey : canonicalizeString e.1 with
    | error message' => exact ⟨message', rfl⟩
    | ok key => exact ⟨message, by rw [hvalue]; rfl⟩

theorem canonicalizeObject_error (hvalues : ∀ e ∈ es, IsJson numbers e.2) {e : JsString × JsValue F}
    (he : e ∈ es)
    (h : Utf16.decode e.1 = none ∨ ∃ message, canonicalizeValue numbers e.2 = .error message) :
    ∃ message, canonicalizeValue numbers (.object es) = .error message := by
  obtain ⟨message, hentry⟩ := canonicalizeEntry_error h
  have hmem : (e.1, canonicalizeValue numbers e.2) ∈ sortEntries (canonicalizeEntries numbers es) := by
    rw [(perm_sortEntries _).mem_iff, canonicalizeEntries_eq hvalues]
    exact List.mem_map_of_mem he
  obtain ⟨message', hmapM⟩ := mapM_error_of_mem hmem hentry
  rw [canonicalizeValue, hmapM]
  exact ⟨message', rfl⟩

theorem canonicalizeValue_error (h : IsJson numbers v) (hlone : LoneSurrogate v) :
    ∃ message, canonicalizeValue numbers v = .error message := by
  induction hlone with
  | string hs =>
    rw [canonicalizeValue]
    exact canonicalizeString_error hs
  | elem hv _ ih =>
    cases h with
    | array helems =>
      obtain ⟨message, hmessage⟩ := ih (helems _ hv)
      obtain ⟨message', hmapM⟩ := mapM_error_of_mem hv hmessage
      rw [canonicalizeValue, canonicalizeElems_eq, hmapM]
      exact ⟨message', rfl⟩
  | key he hs =>
    cases h with
    | object _ hvalues => exact canonicalizeObject_error hvalues he (.inl hs)
  | value he _ ih =>
    cases h with
    | object _ hvalues => exact canonicalizeObject_error hvalues he (.inr (ih (hvalues _ he)))

/-! ## Equality up to the order of keys -/

variable {a b c v : JsValue F}

theorem Same.symm (h : Same numbers a b) : Same numbers b a := by
  induction h with
  | null => exact .null
  | bool b => exact .bool b
  | number h => exact .number h.symm
  | string s => exact .string s
  | array hlength _ ih => exact .array hlength.symm fun i v w hv hw => ih i w v hw hv
  | object hkeys _ ih => exact .object hkeys.symm fun k v w hv hw => ih k w v hw hv

theorem exists_entry {fs : List (JsString × JsValue F)}
    (h : (es.map Prod.fst).Perm (fs.map Prod.fst)) {k : JsString}
    (hv : (k, v) ∈ es) : ∃ w, (k, w) ∈ fs := by
  have hk : k ∈ fs.map Prod.fst := h.mem_iff.mp (List.mem_map_of_mem hv)
  obtain ⟨⟨k, w⟩, hw, rfl⟩ := List.mem_map.mp hk
  exact ⟨w, hw⟩

theorem Same.trans (hab : Same numbers a b) (hbc : Same numbers b c) : Same numbers a c := by
  induction hab generalizing c with
  | null => exact hbc
  | bool b => exact hbc
  | number h =>
    cases hbc with
    | number h' => exact .number (h.trans h')
  | string s => exact hbc
  | array hlength _ ih =>
    cases hbc with
    | array hlength' helems =>
      refine .array (hlength.trans hlength') fun i v w hv hw => ?_
      obtain ⟨hi, -⟩ := List.getElem?_eq_some_iff.mp hv
      exact ih i v _ hv (List.getElem?_eq_getElem (hlength ▸ hi))
        (helems i _ w (List.getElem?_eq_getElem (hlength ▸ hi)) hw)
  | object hkeys _ ih =>
    cases hbc with
    | object hkeys' hvalues =>
      refine .object (hkeys.trans hkeys') fun k v w hv hw => ?_
      obtain ⟨u, hu⟩ := exists_entry hkeys hv
      exact ih k v u hv hu (hvalues k u w hu hw)

theorem eq_of_mem_entries (h : (es.map Prod.fst).Nodup) {k : JsString} {w : JsValue F} (hv : (k, v) ∈ es)
    (hw : (k, w) ∈ es) : v = w :=
  (Prod.mk.inj (List.inj_on_of_nodup_map h hv hw rfl)).2

theorem map_fst_treeEntries (es : List (JsString × JsValue F)) :
    (treeEntries numbers es).map Prod.fst = es.map Prod.fst := by
  rw [treeEntries_eq, List.map_map]
  rfl

theorem treeEntries_subset {fs : List (JsString × JsValue F)}
    (hkeys : (es.map Prod.fst).Perm (fs.map Prod.fst))
    (h : ∀ k v w, (k, v) ∈ es → (k, w) ∈ fs → tree numbers v = tree numbers w) {e : JsString × Json}
    (he : e ∈ treeEntries numbers es) : e ∈ treeEntries numbers fs := by
  rw [treeEntries_eq] at he ⊢
  obtain ⟨⟨k, v⟩, hv, rfl⟩ := List.mem_map.mp he
  obtain ⟨w, hw⟩ := exists_entry hkeys hv
  rw [h k v w hv hw]
  exact List.mem_map_of_mem hw

theorem tree_eq_of_same (h : Same numbers a b) (ha : IsJson numbers a) (hb : IsJson numbers b) :
    tree numbers a = tree numbers b := by
  induction h with
  | null => rfl
  | bool b => rfl
  | number h => rw [tree, tree, h]
  | string s => rfl
  | @array vs ws hlength _ ih =>
    cases ha with
    | array helems =>
      cases hb with
      | array helems' =>
        rw [tree, tree, treeElems_eq, treeElems_eq, Json.arr.injEq]
        apply List.ext_getElem (by simpa using hlength)
        intro i hi hi'
        rw [List.length_map] at hi hi'
        rw [List.getElem_map, List.getElem_map]
        exact ih i _ _ (List.getElem?_eq_getElem hi) (List.getElem?_eq_getElem hi')
          (helems _ (List.getElem_mem hi))
          (helems' _ (List.getElem_mem hi'))
  | @object es fs hkeys _ ih =>
    cases ha with
    | object hnodup hvalues =>
      cases hb with
      | object hnodup' hvalues' =>
        have htree : ∀ k v w, (k, v) ∈ es → (k, w) ∈ fs → tree numbers v = tree numbers w :=
          fun k v w hv hw => ih k v w hv hw (hvalues _ hv) (hvalues' _ hw)
        have hes : (treeEntries numbers es).Nodup :=
          List.Nodup.of_map _ (map_fst_treeEntries es ▸ hnodup)
        have hfs : (treeEntries numbers fs).Nodup :=
          List.Nodup.of_map _ (map_fst_treeEntries fs ▸ hnodup')
        have hperm : (treeEntries numbers es).Perm (treeEntries numbers fs) := by
          rw [List.perm_ext_iff_of_nodup hes hfs]
          intro e
          constructor
          · exact treeEntries_subset hkeys htree
          · exact treeEntries_subset hkeys.symm fun k v w hv hw => (htree k w v hw hv).symm
        rw [tree, tree, sortEntries_congr (map_fst_treeEntries es ▸ hnodup) hperm]

/-! ## Reading the canonical text -/

theorem ofJsonElems_eq (vs : List Json) : ofJsonElems numbers vs = vs.map (ofJson numbers) := by
  induction vs with
  | nil => simp [ofJsonElems]
  | cons v vs ih => simp [ofJsonElems, ih]

theorem ofJsonMembers_eq (ms : List (String × Json)) :
    ofJsonMembers numbers ms = ms.map fun m => (Utf16.encode m.1.toList, ofJson numbers m.2) := by
  induction ms with
  | nil => simp [ofJsonMembers]
  | cons m ms ih => simp [ofJsonMembers, ih]

theorem rereadElems_eq (t : Json.FracText) (vs : List Json) :
    Json.rereadElems t vs = vs.map (Json.reread t) := by
  induction vs with
  | nil => simp [Json.rereadElems]
  | cons v vs ih => simp [Json.rereadElems, ih]

theorem rereadMembers_eq (t : Json.FracText) (ms : List (String × Json)) :
    Json.rereadMembers t ms = ms.map fun m => (m.1, Json.reread t m.2) := by
  induction ms with
  | nil => simp [Json.rereadMembers]
  | cons m ms ih => simp [Json.rereadMembers, ih]

def readTree (numbers : NumberText F) (v : Json) : JsValue F :=
  ofJson numbers (Json.lastMembers (Json.reread numbers.fracText v))

def readValue (numbers : NumberText F) (v : JsValue F) : JsValue F := readTree numbers (tree numbers v)

theorem ofJson_numberOfToken {token : Bytes} {v : Json} (h : Json.numberOfToken token = some v) :
    ofJson numbers (Json.lastMembers v) = .number (.finite (numbers.round (literalValue v))) := by
  unfold Json.numberOfToken at h
  split at h
  · cases h
    rw [Json.lastMembers, ofJson, literalValue]
  · cases h
    rw [Json.lastMembers, ofJson, literalValue]
  · cases h

theorem readValue_number {n : JsNumber F} {x : F} (h : n.toFinite numbers.zero = some x) :
    readValue numbers (.number n) = .number (.finite x) := by
  obtain ⟨lit, hlit, hround⟩ := numbers.readBack x
  have hread : numbers.fracText.read (numbers.literal x) = lit := by
    simp only [Json.FracText.read, NumberText.fracText, numbers.round_literal, hlit, Option.get_some]
  rw [readValue, readTree, tree, h, Option.map_some, Option.getD_some, Json.reread, hread,
    ofJson_numberOfToken hlit, hround]

theorem readValue_array (vs : List (JsValue F)) :
    readValue numbers (.array vs) = .array (vs.map (readValue numbers)) := by
  rw [readValue, readTree, tree, Json.reread, Json.lastMembers, ofJson, treeElems_eq,
    rereadElems_eq, Json.lastElems_eq, ofJsonElems_eq, List.map_map, List.map_map, List.map_map]
  rfl

theorem readValue_object (hkeys : (es.map Prod.fst).Nodup)
    (hdecode : ∀ e ∈ es, Utf16.decode e.1 ≠ none) :
    readValue numbers (.object es) =
      .object (sortEntries (es.map fun e => (e.1, readValue numbers e.2))) := by
  have hmem : ∀ e ∈ sortEntries (treeEntries numbers es), Utf16.decode e.1 ≠ none := by
    intro e he
    rw [(perm_sortEntries _).mem_iff, treeEntries_eq] at he
    obtain ⟨e', he', rfl⟩ := List.mem_map.mp he
    exact hdecode e' he'
  have hsorted : ((sortEntries (treeEntries numbers es)).map Prod.fst).Nodup := by
    rw [((perm_sortEntries _).map Prod.fst).nodup_iff, map_fst_treeEntries]
    exact hkeys
  have hnodup : (((sortEntries (treeEntries numbers es)).map fun e =>
      (JsString.text e.1, Json.reread numbers.fracText e.2)).map Prod.fst).Nodup := by
    rw [List.map_map]
    refine hsorted.of_map.map_on fun e he f hf htext => ?_
    have hkey : e.1 = f.1 := by
      rw [← encode_text (hmem e he), ← encode_text (hmem f hf)]
      exact congrArg (fun s => Utf16.encode (String.toList s)) htext
    exact List.inj_on_of_nodup_map hsorted he hf hkey
  have hread : es.map (fun e => (e.1, readValue numbers e.2)) =
      (treeEntries numbers es).map fun e => (e.1, readTree numbers e.2) := by
    rw [treeEntries_eq, List.map_map]
    rfl
  rw [hread, sortEntries_map (readTree numbers), readValue, readTree, tree, Json.reread,
    rereadMembers_eq, List.map_map, Json.lastMembers]
  have hlast := Json.lastFields_eq hnodup
  rw [List.map_map] at hlast
  change ofJson numbers (.obj (Json.lastFields ((sortEntries (treeEntries numbers es)).map fun e =>
    (JsString.text e.1, Json.reread numbers.fracText e.2)))) = _
  rw [hlast, ofJson, ofJsonMembers_eq, List.map_map]
  congr 1
  apply List.map_congr_left
  intro e he
  exact Prod.ext (encode_text (hmem e he)) rfl

theorem same_readValue (h : IsJson numbers v) (hlone : ¬ LoneSurrogate v) :
    Same numbers (readValue numbers v) v := by
  induction h with
  | null => exact .null
  | bool b => exact .bool b
  | @number n hfinite =>
    obtain ⟨x, hx⟩ := Option.isSome_iff_exists.mp hfinite
    rw [readValue_number hx]
    exact .number hx.symm
  | string s =>
    have hs : Utf16.decode s ≠ none := fun hnone => hlone (.string hnone)
    rw [readValue, readTree, tree, Json.reread, Json.lastMembers, ofJson, encode_text hs]
    exact .string s
  | @array vs _ ih =>
    rw [readValue_array]
    refine .array (List.length_map _) fun i v' w hv' hw => ?_
    rw [List.getElem?_map, hw, Option.map_some, Option.some.injEq] at hv'
    have hmem := List.mem_of_getElem? hw
    rw [← hv']
    exact ih w hmem fun hlw => hlone (.elem hmem hlw)
  | @object es hnodup _ ih =>
    rw [readValue_object hnodup fun e he hnone => hlone (.key he hnone)]
    have hperm := perm_sortEntries (es.map fun e => (e.1, readValue numbers e.2))
    refine .object ?_ fun k v' w hv' hw => ?_
    · have hkeys := hperm.map Prod.fst
      rwa [List.map_map] at hkeys
    · rw [hperm.mem_iff] at hv'
      obtain ⟨⟨k', v⟩, hv, heq⟩ := List.mem_map.mp hv'
      cases heq
      obtain rfl := eq_of_mem_entries hnodup hv hw
      exact ih _ hv fun hlv => hlone (.value hv hlv)

theorem jsonParse_jsPrint (v : JsValue F) :
    jsonParse numbers (jsPrint numbers (tree numbers v)) = some (readValue numbers v) := by
  rw [jsonParse, Json.jsParse, jsPrint, show Json.jsEscape = Json.jsEscaper.escape from rfl,
    Json.parse_print, Option.map_some, Option.map_some, readValue, readTree]

theorem canonicalizeValue_eq_iff (ha : IsJson numbers a) (hb : IsJson numbers b)
    (hla : ¬ LoneSurrogate a)
    (hlb : ¬ LoneSurrogate b) : canonicalizeValue numbers a = canonicalizeValue numbers b ↔
      Same numbers a b := by
  rw [canonicalizeValue_ok ha hla, canonicalizeValue_ok hb hlb, Except.ok.injEq]
  constructor
  · intro h
    have hread := congrArg (jsonParse numbers) h
    rw [jsonParse_jsPrint, jsonParse_jsPrint, Option.some.injEq] at hread
    have hsame := (same_readValue ha hla).symm
    rw [hread] at hsame
    exact hsame.trans (same_readValue hb hlb)
  · intro h
    rw [tree_eq_of_same h ha hb]

theorem canonicalize_canonical (ha : IsJson numbers a) (hb : IsJson numbers b) :
    (¬ LoneSurrogate a → ¬ LoneSurrogate b →
    (canonicalize numbers a = canonicalize numbers b ↔ Same numbers a b)) ∧
    (¬ LoneSurrogate a →
      ∃ text v, canonicalize numbers a = .ok text ∧ jsonParse numbers text = some v ∧ Same numbers v a) ∧
    (LoneSurrogate a → ∃ message, canonicalize numbers a = .error message) := by
  refine ⟨canonicalizeValue_eq_iff ha hb, ?_, canonicalizeValue_error ha⟩
  intro hla
  exact ⟨_, _, canonicalizeValue_ok ha hla, jsonParse_jsPrint a, same_readValue ha hla⟩

def integerText : NumberText Int where
  zero := 0
  text := Json.intText
  round q := ⌊q⌋
  token := Json.intText_token
  readBack n := ⟨.int n, Json.numberOfToken_intText n, by rw [literalValue, Int.floor_intCast]⟩

def twoFacts (k l : UInt16) (m n : JsNumber Int) : JsValue Int :=
  .object [([k], .number m), ([l], .number n)]

theorem isJson_twoFacts {k l : UInt16} (h : k ≠ l) {m n : JsNumber Int}
    (hm : (m.toFinite integerText.zero).isSome)
    (hn : (n.toFinite integerText.zero).isSome) : IsJson integerText (twoFacts k l m n) := by
  refine .object (by simpa using h) ?_
  simp only [List.forall_mem_cons, List.not_mem_nil, false_implies, implies_true, and_true]
  exact ⟨.number hm, .number hn⟩

theorem not_loneSurrogate_twoFacts {k l : UInt16} (hk : Utf16.decode [k] ≠ none)
    (hl : Utf16.decode [l] ≠ none) (m n : JsNumber Int) : ¬ LoneSurrogate (twoFacts k l m n) := by
  intro h
  cases h with
  | key he hnone =>
    simp only [List.mem_cons, List.not_mem_nil, or_false] at he
    obtain rfl | rfl := he
    · exact hk hnone
    · exact hl hnone
  | value he hlone =>
    simp only [List.mem_cons, List.not_mem_nil, or_false] at he
    obtain rfl | rfl := he <;> cases hlone

/-- The keys `b` and `a`, and the negative zero. -/
theorem canonicalize_canonical_facts :
    (canonicalize integerText (twoFacts 0x62 0x61 (.finite 1) .negZero) =
        canonicalize integerText (twoFacts 0x61 0x62 (.finite 0) (.finite 1)) ↔
      Same integerText (twoFacts 0x62 0x61 (.finite 1) .negZero)
        (twoFacts 0x61 0x62 (.finite 0) (.finite 1))) ∧
    ∃ text v, canonicalize integerText (twoFacts 0x62 0x61 (.finite 1) .negZero) = .ok text ∧
      jsonParse integerText text = some v ∧
        Same integerText v (twoFacts 0x62 0x61 (.finite 1) .negZero) := by
  have hba := not_loneSurrogate_twoFacts (k := 0x62) (l := 0x61)
      (by decide) (by decide) (.finite 1) .negZero
  have hab := not_loneSurrogate_twoFacts (k := 0x61) (l := 0x62)
      (by decide) (by decide) (.finite 0) (.finite 1)
  have h := canonicalize_canonical
    (isJson_twoFacts (k := 0x62) (l := 0x61) (by decide) (m := .finite 1) (n := .negZero) rfl rfl)
    (isJson_twoFacts (k := 0x61) (l := 0x62) (by decide) (m := .finite 0) (n := .finite 1) rfl rfl)
  exact ⟨h.1 hba hab, h.2.1 hba⟩

end Verilink.ControlPlane.Jcs

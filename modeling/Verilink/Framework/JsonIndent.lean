import Verilink.Framework.JsonEscape

/-!
# Indented JSON

Printing a JSON value over several lines the way `json.MarshalIndent` does with an indent of two
blanks. Spaces between the parts of a value do not change what is read.
-/

namespace Verilink.Framework

namespace Json

def newline (depth : Nat) : Bytes := 0x0A :: List.replicate (2 * depth) 0x20

mutual

def indent (escape : Char → Bytes) (fracText : ℚ → Bytes) (depth : Nat) : Json → Bytes
  | arr elems =>
    if elems = [] then [0x5B, 0x5D]
    else 0x5B :: (newline (depth + 1) ++ indentElems escape fracText (depth + 1) elems ++
      newline depth ++ [0x5D])
  | obj fields =>
    if fields = [] then [0x7B, 0x7D]
    else 0x7B :: (newline (depth + 1) ++ indentMembers escape fracText (depth + 1) fields ++
      newline depth ++ [0x7D])
  | null => print escape fracText null
  | bool b => print escape fracText (bool b)
  | int n => print escape fracText (int n)
  | frac q => print escape fracText (frac q)
  | str s => print escape fracText (str s)

def indentElems (escape : Char → Bytes) (fracText : ℚ → Bytes) (depth : Nat) : List Json → Bytes
  | [] => []
  | [v] => indent escape fracText depth v
  | v :: w :: vs =>
    indent escape fracText depth v ++ 0x2C :: (newline depth ++
      indentElems escape fracText depth (w :: vs))

def indentMembers (escape : Char → Bytes) (fracText : ℚ → Bytes) (depth : Nat) :
    List (String × Json) → Bytes
  | [] => []
  | [(k, v)] => quoteText escape k ++ 0x3A :: 0x20 :: indent escape fracText depth v
  | (k, v) :: m :: ms =>
    quoteText escape k ++ 0x3A :: 0x20 :: (indent escape fracText depth v ++
      0x2C :: (newline depth ++ indentMembers escape fracText depth (m :: ms)))

end

/-! ## Spaces are skipped -/

theorem isSpace_newline (depth : Nat) : ∀ b ∈ newline depth, isSpace b = true := by
  intro b hb
  rcases List.mem_cons.mp hb with rfl | hb
  · decide
  · rw [List.eq_of_mem_replicate hb]
    decide

theorem skipSpace_spaces {sp : Bytes} (h : ∀ b ∈ sp, isSpace b = true) (bs : Bytes) :
    skipSpace (sp ++ bs) = skipSpace bs := by
  induction sp with
  | nil => rfl
  | cons b sp ih =>
    have hb := h b List.mem_cons_self
    rw [List.cons_append, skipSpace, List.dropWhile_cons_of_pos hb]
    exact ih fun c hc => h c (List.mem_cons_of_mem b hc)

variable {sp : Bytes} (hsp : ∀ b ∈ sp, isSpace b = true)
include hsp

theorem expect_spaces (b : UInt8) (bs : Bytes) : expect b (sp ++ bs) = expect b bs := by
  rw [expect, skipSpace_spaces hsp, expect]

theorem delimiter_spaces (close : UInt8) (bs : Bytes) :
    delimiter close (sp ++ bs) = delimiter close bs := by
  rw [delimiter, skipSpace_spaces hsp, delimiter]

theorem scanKey_spaces (bs : Bytes) : scanKey (sp ++ bs) = scanKey bs := by
  rw [scanKey, expect_spaces hsp, scanKey]

theorem scanValue_spaces (n : Nat) (bs : Bytes) : scanValue n (sp ++ bs) = scanValue n bs := by
  cases n with
  | zero => rfl
  | succ n => rw [scanValue, skipSpace_spaces hsp, scanValue]

theorem scanElems_spaces (n : Nat) (bs : Bytes) : scanElems n (sp ++ bs) = scanElems n bs := by
  cases n with
  | zero => rfl
  | succ n => rw [scanElems, scanValue_spaces hsp, scanElems]

theorem scanMembers_spaces (n : Nat) (bs : Bytes) : scanMembers n (sp ++ bs) = scanMembers n bs := by
  cases n with
  | zero => rfl
  | succ n => rw [scanMembers, scanKey_spaces hsp, scanMembers]

omit hsp

theorem newline_boundary (depth : Nat) (rest : Bytes) :
    ∀ b ∈ (newline depth ++ rest).head?, isNumberByte b = false :=
  boundary_cons (by decide) _

theorem delimiter_newline (depth : Nat) {close : UInt8} (hclose : isSpace close = false)
    (rest : Bytes) : delimiter close (newline depth ++ close :: rest) = some (true, rest) := by
  rw [delimiter_spaces (isSpace_newline depth), delimiter_cons hclose]

/-! ## An indented value is read back -/

section RoundTrip

variable (e : Escaper) (t : FracText)

theorem indent_opens (depth : Nat) (v : Json) : Opens (indent e.escape t.text depth v) := by
  cases v with
  | arr vs =>
    rw [indent]
    split
    · exact ⟨_, _, rfl, by decide⟩
    · exact ⟨_, _, rfl, by decide⟩
  | obj ms =>
    rw [indent]
    split
    · exact ⟨_, _, rfl, by decide⟩
    · exact ⟨_, _, rfl, by decide⟩
  | null => exact print_opens e t null
  | bool b => exact print_opens e t (bool b)
  | int n => exact print_opens e t (int n)
  | frac q => exact print_opens e t (frac q)
  | str s => exact print_opens e t (str s)

theorem indentElems_opens (depth : Nat) {vs : List Json} (h : vs ≠ []) (rest : Bytes) :
    expect 0x5D (indentElems e.escape t.text depth vs ++ rest) = none := by
  match vs, h with
  | [v], _ => exact (indent_opens e t depth v).expect_bracket rest
  | v :: w :: vs, _ => simpa [indentElems] using (indent_opens e t depth v).expect_bracket _

theorem indentMembers_opens (depth : Nat) {ms : List (String × Json)} (h : ms ≠ [])
    (rest : Bytes) : expect 0x7D (indentMembers e.escape t.text depth ms ++ rest) = none := by
  have hspace : isSpace 0x22 = false := by decide
  match ms, h with
  | [(k, v)], _ => simp [indentMembers, quoteText, expect, skipSpace, hspace]
  | (k, v) :: m :: ms, _ => simp [indentMembers, quoteText, expect, skipSpace, hspace]

theorem scanValue_blank (n : Nat) (bs : Bytes) : scanValue n (0x20 :: bs) = scanValue n bs :=
  scanValue_spaces (List.forall_mem_singleton.mpr (by decide)) n bs

mutual

theorem scanValue_indent :
    ∀ (v : Json) (depth n : Nat), 2 * (indent e.escape t.text depth v).length ≤ n →
    ∀ rest, (∀ b ∈ rest.head?, isNumberByte b = false) →
      scanValue n (indent e.escape t.text depth v ++ rest) = some (reread t v, rest)
  | null, _, n, hn, rest, hrest => scanValue_print e t null n hn rest hrest
  | bool b, _, n, hn, rest, hrest => scanValue_print e t (bool b) n hn rest hrest
  | int i, _, n, hn, rest, hrest => scanValue_print e t (int i) n hn rest hrest
  | frac q, _, n, hn, rest, hrest => scanValue_print e t (frac q) n hn rest hrest
  | str s, _, n, hn, rest, hrest => scanValue_print e t (str s) n hn rest hrest
  | arr vs, depth, n, hn, rest, hrest => by
    by_cases hvs : vs = []
    · subst hvs
      exact scanValue_print e t (arr []) n hn rest hrest
    · rw [indent, if_neg hvs] at hn ⊢
      simp only [List.length_cons, List.length_append, List.length_nil] at hn
      obtain ⟨n, rfl⟩ := Nat.exists_eq_add_of_le' (show 1 ≤ n by omega)
      have hsp := isSpace_newline (depth + 1)
      simp only [List.cons_append, List.append_assoc, List.nil_append]
      apply scanValue_arr
      · rw [expect_spaces hsp]
        exact indentElems_opens e t (depth + 1) hvs _
      · rw [scanElems_spaces hsp]
        exact scanElems_indent vs (depth + 1) n hvs (by omega) depth rest
  | obj ms, depth, n, hn, rest, hrest => by
    by_cases hms : ms = []
    · subst hms
      exact scanValue_print e t (obj []) n hn rest hrest
    · rw [indent, if_neg hms] at hn ⊢
      simp only [List.length_cons, List.length_append, List.length_nil] at hn
      obtain ⟨n, rfl⟩ := Nat.exists_eq_add_of_le' (show 1 ≤ n by omega)
      have hsp := isSpace_newline (depth + 1)
      simp only [List.cons_append, List.append_assoc, List.nil_append]
      apply scanValue_obj
      · rw [expect_spaces hsp]
        exact indentMembers_opens e t (depth + 1) hms _
      · rw [scanMembers_spaces hsp]
        exact scanMembers_indent ms (depth + 1) n hms (by omega) depth rest

theorem scanElems_indent : ∀ (vs : List Json) (depth n : Nat), vs ≠ [] →
    2 * (indentElems e.escape t.text depth vs).length + 1 ≤ n → ∀ (outer : Nat) rest,
      scanElems n (indentElems e.escape t.text depth vs ++ (newline outer ++ 0x5D :: rest)) =
        some (rereadElems t vs, rest)
  | [], _, _, hne, _, _, _ => absurd rfl hne
  | [v], depth, n, _, hn, outer, rest => by
    obtain ⟨n, rfl⟩ := Nat.exists_eq_add_of_le' (show 1 ≤ n by omega)
    rw [indentElems] at hn ⊢
    exact scanElems_last (scanValue_indent v depth n (by omega) _ (newline_boundary outer _))
      (delimiter_newline outer (by decide) rest)
  | v :: w :: vs, depth, n, _, hn, outer, rest => by
    obtain ⟨n, rfl⟩ := Nat.exists_eq_add_of_le' (show 1 ≤ n by omega)
    rw [indentElems, List.length_append, List.length_cons, List.length_append] at hn
    rw [indentElems, List.append_assoc, List.cons_append, List.append_assoc]
    apply scanElems_more (scanValue_indent v depth n (by omega) _ (boundary_cons (by decide) _))
    rw [scanElems_spaces (isSpace_newline depth)]
    exact scanElems_indent (w :: vs) depth n (by simp) (by omega) outer rest

theorem scanMembers_indent : ∀ (ms : List (String × Json)) (depth n : Nat), ms ≠ [] →
    2 * (indentMembers e.escape t.text depth ms).length + 1 ≤ n → ∀ (outer : Nat) rest,
      scanMembers n (indentMembers e.escape t.text depth ms ++ (newline outer ++ 0x7D :: rest)) =
        some (rereadMembers t ms, rest)
  | [], _, _, hne, _, _, _ => absurd rfl hne
  | [(k, v)], depth, n, _, hn, outer, rest => by
    obtain ⟨n, rfl⟩ := Nat.exists_eq_add_of_le' (show 1 ≤ n by omega)
    rw [indentMembers, List.length_append, List.length_cons, List.length_cons] at hn
    rw [indentMembers, List.append_assoc, List.cons_append, List.cons_append]
    apply scanMembers_last e _ (delimiter_newline outer (by decide) rest)
    rw [scanValue_blank]
    exact scanValue_indent v depth n (by omega) _ (newline_boundary outer _)
  | (k, v) :: m :: ms, depth, n, _, hn, outer, rest => by
    obtain ⟨n, rfl⟩ := Nat.exists_eq_add_of_le' (show 1 ≤ n by omega)
    simp only [indentMembers, List.length_append, List.length_cons] at hn
    simp only [indentMembers, List.append_assoc, List.cons_append]
    apply scanMembers_more e
    · rw [scanValue_blank]
      exact scanValue_indent v depth n (by omega) _ (boundary_cons (by decide) _)
    · rw [scanMembers_spaces (isSpace_newline depth)]
      exact scanMembers_indent (m :: ms) depth n (by simp) (by omega) outer rest

end

theorem parse_indent (v : Json) : parse (indent e.escape t.text 0 v) = some (reread t v) := by
  have hscan := scanValue_indent e t v 0 (2 * (indent e.escape t.text 0 v).length + 2) (by omega) []
    (by simp)
  rw [List.append_nil] at hscan
  simp [parse, hscan, skipSpace]

end RoundTrip

/-- `json.MarshalIndent(v, "", "  ")` of a value without fractions. -/
def marshalIndent (v : Json) : Bytes := v.indent goEscape noFracs.text 0

theorem parse_marshalIndent {v : Json} (h : fracFree v = true) :
    parse (marshalIndent v) = some v := by
  have hparse := parse_indent goEscaper noFracs v
  rw [reread_of_fracFree _ v h] at hparse
  exact hparse

end Json

end Verilink.Framework

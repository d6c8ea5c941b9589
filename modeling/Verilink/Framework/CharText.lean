import Mathlib.Data.List.DropRight
import Verilink.Framework.Text

/-!
# Go strings as characters

The functions of `strings`, `strconv` and `fmt` that take header values apart and put them
together, on the characters of a valid UTF-8 string.
-/

namespace Verilink.Framework.Chars

def isSpace (c : Char) : Bool := c ∈ Text.whiteSpace

def trimSpace (cs : List Char) : List Char := (cs.dropWhile isSpace).rdropWhile isSpace

def trim (q : Char) (cs : List Char) : List Char := (cs.dropWhile (· = q)).rdropWhile (· = q)

/-- `strings.SplitN(s, sep, 2)`; the second part is missing when there is no separator. -/
def cut (sep : Char) : List Char → List Char × Option (List Char)
  | [] => ([], none)
  | c :: cs => if c = sep then ([], some cs) else (c :: (cut sep cs).1, (cut sep cs).2)

/-- What stands before and after the last separator, found with `strings.LastIndex`. -/
def cutLast (sep : Char) : List Char → Option (List Char × List Char)
  | [] => none
  | c :: cs =>
    match cutLast sep cs with
    | some (before, after) => some (c :: before, after)
    | none => if c = sep then some ([], cs) else none

def fields (cs : List Char) : List (List Char) := (cs.splitOnP isSpace).filter (· ≠ [])

def decimal (n : Int) : List Char := (if n < 0 then ['-'] else []) ++ Nat.toDigits 10 n.natAbs

def parseInt64 (cs : List Char) : Option Int := Text.parseInt64 (utf8 (String.ofList cs))

/-! ## Quoting -/

/-- `strconv.IsPrint`, which agrees with ASCII where that says anything. -/
structure Printable where
  isPrint : Char → Bool
  ascii : ∀ c : Char, c.toNat < 128 → isPrint c = decide (0x20 ≤ c.toNat ∧ c.toNat < 0x7F)

theorem ascii_asciiOnly (c : Char) (_ : c.toNat < 128) :
    decide (0x20 ≤ c.toNat ∧ c.toNat < 0x7F) = decide (0x20 ≤ c.toNat ∧ c.toNat < 0x7F) := rfl

/-- Printable in ASCII and nowhere else. -/
def asciiOnly : Printable where
  isPrint c := 0x20 ≤ c.toNat ∧ c.toNat < 0x7F
  ascii := ascii_asciiOnly

def hexDigits (width n : Nat) : List Char :=
  (List.range width).reverse.map fun i => Nat.digitChar (n / 16 ^ i % 16)

def namedEscape (c : Char) : Option Char :=
  if c.toNat = 7 then some 'a'
  else if c.toNat = 8 then some 'b'
  else if c.toNat = 12 then some 'f'
  else if c = '\n' then some 'n'
  else if c = '\r' then some 'r'
  else if c = '\t' then some 't'
  else if c.toNat = 11 then some 'v'
  else none

def quoteChar (p : Printable) (c : Char) : List Char :=
  if c = '"' ∨ c = '\\' then ['\\', c]
  else if p.isPrint c then [c]
  else
    match namedEscape c with
    | some e => ['\\', e]
    | none =>
      if c.toNat < 0x20 ∨ c.toNat = 0x7F then '\\' :: 'x' :: hexDigits 2 c.toNat
      else if c.toNat < 0x10000 then '\\' :: 'u' :: hexDigits 4 c.toNat
      else '\\' :: 'U' :: hexDigits 8 c.toNat

def escape (p : Printable) (cs : List Char) : List Char := cs.flatMap (quoteChar p)

def Plain (p : Printable) (c : Char) : Prop := c ≠ '"' ∧ c ≠ '\\' ∧ p.isPrint c = true

instance (p : Printable) (c : Char) : Decidable (Plain p c) := instDecidableAnd

variable {p : Printable} {sep c : Char} {cs : List Char}

theorem quoteChar_plain (h : Plain p c) : quoteChar p c = [c] := by
  rw [quoteChar, if_neg (not_or.mpr ⟨h.1, h.2.1⟩), if_pos h.2.2]

theorem hexDigits_chars (width n : Nat) : ';' ∉ hexDigits width n := by
  have hdigits : ∀ k : Fin 16, Nat.digitChar k ≠ ';' := by decide
  intro hc
  obtain ⟨i, -, hi⟩ := List.mem_map.mp hc
  exact hdigits ⟨_, Nat.mod_lt _ (by decide)⟩ hi

theorem namedEscape_ne {e : Char} (h : namedEscape c = some e) : ';' ≠ e := by
  unfold namedEscape at h
  split_ifs at h <;> cases h <;> decide

theorem quoteChar_not_plain (h : ¬ Plain p c) :
    ∃ x xs, quoteChar p c = '\\' :: x :: xs ∧ (c = '\\' → x = '\\' ∧ xs = []) ∧ ';' ∉ x :: xs := by
  by_cases hc : c = '"' ∨ c = '\\'
  · refine ⟨c, [], by rw [quoteChar, if_pos hc], fun h => ⟨h, rfl⟩, ?_⟩
    rcases hc with rfl | rfl <;> decide
  · rw [quoteChar, if_neg hc]
    have hback : c ≠ '\\' := fun h => hc (.inr h)
    have hhex : ∀ (x : Char) (width : Nat), ';' ≠ x → ';' ∉ x :: hexDigits width c.toNat :=
      fun x width hx => by simpa [hx] using hexDigits_chars width c.toNat
    by_cases hp : p.isPrint c = true
    · exact absurd ⟨fun h => hc (.inl h), hback, hp⟩ h
    · rw [if_neg hp]
      split
      · rename_i e he
        exact ⟨e, [], rfl, fun h => absurd h hback, by simpa using namedEscape_ne he⟩
      · split_ifs
        · exact ⟨_, _, rfl, fun h => absurd h hback, hhex 'x' 2 (by decide)⟩
        · exact ⟨_, _, rfl, fun h => absurd h hback, hhex 'u' 4 (by decide)⟩
        · exact ⟨_, _, rfl, fun h => absurd h hback, hhex 'U' 8 (by decide)⟩

theorem escape_plain (h : ∀ c ∈ cs, Plain p c) : escape p cs = cs := by
  induction cs with
  | nil => rfl
  | cons c cs ih =>
    rw [escape, List.flatMap_cons, quoteChar_plain (h c List.mem_cons_self), ← escape,
      ih fun d hd => h d (List.mem_cons_of_mem c hd)]
    rfl

theorem semicolon_mem_escape : ';' ∈ escape p cs ↔ ';' ∈ cs := by
  have hplain : Plain p ';' := ⟨by decide, by decide, by rw [p.ascii _ (by decide)]; decide⟩
  have hchar : ∀ c, ';' ∈ quoteChar p c ↔ ';' = c := by
    intro c
    by_cases hc : Plain p c
    · rw [quoteChar_plain hc, List.mem_singleton]
    · obtain ⟨x, xs, heq, -, hnot⟩ := quoteChar_not_plain hc
      have hne : ';' ≠ c := fun h => hc (h ▸ hplain)
      rw [heq, List.mem_cons]
      exact iff_of_false (not_or.mpr ⟨by decide, hnot⟩) hne
  simp [escape, hchar]

/-! ## Trimming -/

theorem rdropWhile_cons_of_neg {α : Type} {q : α → Bool} {c : α} (h : q c = false) (cs : List α) :
    (c :: cs).rdropWhile q = c :: cs.rdropWhile q := by
  induction cs using List.reverseRecOn with
  | nil => simp [List.rdropWhile_singleton, h]
  | append_singleton cs d ih =>
    rw [← List.cons_append, List.rdropWhile_concat, List.rdropWhile_concat, ih]
    split <;> rfl

theorem length_rdropWhile_append_le {α : Type} (q : α → Bool) (as cs : List α) :
    (cs.rdropWhile q).length ≤ ((as ++ cs).rdropWhile q).length := by
  induction cs using List.reverseRecOn with
  | nil => simp
  | append_singleton cs d ih =>
    rw [← List.append_assoc, List.rdropWhile_concat, List.rdropWhile_concat]
    split
    · exact ih
    · simp

theorem trimSpace_of_ends (hhead : ∀ c ∈ cs.head?, isSpace c = false)
    (hlast : ∀ c ∈ cs.getLast?, isSpace c = false) :
    trimSpace cs = cs := by
  have hleft : cs.dropWhile isSpace = cs := by
    cases cs with
    | nil => rfl
    | cons c cs => exact List.dropWhile_cons_of_neg (by simp [hhead c rfl])
  rw [trimSpace, hleft, List.rdropWhile_eq_self_iff]
  intro hne
  have hl := hlast _ (List.getLast?_eq_getLast_of_ne_nil hne)
  simp [hl]

theorem trimSpace_eq_nil_iff : trimSpace cs = [] ↔ ∀ c ∈ cs, isSpace c = true := by
  rw [trimSpace, List.rdropWhile_eq_nil_iff]
  constructor
  · intro h c hc
    rw [← List.takeWhile_append_dropWhile (p := isSpace) (l := cs), List.mem_append] at hc
    rcases hc with hfirst | hrest
    · exact List.mem_takeWhile_imp hfirst
    · exact h c hrest
  · exact fun h c hc => h c ((List.dropWhile_sublist isSpace).subset hc)

theorem sublist_trimSpace (cs : List Char) : (trimSpace cs).Sublist cs :=
  (List.rdropWhile_prefix _ _).sublist.trans (List.dropWhile_sublist isSpace)

theorem sublist_trim (q : Char) (cs : List Char) : (trim q cs).Sublist cs :=
  (List.rdropWhile_prefix _ _).sublist.trans (List.dropWhile_sublist _)

theorem trim_of_not_mem {q : Char} (h : q ∉ cs) : trim q cs = cs := by
  have hleft : cs.dropWhile (· = q) = cs := by
    cases cs with
    | nil => rfl
    | cons c cs =>
      have hne : c ≠ q := fun hc => h (hc ▸ List.mem_cons_self)
      exact List.dropWhile_cons_of_neg (by simpa using hne)
  rw [trim, hleft, List.rdropWhile_eq_self_iff]
  intro hne
  have hlast : cs.getLast hne ≠ q := fun hc => h (hc ▸ List.getLast_mem hne)
  simpa using hlast

theorem trim_quoted {q : Char} (hc : c ≠ q) (cs : List Char) :
    trim q (q :: (c :: cs) ++ [q]) = c :: cs.rdropWhile (· = q) := by
  have hleft : (q :: (c :: cs) ++ [q]).dropWhile (· = q) = (c :: cs) ++ [q] := by
    rw [List.cons_append, List.dropWhile_cons_of_pos (by simp), List.cons_append,
      List.dropWhile_cons_of_neg (by simpa using hc)]
  rw [trim, hleft,
    List.rdropWhile_concat_pos _ _ _ (by simp), rdropWhile_cons_of_neg (by simpa using hc)]

/-! ## Unquoting by trimming -/

theorem length_le_trimmed_escape (p : Printable) (cs : List Char) :
    cs.length ≤ ((escape p cs).rdropWhile (· = '"')).length := by
  induction cs with
  | nil => exact Nat.zero_le _
  | cons c cs ih =>
    rw [escape, List.flatMap_cons, ← escape]
    by_cases hc : Plain p c
    · rw [quoteChar_plain hc, List.singleton_append, rdropWhile_cons_of_neg (by simpa using hc.1)]
      exact Nat.succ_le_succ ih
    · obtain ⟨x, xs, hx, -, -⟩ := quoteChar_not_plain hc
      rw [hx, List.cons_append, rdropWhile_cons_of_neg (by decide)]
      exact Nat.succ_le_succ (ih.trans (length_rdropWhile_append_le _ (x :: xs) _))

/-- Trimming the quotes undoes `%q` exactly for plain texts: nothing takes the escapes back. -/
theorem trimmed_escape_iff :
    (escape p cs).rdropWhile (· = '"') = cs ↔ ∀ c ∈ cs, Plain p c := by
  constructor
  · induction cs with
    | nil => simp
    | cons c cs ih =>
      rw [escape, List.flatMap_cons, ← escape]
      intro h
      by_cases hc : Plain p c
      · rw [quoteChar_plain hc, List.singleton_append, rdropWhile_cons_of_neg (by simpa using hc.1)] at h
        simpa using ⟨hc, ih (List.cons.inj h).2⟩
      · -- The first escape puts a backslash where the text has none, or one too many.
        obtain ⟨x, xs, hx, hback, -⟩ := quoteChar_not_plain hc
        rw [hx, List.cons_append, rdropWhile_cons_of_neg (by decide)] at h
        obtain ⟨rfl, htail⟩ := List.cons.inj h
        obtain ⟨rfl, rfl⟩ := hback rfl
        rw [List.singleton_append, rdropWhile_cons_of_neg (by decide)] at htail
        have hlen := length_le_trimmed_escape p cs
        have hcontra := congrArg List.length htail
        rw [List.length_cons] at hcontra
        omega
  · intro h
    rw [escape_plain h, List.rdropWhile_eq_self_iff]
    intro hne
    simpa using (h _ (List.getLast_mem hne)).1

/-! ## Splitting -/

theorem cut_append {as : List Char} (h : sep ∉ as) (bs : List Char) :
    cut sep (as ++ sep :: bs) = (as, some bs) := by
  induction as with
  | nil => simp [cut]
  | cons a as ih =>
    have hne : a ≠ sep := fun heq => h (heq ▸ List.mem_cons_self)
    rw [List.cons_append, cut, if_neg hne, ih fun hmem => h (List.mem_cons_of_mem a hmem)]

theorem cutLast_eq_none_iff : cutLast sep cs = none ↔ sep ∉ cs := by
  induction cs with
  | nil => simp [cutLast]
  | cons c cs ih =>
    cases hrest : cutLast sep cs with
    | none => simp [cutLast, hrest, ih.mp hrest, eq_comm]
    | some parts =>
      have hmem : sep ∈ cs := by
        by_contra h
        rw [ih.mpr h] at hrest
        cases hrest
      simp [cutLast, hrest, hmem]

theorem cutLast_eq_some_iff {before after : List Char} :
    cutLast sep cs = some (before, after) ↔ cs = before ++ sep :: after ∧ sep ∉ after := by
  induction cs generalizing before with
  | nil => simp [cutLast]
  | cons c cs ih =>
    cases hrest : cutLast sep cs with
    | none =>
      have hcs := cutLast_eq_none_iff.mp hrest
      rw [cutLast, hrest]
      constructor
      · intro h
        split_ifs at h with hc
        cases h
        exact ⟨by rw [hc, List.nil_append], hcs⟩
      · rintro ⟨heq, -⟩
        cases before with
        | nil =>
          cases heq
          rw [if_pos rfl]
        | cons b before =>
          cases heq
          simp at hcs
    | some parts =>
      rw [cutLast, hrest]
      constructor
      · intro h
        cases h
        exact ⟨congrArg (c :: ·) (ih.mp hrest).1, (ih.mp hrest).2⟩
      · rintro ⟨heq, hafter⟩
        cases before with
        | nil =>
          cases heq
          rw [cutLast_eq_none_iff.mpr hafter] at hrest
          cases hrest
        | cons b before =>
          cases heq
          rw [ih.mpr ⟨rfl, hafter⟩] at hrest
          cases hrest
          rfl

theorem sublist_cut {rest : List Char} (h : (cut sep cs).2 = some rest) :
    rest.Sublist cs := by
  induction cs with
  | nil => cases h
  | cons c cs ih =>
    rw [cut] at h
    split at h
    · cases h
      exact List.sublist_cons_self c rest
    · exact (ih h).cons c

theorem not_mem_splitOn (cs : List Char) : ∀ part ∈ cs.splitOn sep, sep ∉ part := by
  have hall : ∀ cs : List Char, ∀ part ∈ cs.splitOnP (· == sep), sep ∉ part := by
    intro cs
    induction cs with
    | nil => simp
    | cons c cs ih =>
      rw [List.splitOnP_cons_eq_if_modifyHead]
      split
      · simpa using ih
      · rename_i hc
        cases hsplit : cs.splitOnP (· == sep) with
        | nil => simp
        | cons part parts =>
          rw [hsplit] at ih
          have hne : sep ≠ c := fun heq => hc (by simp [heq])
          simpa [hne] using ih
  exact hall cs

/-! ## Numbers -/

theorem utf8_decimal (n : Int) : utf8 (String.ofList (decimal n)) = Json.intText n := by
  rw [decimal, utf8, String.toList_ofList, List.flatMap_append, Json.intText, utf8, String.toList_ofList]
  split <;> rfl

theorem parseInt64_decimal (n : Int) :
    parseInt64 (decimal n) = Option.filter (fun n => -2 ^ 63 ≤ n ∧ n < 2 ^ 63) (some n) := by
  rw [parseInt64, utf8_decimal]
  by_cases hn : 0 ≤ n
  · exact Text.parseInt64_intText_of_nonneg hn
  · have htext : Json.intText n = 0x2D :: utf8 (String.ofList (Nat.toDigits 10 n.natAbs)) := by
      rw [Json.intText, if_pos (not_le.mp hn)]
      rfl
    have hvalue : -((n.natAbs : Nat) : Int) = n := by omega
    have hparse : Text.parseInt64 (0x2D :: utf8 (String.ofList (Nat.toDigits 10 n.natAbs))) =
        Option.filter (fun n => -2 ^ 63 ≤ n ∧ n < 2 ^ 63) (some (-((n.natAbs : Nat) : Int))) := by
      simp only [Text.parseInt64, Text.parseDigits_toDigits]
      rfl
    rw [htext, hparse, hvalue]

theorem parseInt64_range {n : Int} (h : parseInt64 cs = some n) :
    -2 ^ 63 ≤ n ∧ n < 2 ^ 63 := by
  unfold parseInt64 Text.parseInt64 at h
  simpa using (Option.filter_eq_some_iff.mp h).2

theorem decimal_chars (n : Int) : ∀ c ∈ decimal n, c.isDigit = true ∨ c = '-' := by
  intro c hc
  rw [decimal, List.mem_append] at hc
  rcases hc with hsign | hdigit
  · split at hsign
    · exact .inr (by simpa using hsign)
    · cases hsign
  · exact .inl (Nat.isDigit_of_mem_toDigits (by decide) (by decide) hdigit)

/-! ## Whole strings -/

theorem toUpper_toUpper_char (c : Char) : c.toUpper.toUpper = c.toUpper := by
  by_cases h : 97 ≤ c.toNat ∧ c.toNat ≤ 122
  · have hall : ∀ k : Fin 26, (Char.ofNat (97 + k)).toUpper.toUpper = (Char.ofNat (97 + k)).toUpper := by
      decide
    have hc := hall ⟨c.toNat - 97, by omega⟩
    rwa [show 97 + (c.toNat - 97) = c.toNat by omega, Char.ofNat_toNat] at hc
  · have hself : c.toUpper = c := by
      rw [Char.toUpper]
      exact dif_neg h
    rw [hself, hself]

theorem toUpper_toUpper (s : String) : s.toUpper.toUpper = s.toUpper := by
  rw [String.toUpper, String.toUpper, String.map_map, Function.comp_def]
  simp only [toUpper_toUpper_char]

theorem intercalate_cons (sep l : String) (ls : List String) :
    sep.intercalate (l :: ls) = l ++ String.join (ls.map (sep ++ ·)) := by
  induction ls generalizing l with
  | nil => simp
  | cons m ls ih =>
    rw [String.intercalate_cons_cons, ih, List.map_cons, String.join_cons]
    simp only [String.append_assoc]

theorem intercalate_lines (l : String) (ls : List String) :
    "\n".intercalate (l :: ls) ++ "\n" = String.join ((l :: ls).map (· ++ "\n")) := by
  induction ls generalizing l with
  | nil => simp
  | cons m ls ih =>
    have htail := ih m
    rw [String.intercalate_cons_cons, List.map_cons, String.join_cons, ← htail]
    simp only [String.append_assoc]

end Verilink.Framework.Chars

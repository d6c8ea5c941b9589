import Verilink.Framework.CharText

/-!
# Texts made of quoted names and lines

What a quoted name, a list of words and a list of lines are made of can be read back: the escapes of
`%q` form a prefix code, a word has no blanks and a line no line feed.
-/

namespace Verilink.Framework.Chars

variable {p : Printable}

/-! ## Escapes -/

theorem hexDigits_succ (width n : Nat) :
    hexDigits (width + 1) n = Nat.digitChar (n / 16 ^ width % 16) :: hexDigits width n := by
  rw [hexDigits, List.range_succ, List.reverse_append, List.reverse_singleton, List.singleton_append,
    List.map_cons, hexDigits]

theorem digitChar_inj {a b : Nat} (ha : a < 16) (hb : b < 16) (h : Nat.digitChar a = Nat.digitChar b) :
    a = b := by
  have hall : ∀ a < 16, ∀ b < 16, Nat.digitChar a = Nat.digitChar b → a = b := by decide
  exact hall a ha b hb h

variable {x y : List Char}

theorem mod_eq_of_hexDigits {width n m : Nat} (h : hexDigits width n ++ x = hexDigits width m ++ y) :
    n % 16 ^ width = m % 16 ^ width ∧ x = y := by
  induction width with
  | zero => exact ⟨by simp [Nat.mod_one], h⟩
  | succ width ih =>
    rw [hexDigits_succ, hexDigits_succ, List.cons_append, List.cons_append, List.cons.injEq] at h
    obtain ⟨hmod, hrest⟩ := ih h.2
    have hdigit := digitChar_inj (Nat.mod_lt _ (by decide)) (Nat.mod_lt _ (by decide)) h.1
    rw [Nat.mod_pow_succ, Nat.mod_pow_succ, hmod, hdigit]
    exact ⟨rfl, hrest⟩

/-- The letter after the backslash of an escape, and the digits after it. -/
def escapeCode (c : Char) : Char × List Char :=
  if c = '"' ∨ c = '\\' then (c, [])
  else
    match namedEscape c with
    | some e => (e, [])
    | none =>
      if c.toNat < 0x20 ∨ c.toNat = 0x7F then ('x', hexDigits 2 c.toNat)
      else if c.toNat < 0x10000 then ('u', hexDigits 4 c.toNat)
      else ('U', hexDigits 8 c.toNat)

variable {c d : Char}

theorem quoteChar_eq_escape (h : ¬ Plain p c) :
    quoteChar p c = '\\' :: (escapeCode c).1 :: (escapeCode c).2 := by
  rw [quoteChar, escapeCode]
  by_cases hquote : c = '"' ∨ c = '\\'
  · rw [if_pos hquote, if_pos hquote]
  · have hprint : ¬ p.isPrint c = true := fun hprint =>
      h ⟨fun hc => hquote (.inl hc), fun hc => hquote (.inr hc), hprint⟩
    rw [if_neg hquote, if_neg hquote, if_neg hprint]
    cases namedEscape c with
    | some e => rfl
    | none =>
      dsimp only
      split_ifs <;> rfl

/-- How many digits follow the letter of an escape. -/
def escapeWidth (e : Char) : Nat :=
  if e = 'x' then 2 else if e = 'u' then 4 else if e = 'U' then 8 else 0

/-- The character that a letter without digits stands for. -/
def namedCode (e : Char) : Nat :=
  (([(7, 'a'), (8, 'b'), (12, 'f'), (10, 'n'), (13, 'r'), (9, 't'), (11, 'v')] : List (Nat × Char)).find?
    (·.2 = e)).elim e.toNat Prod.fst

theorem namedEscape_spec {e : Char} (h : namedEscape c = some e) :
    escapeWidth e = 0 ∧ c.toNat = namedCode e := by
  rw [namedEscape] at h
  split_ifs at h with h₁ h₂ h₃ h₄ h₅ h₆ h₇
  · cases h; rw [h₁]; decide
  · cases h; rw [h₂]; decide
  · cases h; rw [h₃]; decide
  · cases h; rw [h₄]; decide
  · cases h; rw [h₅]; decide
  · cases h; rw [h₆]; decide
  · cases h; rw [h₇]; decide

theorem escapeCode_spec (c : Char) :
    (escapeCode c).2 = hexDigits (escapeWidth (escapeCode c).1) c.toNat ∧
      (escapeWidth (escapeCode c).1 = 0 → c.toNat = namedCode (escapeCode c).1) ∧
      (escapeWidth (escapeCode c).1 ≠ 0 → c.toNat < 16 ^ escapeWidth (escapeCode c).1) := by
  rw [escapeCode]
  by_cases hquote : c = '"' ∨ c = '\\'
  · rw [if_pos hquote]
    rcases hquote with rfl | rfl <;> decide
  · rw [if_neg hquote]
    cases hnamed : namedEscape c with
    | some e =>
      obtain ⟨hwidth, hcode⟩ := namedEscape_spec hnamed
      exact ⟨by rw [hwidth]; rfl, fun _ => hcode, fun h => absurd hwidth h⟩
    | none =>
      have hwide : c.toNat < 16 ^ 8 := by
        have := c.valid
        simp only [UInt32.isValidChar, Nat.isValidChar] at this
        simp only [Char.toNat]
        omega
      have hwidths : escapeWidth 'x' = 2 ∧ escapeWidth 'u' = 4 ∧ escapeWidth 'U' = 8 := by decide
      dsimp only
      split_ifs with hcontrol hshort
      · rw [hwidths.1]
        exact ⟨rfl, by simp, fun _ => by omega⟩
      · rw [hwidths.2.1]
        exact ⟨rfl, by simp, fun _ => hshort⟩
      · rw [hwidths.2.2]
        exact ⟨rfl, by simp, fun _ => hwide⟩

theorem escapeCode_inj (h : (escapeCode c).1 :: ((escapeCode c).2 ++ x) =
    (escapeCode d).1 :: ((escapeCode d).2 ++ y)) :
    c = d ∧ x = y := by
  obtain ⟨hcdigits, hcnamed, hcsmall⟩ := escapeCode_spec c
  obtain ⟨hddigits, hdnamed, hdsmall⟩ := escapeCode_spec d
  obtain ⟨hletter, hrest⟩ := List.cons.inj h
  rw [← hletter] at hdnamed hdsmall hddigits
  rw [hcdigits, hddigits] at hrest
  obtain ⟨hmod, hxy⟩ := mod_eq_of_hexDigits hrest
  refine ⟨Char.toNat_inj.mp ?_, hxy⟩
  by_cases hwidth : escapeWidth (escapeCode c).1 = 0
  · rw [hcnamed hwidth, hdnamed hwidth]
  · rwa [Nat.mod_eq_of_lt (hcsmall hwidth), Nat.mod_eq_of_lt (hdsmall hwidth)] at hmod

theorem quoteChar_inj (h : quoteChar p c ++ x = quoteChar p d ++ y) :
    c = d ∧ x = y := by
  by_cases hc : Plain p c
  · by_cases hd : Plain p d
    · rw [quoteChar_plain hc, quoteChar_plain hd] at h
      exact List.cons.inj h
    · rw [quoteChar_plain hc, quoteChar_eq_escape hd] at h
      exact absurd (List.cons.inj h).1 hc.2.1
  · by_cases hd : Plain p d
    · rw [quoteChar_eq_escape hc, quoteChar_plain hd] at h
      exact absurd (List.cons.inj h).1.symm hd.2.1
    · rw [quoteChar_eq_escape hc, quoteChar_eq_escape hd] at h
      exact escapeCode_inj (List.cons.inj h).2

theorem quoteChar_head : quoteChar p c ++ x ≠ '"' :: y := by
  intro h
  by_cases hc : Plain p c
  · rw [quoteChar_plain hc] at h
    exact hc.1 (List.cons.inj h).1
  · rw [quoteChar_eq_escape hc] at h
    exact absurd (List.cons.inj h).1 (by decide)

/-- A quoted text ends at its first quote that is not escaped. -/
theorem escape_quote_inj {cs ds : List Char} (h : escape p cs ++ '"' :: x = escape p ds ++ '"' :: y) :
    cs = ds ∧ x = y := by
  induction cs generalizing ds with
  | nil =>
    cases ds with
    | nil => exact ⟨rfl, (List.cons.inj h).2⟩
    | cons d ds =>
      rw [escape, escape, List.flatMap_cons, List.append_assoc] at h
      exact absurd h.symm quoteChar_head
  | cons c cs ih =>
    cases ds with
    | nil =>
      rw [escape, List.flatMap_cons, List.append_assoc] at h
      exact absurd h quoteChar_head
    | cons d ds =>
      rw [escape, escape, List.flatMap_cons, List.flatMap_cons, List.append_assoc,
        List.append_assoc] at h
      obtain ⟨rfl, hrest⟩ := quoteChar_inj h
      obtain ⟨rfl, hxy⟩ := ih hrest
      exact ⟨rfl, hxy⟩

theorem hexDigits_visible (width n : Nat) : ∀ c ∈ hexDigits width n, 0x20 < c.toNat := by
  have hall : ∀ d < 16, 0x20 < (Nat.digitChar d).toNat := by decide
  intro c hc
  obtain ⟨i, -, rfl⟩ := List.mem_map.mp hc
  exact hall _ (Nat.mod_lt _ (by decide))

theorem newline_not_mem_escape (cs : List Char) : '\n' ∉ escape p cs := by
  intro hmem
  obtain ⟨c, -, hc⟩ := List.mem_flatMap.mp hmem
  by_cases hplain : Plain p c
  · rw [quoteChar_plain hplain] at hc
    have hprint := hplain.2.2
    rw [← List.mem_singleton.mp hc, p.ascii _ (by decide)] at hprint
    exact absurd hprint (by decide)
  · rw [quoteChar_eq_escape hplain, (escapeCode_spec c).1] at hc
    rcases List.mem_cons.mp hc with h | hc
    · exact absurd h (by decide)
    · rcases List.mem_cons.mp hc with h | hc
      · have hnewline : c = '\n' := by
          apply Char.toNat_inj.mp
          rw [(escapeCode_spec c).2.1 (by rw [← h]; decide), ← h]
          decide
        rw [hnewline] at h
        exact absurd h (by decide)
      · exact absurd (hexDigits_visible _ _ _ hc) (by decide)

/-! ## Lines and words -/

theorem lines_inj {ls ms : List (List Char)} (hls : ∀ l ∈ ls, '\n' ∉ l) (hms : ∀ l ∈ ms, '\n' ∉ l)
    (h : ls.flatMap (· ++ ['\n']) = ms.flatMap (· ++ ['\n'])) : ls = ms := by
  induction ls generalizing ms with
  | nil =>
    cases ms with
    | nil => rfl
    | cons m ms => simp at h
  | cons l ls ih =>
    cases ms with
    | nil => simp at h
    | cons m ms =>
      rw [List.forall_mem_cons] at hls hms
      rw [List.flatMap_cons, List.flatMap_cons, List.append_assoc, List.append_assoc,
        List.singleton_append, List.singleton_append] at h
      have hcut := Chars.cut_append hls.1 (ls.flatMap (· ++ ['\n']))
      rw [h, Chars.cut_append hms.1] at hcut
      simp only [Prod.mk.injEq, Option.some.injEq] at hcut
      rw [hcut.1, ih hls.2 hms.2 hcut.2.symm]

theorem fields_intercalate {words : List (List Char)}
    (h : ∀ w ∈ words, w ≠ [] ∧ ∀ c ∈ w, isSpace c = false) :
    fields ([' '].intercalate words) = words := by
  have hblank : isSpace ' ' = true := by decide
  induction words with
  | nil => simp [fields]
  | cons w words ih =>
    rw [List.forall_mem_cons] at h
    cases words with
    | nil => simp [fields, List.splitOnP_eq_singleton h.1.2, h.1.1]
    | cons v words =>
      rw [List.intercalate_cons_cons, List.append_assoc, List.singleton_append, fields,
        List.splitOnP_append_cons_of_forall_mem h.1.2 ' ' hblank, List.filter_cons,
          if_pos (by simp [h.1.1])]
      exact congrArg (w :: ·) (ih h.2)

end Verilink.Framework.Chars

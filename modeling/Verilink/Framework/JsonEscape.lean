import Verilink.Framework.JsonText
import Mathlib.Tactic

/-!
# How JavaScript and Go escape strings

`JSON.stringify` and `json.Marshal` agree on the quote, the backslash and the control characters.
-/

namespace Verilink.Framework

namespace Json

def shortEscape (c : Char) : Option UInt8 :=
  if c = '"' then some 0x22 else if c = '\\' then some 0x5C
  else if c.toNat = 8 then some 0x62 else if c.toNat = 9 then some 0x74
  else if c.toNat = 10 then some 0x6E else if c.toNat = 12 then some 0x66
  else if c.toNat = 13 then some 0x72 else none

def hexDigit (k : Nat) : UInt8 := UInt8.ofNat (if k < 10 then 48 + k else 87 + k)

def unicodeEscape (n : Nat) : Bytes :=
  [0x5C, 0x75, hexDigit (n / 4096 % 16), hexDigit (n / 256 % 16), hexDigit (n / 16 % 16),
    hexDigit (n % 16)]

/-- The escape of one character, with the characters `extra` that are escaped although they need
not be. -/
def escapeChar (extra : Char → Bool) (c : Char) : Bytes :=
  match shortEscape c with
  | some e => [0x5C, e]
  | none =>
    if c.toNat < 0x20 ∨ extra c then unicodeEscape c.toNat else String.utf8EncodeChar c

/-- `SerializeJSONProperty` of `JSON.stringify`. -/
def jsEscape : Char → Bytes := escapeChar fun _ => false

/-- The characters that only `json.Marshal` escapes. -/
def htmlEscaped (c : Char) : Bool :=
  c ∈ ['<', '>', '&', Char.ofNat 0x2028, Char.ofNat 0x2029]

/-- `appendString` of `encoding/json` with `escapeHTML`. -/
def goEscape : Char → Bytes := escapeChar htmlEscaped

theorem scanString_plain {l : Bytes} (h : ∀ b ∈ l, b ≠ 0x22 ∧ b ≠ 0x5C ∧ ¬ b < 0x20) (rest : Bytes) :
    scanString .plain (l ++ rest) = (scanString .plain rest).map fun r => (l ++ r.1, r.2) := by
  induction l with
  | nil => simp
  | cons b l ih =>
    obtain ⟨hquote, hslash, hctl⟩ := h b (by simp)
    have hnext : StringState.plain.next b = some .plain := by simp [StringState.next, hslash, hctl]
    rw [List.cons_append, scanString_of_next hnext (by simp [hquote]),
      ih fun c hc => h c (by simp [hc]), Option.map_map]
    rfl

variable {e : UInt8} {s : String} {c : Char}

theorem scanString_escapeByte (h : e ∈ escapeBytes) (rest : Bytes) :
    scanString .plain (0x5C :: e :: rest) =
      (scanString .plain rest).map fun r => (0x5C :: e :: r.1, r.2) := by
  have hslash : StringState.plain.next 0x5C = some .escape := by decide
  have hnext : StringState.escape.next e = some .plain := by simp [StringState.next, h]
  rw [scanString_of_next hslash (by decide), scanString_of_next hnext (by simp), Option.map_map]
  rfl

theorem scanString_unicode {a b c d : UInt8} (ha : isHex a) (hb : isHex b) (hc : isHex c)
    (hd : isHex d) (rest : Bytes) :
    scanString .plain (0x5C :: 0x75 :: a :: b :: c :: d :: rest) =
      (scanString .plain rest).map fun r => (0x5C :: 0x75 :: a :: b :: c :: d :: r.1, r.2) := by
  have hslash : StringState.plain.next 0x5C = some .escape := by decide
  have hu : StringState.escape.next 0x75 = some (.hex 3) := by decide
  have hnext : ∀ n x, isHex x = true → (StringState.hex (n + 1)).next x = some (.hex n) := by
    intro n x hx
    simp [StringState.next, hx]
  have hlast : (StringState.hex 0).next d = some .plain := by simp [StringState.next, hd]
  rw [scanString_of_next hslash (by decide), scanString_of_next hu (by decide),
    scanString_of_next (hnext 2 a ha) (by simp), scanString_of_next (hnext 1 b hb) (by simp),
    scanString_of_next (hnext 0 c hc) (by simp), scanString_of_next hlast (by simp)]
  simp only [Option.map_map]
  rfl

theorem hexDigit_spec (k : Nat) : isHex (hexDigit (k % 16)) = true ∧
    hexValue (hexDigit (k % 16)) = k % 16 := by
  have hall : ∀ k : Fin 16, isHex (hexDigit k) = true ∧ hexValue (hexDigit k) = k.val := by decide
  exact hall ⟨k % 16, Nat.mod_lt _ (by decide)⟩

theorem escapeBytes_ge : ∀ b ∈ escapeBytes, 0x20 ≤ b := by
  have hbytes : escapeBytes = [0x62, 0x66, 0x6E, 0x72, 0x74, 0x5C, 0x2F, 0x22] := by decide
  simp [hbytes]

theorem unicodeEscape_ge (n : Nat) : ∀ b ∈ unicodeEscape n, 0x20 ≤ b := by
  have hhex : ∀ k : Fin 16, 0x20 ≤ hexDigit k := by decide
  have hdigit : ∀ k, 0x20 ≤ hexDigit (k % 16) := fun k => hhex ⟨k % 16, Nat.mod_lt _ (by decide)⟩
  intro b hb
  simp only [unicodeEscape, List.mem_cons, List.not_mem_nil, or_false] at hb
  rcases hb with rfl | rfl | rfl | rfl | rfl | rfl
  · decide
  · decide
  all_goals exact hdigit _

theorem codeUnit_unicodeEscape {n : Nat} (h : n < 0x10000) (rest : Bytes) :
    codeUnit (unicodeEscape n ++ rest) = some n := by
  simp only [unicodeEscape, List.cons_append, codeUnit, hexDigit_spec, and_self, if_true,
    Option.some.injEq]
  omega

theorem decodeRune_utf8 (c : Char) (rest : Bytes) :
    decodeRune (String.utf8EncodeChar c ++ rest) = (c, (String.utf8EncodeChar c).length) := by
  have hlen : (String.utf8EncodeChar c).length ≤ 4 := by
    rw [String.length_utf8EncodeChar]
    exact c.utf8Size_le_four
  have hdecode : ((String.utf8EncodeChar c ++ rest).take 4).toByteArray.utf8DecodeChar? 0 = some c := by
    rw [List.take_append, List.take_of_length_le hlen, List.toByteArray_append]
    exact ByteArray.utf8DecodeChar?_utf8EncodeChar_append
  simp [decodeRune, hdecode, String.length_utf8EncodeChar]

theorem utf8_inj {t : String} (h : utf8 s = utf8 t) : s = t := by
  have hall : ∀ l m : List Char, l.flatMap String.utf8EncodeChar = m.flatMap String.utf8EncodeChar →
      l = m := by
    intro l
    induction l with
    | nil =>
      intro m hm
      cases m with
      | nil => rfl
      | cons c m => simp at hm
    | cons c l ih =>
      intro m hm
      cases m with
      | nil => simp at hm
      | cons d m =>
        rw [List.flatMap_cons, List.flatMap_cons] at hm
        have hrune := congrArg decodeRune hm
        rw [decodeRune_utf8, decodeRune_utf8] at hrune
        obtain rfl : c = d := (Prod.mk.inj hrune).1
        rw [ih m (List.append_cancel_left hm)]
  exact String.ext (hall _ _ h)

theorem utf8EncodeChar_high (h : 128 ≤ c.toNat) :
    ∀ b ∈ String.utf8EncodeChar c, 128 ≤ b.toNat := by
  have hbyte : ∀ n, 128 ≤ n → n < 256 → 128 ≤ (UInt8.ofNat n).toNat := by
    intro n hlo hhi
    rwa [UInt8.toNat_ofNat', Nat.mod_eq_of_lt hhi]
  have hascii : ¬ c.val.toNat ≤ 127 := by
    have : c.val.toNat = c.toNat := rfl
    omega
  intro b hb
  simp only [String.utf8EncodeChar, hascii, if_false] at hb
  split_ifs at hb <;> simp only [List.mem_cons, List.not_mem_nil, or_false] at hb
  · rcases hb with rfl | rfl <;> apply hbyte <;> omega
  · rcases hb with rfl | rfl | rfl <;> apply hbyte <;> omega
  · rcases hb with rfl | rfl | rfl | rfl <;> apply hbyte <;> omega

theorem shortEscape_spec (h : shortEscape c = some e) :
    e ∈ escapeBytes ∧ e ≠ 0x75 ∧ unescape e = c := by
  have hofNat : ∀ n, c.toNat = n → Char.ofNat n = c := by
    rintro n rfl
    exact Char.ofNat_toNat c
  unfold shortEscape at h
  split_ifs at h with h₁ h₂ h₃ h₄ h₅ h₆ h₇ <;> cases h
  · exact ⟨by decide, by decide, by rw [h₁]; decide⟩
  · exact ⟨by decide, by decide, by rw [h₂]; decide⟩
  · exact ⟨by decide, by decide, hofNat 8 h₃⟩
  · exact ⟨by decide, by decide, hofNat 9 h₄⟩
  · exact ⟨by decide, by decide, hofNat 10 h₅⟩
  · exact ⟨by decide, by decide, hofNat 12 h₆⟩
  · exact ⟨by decide, by decide, hofNat 13 h₇⟩

theorem utf8EncodeChar_plain (hshort : shortEscape c = none) (hctl : ¬ c.toNat < 0x20) :
    ∀ b ∈ String.utf8EncodeChar c, b ≠ 0x22 ∧ b ≠ 0x5C ∧ ¬ b < 0x20 := by
  intro b hb
  rcases Nat.lt_or_ge c.toNat 128 with hascii | hhigh
  · have hbyte : b = UInt8.ofNat c.toNat := by
      rw [utf8EncodeChar_ascii hascii] at hb
      exact List.mem_singleton.mp hb
    have hnat : b.toNat = c.toNat := by
      rw [hbyte, UInt8.toNat_ofNat', Nat.mod_eq_of_lt (by omega)]
    have hquote : c ≠ '"' ∧ c ≠ '\\' := by
      constructor <;> rintro rfl <;> cases hshort
    have hne : ∀ k : UInt8, c ≠ Char.ofNat k.toNat → b ≠ k := by
      rintro k hk rfl
      exact hk (by rw [hnat, Char.ofNat_toNat])
    refine ⟨hne _ hquote.1, hne _ hquote.2, ?_⟩
    rw [UInt8.lt_iff_toNat_lt, hnat]
    exact hctl
  · have hb' := utf8EncodeChar_high hhigh b hb
    refine ⟨?_, ?_, ?_⟩
    · rintro rfl
      exact absurd hb' (by decide)
    · rintro rfl
      exact absurd hb' (by decide)
    · rw [UInt8.lt_iff_toNat_lt]
      exact fun hlt => absurd (hb'.trans_lt hlt) (by decide)

theorem unquoteOne_plain (hshort : shortEscape c = none) (hctl : ¬ c.toNat < 0x20) (rest : Bytes) :
    unquoteOne (String.utf8EncodeChar c ++ rest) = (c, (String.utf8EncodeChar c).length) := by
  obtain ⟨b, l, hbl⟩ := List.exists_cons_of_ne_nil (String.utf8EncodeChar_ne_nil (c := c))
  have hb := (utf8EncodeChar_plain hshort hctl b (by rw [hbl]; simp)).2.1
  rw [← decodeRune_utf8 c rest, hbl, List.cons_append]
  unfold unquoteOne
  split
  · simp_all
  · rfl

theorem unquoteOne_unicode (h : c.toNat < 0x10000) (rest : Bytes) :
    unquoteOne (unicodeEscape c.toNat ++ rest) = (c, 6) := by
  have hunit := codeUnit_unicodeEscape h rest
  have hscalar : ¬ (0xD800 ≤ c.toNat ∧ c.toNat < 0xE000) := by
    have hvalid := c.valid
    have hval : c.val.toNat = c.toNat := rfl
    simp only [UInt32.isValidChar, Nat.isValidChar] at hvalid
    omega
  simp only [unicodeEscape, List.cons_append] at hunit ⊢
  simp only [unquoteOne, hunit, if_true, hscalar, if_false, Char.ofNat_toNat]

/-- Whatever basic characters are escaped beyond need, the text reads back. -/
def escaper (extra : Char → Bool) (hextra : ∀ c, extra c = true → c.toNat < 0x10000) : Escaper where
  escape := escapeChar extra
  visible c b hb := by
    unfold escapeChar at hb
    split at hb
    · rename_i e he
      simp only [List.mem_cons, List.not_mem_nil, or_false] at hb
      rcases hb with rfl | rfl
      · decide
      · exact escapeBytes_ge _ (shortEscape_spec he).1
    · rename_i hnone
      split at hb
      · exact unicodeEscape_ge c.toNat b hb
      · rename_i hplain
        exact UInt8.not_lt.mp (utf8EncodeChar_plain hnone (fun hlt => hplain (.inl hlt)) b hb).2.2
  scan c rest := by
    unfold escapeChar
    split
    · rename_i e he
      exact scanString_escapeByte (shortEscape_spec he).1 rest
    · rename_i hnone
      split
      · obtain ⟨h₁, -⟩ := hexDigit_spec (c.toNat / 4096)
        obtain ⟨h₂, -⟩ := hexDigit_spec (c.toNat / 256)
        obtain ⟨h₃, -⟩ := hexDigit_spec (c.toNat / 16)
        obtain ⟨h₄, -⟩ := hexDigit_spec c.toNat
        exact scanString_unicode h₁ h₂ h₃ h₄ rest
      · rename_i hplain
        exact scanString_plain (utf8EncodeChar_plain hnone fun hlt => hplain (.inl hlt)) rest
  read c rest := by
    unfold escapeChar
    split
    · rename_i e he
      obtain ⟨-, hu, hchar⟩ := shortEscape_spec he
      simp [unquoteOne, hu, hchar]
    · rename_i hnone
      split
      · rename_i hesc
        have hlt : c.toNat < 0x10000 := by
          rcases hesc with hlt | hx
          · omega
          · exact hextra c hx
        exact unquoteOne_unicode hlt rest
      · rename_i hplain
        exact unquoteOne_plain hnone (fun hlt => hplain (.inl hlt)) rest

def jsEscaper : Escaper := escaper (fun _ => false) (by simp)

def goEscaper : Escaper :=
  escaper htmlEscaped fun c hc => by
    simp only [htmlEscaped, List.mem_cons, List.not_mem_nil, or_false, decide_eq_true_eq] at hc
    rcases hc with rfl | rfl | rfl | rfl | rfl <;> decide

/-! ## Where the two texts differ

Go's text of a value is never shorter, and as long as the other only without the five
characters. -/

theorem goEscape_of_not_html (h : htmlEscaped c = false) : goEscape c = jsEscape c := by
  simp [goEscape, jsEscape, escapeChar, h]

theorem length_escape_lt (h : htmlEscaped c = true) :
    (jsEscape c).length < (goEscape c).length := by
  simp only [htmlEscaped, List.mem_cons, List.not_mem_nil, or_false, decide_eq_true_eq] at h
  rcases h with rfl | rfl | rfl | rfl | rfl <;> decide

/-- No character of the text is escaped by Go only. -/
def htmlFree (s : String) : Prop := ∀ c ∈ s.toList, htmlEscaped c = false

instance (s : String) : Decidable (htmlFree s) := inferInstanceAs (Decidable (∀ c ∈ s.toList, _))

theorem quoteText_of_htmlFree (h : htmlFree s) :
    quoteText goEscape s = quoteText jsEscape s := by
  have hchars : s.toList.flatMap goEscape = s.toList.flatMap jsEscape :=
    List.flatMap_congr fun c hc => goEscape_of_not_html (h c hc)
  rw [quoteText, quoteText, hchars]

theorem length_flatMap_escape (cs : List Char) :
    (cs.flatMap jsEscape).length ≤ (cs.flatMap goEscape).length ∧
      ((cs.flatMap goEscape).length = (cs.flatMap jsEscape).length →
        ∀ c ∈ cs, htmlEscaped c = false) := by
  induction cs with
  | nil => simp
  | cons c cs ih =>
    obtain ⟨hle, heq⟩ := ih
    simp only [List.flatMap_cons, List.length_append, List.mem_cons, forall_eq_or_imp]
    cases hc : htmlEscaped c with
    | false =>
      rw [goEscape_of_not_html hc]
      exact ⟨by omega, fun h => ⟨rfl, heq (by omega)⟩⟩
    | true =>
      have hlt := length_escape_lt hc
      exact ⟨by omega, fun h => by omega⟩

theorem length_quoteText (s : String) : (quoteText jsEscape s).length ≤ (quoteText goEscape s).length ∧
      ((quoteText goEscape s).length = (quoteText jsEscape s).length → htmlFree s) := by
  obtain ⟨hle, heq⟩ := length_flatMap_escape s.toList
  simp only [quoteText, List.length_cons, List.length_append, List.length_nil]
  exact ⟨by omega, fun h => heq (by omega)⟩

mutual

def texts : Json → List String
  | str s => [s]
  | arr elems => textsElems elems
  | obj fields => textsMembers fields
  | null => []
  | bool _ => []
  | int _ => []
  | frac _ => []

def textsElems : List Json → List String
  | [] => []
  | v :: vs => texts v ++ textsElems vs

def textsMembers : List (String × Json) → List String
  | [] => []
  | (k, v) :: ms => k :: (texts v ++ textsMembers ms)

end

section Differ

variable (fracText : ℚ → Bytes)

mutual

theorem print_of_htmlFree : ∀ v : Json, (∀ s ∈ texts v, htmlFree s) →
    print goEscape fracText v = print jsEscape fracText v
  | null, _ => rfl
  | bool _, _ => rfl
  | int _, _ => rfl
  | frac _, _ => rfl
  | str s, h => quoteText_of_htmlFree (h s (by simp [texts]))
  | arr vs, h => by
    rw [print, print, printElems_of_htmlFree vs h]
  | obj ms, h => by
    rw [print, print, printMembers_of_htmlFree ms h]

theorem printElems_of_htmlFree : ∀ vs : List Json, (∀ s ∈ textsElems vs, htmlFree s) →
    printElems goEscape fracText vs = printElems jsEscape fracText vs
  | [], _ => rfl
  | [v], h => print_of_htmlFree v fun s hs => h s (by simp [textsElems, hs])
  | v :: w :: vs, h => by
    rw [printElems, printElems, print_of_htmlFree v fun s hs => h s (by simp [textsElems, hs]),
      printElems_of_htmlFree (w :: vs) fun s hs => h s (by rw [textsElems]; simp [hs])]

theorem printMembers_of_htmlFree : ∀ ms : List (String × Json), (∀ s ∈ textsMembers ms, htmlFree s) →
    printMembers goEscape fracText ms = printMembers jsEscape fracText ms
  | [], _ => rfl
  | [(k, v)], h => by
    rw [printMembers, printMembers, quoteText_of_htmlFree (h k (by simp [textsMembers])),
      print_of_htmlFree v fun s hs => h s (by simp [textsMembers, hs])]
  | (k, v) :: m :: ms, h => by
    rw [printMembers, printMembers, quoteText_of_htmlFree (h k (by simp [textsMembers])),
      print_of_htmlFree v fun s hs => h s (by simp [textsMembers, hs]),
      printMembers_of_htmlFree (m :: ms) fun s hs => h s (by rw [textsMembers]; simp [hs])]

end

mutual

theorem length_print : ∀ v :
    Json, (print jsEscape fracText v).length ≤ (print goEscape fracText v).length ∧
      ((print goEscape fracText v).length = (print jsEscape fracText v).length → ∀ s ∈ texts v,
        htmlFree s)
  | null => by simp [print, texts]
  | bool _ => by simp [print, texts]
  | int _ => by simp [print, texts]
  | frac _ => by simp [print, texts]
  | str s => by simpa [print, texts] using length_quoteText s
  | arr vs => by
    obtain ⟨hle, heq⟩ := length_printElems vs
    simp only [print, texts, List.length_cons, List.length_append, List.length_nil]
    exact ⟨by omega, fun h => heq (by omega)⟩
  | obj ms => by
    obtain ⟨hle, heq⟩ := length_printMembers ms
    simp only [print, texts, List.length_cons, List.length_append, List.length_nil]
    exact ⟨by omega, fun h => heq (by omega)⟩

theorem length_printElems : ∀ vs : List Json,
    (printElems jsEscape fracText vs).length ≤ (printElems goEscape fracText vs).length ∧
      ((printElems goEscape fracText vs).length = (printElems jsEscape fracText vs).length →
        ∀ s ∈ textsElems vs, htmlFree s)
  | [] => by simp [printElems, textsElems]
  | [v] => by simpa [printElems, textsElems] using length_print v
  | v :: w :: vs => by
    obtain ⟨hle, heq⟩ := length_print v
    obtain ⟨hle', heq'⟩ := length_printElems (w :: vs)
    rw [textsElems]
    simp only [printElems, List.length_cons, List.length_append, List.mem_append] at hle' heq' ⊢
    refine ⟨by omega, fun h s hs => ?_⟩
    rcases hs with hs | hs
    · exact heq (by omega) s hs
    · exact heq' (by omega) s hs

theorem length_printMembers : ∀ ms : List (String × Json),
    (printMembers jsEscape fracText ms).length ≤ (printMembers goEscape fracText ms).length ∧
      ((printMembers goEscape fracText ms).length = (printMembers jsEscape fracText ms).length →
        ∀ s ∈ textsMembers ms, htmlFree s)
  | [] => by simp [printMembers, textsMembers]
  | [(k, v)] => by
    obtain ⟨hkle, hkeq⟩ := length_quoteText k
    obtain ⟨hle, heq⟩ := length_print v
    simp only [printMembers, textsMembers, List.length_cons, List.length_append, List.append_nil,
      List.mem_cons]
    refine ⟨by omega, fun h s hs => ?_⟩
    rcases hs with rfl | hs
    · exact hkeq (by omega)
    · exact heq (by omega) s hs
  | (k, v) :: m :: ms => by
    obtain ⟨hkle, hkeq⟩ := length_quoteText k
    obtain ⟨hle, heq⟩ := length_print v
    obtain ⟨hle', heq'⟩ := length_printMembers (m :: ms)
    rw [textsMembers]
    simp only [printMembers, List.length_cons, List.length_append, List.mem_cons,
      List.mem_append] at hle' heq' ⊢
    refine ⟨by omega, fun h s hs => ?_⟩
    rcases hs with rfl | hs | hs
    · exact hkeq (by omega)
    · exact heq (by omega) s hs
    · exact heq' (by omega) s hs

end

/-- Go and JavaScript print the same bytes exactly when no string has one of the characters. -/
theorem print_goEscape_eq_iff (v : Json) :
    print goEscape fracText v = print jsEscape fracText v ↔ ∀ s ∈ texts v, htmlFree s := by
  constructor
  · intro h
    exact (length_print fracText v).2 (congrArg List.length h)
  · exact print_of_htmlFree fracText v

end Differ

/-! ## Values without fractions -/

mutual

def fracFree : Json → Bool
  | frac _ => false
  | arr elems => fracFreeElems elems
  | obj fields => fracFreeMembers fields
  | null => true
  | bool _ => true
  | int _ => true
  | str _ => true

def fracFreeElems : List Json → Bool
  | [] => true
  | v :: vs => fracFree v && fracFreeElems vs

def fracFreeMembers : List (String × Json) → Bool
  | [] => true
  | (_, v) :: ms => fracFree v && fracFreeMembers ms

end

@[simp]
theorem fracFreeElems_iff (vs : List Json) : fracFreeElems vs = true ↔ ∀ v ∈ vs, fracFree v = true := by
  induction vs with
  | nil => simp [fracFreeElems]
  | cons v vs ih => simp [fracFreeElems, ih]

@[simp]
theorem fracFreeMembers_iff (ms : List (String × Json)) :
    fracFreeMembers ms = true ↔ ∀ m ∈ ms, fracFree m.2 = true := by
  induction ms with
  | nil => simp [fracFreeMembers]
  | cons m ms ih => simp [fracFreeMembers, ih]

mutual

theorem reread_of_fracFree (t : FracText) : ∀ v : Json, fracFree v = true → reread t v = v
  | null, _ => rfl
  | bool _, _ => rfl
  | int _, _ => rfl
  | str _, _ => rfl
  | frac _, h => by cases h
  | arr vs, h => by rw [reread, rereadElems_of_fracFree t vs h]
  | obj ms, h => by rw [reread, rereadMembers_of_fracFree t ms h]

theorem rereadElems_of_fracFree (t : FracText) : ∀ vs : List Json, fracFreeElems vs = true →
    rereadElems t vs = vs
  | [], _ => rfl
  | v :: vs, h => by
    rw [fracFreeElems, Bool.and_eq_true] at h
    rw [rereadElems, reread_of_fracFree t v h.1, rereadElems_of_fracFree t vs h.2]

theorem rereadMembers_of_fracFree (t : FracText) : ∀ ms : List (String × Json),
    fracFreeMembers ms = true → rereadMembers t ms = ms
  | [], _ => rfl
  | (k, v) :: ms, h => by
    rw [fracFreeMembers, Bool.and_eq_true] at h
    rw [rereadMembers, reread_of_fracFree t v h.1, rereadMembers_of_fracFree t ms h.2]

end

def noFracs : FracText where
  text := fun _ => [0x30, 0x2E, 0x30]
  token := by
    intro q
    simp only [List.forall_mem_cons, List.not_mem_nil, false_implies, implies_true, and_true]
    decide
  number := fun _ => by decide

def marshal (v : Json) : Bytes := v.print goEscape noFracs.text

theorem parse_marshal {v : Json} (h : fracFree v = true) : parse (marshal v) = some v := by
  rw [marshal, show print goEscape noFracs.text v = print goEscaper.escape noFracs.text v from rfl,
    parse_print, reread_of_fracFree _ v h]

/-- The bytes of a member with its colon and the comma or brace after it. -/
def memberLength (m : String × Json) : Nat :=
  (quoteText goEscape m.1).length + (marshal m.2).length + 2

theorem length_marshal_obj {ms : List (String × Json)} (h : ms ≠ []) :
    (marshal (obj ms)).length = 1 + (ms.map memberLength).sum := by
  have hmembers : ∀ ms : List (String × Json), ms ≠ [] →
      (printMembers goEscape noFracs.text ms).length + 1 = (ms.map memberLength).sum := by
    intro ms
    induction ms with
    | nil => exact fun h => absurd rfl h
    | cons m ms ih =>
      intro _
      cases ms with
      | nil =>
        simp [printMembers, memberLength, marshal]
        omega
      | cons m' ms =>
        have htail := ih (List.cons_ne_nil _ _)
        rw [List.map_cons, List.sum_cons, ← htail]
        simp [printMembers, memberLength, marshal]
        omega
  rw [marshal, print, List.length_cons, List.length_append, List.length_singleton, ← hmembers ms h]
  omega

theorem length_intText_le {n : Int} (h : -2 ^ 63 ≤ n ∧ n < 2 ^ 63) : (intText n).length ≤ 20 := by
  have hdigits : (Nat.toDigits 10 n.natAbs).length ≤ 19 := by
    rw [Nat.length_toDigits_le_iff (by decide) (by decide)]
    omega
  have hlen : (intText n).length = (asciiChars (intText n)).length := by rw [asciiChars, List.length_map]
  rw [hlen, asciiChars_intText]
  split <;> simp <;> omega

end Json

end Verilink.Framework

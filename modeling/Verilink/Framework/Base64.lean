import Mathlib

/-!
# Base64

The encoders of PostgreSQL, which breaks lines after 76 characters, and of `encoding/base64`, and
two decoders: that of `encoding/base64`, which ignores line breaks and does not look at unused
trailing bits, and that of Node.
-/

namespace Verilink.Framework.Base64

/-- The standard and the URL-safe alphabet differ in the last two characters. -/
inductive Alphabet
  | std
  | url
  deriving DecidableEq

def Alphabet.chars : Alphabet → List Char
  | .std => "ABCDEFGHIJKLMNOPQRSTUVWXYZabcdefghijklmnopqrstuvwxyz0123456789+/".toList
  | .url => "ABCDEFGHIJKLMNOPQRSTUVWXYZabcdefghijklmnopqrstuvwxyz0123456789-_".toList

def encodeSextet (alphabet : Alphabet) (n : Nat) : Char := (alphabet.chars[n]?).getD '='

def decodeSextet (alphabet : Alphabet) (c : Char) : Option Nat :=
  (alphabet.chars.findIdx? (· = c))

/-! ## Groups of six bits -/

/-- The last group is filled up with zeros. -/
def sextets : List UInt8 → List Nat
  | [] => []
  | [a] => [a.toNat / 4, a.toNat % 4 * 16]
  | [a, b] => [a.toNat / 4, a.toNat % 4 * 16 + b.toNat / 16, b.toNat % 16 * 4]
  | a :: b :: c :: rest =>
    a.toNat / 4 :: (a.toNat % 4 * 16 + b.toNat / 16) :: (b.toNat % 16 * 4 + c.toNat / 64) ::
      c.toNat % 64 ::
      sextets rest

/-- Whole bytes; the bits that are left over are dropped. -/
def bytesOfSextets : List Nat → List UInt8
  | a :: b :: c :: d :: rest =>
    UInt8.ofNat (a * 4 + b / 16) :: UInt8.ofNat (b % 16 * 16 + c / 4) :: UInt8.ofNat (c % 4 * 64 + d) ::
      bytesOfSextets rest
  | [a, b, c] => [UInt8.ofNat (a * 4 + b / 16), UInt8.ofNat (b % 16 * 16 + c / 4)]
  | [a, b] => [UInt8.ofNat (a * 4 + b / 16)]
  | _ => []

variable (bytes : List UInt8)

theorem sextets_lt : ∀ n ∈ sextets bytes, n < 64 := by
  induction bytes using sextets.induct with
  | case1 => exact List.forall_mem_nil _
  | case2 a =>
    have ha := a.toNat_lt
    simp only [sextets, List.forall_mem_cons, List.not_mem_nil, false_imp_iff, implies_true, and_true]
    omega
  | case3 a b =>
    have ha := a.toNat_lt
    have hb := b.toNat_lt
    simp only [sextets, List.forall_mem_cons, List.not_mem_nil, false_imp_iff, implies_true, and_true]
    omega
  | case4 a b c rest ih =>
    have ha := a.toNat_lt
    have hb := b.toNat_lt
    have hc := c.toNat_lt
    simp only [sextets, List.forall_mem_cons]
    exact ⟨by omega, by omega, by omega, by omega, ih⟩

private theorem ofNat_eq {n : Nat} {a : UInt8} (h : n = a.toNat) : UInt8.ofNat n = a := by
  rw [h]
  exact UInt8.ofNat_toNat

theorem bytesOfSextets_sextets : bytesOfSextets (sextets bytes) = bytes := by
  induction bytes using sextets.induct with
  | case1 => rfl
  | case2 a =>
    have ha := a.toNat_lt
    rw [sextets, bytesOfSextets, ofNat_eq (a := a) (by omega)]
  | case3 a b =>
    have ha := a.toNat_lt
    have hb := b.toNat_lt
    rw [sextets, bytesOfSextets, ofNat_eq (a := a) (by omega), ofNat_eq (a := b) (by omega)]
  | case4 a b c rest ih =>
    have ha := a.toNat_lt
    have hb := b.toNat_lt
    have hc := c.toNat_lt
    rw [sextets, bytesOfSextets, ofNat_eq (a := a) (by omega), ofNat_eq (a := b) (by omega),
      ofNat_eq (a := c) (by omega), ih]

/-! ## Encoders -/

def padding : Nat → List Char
  | 1 => ['=', '=']
  | 2 => ['=']
  | _ => []

def encodeWith (alphabet : Alphabet) (padded : Bool) (bytes : List UInt8) : List Char :=
  (sextets bytes).map (encodeSextet alphabet) ++ if padded then padding (bytes.length % 3) else []

def encode : List UInt8 → List Char := encodeWith .std true

/-- `base64.RawURLEncoding.EncodeToString`. -/
def encodeRawURL : List UInt8 → List Char := encodeWith .url false

/-- `encode(bytes, 'base64')`: a line break after every 19 complete groups of four. -/
def pgEncode (lineGroups : Nat) : List UInt8 → List Char
  | a :: b :: c :: rest =>
    encode [a, b, c] ++
      if lineGroups = 18 then '\n' :: pgEncode 0 rest else pgEncode (lineGroups + 1) rest
  | tail => encode tail

def isURLChar (c : Char) : Bool := c ∈ Alphabet.url.chars

variable {alphabet : Alphabet} {padded : Bool}

theorem encodeWith_append (a b c : UInt8) (rest : List UInt8) :
    encodeWith alphabet padded (a :: b :: c :: rest) =
      encodeWith alphabet padded [a, b, c] ++ encodeWith alphabet padded rest := by
  have hlen : (a :: b :: c :: rest).length % 3 = rest.length % 3 := by
    simp only [List.length_cons]
    omega
  have hnone : (if padded then padding ([a, b, c].length % 3) else []) = [] := by
    simp [padding]
  rw [encodeWith, encodeWith, encodeWith, hlen, hnone]
  simp [sextets]

theorem encodeSextet_mem {n : Nat} (h : n < 64) : encodeSextet alphabet n ∈ alphabet.chars := by
  have hlen : alphabet.chars.length = 64 := by cases alphabet <;> rfl
  rw [encodeSextet, List.getElem?_eq_getElem (hlen.symm ▸ h), Option.getD_some]
  exact List.getElem_mem _

theorem mem_encodeWith {c : Char} (h : c ∈ encodeWith alphabet padded bytes) :
    c ∈ alphabet.chars ∨ (padded = true ∧ c = '=') := by
  rcases List.mem_append.mp h with hchar | hpad
  · obtain ⟨n, hn, rfl⟩ := List.mem_map.mp hchar
    exact .inl (encodeSextet_mem (sextets_lt bytes n hn))
  · cases padded with
    | false => cases hpad
    | true =>
      have hall : ∀ n : Fin 3, padding n ⊆ ['=', '='] := by decide
      have hmem := hall ⟨_, Nat.mod_lt bytes.length (by decide)⟩ hpad
      exact .inr ⟨rfl, by simpa using hmem⟩

theorem encodeRawURL_chars : ∀ c ∈ encodeRawURL bytes, isURLChar c = true := by
  intro c hc
  rcases mem_encodeWith bytes hc with hmem | ⟨hpadded, -⟩
  · exact decide_eq_true hmem
  · cases hpadded

/-! ## The decoder of Go -/

def decodeChars (alphabet : Alphabet) (cs : List Char) : Option (List UInt8) :=
  (cs.mapM (decodeSextet alphabet)).map bytesOfSextets

/-- The decoder on a text without line breaks. -/
def decodeGroups (alphabet : Alphabet) (padded : Bool) : List Char → Option (List UInt8)
  | [] => some []
  | [_] => none
  | [a, b] => if padded then none else decodeChars alphabet [a, b]
  | [a, b, c] => if padded then none else decodeChars alphabet [a, b, c]
  | a :: b :: c :: d :: rest =>
    if padded ∧ d = '=' then
      if rest ≠ [] then none
      else if c = '=' then decodeChars alphabet [a, b]
      else decodeChars alphabet [a, b, c]
    else do
      let group ← decodeChars alphabet [a, b, c, d]
      let tail ← decodeGroups alphabet padded rest
      some (group ++ tail)

def decode (alphabet : Alphabet) (padded : Bool) (s : List Char) : Option (List UInt8) :=
  decodeGroups alphabet padded (s.filter fun c => c ≠ '\n' ∧ c ≠ '\r')

theorem decodeSextet_encodeSextet {n : Nat} (h : n < 64) :
    decodeSextet alphabet (encodeSextet alphabet n) = some n := by
  have hall : ∀ n : Fin 64, decodeSextet .std (encodeSextet .std n) = some n.val ∧
      decodeSextet .url (encodeSextet .url n) = some n.val := by
    decide +kernel
  cases alphabet with
  | std => exact (hall ⟨n, h⟩).1
  | url => exact (hall ⟨n, h⟩).2

theorem decodeChars_sextets (alphabet : Alphabet) (bytes : List UInt8) :
    decodeChars alphabet ((sextets bytes).map (encodeSextet alphabet)) = some bytes := by
  have hread : ∀ ns : List Nat, (∀ n ∈ ns, n < 64) →
      (ns.map (encodeSextet alphabet)).mapM (decodeSextet alphabet) = some ns := by
    intro ns
    induction ns with
    | nil => exact fun _ => rfl
    | cons n ns ih =>
      intro h
      rw [List.forall_mem_cons] at h
      simp [decodeSextet_encodeSextet h.1, ih h.2]
  rw [decodeChars, hread _ (sextets_lt bytes), Option.map_some, bytesOfSextets_sextets]

theorem ne_of_mem_chars {c : Char} (h : c ∈ alphabet.chars) : c ≠ '=' ∧ c ≠ '\n' ∧ c ≠ '\r' := by
  have hall : (Alphabet.std.chars ++ Alphabet.url.chars).all fun c => c ≠ '=' ∧ c ≠ '\n' ∧
      c ≠ '\r' := by decide
  apply of_decide_eq_true (List.all_eq_true.mp hall c (List.mem_append.mpr _))
  cases alphabet with
  | std => exact .inl h
  | url => exact .inr h

theorem encodeSextet_ne {n : Nat} (h : n < 64) : encodeSextet alphabet n ≠ '=' :=
  (ne_of_mem_chars (encodeSextet_mem h)).1

theorem decodeGroups_encodeWith :
    decodeGroups alphabet padded (encodeWith alphabet padded bytes) = some bytes := by
  induction bytes using sextets.induct with
  | case1 => cases padded <;> rfl
  | case2 a =>
    have hread := decodeChars_sextets alphabet [a]
    cases padded with
    | false => exact hread
    | true =>
      change (if true = true ∧ '=' = '=' then _ else _) = _
      rw [if_pos ⟨rfl, rfl⟩, if_neg (not_not.mpr rfl), if_pos rfl]
      exact hread
  | case3 a b =>
    have hread := decodeChars_sextets alphabet [a, b]
    have hne : encodeSextet alphabet (b.toNat % 16 * 4) ≠ '=' := encodeSextet_ne (by omega)
    cases padded with
    | false => exact hread
    | true =>
      change (if true = true ∧ '=' = '=' then _ else _) = _
      rw [if_pos ⟨rfl, rfl⟩, if_neg (not_not.mpr rfl), if_neg hne]
      exact hread
  | case4 a b c rest ih =>
    have hread := decodeChars_sextets alphabet [a, b, c]
    have hne : encodeSextet alphabet (c.toNat % 64) ≠ '=' := encodeSextet_ne (by omega)
    have hgroup : encodeWith alphabet padded [a, b, c] =
        (sextets [a, b, c]).map (encodeSextet alphabet) := by
      simp [encodeWith, padding]
    rw [encodeWith_append, hgroup]
    simp only [sextets, List.map_cons, List.map_nil, List.cons_append, List.nil_append] at hread ⊢
    rw [decodeGroups, if_neg (fun h => hne h.2), hread, ih]
    rfl

theorem filter_encodeWith :
    (encodeWith alphabet padded bytes).filter (fun c => c ≠ '\n' ∧ c ≠ '\r') =
      encodeWith alphabet padded bytes := by
  apply List.filter_eq_self.mpr
  intro c hc
  rcases mem_encodeWith bytes hc with hmem | ⟨-, rfl⟩
  · exact decide_eq_true (ne_of_mem_chars hmem).2
  · decide

theorem decode_encodeWith : decode alphabet padded (encodeWith alphabet padded bytes) = some bytes := by
  rw [decode, filter_encodeWith, decodeGroups_encodeWith]

theorem decode_encode : decode .std true (encode bytes) = some bytes := decode_encodeWith bytes

theorem decode_encodeRawURL : decode .url false (encodeRawURL bytes) = some bytes :=
  decode_encodeWith bytes

theorem encodeRawURL_ne_nil (h : bytes ≠ []) : encodeRawURL bytes ≠ [] := by
  intro hnil
  have hdecode := decode_encodeRawURL bytes
  rw [hnil] at hdecode
  exact h (Option.some.inj hdecode).symm

/-- Line breaks are the only difference between the two encoders. -/
theorem filter_pgEncode (lineGroups : Nat) (bytes : List UInt8) :
    (pgEncode lineGroups bytes).filter (fun c => c ≠ '\n' ∧ c ≠ '\r') = encode bytes := by
  induction bytes using sextets.induct generalizing lineGroups with
  | case1 => exact filter_encodeWith []
  | case2 a => exact filter_encodeWith [a]
  | case3 a b => exact filter_encodeWith [a, b]
  | case4 a b c rest ih =>
    rw [pgEncode, List.filter_append, encode, filter_encodeWith, encodeWith_append a b c rest]
    congr 1
    by_cases hline : lineGroups = 18
    · rw [if_pos hline, List.filter_cons_of_neg (by simp)]
      exact ih 0
    · rw [if_neg hline]
      exact ih (lineGroups + 1)

theorem decode_pgEncode : decode .std true (pgEncode 0 bytes) = some bytes := by
  rw [decode, filter_pgEncode, encode, decodeGroups_encodeWith]

/-! ## The decoder of Node -/

def nodeSextet (c : Char) : Option Nat := (decodeSextet .std c).or (decodeSextet .url c)

/-- `Buffer.from(s, 'base64')` ends at the first padding and skips what is in neither alphabet. -/
def nodeDecode (s : List Char) : List UInt8 :=
  bytesOfSextets ((s.takeWhile fun c => c ≠ '=').filterMap nodeSextet)

theorem nodeSextet_encodeSextet {n : Nat} (h : n < 64) : nodeSextet (encodeSextet .url n) = some n := by
  have hall : ∀ n : Fin 64, nodeSextet (encodeSextet .url n) = some n.val := by decide +kernel
  exact hall ⟨n, h⟩

theorem nodeDecode_encodeRawURL : nodeDecode (encodeRawURL bytes) = bytes := by
  have hraw : encodeRawURL bytes = (sextets bytes).map (encodeSextet .url) := List.append_nil _
  have hwhole : (encodeRawURL bytes).takeWhile (fun c => c ≠ '=') = encodeRawURL bytes := by
    rw [List.takeWhile_eq_self_iff]
    intro c hc
    rw [hraw] at hc
    obtain ⟨n, hn, rfl⟩ := List.mem_map.mp hc
    exact decide_eq_true (encodeSextet_ne (sextets_lt bytes n hn))
  have hsextets : (encodeRawURL bytes).filterMap nodeSextet = sextets bytes := by
    rw [hraw, List.filterMap_map]
    refine (List.filterMap_congr fun n hn => ?_).trans List.filterMap_some
    exact nodeSextet_encodeSextet (sextets_lt bytes n hn)
  rw [nodeDecode, hwhole, hsextets, bytesOfSextets_sextets]

end Verilink.Framework.Base64

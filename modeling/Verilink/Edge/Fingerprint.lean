import Verilink.Edge.Proxy
import Verilink.Framework.SortedBy

/-!
# Fingerprints

`fingerprint.Generate` hashes a canonical JSON object, in which the headers are one hash of their
own: of the lines `name:value`, joined by a bar.
-/

namespace Verilink.Edge

open Verilink.Framework

/-- The layers of a request. The headers are a map, with its entries in some order. -/
structure RequestData where
  ja4 : String
  headers : List (String × String)
  keyHash : String
  protocol : String
  distinct : (headers.map Prod.fst).Nodup

namespace RequestData

def lowerName (lower : Char → Char) (h : String × String) : String × String := (lowerText lower h.1, h.2)

/-- The headers in the byte order of their names, which is that of the characters. -/
def headerLines (lower : Char → Char) (data : RequestData) : List (String × String) :=
  (sortBy Prod.fst data.headers).map (lowerName lower)

def headerText (lines : List (String × String)) : String :=
  "|".intercalate (lines.map fun l => l.1 ++ ":" ++ l.2)

def hashString (sum : Bytes → Bytes) (s : String) : String := String.ofList (hexText (sum (utf8 s)))

/-- The layers that are not empty; `json.Marshal` writes the keys of a map in order. -/
def canonicalData (lower : Char → Char) (sum : Bytes → Bytes) (data : RequestData) : Json :=
  .obj (omitEmpty (data.headers = []) "headers_hash"
    (.str (hashString sum (headerText (data.headerLines lower)))) ++
    omitEmpty (data.ja4 = "") "ja4" (.str (lowerText lower data.ja4)) ++
    omitEmpty (data.keyHash = "") "key_hash" (.str (lowerText lower data.keyHash)) ++
    omitEmpty (data.protocol = "") "protocol" (.str (lowerText lower data.protocol)))

def generate (lower : Char → Char) (sum : Bytes → Bytes) (data : RequestData) : String :=
  String.ofList (hexText (sum (Json.marshal (data.canonicalData lower sum))))

/-! ## What a fingerprint depends on -/

variable {lower : Char → Char} {sum : Bytes → Bytes} {a b : RequestData}

theorem lowerText_eq_empty {s : String} : lowerText lower s = "" ↔ s = "" := by
  simp [lowerText]

def layer (empty : Prop) [Decidable empty] (s : String) :
    Option Json := if empty then none else some (.str s)

theorem layer_lowerText (s : String) :
    layer (s = "") (lowerText lower s) = layer (lowerText lower s = "") (lowerText lower s) := by
  simp [layer, lowerText_eq_empty]

theorem layer_inj {s t : String} : layer (s = "") s = layer (t = "") t ↔ s = t := by
  unfold layer
  split_ifs with hs ht ht
  · simp [hs, ht]
  · simp [hs, Ne.symm ht]
  · simp [ht, hs]
  · simp

theorem lookup_omitEmpty_append {empty : Prop} [Decidable empty] {key s : String}
    (rest : List (String × Json)) (k : String) :
    (omitEmpty empty key (.str s) ++ rest).lookup k =
      if k = key ∧ ¬ empty then some (.str s) else rest.lookup k := by
  unfold omitEmpty
  by_cases hempty : empty
  · simp [hempty]
  · by_cases hk : k = key
    · simp [hempty, hk]
    · simp [hempty, hk, List.lookup_cons, beq_false_of_ne hk]

theorem omitEmpty_congr {p q : Prop} [Decidable p] [Decidable q] {key s t : String}
    (h : layer p s = layer q t) :
    omitEmpty p key (.str s) = omitEmpty q key (.str t) := by
  unfold layer at h
  unfold omitEmpty
  split_ifs at h ⊢
  · rfl
  · rw [Option.some.inj h]

theorem canonicalData_eq_iff : a.canonicalData lower sum = b.canonicalData lower sum ↔
    layer (a.headers = []) (hashString sum (headerText (a.headerLines lower))) =
        layer (b.headers = []) (hashString sum (headerText (b.headerLines lower))) ∧
      lowerText lower a.ja4 = lowerText lower b.ja4 ∧ lowerText lower a.keyHash =
        lowerText lower b.keyHash ∧
      lowerText lower a.protocol = lowerText lower b.protocol := by
  rw [← layer_inj, ← layer_inj (s := lowerText lower a.keyHash),
    ← layer_inj (s := lowerText lower a.protocol)]
  simp only [← layer_lowerText]
  constructor
  · intro h
    have hlookup := fun k => congrArg (fun members => (members ++ []).lookup k) (Json.obj.inj h)
    have hheaders := hlookup "headers_hash"
    have hja4 := hlookup "ja4"
    have hkeyHash := hlookup "key_hash"
    have hprotocol := hlookup "protocol"
    simp only [List.append_assoc, lookup_omitEmpty_append,
      List.lookup_nil] at hheaders hja4 hkeyHash hprotocol
    exact ⟨by simpa [layer] using hheaders, by simpa [layer] using hja4, by simpa [layer] using hkeyHash,
      by simpa [layer] using hprotocol⟩
  · rintro ⟨hheaders, hja4, hkeyHash, hprotocol⟩
    unfold canonicalData
    rw [omitEmpty_congr hheaders, omitEmpty_congr hja4, omitEmpty_congr hkeyHash,
      omitEmpty_congr hprotocol]

theorem fracFree_canonicalData (data : RequestData) :
    (data.canonicalData lower sum).fracFree = true := by
  unfold canonicalData omitEmpty
  rw [Json.fracFree, Json.fracFreeMembers_iff]
  intro m hm
  simp only [List.mem_append, List.mem_ite_nil_left, List.mem_singleton] at hm
  obtain ((⟨-, rfl⟩ | ⟨-, rfl⟩) | ⟨-, rfl⟩) | ⟨-, rfl⟩ := hm <;> rfl

theorem hashString_inj (hsum : Function.Injective sum) {s t : String} :
    hashString sum s = hashString sum t ↔ s = t := by
  constructor
  · intro h
    exact Json.utf8_inj (hsum (hexText_injective (String.ofList_injective h)))
  · exact congrArg _

theorem generate_eq_canonical (hsum : Function.Injective sum) :
    a.generate lower sum = b.generate lower sum ↔ a.canonicalData lower sum =
      b.canonicalData lower sum := by
  constructor
  · intro h
    have hmarshal := congrArg Json.parse (hsum (hexText_injective (String.ofList_injective h)))
    rw [Json.parse_marshal (fracFree_canonicalData a),
      Json.parse_marshal (fracFree_canonicalData b)] at hmarshal
    exact Option.some.inj hmarshal
  · intro h
    rw [generate, generate, h]

theorem headerLines_eq_nil (data : RequestData) : data.headers = [] ↔ data.headerLines lower = [] := by
  rw [headerLines, List.map_eq_nil_iff, ← List.length_eq_zero_iff, ← List.length_eq_zero_iff,
    (perm_sortBy Prod.fst data.headers).length_eq]

/-- A header leaves its colon behind, so that only the empty map has the empty text. -/
theorem headerText_eq_empty {lines : List (String × String)} : headerText lines = "" ↔ lines = [] := by
  cases lines with
  | nil => simp [headerText]
  | cons l lines =>
    rw [headerText, List.map_cons, Chars.intercalate_cons]
    simp

theorem layer_headers (hsum : Function.Injective sum) :
    layer (a.headers = []) (hashString sum (headerText (a.headerLines lower))) =
        layer (b.headers = []) (hashString sum (headerText (b.headerLines lower))) ↔
      headerText (a.headerLines lower) = headerText (b.headerLines lower) := by
  have hempty (data : RequestData) : data.headers = [] ↔ headerText (data.headerLines lower) = "" := by
    rw [headerLines_eq_nil, headerText_eq_empty]
  unfold layer
  simp only [hempty]
  split_ifs with ha hb hb
  · simp [ha, hb]
  · simp [ha, Ne.symm hb]
  · simp [hb, ha]
  · simp [hashString_inj hsum]

def SameFields (lower : Char → Char) (a b : RequestData) : Prop :=
  lowerText lower a.ja4 = lowerText lower b.ja4 ∧ lowerText lower a.keyHash = lowerText lower b.keyHash ∧
    lowerText lower a.protocol = lowerText lower b.protocol

theorem generate_eq_iff (hsum : Function.Injective sum) : a.generate lower sum = b.generate lower sum ↔
    headerText (a.headerLines lower) = headerText (b.headerLines lower) ∧ SameFields lower a b := by
  rw [generate_eq_canonical hsum, canonicalData_eq_iff, layer_headers hsum, SameFields]

/-! ## Headers up to the case of their names -/

def SameHeaders (lower : Char → Char) (a b : RequestData) : Prop :=
  (a.headers.map (lowerName lower)).Perm (b.headers.map (lowerName lower))

instance (lower : Char → Char) (a b : RequestData) : Decidable (SameHeaders lower a b) :=
  inferInstanceAs (Decidable (List.Perm _ _))

instance (lower : Char → Char) (a b : RequestData) : Decidable (SameFields lower a b) :=
  inferInstanceAs (Decidable (_ ∧ _))

theorem perm_headerLines (data : RequestData) :
    (data.headerLines lower).Perm (data.headers.map (lowerName lower)) :=
  (perm_sortBy Prod.fst data.headers).map _

theorem sameHeaders_of_eq (h : a.headerLines lower = b.headerLines lower) : SameHeaders lower a b := by
  have hperm : (a.headerLines lower).Perm (b.headerLines lower) := by rw [h]
  exact ((perm_headerLines a).symm.trans hperm).trans (perm_headerLines b)

/-! ## Headers that are not told apart -/

/-- The same headers, in another order when they are sorted by the names as they are written. -/
def Reordered (lower : Char → Char) (a b : RequestData) : Prop :=
  a.headerLines lower ≠ b.headerLines lower ∧ SameHeaders lower a b

/-- Different lines that give one text when bars and colons are put between their parts. -/
def ReadAlike (lower : Char → Char) (a b : RequestData) : Prop :=
  a.headerLines lower ≠ b.headerLines lower ∧
    headerText (a.headerLines lower) = headerText (b.headerLines lower)

theorem generate_eq_iff_same (hsum : Function.Injective sum) :
    (a.generate lower sum = b.generate lower sum ↔ SameFields lower a b ∧ SameHeaders lower a b) ↔
      (SameFields lower a b → (Reordered lower a b ↔ ReadAlike lower a b)) := by
  rw [generate_eq_iff hsum]
  by_cases hfields : SameFields lower a b
  · by_cases hlines : a.headerLines lower = b.headerLines lower
    · simp [Reordered, ReadAlike, hlines, hfields, sameHeaders_of_eq hlines]
    · simp [Reordered, ReadAlike, hlines, hfields, iff_comm]
  · simp [hfields]

def oneHeader (name value : String) : RequestData := ⟨"", [(name, value)], "", "", by simp⟩

def twoHeaders (m n : String) (h : m ≠ n) : RequestData :=
  ⟨"", [(m, "1"), (n, "2")], "", "", by simp [h]⟩

/-- Written in two ways that sort alike. -/
theorem generate_eq_iff_same_twoHeaders :
    (twoHeaders "A" "B" (by decide)).generate Char.toLower id = (twoHeaders "a" "b" (by decide)).generate Char.toLower id ↔
      SameFields Char.toLower (twoHeaders "A" "B" (by decide)) (twoHeaders "a" "b" (by decide)) ∧
        SameHeaders Char.toLower (twoHeaders "A" "B" (by decide)) (twoHeaders "a" "b" (by decide)) := by
  refine (generate_eq_iff_same Function.injective_id).mpr fun _ => ?_
  rw [Reordered, ReadAlike]
  decide

/-- The upper case letters come before the lower case ones, and a bar in a value reads as the end of
its line. -/
theorem headers_reordered_or_misread :
    (SameFields Char.toLower (twoHeaders "a" "B" (by decide)) (twoHeaders "A" "b" (by decide)) ∧
      SameHeaders Char.toLower (twoHeaders "a" "B" (by decide)) (twoHeaders "A" "b" (by decide)) ∧
      ¬ SameHeaders Char.toLower (oneHeader "a" "1|b:2") (twoHeaders "a" "b" (by decide))) ∧
    ∀ sum, Function.Injective sum →
      (twoHeaders "a" "B" (by decide)).generate Char.toLower sum ≠ (twoHeaders "A" "b" (by decide)).generate Char.toLower sum ∧
      (oneHeader "a" "1|b:2").generate Char.toLower sum =
      (twoHeaders "a" "b" (by decide)).generate Char.toLower sum := by
  refine ⟨by decide, ?_⟩
  intro sum hsum
  rw [Ne, generate_eq_iff hsum, generate_eq_iff hsum]
  decide

/-! ## The fingerprint of a request at the proxy -/

def ofRequest (r : Request) : RequestData := ⟨r.ja4, [("User-Agent", r.userAgent)], "", r.proto, by simp⟩

theorem requestFingerprint_eq (sha : Sha256) (r : Request)
    (hname : lowerText lower "User-Agent" = "user-agent") :
    requestFingerprint lower sha r = (ofRequest r).generate lower sha.sum := by
  have hlines : (ofRequest r).headerLines lower = [("user-agent", r.userAgent)] := by
    rw [← hname]
    rfl
  have htext : headerText [("user-agent", r.userAgent)] = "user-agent:" ++ r.userAgent := by
    rw [headerText, List.map_singleton, String.intercalate_singleton]
    rfl
  rw [requestFingerprint, generate, canonicalData, hlines, htext, Sha256.hex]
  simp only [ofRequest, omitEmpty, if_true, List.append_nil, List.cons_ne_nil, if_false]
  rfl

end RequestData

end Verilink.Edge

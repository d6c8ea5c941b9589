import Verilink.Edge.AgentRegistry
import Verilink.Edge.Gate
import Verilink.Framework.QuotedText

/-!
# Signatures with extra components

`VerifySignatureInputWithExtra` takes the names of the extra headers from the header text and their
values from the request.
-/

namespace Verilink.Edge

open Verilink.Framework

def derivedComponents : List String :=
  ["@method", "@target-uri", "@created", "@expires", "content-digest"]

/-- The extra components that a header names, with the values that the request has for them. -/
def SignatureInput.extraComponents (si : SignatureInput) (getExtraHeader : String → String) :
    List ExtraComponent :=
  (si.components.filter (· ∉ derivedComponents)).map fun name => ⟨name, getExtraHeader name⟩

section Verify

variable (p : Chars.Printable) (sha : Sha256) (scheme : SignatureScheme)

def verifySignatureInputWithExtra (now : Int) (lookupKey : String → Except String Bytes)
    (getExtraHeader : String → String) (sigInputHeader sigHeader method targetURI : String)
    (body : Bytes) : Except String Unit := do
  let si ← parseSignatureInput sigInputHeader
  si.checkWindow now
  let sigBase := buildSignatureBaseWithExtra p sha method targetURI si.created si.expires body
    (si.extraComponents getExtraHeader)
  let pub ← (lookupKey si.keyID).mapError ("key lookup failed: " ++ ·)
  verify scheme sigBase sigHeader pub

theorem verifyWithExtra_eq_ok {now : Int} {lookupKey : String → Except String Bytes}
    {getExtraHeader : String → String} {sigInputHeader sigHeader method targetURI : String}
    {body : Bytes} :
    verifySignatureInputWithExtra p sha scheme now lookupKey getExtraHeader sigInputHeader sigHeader
        method targetURI body = .ok () ↔
      ∃ si pub, parseSignatureInput sigInputHeader = .ok si ∧ si.checkWindow now = .ok () ∧
        lookupKey si.keyID = .ok pub ∧
        verify scheme (buildSignatureBaseWithExtra p sha method targetURI si.created si.expires body
          (si.extraComponents getExtraHeader)) sigHeader pub = .ok () := by
  rw [verifySignatureInputWithExtra, bind_eq_ok]
  simp only [bind_eq_ok, mapError_eq_ok]
  constructor
  · rintro ⟨si, hparse, ⟨⟩, hwindow, pub, hfound, hverify⟩
    exact ⟨si, pub, hparse, hwindow, hfound, hverify⟩
  · rintro ⟨si, pub, hparse, hwindow, hfound, hverify⟩
    exact ⟨si, hparse, (), hwindow, pub, hfound, hverify⟩

theorem verify_eq_ok {sigBase sigB64 : String} {pub : Bytes}
    (h : verify scheme sigBase sigB64 pub = .ok ()) :
    ∃ sig, Base64.decode .url false sigB64.toList = some sig ∧ scheme.verify pub sigBase sig = true := by
  rw [verify] at h
  split_ifs at h
  split at h
  · cases h
  · rename_i sig hdecode
    split_ifs at h with hsig
    exact ⟨sig, hdecode, hsig⟩

theorem verifyWithExtra_of_signed {now : Int} (lookupKey : String → Except String Bytes)
    (getExtraHeader : String → String) {sigInputHeader : String} (method targetURI : String)
    (body key : Bytes) {si : SignatureInput} (hparse : parseSignatureInput sigInputHeader = .ok si)
    (hwindow : si.checkWindow now = .ok ()) (hfound : lookupKey si.keyID = .ok (scheme.publicKey key)) :
    verifySignatureInputWithExtra p sha scheme now lookupKey getExtraHeader sigInputHeader
      (String.ofList
      (Base64.encodeRawURL (scheme.sign key (buildSignatureBaseWithExtra p sha method targetURI
        si.created si.expires body
          (si.extraComponents getExtraHeader))))) method targetURI body = .ok () := by
  refine (verifyWithExtra_eq_ok p sha scheme).mpr ⟨si, _, hparse, hwindow, hfound, ?_⟩
  rw [verify, if_neg
    (by simp [scheme.length_publicKey]), String.toList_ofList, Base64.decode_encodeRawURL]
  simp [scheme.verify_sign]

end Verify

/-! ## Reading the header back -/

theorem plain_ascii {p : Chars.Printable} {c : Char} (hquote : c ≠ '"') (hslash : c ≠ '\\')
    (hprint : 0x20 ≤ c.toNat ∧ c.toNat < 0x7F) : Chars.Plain p c := by
  refine ⟨hquote, hslash, ?_⟩
  rw [p.ascii c (by omega)]
  exact decide_eq_true hprint

def isTokenChar (c : Char) : Bool := c.isAlphanum || c ∈ "!#$%&'*+-.^_`|~".toList

def IsToken (name : String) : Prop := name ≠ "" ∧ ∀ c ∈ name.toList, isTokenChar c = true

def coveredNames (body : Bytes) : List String :=
  ["@method", "@target-uri", "@created", "@expires"] ++ if body ≠ [] then ["content-digest"] else []

/-- What a signer means by the header it writes. -/
def signedInput (keyID : String) (created expires : Int) (body random : Bytes) (names : List String) :
    SignatureInput :=
  { keyID := keyID, created := created, expires := expires, nonce := nonceText random
    components := coveredNames body ++ names }

def quotedName (name : String) : List Char := '"' :: name.toList ++ ['"']

section Written

variable (p : Chars.Printable) (sha : Sha256) (scheme : SignatureScheme)

theorem intercalate_blank (w : List Char) (ws : List (List Char)) :
    [' '].intercalate (w :: ws) = w ++ ws.flatMap (' ' :: ·) := by
  induction ws generalizing w with
  | nil => simp
  | cons v ws ih => rw [List.intercalate_cons_cons, ih, List.flatMap_cons, List.append_assoc,
      List.singleton_append, List.cons_append]

variable {c : Char}

theorem isSpace_visible (h : 0x20 < c.toNat ∧ c.toNat < 0x7F) : Chars.isSpace c = false := by
  have hall : (Text.whiteSpace.all fun w => w.toNat ≤ 0x20 ∨ 0x7F ≤ w.toNat) = true := by decide
  apply decide_eq_false
  intro hmem
  have := of_decide_eq_true (List.all_eq_true.mp hall c hmem)
  omega

theorem isTokenChar_visible (h : isTokenChar c = true) :
    c ≠ ';' ∧ c ≠ '"' ∧ c ≠ '\\' ∧ 0x20 < c.toNat ∧ c.toNat < 0x7F := by
  rw [isTokenChar, Bool.or_eq_true] at h
  rcases h with h | h
  · have hrange : 0x20 < c.toNat ∧ c.toNat < 0x7F := by
      simp only [Char.isAlphanum, Char.isAlpha, Char.isUpper, Char.isLower, Char.isDigit,
        Bool.or_eq_true, Bool.and_eq_true, decide_eq_true_eq, UInt32.le_iff_toNat_le, ge_iff_le] at h
      have : c.toNat = c.val.toNat := rfl
      have : 'A'.val.toNat = 65 := rfl
      have : 'a'.val.toNat = 97 := rfl
      have : '0'.val.toNat = 48 := rfl
      have : 'Z'.val.toNat = 90 := rfl
      have : 'z'.val.toNat = 122 := rfl
      have : '9'.val.toNat = 57 := rfl
      omega
    refine ⟨?_, ?_, ?_, hrange⟩
    · rintro rfl
      revert h
      decide
    · rintro rfl
      revert h
      decide
    · rintro rfl
      revert h
      decide
  · have hmarks : ("!#$%&'*+-.^_`|~".toList.all fun c =>
        c ≠ ';' ∧ c ≠ '"' ∧ c ≠ '\\' ∧ 0x20 < c.toNat ∧ c.toNat < 0x7F) = true := by decide
    exact of_decide_eq_true (List.all_eq_true.mp hmarks c (of_decide_eq_true h))

def IsName (name : String) : Prop :=
  name ≠ "" ∧ ∀ c ∈ name.toList, c ≠ ';' ∧ c ≠ '"' ∧ c ≠ '\\' ∧ 0x20 < c.toNat ∧ c.toNat < 0x7F

variable {name : String}

theorem IsToken.isName (h : IsToken name) : IsName name :=
  ⟨h.1, fun c hc => isTokenChar_visible (h.2 c hc)⟩

theorem isName_covered (body : Bytes) : ∀ name ∈ coveredNames body, IsName name := by
  have hall : (["@method", "@target-uri", "@created", "@expires", "content-digest"].all fun name =>
      name ≠ "" ∧ (name.toList.all fun c =>
        c ≠ ';' ∧ c ≠ '"' ∧ c ≠ '\\' ∧ 0x20 < c.toNat ∧ c.toNat < 0x7F) = true) = true := by decide
  intro name hname
  have hmem : name ∈ ["@method", "@target-uri", "@created", "@expires", "content-digest"] := by
    rw [coveredNames] at hname
    split_ifs at hname
    · exact hname
    · rw [List.append_nil] at hname
      exact List.mem_append_left ["content-digest"] hname
  have h := of_decide_eq_true (List.all_eq_true.mp hall name hmem)
  exact ⟨h.1, fun c hc => of_decide_eq_true (List.all_eq_true.mp h.2 c hc)⟩

theorem IsName.escape (h : IsName name) : Chars.escape p name.toList = name.toList :=
  Chars.escape_plain fun c hc =>
    plain_ascii (h.2 c hc).2.1 (h.2 c hc).2.2.1 (by have := h.2 c hc; omega)

theorem IsName.trim (h : IsName name) : Chars.trim '"' (quotedName name) = name.toList := by
  have hquote : ∀ c ∈ name.toList, c ≠ '"' := fun c hc => (h.2 c hc).2.1
  cases hname : name.toList with
  | nil => exact absurd (String.toList_eq_nil_iff.mp hname) h.1
  | cons c cs =>
    rw [hname, List.forall_mem_cons] at hquote
    rw [quotedName, hname, Chars.trim_quoted hquote.1, List.rdropWhile_eq_self_iff.mpr]
    intro hne
    simpa using hquote.2 _ (List.getLast_mem hne)

def componentList (names : List String) : List Char := [' '].intercalate (names.map quotedName)

theorem toList_coveredComponents (body : Bytes) :
    (coveredComponents body).toList = componentList (coveredNames body) := by
  unfold coveredComponents coveredNames
  by_cases hbody : body = []
  · simp only [hbody, ne_eq, not_true_eq_false, if_false]
    decide
  · simp only [hbody, ne_eq, not_false_eq_true, if_true]
    decide

theorem componentList_append (name : String) (names more : List String) :
    componentList (name :: names ++ more) =
      componentList (name :: names) ++ (more.map quotedName).flatMap (' ' :: ·) := by
  rw [componentList, componentList, List.map_append, List.map_cons, List.cons_append, intercalate_blank,
    intercalate_blank, List.flatMap_append, List.append_assoc]

variable {extra : List ExtraComponent} {names : List String}

theorem toList_components (body : Bytes) (h : ∀ e ∈ extra, IsName e.name) :
    (coveredComponents body ++ String.join (extra.map fun c => " " ++ quote p c.name)).toList =
      componentList (coveredNames body ++ extra.map ExtraComponent.name) := by
  have hextra : (String.join (extra.map fun c => " " ++ quote p c.name)).toList =
      ((extra.map ExtraComponent.name).map quotedName).flatMap (' ' :: ·) := by
    rw [String.toList_join, List.flatMap_map, List.flatMap_map, List.flatMap_map]
    apply List.flatMap_congr
    intro e he
    simp [quote, (h e he).escape p, quotedName]
  rw [String.toList_append, toList_coveredComponents, hextra]
  exact (componentList_append _ _ _).symm

theorem componentList_spec (hne : names ≠ []) (h : ∀ name ∈ names, IsName name) :
    ';' ∉ componentList names ∧ (componentList names).head? = some '"' ∧
      (componentList names).getLast? = some '"' := by
  have hquoted : ∀ {name}, IsName name → ';' ∉ quotedName name := by
    intro name hname hmem
    simp only [quotedName, List.cons_append, List.mem_cons, List.mem_append, List.not_mem_nil,
      or_false] at hmem
    rcases hmem with hmem | hmem | hmem
    · exact absurd hmem (by decide)
    · exact (hname.2 _ hmem).1 rfl
    · exact absurd hmem (by decide)
  induction names with
  | nil => exact absurd rfl hne
  | cons name names ih =>
    rw [List.forall_mem_cons] at h
    cases names with
    | nil =>
      have hone : componentList [name] = quotedName name := List.intercalate_singleton
      rw [hone]
      exact ⟨hquoted h.1, rfl, List.getLast?_concat⟩
    | cons other names =>
      obtain ⟨hsemi, -, hlast⟩ := ih (List.cons_ne_nil _ _) h.2
      have hcons : componentList (name :: other :: names) =
          quotedName name ++ ' ' :: componentList (other :: names) := by
        rw [componentList, List.map_cons, List.map_cons, List.intercalate_cons_cons,
          List.append_assoc, List.singleton_append]
        rfl
      rw [hcons]
      refine ⟨by simp [hquoted h.1, hsemi], by simp [quotedName], ?_⟩
      rw [List.getLast?_append_of_ne_nil _ (List.cons_ne_nil _ _), List.getLast?_cons, hlast]
      rfl

theorem trimSpace_componentList (hne : names ≠ []) (h : ∀ name ∈ names, IsName name) :
    Chars.trimSpace (componentList names) = componentList names := by
  obtain ⟨-, hhead, hlast⟩ := componentList_spec hne h
  have hquote : Chars.isSpace '"' = false := by decide
  apply Chars.trimSpace_of_ends
  · simp [hhead, hquote]
  · simp [hlast, hquote]

theorem parseComponentList_written (hne : names ≠ []) (h : ∀ name ∈ names, IsName name) :
    parseComponentList (componentList names) = names := by
  rw [parseComponentList, trimSpace_componentList hne h, componentList, Chars.fields_intercalate,
    List.map_map]
  · calc names.map _ = names.map id := List.map_congr_left fun name hname => by
          rw [Function.comp_apply, (h name hname).trim, String.ofList_toList, id]
      _ = names := List.map_id names
  · intro w hw
    obtain ⟨name, hname, rfl⟩ := List.mem_map.mp hw
    refine ⟨by simp [quotedName], fun c hc => ?_⟩
    simp only [quotedName, List.cons_append, List.mem_cons, List.mem_append, List.not_mem_nil,
      or_false] at hc
    rcases hc with rfl | hc | rfl
    · decide
    · exact isSpace_visible (by have := (h name hname).2 c hc; omega)
    · decide

theorem trim_quote {s : String} {cs : List Char} (hs : s.toList = c :: cs) (hc : Chars.Plain p c) :
    Chars.trim '"' (quote p s).toList = (Chars.escape p s.toList).rdropWhile (· = '"') ∧
      Chars.trim '"' (quote p s).toList ≠ [] := by
  have hescape : Chars.escape p s.toList = c :: Chars.escape p cs := by
    rw [hs, Chars.escape, List.flatMap_cons, Chars.quoteChar_plain hc]
    rfl
  have htrim : Chars.trim '"' (quote p s).toList = c :: (Chars.escape p cs).rdropWhile (· = '"') := by
    rw [quote, hescape, ← Chars.trim_quoted hc.1]
    simp
  rw [htrim, hescape, Chars.rdropWhile_cons_of_neg (by simpa using hc.1)]
  exact ⟨rfl, List.cons_ne_nil _ _⟩

theorem parse_written_iff {keyID components nonce : String} {created expires : Int}
    (hkey : ∃ c cs, keyID.toList = c :: cs ∧ Chars.Plain p c) (hnames : names ≠ [])
    (hname : ∀ name ∈ names, IsName name) (hcomponents : components.toList = componentList names)
    (hnonce : IsWord nonce.toList) (hcreated : -2 ^ 63 ≤ created ∧ created < 2 ^ 63)
    (hexpires : -2 ^ 63 ≤ expires ∧ expires < 2 ^ 63) :
    parseSignatureInput (signatureInputText components (quote p keyID) created expires nonce) =
        .ok { keyID := keyID, created := created, expires := expires, nonce := nonce,
              components := names } ↔
      ∀ c ∈ keyID.toList, c ≠ ';' ∧ Chars.Plain p c := by
  obtain ⟨first, cs, hcs, hfirst⟩ := hkey
  obtain ⟨htrim, hempty⟩ := trim_quote p hcs hfirst
  obtain ⟨hsemi, hhead, -⟩ := componentList_spec hnames hname
  have htext := trimSpace_componentList hnames hname
  have hne : componentList names ≠ [] := by
    intro hnil
    rw [hnil] at hhead
    cases hhead
  have hlast : ∀ c ∈ (quote p keyID).toList.getLast?, Chars.isSpace c = false := by
    intro c hc
    have hquote : (quote p keyID).toList = ('"' :: Chars.escape p keyID.toList) ++ ['"'] := by
      simp [quote]
    rw [hquote, List.getLast?_concat] at hc
    cases hc
    decide
  have hiff : ∀ {si}, ';' ∉ keyID.toList →
      (parseSignatureInput (signatureInputText components (quote p keyID) created expires nonce) =
        .ok si ↔
        si = { keyID := String.ofList ((Chars.escape p keyID.toList).rdropWhile (· = '"'))
               created := created, expires := expires, nonce := nonce, components := names }) := by
    intro si hnot
    have hnotq : ';' ∉ (quote p keyID).toList := by simpa [quote, Chars.semicolon_mem_escape] using hnot
    rw [parse_signatureInputText (by rw [hcomponents]; exact hsemi)
      (by rw [hcomponents, htext]; exact hne) hnotq hlast hnonce hempty, htrim, hcomponents, htext,
      parseComponentList_written hnames hname]
    exact and_iff_right ⟨hcreated, hexpires⟩
  constructor
  · intro hparse
    have hnot : ';' ∉ keyID.toList := parse_keyID_no_semicolon hparse
    have hsame := congrArg SignatureInput.keyID ((hiff hnot).mp hparse)
    have hplain := Chars.trimmed_escape_iff.mp
        (by rw [← String.toList_inj, String.toList_ofList] at hsame; exact hsame.symm)
    exact fun c hc => ⟨fun heq => hnot (heq ▸ hc), hplain c hc⟩
  · intro hall
    have hnot : ';' ∉ keyID.toList := fun hmem => (hall _ hmem).1 rfl
    rw [hiff hnot, Chars.trimmed_escape_iff.mpr fun c hc => (hall c hc).2, String.ofList_toList]

theorem keyID_first (did label : String) : ∃ c cs, (agentKeyID did label).toList = c :: cs ∧
    Chars.Plain p c :=
  ⟨'v', "rl:agent:".toList ++ (did.toList ++ '|' :: label.toList), toList_agentKeyID did label,
    plain_ascii (by decide) (by decide) (by decide)⟩

theorem keyID_readable_iff (did label : String) :
    (∀ c ∈ (agentKeyID did label).toList, c ≠ ';' ∧ Chars.Plain p c) ↔
      ∀ c ∈ did.toList ++ label.toList, c ≠ ';' ∧ Chars.Plain p c := by
  have hscheme : ("vrl:agent:|".toList.all fun c =>
      c ≠ ';' ∧ c ≠ '"' ∧ c ≠ '\\' ∧ 0x20 ≤ c.toNat ∧ c.toNat < 0x7F) = true := by decide
  have hfixed : ∀ c ∈ "vrl:agent:|".toList, c ≠ ';' ∧ Chars.Plain p c := by
    intro c hc
    have h := of_decide_eq_true (List.all_eq_true.mp hscheme c hc)
    exact ⟨h.1, plain_ascii h.2.1 h.2.2.1 h.2.2.2⟩
  have hparts : ∀ c, c ∈ (agentKeyID did label).toList ↔
      c ∈ "vrl:agent:|".toList ∨ c ∈ did.toList ++ label.toList := by
    intro c
    simp only [toList_agentKeyID, agentScheme, List.mem_append, List.mem_cons,
      show "vrl:agent:|".toList = "vrl:agent:".toList ++ ['|'] from rfl, List.not_mem_nil, or_false]
    tauto
  constructor
  · exact fun h c hc => h c ((hparts c).mpr (.inr hc))
  · intro h c hc
    rcases (hparts c).mp hc with hc | hc
    · exact hfixed c hc
    · exact h c hc

theorem isName_components (body : Bytes) (h : ∀ e ∈ extra, IsName e.name) :
    ∀ name ∈ coveredNames body ++ extra.map ExtraComponent.name, IsName name := by
  intro name hmem
  rcases List.mem_append.mp hmem with hmem | hmem
  · exact isName_covered body name hmem
  · obtain ⟨e, he, rfl⟩ := List.mem_map.mp hmem
    exact h e he

theorem isWord_nonceText (random : Bytes) : IsWord (nonceText random).toList := by
  rw [nonceText, String.toList_ofList]
  exact isWord_encodeRawURL random

theorem parse_signWithExtra_iff {keyID : String}
    (hkey : ∃ c cs, keyID.toList = c :: cs ∧ Chars.Plain p c)
    (method targetURI : String) {created expires : Int} (hcreated : -2 ^ 63 ≤ created ∧ created < 2 ^ 63)
    (hexpires : -2 ^ 63 ≤ expires ∧ expires < 2 ^ 63) (body privateKey random : Bytes)
    (hname : ∀ e ∈ extra, IsName e.name) :
    parseSignatureInput
      (signWithExtra p sha scheme method targetURI created expires body keyID privateKey
        random extra).sigInput =
      .ok (signedInput keyID created expires body random (extra.map ExtraComponent.name)) ↔
    ∀ c ∈ keyID.toList, c ≠ ';' ∧ Chars.Plain p c :=
  parse_written_iff p hkey (by simp [coveredNames]) (isName_components body hname)
    (toList_components p body hname) (isWord_nonceText random) hcreated hexpires

theorem sigInput_sign (method targetURI : String) (created expires : Int) (body : Bytes) (keyID : String)
    (privateKey random : Bytes) :
    (sign p sha scheme method targetURI created expires body keyID privateKey random).sigInput =
      (signWithExtra p sha scheme method targetURI created expires body keyID privateKey random
      []).sigInput := by
  change signatureInputText _ _ _ _ _ = signatureInputText (_ ++ "") _ _ _ _
  rw [String.append_empty]

/-- What `Sign` and `SignWithExtra` write is parsed back if and only if the DID and the label have
no semicolon and no character that `%q` escapes. -/
theorem parse_signed_iff (did label method targetURI : String) {created expires : Int}
    (hcreated : -2 ^ 63 ≤ created ∧ created < 2 ^ 63) (hexpires : -2 ^ 63 ≤ expires ∧ expires < 2 ^ 63)
    (body privateKey random : Bytes) {extra : List ExtraComponent}
    (htoken : ∀ e ∈ extra, IsToken e.name) :
    (parseSignatureInput (sign p sha scheme method targetURI created expires body (agentKeyID did label)
          privateKey random).sigInput =
        .ok (signedInput (agentKeyID did label) created expires body random []) ∧
      parseSignatureInput (signWithExtra p sha scheme method targetURI created expires body
          (agentKeyID did label) privateKey random extra).sigInput =
        .ok (signedInput (agentKeyID did label) created expires body random
          (extra.map ExtraComponent.name))) ↔
      ∀ c ∈ did.toList ++ label.toList, c ≠ ';' ∧ Chars.Plain p c := by
  have hnone := parse_signWithExtra_iff p sha scheme (keyID_first p did label) method targetURI hcreated
    hexpires body privateKey random (List.forall_mem_nil _)
  have hsome := parse_signWithExtra_iff p sha scheme (keyID_first p did label) method targetURI hcreated
    hexpires body privateKey random fun e he => (htoken e he).isName
  rw [sigInput_sign, ← keyID_readable_iff]
  constructor
  · exact fun h => hnone.mp h.1
  · exact fun h => ⟨hnone.mpr h, hsome.mpr h⟩

end Written

theorem keyed_isToken : IsToken "idempotency-key" := ⟨by decide, List.all_eq_true.mp (by decide)⟩

theorem parse_signed_iff_keyed :
    parseSignatureInput
      (signWithExtra Chars.asciiOnly zeroSha EdgeProxy.openScheme "GET" "https://a/" 100 400
        [] (agentKeyID "did:web:a" "k1") [] (List.replicate 16 0) [⟨"idempotency-key", "k1"⟩]).sigInput =
      .ok (signedInput (agentKeyID "did:web:a" "k1") 100 400 [] (List.replicate 16 0)
        ["idempotency-key"]) := by
  have htoken : ∀ e ∈ [(⟨"idempotency-key", "k1"⟩ : ExtraComponent)], IsToken e.name :=
    List.forall_mem_singleton.mpr keyed_isToken
  have hplain : (("did:web:a".toList ++ "k1".toList).all fun c =>
      c ≠ ';' ∧ Chars.Plain Chars.asciiOnly c) = true := by decide
  exact ((parse_signed_iff Chars.asciiOnly zeroSha EdgeProxy.openScheme "did:web:a" "k1" "GET" "https://a/"
    (by decide) (by decide) [] [] (List.replicate 16 0) htoken).mpr
    fun c hc => of_decide_eq_true (List.all_eq_true.mp hplain c hc)).2

/-- The part of a DID after a semicolon is lost, and another key id is read. -/
theorem semicolon_cuts_keyID :
    AgentRegistry.new.register ⟨"did:web:a;b", "k1", "AA", []⟩ ≠
      .error "did and key_label are required" ∧
      (parseSignatureInput
      (sign Chars.asciiOnly zeroSha EdgeProxy.openScheme "GET" "https://a/" 100 400 []
        (agentKeyID "did:web:a;b" "k1") [] (List.replicate 16 0)).sigInput).map SignatureInput.keyID =
        .ok "vrl:agent:did:web:a" := by
  refine ⟨?_, by decide +kernel⟩
  rw [AgentRegistry.register, if_neg (by decide)]
  simp

/-! ## What the signed text determines -/

structure SignedRequest where
  method : String
  targetURI : String
  created : Int
  expires : Int
  body : Bytes
  extra : List ExtraComponent

namespace SignedRequest

variable {p : Chars.Printable} {sha : Sha256}

def base (p : Chars.Printable) (sha : Sha256) (t : SignedRequest) : String :=
  buildSignatureBaseWithExtra p sha t.method t.targetURI t.created t.expires t.body t.extra

/-- Texts without line feeds, and extra components under names of their own. -/
structure OneLine (t : SignedRequest) : Prop where
  method : '\n' ∉ t.method.toList
  targetURI : '\n' ∉ t.targetURI.toList
  values : ∀ e ∈ t.extra, '\n' ∉ e.value.toList
  names : ∀ e ∈ t.extra, e.name ∉ derivedComponents

def digestComponent (sha : Sha256) (body : Bytes) : List ExtraComponent :=
  if body ≠ [] then [⟨"content-digest", computeContentDigest sha body⟩] else []

def componentLine (p : Chars.Printable) (e : ExtraComponent) : List Char :=
  '"' :: (Chars.escape p e.name.toList ++ '"' :: ':' :: ' ' :: e.value.toList)

def lines (p : Chars.Printable) (sha : Sha256) (t : SignedRequest) : List (List Char) :=
  ["\"@method\": ".toList ++ t.method.toList, "\"@target-uri\": ".toList ++ t.targetURI.toList,
    "\"@created\": ".toList ++ Chars.decimal t.created,
      "\"@expires\": ".toList ++ Chars.decimal t.expires] ++
    (digestComponent sha t.body ++ t.extra).map (componentLine p)

theorem escape_contentDigest : Chars.escape p "content-digest".toList = "content-digest".toList := by
  have hall : ("content-digest".toList.all fun c =>
      c ≠ '"' ∧ c ≠ '\\' ∧ 0x20 ≤ c.toNat ∧ c.toNat < 0x7F) = true := by decide
  apply Chars.escape_plain
  intro c hc
  have h := of_decide_eq_true (List.all_eq_true.mp hall c hc)
  exact plain_ascii h.1 h.2.1 h.2.2

theorem toList_lineFeed : "\n".toList = ['\n'] := rfl

theorem toList_digest (body : Bytes) :
    (if body ≠ [] then "\"content-digest\": " ++ computeContentDigest sha body ++ "\n" else "").toList =
      ((digestComponent sha body).map (componentLine p)).flatMap (· ++ ['\n']) := by
  have hname : "\"content-digest\": ".toList = '"' :: ("content-digest".toList ++ ['"', ':', ' ']) := rfl
  rw [digestComponent]
  by_cases hbody : body = []
  · simp [hbody]
  · rw [if_pos hbody, if_pos hbody, List.map_singleton, List.flatMap_singleton, componentLine,
      escape_contentDigest, String.toList_append, String.toList_append, hname, toList_lineFeed]
    simp only [List.cons_append, List.append_assoc, List.nil_append]

theorem toList_buildSignatureBase (method targetURI : String) (created expires : Int) (body : Bytes) :
    (buildSignatureBase sha method targetURI created expires body).toList =
      (["\"@method\": ".toList ++ method.toList, "\"@target-uri\": ".toList ++ targetURI.toList,
        "\"@created\": ".toList ++ Chars.decimal created,
          "\"@expires\": ".toList ++ Chars.decimal expires] ++
        (digestComponent sha body).map (componentLine p)).flatMap (· ++ ['\n']) := by
  unfold buildSignatureBase
  rw [List.flatMap_append, ← toList_digest]
  simp only [String.toList_append, List.flatMap_cons, List.flatMap_nil, String.toList_ofList,
    List.append_assoc, List.append_nil, toList_lineFeed]

theorem toList_base (t : SignedRequest) :
    (t.base p sha).toList = (t.lines p sha).flatMap (· ++ ['\n']) := by
  have hextra : (String.join (t.extra.map fun c => quote p c.name ++ ": " ++ c.value ++ "\n")).toList =
      (t.extra.map (componentLine p)).flatMap (· ++ ['\n']) := by
    rw [String.toList_join, List.flatMap_map, List.flatMap_map]
    simp [quote, componentLine]
  rw [base, buildSignatureBaseWithExtra, String.toList_append, hextra, lines, List.map_append,
    ← List.append_assoc, List.flatMap_append, toList_buildSignatureBase]

theorem decimal_inj {n m : Int} (h : Chars.decimal n = Chars.decimal m) : n = m := by
  have hn := Json.numberOfToken_intText n
  rw [← Chars.utf8_decimal, h, Chars.utf8_decimal, Json.numberOfToken_intText] at hn
  cases hn
  rfl

theorem componentLine_inj {d e : ExtraComponent} (h : componentLine p d = componentLine p e) :
    d = e := by
  obtain ⟨hname, hrest⟩ := Chars.escape_quote_inj (List.cons.inj h).2
  obtain ⟨dn, dv⟩ := d
  obtain ⟨en, ev⟩ := e
  cases String.toList_inj.mp hname
  cases String.toList_inj.mp (List.cons.inj (List.cons.inj hrest).2).2
  rfl

theorem newline_computeContentDigest (body : Bytes) : '\n' ∉ (computeContentDigest sha body).toList := by
  have hspace : Chars.isSpace '\n' = true := by decide
  have hword : '\n' ∉ Base64.encodeRawURL (sha.sum body) := by
    intro hmem
    have hnot := (isWord_encodeRawURL _ _ hmem).2.2
    rw [hspace] at hnot
    cases hnot
  simp [computeContentDigest, Sha256.rawURL, hword]

theorem newline_componentLine {e : ExtraComponent} (h : '\n' ∉ e.value.toList) :
    '\n' ∉ componentLine p e := by
  simp [componentLine, Chars.newline_not_mem_escape, h]

theorem newline_decimal (n : Int) : '\n' ∉ Chars.decimal n := by
  intro hmem
  have hdigit := Chars.decimal_chars n _ hmem
  revert hdigit
  decide

theorem OneLine.lines {t : SignedRequest} (h : t.OneLine) : ∀ l ∈ t.lines p sha, '\n' ∉ l := by
  intro l hl
  rw [SignedRequest.lines, List.mem_append, List.map_append, List.mem_append] at hl
  rcases hl with hl | hl | hl
  · simp only [List.mem_cons, List.not_mem_nil, or_false] at hl
    rcases hl with rfl | rfl | rfl | rfl
    · simp [h.method]
    · simp [h.targetURI]
    · simp [newline_decimal]
    · simp [newline_decimal]
  · obtain ⟨e, he, rfl⟩ := List.mem_map.mp hl
    rw [digestComponent] at he
    split_ifs at he
    · rw [List.mem_singleton.mp he]
      exact newline_componentLine (newline_computeContentDigest _)
    · cases he
  · obtain ⟨e, he, rfl⟩ := List.mem_map.mp hl
    exact newline_componentLine (h.values e he)

theorem computeContentDigest_inj {b c : Bytes}
    (h : computeContentDigest sha b = computeContentDigest sha c) : sha.sum b = sha.sum c := by
  rw [computeContentDigest, computeContentDigest, ← String.toList_inj] at h
  simp only [String.toList_append, List.append_cancel_right_eq, List.append_cancel_left_eq,
    Sha256.rawURL, String.toList_ofList] at h
  have hdecode := Base64.decode_encodeRawURL (sha.sum b)
  rw [h, Base64.decode_encodeRawURL, Option.some.injEq] at hdecode
  exact hdecode.symm

/-- The digest is not mistaken for an extra component, nor the other way round. -/
theorem digest_extra_inj {b c : Bytes} {xs ys : List ExtraComponent}
    (hsha : sha.sum b = sha.sum c → b = c) (hxs : ∀ e ∈ xs, e.name ∉ derivedComponents)
    (hys : ∀ e ∈ ys, e.name ∉ derivedComponents)
    (h : digestComponent sha b ++ xs = digestComponent sha c ++ ys) : b = c ∧ xs = ys := by
  have hfirst : ∀ {digest : String} {l : List ExtraComponent},
      (∀ e ∈ (⟨"content-digest", digest⟩ : ExtraComponent) :: l, e.name ∉ derivedComponents) → False :=
    fun hall => hall _ List.mem_cons_self (by simp [derivedComponents])
  by_cases hb : b = []
  · by_cases hc : c = []
    · rw [hb, hc] at h ⊢
      exact ⟨rfl, h⟩
    · rw [digestComponent, digestComponent, if_neg (not_not.mpr hb), if_pos hc, List.nil_append] at h
      rw [h] at hxs
      exact (hfirst hxs).elim
  · by_cases hc : c = []
    · rw [digestComponent, digestComponent, if_pos hb, if_neg (not_not.mpr hc), List.nil_append] at h
      rw [← h] at hys
      exact (hfirst hys).elim
    · rw [digestComponent, digestComponent, if_pos hb, if_pos hc, List.singleton_append,
        List.singleton_append, List.cons.injEq, ExtraComponent.mk.injEq] at h
      exact ⟨hsha (computeContentDigest_inj h.1.2), h.2⟩

theorem base_inj {t u : SignedRequest} (ht : t.OneLine) (hu : u.OneLine)
    (hsha : sha.sum t.body = sha.sum u.body → t.body = u.body) (h : t.base p sha = u.base p sha) :
    t = u := by
  have hlines : t.lines p sha = u.lines p sha := by
    apply Chars.lines_inj ht.lines hu.lines
    rw [← toList_base, ← toList_base, h]
  simp only [lines, List.cons_append, List.nil_append, List.cons.injEq,
    List.append_cancel_left_eq] at hlines
  obtain ⟨hmethod, huri, hcreated, hexpires, hrest⟩ := hlines
  have hcomponents := (List.map_injective_iff.mpr fun _ _ => componentLine_inj) hrest
  obtain ⟨hbody, hextra⟩ := digest_extra_inj hsha ht.names hu.names hcomponents
  obtain ⟨method, uri, created, expires, body, extra⟩ := t
  obtain ⟨method', uri', created', expires', body', extra'⟩ := u
  cases String.toList_inj.mp hmethod
  cases String.toList_inj.mp huri
  cases decimal_inj hcreated
  cases decimal_inj hexpires
  cases hbody
  cases hextra
  rfl

/-- A signature that was not forged verifies nothing but what the holder of the key signed. -/
def Unforged (p : Chars.Printable) (sha : Sha256) (scheme : SignatureScheme)
    (signedBy : Bytes → SignedRequest → Prop) (sigHeader : String) : Prop :=
  ∀ pub message sig, Base64.decode .url false sigHeader.toList = some sig →
    scheme.verify pub message sig = true → ∃ t, signedBy pub t ∧ t.base p sha = message

/-- The signed text determines the request, and whatever the header text, a request that is accepted
was signed with the times and the extra headers that were read from it. The hash is assumed to tell
apart the bodies that occur. -/
theorem accepted_was_signed (p : Chars.Printable) (sha : Sha256) (scheme : SignatureScheme)
    {bodies : Set Bytes} (hsha : Set.InjOn sha.sum bodies) {signedBy : Bytes → SignedRequest → Prop}
    (hsigned : ∀ pub t, signedBy pub t → t.OneLine ∧ t.body ∈ bodies) :
    (∀ t u : SignedRequest, t.OneLine → u.OneLine → t.body ∈ bodies → u.body ∈ bodies →
      t.base p sha = u.base p sha → t = u) ∧
    ∀ (now : Int) (lookupKey : String → Except String Bytes) (getExtraHeader : String → String)
      (sigInputHeader sigHeader method targetURI : String) (body : Bytes),
      '\n' ∉ method.toList → '\n' ∉ targetURI.toList → (∀ name, '\n' ∉ (getExtraHeader name).toList) →
      body ∈ bodies → Unforged p sha scheme signedBy sigHeader →
      verifySignatureInputWithExtra p sha scheme now lookupKey getExtraHeader sigInputHeader sigHeader
        method targetURI body = .ok () →
      ∃ si pub, parseSignatureInput sigInputHeader = .ok si ∧ lookupKey si.keyID = .ok pub ∧
        signedBy pub ⟨method, targetURI, si.created, si.expires, body,
          si.extraComponents getExtraHeader⟩ := by
  have hinj : ∀ t u : SignedRequest, t.OneLine → u.OneLine → t.body ∈ bodies → u.body ∈ bodies →
      t.base p sha = u.base p sha → t = u := fun t u ht hu htb hub h =>
    base_inj ht hu (fun hsum => hsha htb hub hsum) h
  refine ⟨hinj, ?_⟩
  intro now lookupKey get header sigHeader method targetURI body hmethod huri hvalues hbody hunforged hok
  obtain ⟨si, pub, hparse, -, hfound, hverify⟩ := (verifyWithExtra_eq_ok p sha scheme).mp hok
  obtain ⟨sig, hdecode, hsig⟩ := verify_eq_ok scheme hverify
  obtain ⟨t, ht, hbase⟩ := hunforged pub _ sig hdecode hsig
  refine ⟨si, pub, hparse, hfound, ?_⟩
  have hreceived : OneLine
      ⟨method, targetURI, si.created, si.expires, body, si.extraComponents get⟩ := by
    refine ⟨hmethod, huri, ?_, ?_⟩
    · intro e he
      obtain ⟨name, -, rfl⟩ := List.mem_map.mp he
      exact hvalues name
    · intro e he
      obtain ⟨name, hname, rfl⟩ := List.mem_map.mp he
      exact of_decide_eq_true (List.mem_filter.mp hname).2
  rwa [hinj t _ (hsigned pub t ht).1 hreceived (hsigned pub t ht).2 hbody hbase] at ht

def keyedRequest : SignedRequest where
  method := "GET"
  targetURI := "https://a/"
  created := 100
  expires := 400
  body := []
  extra := [⟨"idempotency-key", "k1"⟩]

def keyedHeaders : SignatureHeaders :=
  signWithExtra Chars.asciiOnly zeroSha EdgeProxy.openScheme "GET" "https://a/" 100 400 []
    "vrl:agent:d|l" []
    (List.replicate 16 0) [⟨"idempotency-key", "k1"⟩]

def keyedInput : SignatureInput where
  keyID := "vrl:agent:d|l"
  created := 100
  expires := 400
  nonce := nonceText (List.replicate 16 0)
  components := ["@method", "@target-uri", "@created", "@expires", "idempotency-key"]

theorem signature_keyedHeaders : keyedHeaders.signature = String.ofList (Base64.encodeRawURL
    (EdgeProxy.openScheme.sign [] (keyedRequest.base Chars.asciiOnly zeroSha))) := rfl

theorem accepted_was_signed_keyed :
    ∃ si pub, parseSignatureInput keyedHeaders.sigInput = .ok si ∧
      (.ok (List.replicate 32 0) : Except String Bytes) = .ok pub ∧
      (⟨"GET", "https://a/", si.created, si.expires, [],
        si.extraComponents fun _ => "k1"⟩ : SignedRequest) =
        keyedRequest := by
  have hsigned : ∀ (pub : Bytes) t, t = keyedRequest → t.OneLine ∧ t.body ∈ ({[]} : Set Bytes) := by
    rintro pub t rfl
    refine ⟨⟨by decide, by decide, ?_, ?_⟩, rfl⟩
    · exact List.forall_mem_singleton.mpr (by decide)
    · exact List.forall_mem_singleton.mpr (by decide)
  have hunforged : Unforged Chars.asciiOnly zeroSha EdgeProxy.openScheme (fun _ t => t = keyedRequest)
      keyedHeaders.signature := by
    intro pub message sig hdecode hverify
    have hsig : Base64.decode .url false keyedHeaders.signature.toList =
        some (EdgeProxy.openScheme.sign [] (keyedRequest.base Chars.asciiOnly zeroSha)) := by
      rw [signature_keyedHeaders, String.toList_ofList, Base64.decode_encodeRawURL]
    rw [hsig, Option.some.injEq] at hdecode
    rw [← hdecode] at hverify
    exact ⟨keyedRequest, rfl, Json.utf8_inj (of_decide_eq_true hverify)⟩
  have hplain : ("vrl:agent:d|l".toList.all fun c => c ≠ ';' ∧ Chars.Plain Chars.asciiOnly c) =
      true := by
    decide
  have hparse : parseSignatureInput keyedHeaders.sigInput = .ok keyedInput :=
    (parse_signWithExtra_iff Chars.asciiOnly zeroSha EdgeProxy.openScheme
      ⟨'v', "rl:agent:d|l".toList, rfl,
        plain_ascii (by decide) (by decide) (by decide)⟩ "GET" "https://a/"
      (by decide) (by decide) [] [] (List.replicate 16 0)
      (List.forall_mem_singleton.mpr keyed_isToken.isName)).mpr fun c hc =>
        of_decide_eq_true (List.all_eq_true.mp hplain c hc)
  have hextra : keyedInput.extraComponents (fun _ => "k1") = keyedRequest.extra := by
    simp [SignatureInput.extraComponents, keyedInput, derivedComponents, keyedRequest]
  have haccepted : verifySignatureInputWithExtra Chars.asciiOnly zeroSha EdgeProxy.openScheme 100
      (fun _ => .ok (List.replicate 32 0)) (fun _ => "k1") keyedHeaders.sigInput keyedHeaders.signature
      "GET" "https://a/" [] = .ok () := by
    have hok := verifyWithExtra_of_signed Chars.asciiOnly zeroSha EdgeProxy.openScheme
      (fun _ => .ok (List.replicate 32 0)) (fun _ => "k1") "GET" "https://a/" [] [] hparse
      (show keyedInput.checkWindow 100 = .ok () by decide) rfl
    rw [hextra] at hok
    exact hok
  exact (accepted_was_signed Chars.asciiOnly zeroSha EdgeProxy.openScheme (Set.injOn_singleton _ _)
    hsigned).2 100 (fun _ => .ok (List.replicate 32 0)) (fun _ => "k1") keyedHeaders.sigInput
    keyedHeaders.signature "GET" "https://a/" [] (by decide) (by decide)
    (fun _ => by simp) rfl hunforged haccepted

end SignedRequest

end Verilink.Edge

import Verilink.Client.Acceptance
import Verilink.ControlPlane.Graph
import Verilink.Edge.ExtraComponents

/-!
# The Go and the Node implementation of request signatures

Each side builds the signed text and the two headers in its own way and takes the headers apart with
a parser of its own.
-/

namespace Verilink.Client

open Verilink.Framework Verilink.Edge
open ControlPlane (jsTrim isJsSpace)

/-! ## The verifier of the Node client -/

/-- Finite numbers of JavaScript: `Number(text)`, which is NaN for `none`, and a number in a
template. Natural numbers below `2 ^ 53` are written and read in decimal. -/
structure JsNumbers where
  read : List Char → Option ℚ
  text : ℚ → String
  read_decimal : ∀ n : Int, 0 ≤ n → n < 2 ^ 53 → read (Chars.decimal n) = some (n : ℚ)
  text_integer : ∀ n : Int, 0 ≤ n → n < 2 ^ 53 → text (n : ℚ) = String.ofList (Chars.decimal n)

def JsNumbers.template (num : JsNumbers) : Option ℚ → String
  | none => "NaN"
  | some q => num.text q

structure VerifyResult where
  valid : Bool
  keyid : String
  reason : Option String := none

/-- `value.replace(/^"|"$/g, '')`. -/
def stripQuotes (value : List Char) : List Char :=
  let rest := if value.head? = some '"' then value.tail else value
  if rest.getLast? = some '"' then rest.dropLast else rest

/-- One parameter of the header; what has no equals sign is skipped. -/
def splitParam (part : List Char) : Option (String × List Char) :=
  match Chars.cut '=' part with
  | (_, none) => none
  | (key, some value) =>
    some (jsTrim (String.ofList key), stripQuotes (jsTrim (String.ofList value)).toList)

/-- `params[key]`: a later parameter replaces an earlier one. -/
def paramOf (parts : List (List Char)) (key : String) : Option (List Char) :=
  ((parts.filterMap splitParam).reverse.find? fun kv => kv.1 = key).map Prod.snd

/-- `text.match(/"[^"]+"/g)` without the quotes; the first argument is what was read of the current
name, if there is one. -/
def matchQuoted : Option (List Char) → List Char → List String
  | _, [] => []
  | none, c :: cs => if c = '"' then matchQuoted (some []) cs else matchQuoted none cs
  | some name, c :: cs =>
    if c = '"' then
      if name = [] then matchQuoted (some []) cs
      else String.ofList name :: matchQuoted none cs
    else matchQuoted (some (name ++ [c])) cs

/-- `buildSignatureBase` of times that were read from a header. -/
def baseOfTexts (sha : Sha256) (method targetURI created expires : String) (body : Bytes)
    (extra : List ExtraComponent) : String :=
  "\n".intercalate
    (["\"@method\": " ++ method.toUpper, "\"@target-uri\": " ++ targetURI,
      "\"@created\": " ++ created, "\"@expires\": " ++ expires] ++
      (if 0 < body.length then ["\"content-digest\": " ++ computeContentDigest sha body] else []) ++
      extra.map fun c => "\"" ++ c.name ++ "\": " ++ c.value) ++ "\n"

/-- `verifySignatureInput` of the Node client at the time `now`. -/
def nodeVerify (num : JsNumbers) (sha : Sha256) (scheme : SignatureScheme) (now : Int)
    (lookupKey : String → Option Bytes) (getExtraHeader : Option (String → String))
    (sigInputHeader sigHeader method targetURI : String) (body : Bytes) : VerifyResult :=
  if sigInputHeader = "" ∨ jsTrim sigInputHeader = "" then
    ⟨false, "", some "empty signature-input header"⟩
  else
    let parts := sigInputHeader.toList.splitOn ';'
    let componentsStr := jsTrim (String.ofList (parts.headD []))
    if componentsStr = "" then ⟨false, "", some "missing covered-component list"⟩
    else
      let param := paramOf parts.tail
      let keyid := String.ofList ((param "keyid").getD [])
      if keyid = "" then ⟨false, "", some "missing keyid"⟩
      else
        let created := (param "created").bind num.read
        let expires := (param "expires").bind num.read
        let nonce := (param "nonce").getD []
        if created.any (fun c => c ≠ 0 ∧ (now : ℚ) < c - 30) then
          ⟨false, keyid, some ("signature created in the future: created=" ++ num.template created ++
            " now=" ++ toString now)⟩
        else if expires.any (fun e => e ≠ 0 ∧ e + 30 < (now : ℚ)) then
          ⟨false, keyid, some ("signature expired: expires=" ++ num.template expires ++
            " now=" ++ toString now)⟩
        else if created.any (fun c => c ≠ 0 ∧ expires.any fun e => e ≠ 0 ∧ 300 < e - c) then
          ⟨false, keyid, some "validity window exceeds 300 seconds"⟩
        else if nonce = [] then ⟨false, keyid, some "missing nonce in signature-input"⟩
        else
          let extra := match getExtraHeader with
            | none => []
            | some get =>
              ((matchQuoted none componentsStr.toList).filter (· ∉ derivedComponents)).map fun name =>
                ⟨name, get name⟩
          let sigBase := baseOfTexts sha method targetURI (num.template created) (num.template expires)
            body extra
          match lookupKey keyid with
          | none => ⟨false, keyid, some ("unknown keyid: " ++ keyid)⟩
          | some pub => ⟨scheme.verify pub sigBase (Base64.nodeDecode sigHeader.toList), keyid, none⟩

/-! ## Reading a header with the parser of the Node client -/

variable {s : String} {c : Char}

theorem jsTrim_of_ends (hhead : ∀ c ∈ s.toList.head?, isJsSpace c = false)
    (hlast : ∀ c ∈ s.toList.getLast?, isJsSpace c = false) : jsTrim s = s := by
  have hdrop : ∀ {l : List Char}, (∀ c ∈ l.head?, isJsSpace c = false) → l.dropWhile isJsSpace = l := by
    intro l hl
    cases l with
    | nil => rfl
    | cons c l => exact List.dropWhile_cons_of_neg (by simp [hl c rfl])
  rw [jsTrim, hdrop hhead,
    hdrop (by rwa [List.head?_reverse]), List.reverse_reverse, String.ofList_toList]

theorem isJsSpace_visible (h : 0x20 < c.toNat ∧ c.toNat < 0x7F) : isJsSpace c = false := by
  have hlow : ¬ 0x2000 ≤ c.toNat := by omega
  have hlist : c.toNat ∉ [0x9, 0xA, 0xB, 0xC, 0xD, 0x20, 0xA0, 0x1680, 0x2028, 0x2029, 0x202F, 0x205F,
      0x3000, 0xFEFF] := by
    intro hmem
    simp only [List.mem_cons, List.not_mem_nil, or_false] at hmem
    omega
  simp [isJsSpace, hlist, hlow]

theorem jsTrim_ne_empty (hc : c ∈ s.toList) (h : isJsSpace c = false) :
    jsTrim s ≠ "" := by
  intro hempty
  rw [jsTrim, String.ofList_eq_empty_iff, List.reverse_eq_nil_iff, List.dropWhile_eq_nil_iff] at hempty
  have hall : ∀ d ∈ s.toList.dropWhile isJsSpace, isJsSpace d = true := fun d hd =>
    hempty d (List.mem_reverse.mpr hd)
  have hmem : c ∈ s.toList.takeWhile isJsSpace ++ s.toList.dropWhile isJsSpace := by
    rwa [List.takeWhile_append_dropWhile]
  rcases List.mem_append.mp hmem with hmem | hmem
  · rw [List.mem_takeWhile_imp hmem] at h
    cases h
  · rw [hall c hmem] at h
    cases h

/-- Visible characters of ASCII. -/
def Visible (cs : List Char) : Prop := ∀ c ∈ cs, 0x20 < c.toNat ∧ c.toNat < 0x7F

theorem Visible.jsTrim (h : Visible s.toList) : jsTrim s = s :=
  jsTrim_of_ends (fun c hc => isJsSpace_visible (h c (List.mem_of_head? hc)))
    fun c hc => isJsSpace_visible (h c (List.mem_of_getLast? hc))

variable {v : List Char} {extra : List ExtraComponent}

theorem stripQuotes_of_not_mem (h : '"' ∉ v) : stripQuotes v = v := by
  have hhead : v.head? ≠ some '"' := fun hv => h (List.mem_of_head? hv)
  have hlast : v.getLast? ≠ some '"' := fun hv => h (List.mem_of_getLast? hv)
  rw [stripQuotes, if_neg hhead, if_neg hlast]

theorem stripQuotes_quoted : stripQuotes ('"' :: v ++ ['"']) = v := by
  simp [stripQuotes]

theorem splitParam_written {key : List Char} (hkey : '=' ∉ key) (hname : Visible key)
    (htrim : jsTrim (String.ofList v) = String.ofList v) :
    splitParam (key ++ '=' :: v) = some (String.ofList key, stripQuotes v) := by
  have hvisible : Visible (String.ofList key).toList := by rwa [String.toList_ofList]
  rw [splitParam, Chars.cut_append hkey]
  simp only [hvisible.jsTrim, htrim, String.toList_ofList]

theorem matchQuoted_quotedName {name : String} (h : IsName name) (rest : List Char) :
    matchQuoted none (quotedName name ++ rest) = name :: matchQuoted none rest := by
  have hread : ∀ (cs read : List Char), (∀ c ∈ cs, c ≠ '"') → read ++ cs ≠ [] →
      matchQuoted (some read) (cs ++ '"' :: rest) =
        String.ofList (read ++ cs) :: matchQuoted none rest := by
    intro cs
    induction cs with
    | nil =>
      intro read _ hne
      rw [List.append_nil] at hne ⊢
      rw [List.nil_append, matchQuoted, if_pos rfl, if_neg hne]
    | cons c cs ih =>
      intro read hcs hne
      rw [List.forall_mem_cons] at hcs
      rw [List.cons_append, matchQuoted, if_neg hcs.1, ih (read ++ [c]) hcs.2 (by simp)]
      simp
  have hname := hread name.toList [] (fun c hc => (h.2 c hc).2.1) (by simpa using h.1)
  rw [List.nil_append, String.ofList_toList] at hname
  rw [quotedName, List.cons_append, List.cons_append, matchQuoted, if_pos rfl, List.append_assoc]
  exact hname

theorem matchQuoted_componentList {names : List String} (h : ∀ name ∈ names, IsName name) :
    matchQuoted none (componentList names) = names := by
  cases names with
  | nil => rfl
  | cons name names =>
    rw [List.forall_mem_cons] at h
    rw [componentList, List.map_cons, intercalate_blank, matchQuoted_quotedName h.1]
    congr 1
    induction names with
    | nil => rfl
    | cons other names ih =>
      have hother := List.forall_mem_cons.mp h.2
      rw [List.map_cons, List.flatMap_cons, List.cons_append, matchQuoted, if_neg (by decide),
        matchQuoted_quotedName hother.1, ih ⟨h.1, hother.2⟩]

theorem filter_components (body : Bytes) (h : ∀ e ∈ extra, e.name ∉ derivedComponents) :
    (coveredNames body ++ extra.map ExtraComponent.name).filter (· ∉ derivedComponents) =
      extra.map ExtraComponent.name := by
  have hcovered : ∀ name ∈ coveredNames body, name ∈ derivedComponents := by
    intro name hname
    rw [coveredNames] at hname
    split_ifs at hname
    · exact hname
    · rw [List.append_nil] at hname
      exact List.mem_append_left ["content-digest"] hname
  rw [List.filter_append, List.filter_eq_nil_iff.mpr, List.nil_append, List.filter_eq_self.mpr]
  · intro name hname
    obtain ⟨e, he, rfl⟩ := List.mem_map.mp hname
    exact decide_eq_true (h e he)
  · intro name hname
    simp [hcovered name hname]

theorem map_lookup {get : String → String} (h : ∀ e ∈ extra, get e.name = e.value) :
    ((extra.map ExtraComponent.name).map fun name => (⟨name, get name⟩ : ExtraComponent)) = extra := by
  rw [List.map_map]
  calc extra.map _ = extra.map id := List.map_congr_left fun e he => by
        rw [Function.comp_apply, h e he, id]
    _ = extra := List.map_id extra

/-! ## Both directions -/

/-- The requests that both sides are made for: an upper-case method, times below `2 ^ 53` at most
five minutes apart, and extra components under token names of their own. -/
structure Ordinary (method : String) (created expires : Int) (extra : List ExtraComponent) : Prop where
  token : IsToken method
  upper : ∀ c ∈ method.toList, ¬ (97 ≤ c.toNat ∧ c.toNat ≤ 122)
  first : 0 < created ∧ created < 2 ^ 53
  last : 0 < expires ∧ expires < 2 ^ 53
  window : expires - created ≤ maxValidityWindow
  names : ∀ e ∈ extra, IsToken e.name
  derived : ∀ e ∈ extra, e.name ∉ derivedComponents

def PlainKeyID (keyID : String) : Prop :=
  keyID ≠ "" ∧ ∀ c ∈ keyID.toList, c ≠ ';' ∧ c ≠ '"' ∧ c ≠ '\\' ∧ 0x20 ≤ c.toNat ∧ c.toNat < 0x7F

section Agree

variable (num : JsNumbers) (p : Chars.Printable) (sha : Sha256) (scheme : SignatureScheme)

variable {method targetURI : String} {created expires : Int} {body : Bytes} {extra : List ExtraComponent}

theorem Ordinary.toUpper (h : Ordinary method created expires extra) : method.toUpper = method := by
  rw [String.toUpper, ← String.toList_inj, String.toList_map]
  calc method.toList.map Char.toUpper = method.toList.map id := List.map_congr_left fun c hc => by
        rw [Char.toUpper]
        exact dif_neg (h.upper c hc)
    _ = method.toList := List.map_id _

theorem Ordinary.int64 (h : Ordinary method created expires extra) :
    (-2 ^ 63 ≤ created ∧ created < 2 ^ 63) ∧ -2 ^ 63 ≤ expires ∧ expires < 2 ^ 63 := by
  have := h.first
  have := h.last
  omega

theorem quote_name {name : String} (h : IsName name) : quote p name = "\"" ++ name ++ "\"" := by
  rw [quote, h.escape p, String.ofList_toList]

theorem PlainKeyID.plain {keyID : String} (h : PlainKeyID keyID) :
    ∀ c ∈ keyID.toList, c ≠ ';' ∧ Chars.Plain p c := fun c hc =>
  ⟨(h.2 c hc).1, plain_ascii (h.2 c hc).2.1 (h.2 c hc).2.2.1 (h.2 c hc).2.2.2⟩

theorem PlainKeyID.first {keyID : String} (h : PlainKeyID keyID) :
    ∃ c cs, keyID.toList = c :: cs ∧ Chars.Plain p c := by
  cases hkey : keyID.toList with
  | nil => exact absurd (String.toList_eq_nil_iff.mp hkey) h.1
  | cons c cs => exact ⟨c, cs, rfl, (h.plain p c (by rw [hkey]; exact List.mem_cons_self)).2⟩

theorem PlainKeyID.quote {keyID : String} (h : PlainKeyID keyID) :
    quote p keyID = "\"" ++ keyID ++ "\"" := by
  rw [Edge.quote, Chars.escape_plain fun c hc => (h.plain p c hc).2, String.ofList_toList]

theorem base_agree (h : Ordinary method created expires extra) :
    NodeRequest.buildSignatureBase sha method targetURI created expires body extra =
      buildSignatureBaseWithExtra p sha method targetURI created expires body extra := by
  have hextra : (extra.map fun e => "\"" ++ e.name ++ "\": " ++ e.value ++ "\n") =
      extra.map fun e => quote p e.name ++ ": " ++ e.value ++ "\n" := by
    apply List.map_congr_left
    intro e he
    have hcolon : ∀ x : String, x ++ "\"" ++ ": " = x ++ "\": " := by
      intro x
      rw [String.append_assoc]
      rfl
    rw [quote_name p (h.names e he).isName, hcolon]
  rw [Call.node_buildSignatureBase, h.toUpper, buildSignatureBaseWithExtra, hextra]

variable {now : Int} {si : SignatureInput} {get : String → String} {key : Bytes}
  {headers : SignatureHeaders}
  {quotedKeyID nonce components : String} {lookupKey : String → Option Bytes}

theorem checkWindow_ordinary (h : Ordinary method created expires extra)
    (hcreated : si.created = created) (hexpires : si.expires = expires) (hnonce : si.nonce ≠ "")
    (hnow : created - maxSkewSeconds ≤ now ∧ now ≤ expires + maxSkewSeconds) :
    si.checkWindow now = .ok () := by
  have hc := h.first
  have he := h.last
  have hw := h.window
  simp only [maxSkewSeconds, maxValidityWindow] at hnow hw
  rw [SignatureInput.checkWindow, hcreated, hexpires, maxSkewSeconds, maxValidityWindow,
    wrap64_of_range
      (by omega), wrap64_of_range (by omega), wrap64_of_range (by omega), if_neg (by omega),
    if_neg (by omega), if_neg (by omega), if_neg hnonce]

theorem extraComponents_signed (h : Ordinary method created expires extra)
    (hget : ∀ e ∈ extra, get e.name = e.value)
    (hsi : si.components = coveredNames body ++ extra.map ExtraComponent.name) :
    si.extraComponents get = extra := by
  rw [SignatureInput.extraComponents, hsi, filter_components body h.derived, map_lookup hget]

theorem go_accepts_node (h : Ordinary method created expires extra)
    (hget : ∀ e ∈ extra, get e.name = e.value)
    {issuerDID keyLabel : String} {uuid : Bytes} (huuid : uuid ≠ [])
    (hkey : PlainKeyID (keyID issuerDID keyLabel))
    {signedAt : Int} (hnow : created - maxSkewSeconds ≤ now ∧ now ≤ expires + maxSkewSeconds)
    {lookupKey : String → Except String Bytes}
    (hlookup : lookupKey (keyID issuerDID keyLabel) = .ok (scheme.publicKey key))
    (hheaders : headers = NodeRequest.signRequest sha scheme ⟨targetURI, method, body, created, expires⟩
      issuerDID keyLabel key signedAt uuid extra) :
    verifySignatureInputWithExtra p sha scheme now lookupKey get headers.sigInput
      headers.signature method
      targetURI body = .ok () := by
  have hname : ∀ e ∈ extra, IsName e.name := fun e he => (h.names e he).isName
  have hcreated : (⟨targetURI, method, body, created, expires⟩ : NodeRequest).signedCreated
      signedAt = created :=
    if_neg (by have := h.first; simp only; omega)
  have hexpires : (⟨targetURI, method, body, created, expires⟩ : NodeRequest).signedExpires
      signedAt = expires :=
    if_neg (by have := h.last; simp only; omega)
  have hmethod : (⟨targetURI, method, body, created, expires⟩ : NodeRequest).signedMethod = method := by
    rw [NodeRequest.signedMethod, if_neg h.token.1, h.toUpper]
  have hnonce : IsWord (String.ofList (hexText uuid)).toList := by
    rw [String.toList_ofList]
    exact Call.isWord_hexText uuid
  have hnonempty : String.ofList (hexText uuid) ≠ "" := by
    obtain ⟨b, bs, rfl⟩ := List.exists_cons_of_ne_nil huuid
    simp [hexText]
  have hcomponents : (Call.componentsText body extra).toList =
      componentList (coveredNames body ++ extra.map ExtraComponent.name) := by
    rw [← toList_components p body hname, Call.componentsText]
    congr 3
    apply List.map_congr_left
    intro e he
    rw [quote_name p (hname e he)]
  have hparse :=
    (parse_written_iff p (hkey.first p) (by simp [coveredNames]) (isName_components body hname)
    hcomponents hnonce h.int64.1 h.int64.2).mpr (hkey.plain p)
  rw [hheaders, NodeRequest.signRequest]
  dsimp only
  rw [hcreated, hexpires, hmethod, Call.node_components, base_agree p sha h, ← hkey.quote p]
  have hok := verifyWithExtra_of_signed p sha scheme lookupKey get method targetURI body key hparse
    (checkWindow_ordinary h rfl rfl hnonempty hnow) hlookup
  rw [extraComponents_signed h hget rfl] at hok
  exact hok

theorem paramOf_written (created expires : Int) (htrim : jsTrim quotedKeyID = quotedKeyID)
    (hnonce : jsTrim nonce = nonce) (hquote : '"' ∉ nonce.toList) :
    (writtenParams quotedKeyID created expires nonce).filterMap splitParam =
      [("keyid", stripQuotes quotedKeyID.toList), ("created", Chars.decimal created),
        ("expires", Chars.decimal expires), ("nonce", nonce.toList)] := by
  have hkeys : (["keyid", "created", "expires", "nonce"].all fun key =>
      '=' ∉ key.toList ∧ (key.toList.all fun c => 0x20 < c.toNat ∧ c.toNat < 0x7F) = true) = true := by
    decide
  have hkey : ∀ key ∈ ["keyid", "created", "expires", "nonce"], '=' ∉ key.toList ∧
      Visible key.toList := by
    intro key hmem
    have h := of_decide_eq_true (List.all_eq_true.mp hkeys key hmem)
    exact ⟨h.1, fun c hc => of_decide_eq_true (List.all_eq_true.mp h.2 c hc)⟩
  have hdecimal : ∀ n, Visible (Chars.decimal n) ∧ '"' ∉ Chars.decimal n := by
    intro n
    refine ⟨fun c hc => ?_, fun hmem => (isWord_decimal n _ hmem).2.1 rfl⟩
    rcases Chars.decimal_chars n c hc with hdigit | rfl
    · have := Json.isDigit_bounds hdigit
      omega
    · decide
  have hword : ∀ {key : String} {v : List Char}, key ∈ ["keyid", "created", "expires", "nonce"] →
      jsTrim (String.ofList v) = String.ofList v →
      splitParam (key.toList ++ '=' :: v) = some (key, stripQuotes v) := by
    intro key v hmem hv
    rw [splitParam_written (hkey key hmem).1 (hkey key hmem).2 hv, String.ofList_toList]
  have hnumber : ∀ n, jsTrim (String.ofList (Chars.decimal n)) = String.ofList (Chars.decimal n) :=
    fun n =>
    Visible.jsTrim (by rw [String.toList_ofList]; exact (hdecimal n).1)
  simp only [writtenParams, List.filterMap_cons, List.filterMap_nil, hword (show "keyid" ∈ _ by simp)
      (show jsTrim (String.ofList quotedKeyID.toList) = _ by rw [String.ofList_toList, htrim]),
    hword (show "created" ∈ _ by simp) (hnumber created), hword (show "expires" ∈ _ by simp)
      (hnumber expires),
    hword (show "nonce" ∈ _ by simp)
      (show jsTrim (String.ofList nonce.toList) = _ by rw [String.ofList_toList, hnonce]),
    stripQuotes_of_not_mem (hdecimal _).2, stripQuotes_of_not_mem hquote]

theorem visible_nonceText (random : Bytes) : Visible (nonceText random).toList := by
  have hurl : (Base64.Alphabet.url.chars.all fun c => 0x20 < c.toNat ∧ c.toNat < 0x7F) = true := by
    decide
  intro c hc
  rw [nonceText, String.toList_ofList] at hc
  have hmem : c ∈ Base64.Alphabet.url.chars := by
    simpa [Base64.isURLChar] using Base64.encodeRawURL_chars random c hc
  exact of_decide_eq_true (List.all_eq_true.mp hurl c hmem)

theorem splitOn_signatureInputText {created expires : Int} (hcomponents : ';' ∉ components.toList)
    (hkey : ';' ∉ quotedKeyID.toList) (hnonce : IsWord nonce.toList) :
    (signatureInputText components quotedKeyID created expires nonce).toList.splitOn ';' =
      components.toList :: writtenParams quotedKeyID created expires nonce := by
  have hjoin : (signatureInputText components quotedKeyID created expires nonce).toList =
      [';'].intercalate (components.toList :: writtenParams quotedKeyID created expires nonce) := by
    rw [toList_signatureInputText, writtenParams]
    conv_rhs => rw [List.intercalate_cons_cons, List.append_assoc, List.singleton_append]
  rw [hjoin]
  apply List.splitOn_intercalate ';' _ (List.cons_ne_nil _ _)
  exact List.forall_mem_cons.mpr ⟨hcomponents, not_mem_writtenParams hkey hnonce⟩

theorem nodeVerify_of_parts (get : String → String) {header : String}
    (sigHeader method targetURI : String)
    (body : Bytes) {keyid : String} {params : List (List Char)} {nonce : List Char} {pub : Bytes}
    (hvisible : jsTrim header ≠ "") (hparts : header.toList.splitOn ';' = components.toList :: params)
    (hcomponents : jsTrim components = components ∧ components ≠ "") (hkeyid : keyid ≠ "")
    (hparams : params.filterMap splitParam = [("keyid", keyid.toList),
    ("created", Chars.decimal created),
      ("expires", Chars.decimal expires), ("nonce", nonce)]) (hnonce : nonce ≠ [])
    (hfirst : 0 < created ∧ created < 2 ^ 53) (hlast : 0 < expires ∧ expires < 2 ^ 53)
    (hwindow : expires - created ≤ 300) (hnow : created - 30 ≤ now ∧ now ≤ expires + 30)
    (hlookup : lookupKey keyid = some pub) :
    (nodeVerify num sha scheme now lookupKey (some get) header sigHeader method targetURI body).valid =
      scheme.verify pub (NodeRequest.buildSignatureBase sha method targetURI created expires body
        (((matchQuoted none components.toList).filter (· ∉ derivedComponents)).map fun name =>
          ⟨name, get name⟩)) (Base64.nodeDecode sigHeader.toList) := by
  have hheader : ¬ (header = "" ∨ jsTrim header = "") := by
    rintro (rfl | h)
    · exact hvisible (by decide)
    · exact hvisible h
  have hread : num.read (Chars.decimal created) = some (created : ℚ) ∧
      num.read (Chars.decimal expires) = some (expires : ℚ) :=
    ⟨num.read_decimal _ hfirst.1.le hfirst.2, num.read_decimal _ hlast.1.le hlast.2⟩
  have hearly : ¬ (now : ℚ) < created - 30 := by
    have : ¬ now < created - 30 := by omega
    exact_mod_cast this
  have hlate : ¬ (expires : ℚ) + 30 < now := by
    have : ¬ expires + 30 < now := by omega
    exact_mod_cast this
  have hlong : ¬ (300 : ℚ) < expires - created := by
    have : ¬ 300 < expires - created := by omega
    exact_mod_cast this
  have hp : paramOf params "keyid" = some keyid.toList ∧
      paramOf params "created" = some (Chars.decimal created) ∧
      paramOf params "expires" = some (Chars.decimal expires) ∧ paramOf params "nonce" = some nonce := by
    simp [paramOf, hparams]
  rw [nodeVerify, if_neg hheader]
  simp only [hparts, List.headD_cons, List.tail_cons, String.ofList_toList, hcomponents.1, hp.1, hp.2.1,
    hp.2.2.1, hp.2.2.2, Option.getD_some, Option.bind_some, hread.1, hread.2, Option.any_some,
    if_neg hcomponents.2, if_neg hkeyid, hearly, hlate, hlong, and_false, decide_false,
      Bool.false_eq_true,
    if_false, if_neg hnonce, hlookup, JsNumbers.template, num.text_integer _ hfirst.1.le hfirst.2,
      num.text_integer _ hlast.1.le hlast.2]
  rfl

theorem node_accepts_go (h : Ordinary method created expires extra)
    (hget : ∀ e ∈ extra, get e.name = e.value)
    {keyID : String} {random : Bytes} (hrandom : random ≠ []) (hkey : PlainKeyID keyID)
    (hnow : created - maxSkewSeconds ≤ now ∧ now ≤ expires + maxSkewSeconds)
    (hlookup : lookupKey keyID = some (scheme.publicKey key))
    (hheaders : headers = signWithExtra p sha scheme method targetURI created expires body keyID key
      random extra) :
    (nodeVerify num sha scheme now lookupKey (some get) headers.sigInput headers.signature method
      targetURI body).valid = true := by
  have hname : ∀ e ∈ extra, IsName e.name := fun e he => (h.names e he).isName
  have hnames := isName_components body hname
  have hlist := toList_components p body hname
  obtain ⟨hsemi, hhead, hlast⟩ := componentList_spec (by simp [coveredNames]) hnames
  have hquote : isJsSpace '"' = false := by decide
  have hkeyText : (quote p keyID).toList = '"' :: keyID.toList ++ ['"'] := by
    rw [hkey.quote p]
    simp
  have hkeySemi : ';' ∉ (quote p keyID).toList := by
    rw [hkeyText]
    simp only [List.cons_append, List.mem_cons, List.mem_append, List.not_mem_nil, or_false]
    rintro (h | h | h)
    · exact absurd h (by decide)
    · exact (hkey.2 _ h).1 rfl
    · exact absurd h (by decide)
  have hkeyTrim : jsTrim (quote p keyID) = quote p keyID := by
    apply jsTrim_of_ends
    · rw [hkeyText]
      simp [hquote]
    · rw [hkeyText, List.getLast?_concat]
      simp [hquote]
  have hnonceText := visible_nonceText random
  have hnonceQuote : '"' ∉ (nonceText random).toList :=
    fun hmem => (isWord_nonceText random _ hmem).2.1 rfl
  have hnonceNe : (nonceText random).toList ≠ [] := by
    rw [nonceText, String.toList_ofList]
    exact Base64.encodeRawURL_ne_nil _ hrandom
  have hstrip : stripQuotes (quote p keyID).toList = keyID.toList := by rw [hkeyText, stripQuotes_quoted]
  generalize hcomps : coveredComponents body ++ String.join
    (extra.map fun c => " " ++ quote p c.name) = comps
    at hlist
  have hsplit : (signatureInputText comps (quote p keyID) created expires
      (nonceText random)).toList.splitOn ';' =
      comps.toList :: _ :=
    splitOn_signatureInputText (by rw [hlist]; exact hsemi) hkeySemi (isWord_nonceText random)
  have hcompsNe : comps ≠ "" := by
    rintro rfl
    rw [← hlist] at hhead
    cases hhead
  have hcompsTrim : jsTrim comps = comps := by
    apply jsTrim_of_ends
    · simp [hlist, hhead, hquote]
    · simp [hlist, hlast, hquote]
  have hvisible : jsTrim
      (signatureInputText comps (quote p keyID) created expires (nonceText random)) ≠ "" := by
    have hmem : '"' ∈
        (signatureInputText comps (quote p keyID) created expires (nonceText random)).toList := by
      rw [toList_signatureInputText, hlist]
      exact List.mem_append_left _ (List.mem_of_head? hhead)
    exact jsTrim_ne_empty hmem hquote
  have hparams := paramOf_written created expires hkeyTrim hnonceText.jsTrim hnonceQuote
  rw [hstrip] at hparams
  have hinput : headers.sigInput =
      signatureInputText comps (quote p keyID) created expires (nonceText random) := by
    rw [hheaders, ← hcomps]
    rfl
  have hsignature : headers.signature = String.ofList (Base64.encodeRawURL (scheme.sign key
      (buildSignatureBaseWithExtra p sha method targetURI created expires body extra))) := by
    rw [hheaders]
    rfl
  rw [hinput, nodeVerify_of_parts num sha scheme get _ method targetURI body hvisible hsplit
    ⟨hcompsTrim, hcompsNe⟩ hkey.1 hparams hnonceNe h.first h.last h.window hnow hlookup, hlist,
    matchQuoted_componentList hnames, filter_components body h.derived, map_lookup hget,
      base_agree p sha h,
    hsignature, String.toList_ofList, Base64.nodeDecode_encodeRawURL]
  exact scheme.verify_sign key _

/-- For ordinary requests both sides build the same text, and each accepts what the other signs
while the signature is valid. -/
theorem clients_agree (h : Ordinary method created expires extra) {get : String → String}
    (hget : ∀ e ∈ extra, get e.name = e.value) {now : Int}
    (hnow : created - maxSkewSeconds ≤ now ∧ now ≤ expires + maxSkewSeconds) (key : Bytes)
    {random : Bytes} (hrandom : random.length = 16) :
    NodeRequest.buildSignatureBase sha method targetURI created expires body extra =
        buildSignatureBaseWithExtra p sha method targetURI created expires body extra ∧
      (∀ (issuerDID keyLabel : String) (signedAt : Int) (lookupKey : String → Except String Bytes),
        PlainKeyID (keyID issuerDID keyLabel) →
        lookupKey (keyID issuerDID keyLabel) = .ok (scheme.publicKey key) →
        ∀ headers, headers =
          NodeRequest.signRequest sha scheme ⟨targetURI, method, body, created, expires⟩
          issuerDID keyLabel key signedAt random extra →
        verifySignatureInputWithExtra p sha scheme now lookupKey get headers.sigInput headers.signature
          method targetURI body = .ok ()) ∧
      ∀ (keyID : String) (lookupKey : String → Option Bytes), PlainKeyID keyID →
        lookupKey keyID = some (scheme.publicKey key) →
        ∀ headers, headers =
          signWithExtra p sha scheme method targetURI created expires body keyID key random
          extra →
        (nodeVerify num sha scheme now lookupKey (some get) headers.sigInput headers.signature method
          targetURI body).valid = true := by
  have hne : random ≠ [] := by
    rintro rfl
    cases hrandom
  refine ⟨base_agree p sha h, ?_, ?_⟩
  · intro issuerDID keyLabel signedAt lookupKey hkey hlookup headers hheaders
    exact go_accepts_node p sha scheme h hget hne hkey hnow hlookup hheaders
  · intro keyID lookupKey hkey hlookup headers hheaders
    exact node_accepts_go num p sha scheme h hget hne hkey hnow hlookup hheaders

end Agree

/-- Numbers of 64 bits. -/
def int64Numbers : JsNumbers where
  read cs := (Chars.parseInt64 cs).map fun n : Int => (n : ℚ)
  text q := String.ofList (Chars.decimal q.num)
  read_decimal n hlo hhi := by
    rw [Chars.parseInt64_decimal, Option.filter_some, if_pos (by simp; omega), Option.map_some]
  text_integer n _ _ := by rw [Rat.num_intCast]

theorem ordinary_keyed : Ordinary "GET" 100 400 [⟨"idempotency-key", "k1"⟩] where
  token := ⟨by decide, List.all_eq_true.mp (by decide)⟩
  upper := fun c hc => of_decide_eq_true (List.all_eq_true.mp
    (show ("GET".toList.all fun c => ¬ (97 ≤ c.toNat ∧ c.toNat ≤ 122)) = true by decide) c hc)
  first := by decide
  last := by decide
  window := by decide
  names := List.forall_mem_singleton.mpr keyed_isToken
  derived := List.forall_mem_singleton.mpr (by decide)

theorem clients_agree_keyed :
    (nodeVerify int64Numbers zeroSha EdgeProxy.openScheme 200 (fun _ => some (List.replicate 32 0))
      (some fun _ => "k1")
      (signWithExtra Chars.asciiOnly zeroSha EdgeProxy.openScheme "GET" "https://a/" 100 400 [] "k" []
        (List.replicate 16 0) [⟨"idempotency-key", "k1"⟩]).sigInput
      (signWithExtra Chars.asciiOnly zeroSha EdgeProxy.openScheme "GET" "https://a/" 100 400 [] "k" []
        (List.replicate 16 0)
        [⟨"idempotency-key", "k1"⟩]).signature "GET" "https://a/" []).valid = true := by
  have hkey : PlainKeyID "k" := ⟨by decide, fun c hc => of_decide_eq_true (List.all_eq_true.mp
    (show ("k".toList.all fun c => c ≠ ';' ∧ c ≠ '"' ∧ c ≠ '\\' ∧ 0x20 ≤ c.toNat ∧ c.toNat < 0x7F) =
      true by
      decide) c hc)⟩
  have hget : ∀ e ∈ [(⟨"idempotency-key", "k1"⟩ : ExtraComponent)],
      (fun _ : String => "k1") e.name = e.value :=
    List.forall_mem_singleton.mpr rfl
  exact (clients_agree int64Numbers Chars.asciiOnly zeroSha EdgeProxy.openScheme ordinary_keyed hget
    (by decide) [] (List.length_replicate)).2.2 "k" (fun _ => some (List.replicate 32 0)) hkey rfl _ rfl

end Verilink.Client

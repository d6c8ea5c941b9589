import Verilink.Edge.Flush
import Verilink.Framework.CharText
import Verilink.Framework.Interleave

/-!
# Signed requests

Package `requestsigin`: the text that is signed, the headers that a signer writes and the check of a
signature.
-/

namespace Verilink.Edge

open Verilink.Framework

def maxSkewSeconds : Int := 30

def maxValidityWindow : Int := 300

/-- What an `int64` holds after an operation that may overflow. -/
def wrap64 (n : Int) : Int := n.bmod (2 ^ 64)

theorem wrap64_of_range {n : Int} (h : -2 ^ 63 ≤ n ∧ n < 2 ^ 63) : wrap64 n = n := by
  unfold wrap64
  apply Int.bmod_eq_of_le <;> omega

structure SignatureInput where
  keyID : String := ""
  created : Int := 0
  expires : Int := 0
  nonce : String := ""
  tag : String := ""
  components : List String := []
  deriving DecidableEq

/-- Ed25519: what a key signs verifies under its public key, which has 32 bytes. -/
structure SignatureScheme where
  publicKey : Bytes → Bytes
  sign : Bytes → String → Bytes
  verify : Bytes → String → Bytes → Bool
  length_publicKey : ∀ key, (publicKey key).length = 32
  verify_sign : ∀ key message, verify (publicKey key) message (sign key message) = true

def Sha256.rawURL (sha : Sha256) (message : Bytes) : String :=
  String.ofList (Base64.encodeRawURL (sha.sum message))

def computeContentDigest (sha : Sha256) (body : Bytes) : String :=
  "sha-256=:" ++ sha.rawURL body ++ ":"

def buildSignatureBase (sha : Sha256) (method targetURI : String) (created expires : Int)
    (body : Bytes) : String :=
  "\"@method\": " ++ method ++ "\n" ++
    "\"@target-uri\": " ++ targetURI ++ "\n" ++
    "\"@created\": " ++ String.ofList (Chars.decimal created) ++ "\n" ++
    "\"@expires\": " ++ String.ofList (Chars.decimal expires) ++ "\n" ++
    if body ≠ [] then "\"content-digest\": " ++ computeContentDigest sha body ++ "\n" else ""

structure ExtraComponent where
  name : String
  value : String

/-- The verb `%q`. -/
def quote (p : Chars.Printable) (s : String) : String :=
  "\"" ++ String.ofList (Chars.escape p s.toList) ++ "\""

def buildSignatureBaseWithExtra (p : Chars.Printable) (sha : Sha256) (method targetURI : String)
    (created expires : Int) (body : Bytes) (extra : List ExtraComponent) : String :=
  buildSignatureBase sha method targetURI created expires body ++
    String.join (extra.map fun c => quote p c.name ++ ": " ++ c.value ++ "\n")

/-! ## Signing -/

/-- The covered components, without the parameters. -/
def coveredComponents (body : Bytes) : String :=
  "\"@method\" \"@target-uri\" \"@created\" \"@expires\"" ++
    if body ≠ [] then " \"content-digest\"" else ""

/-- `%s;keyid=%q;created=%d;expires=%d;nonce=%s`, the key already in its quotes. -/
def signatureInputText (components quotedKeyID : String) (created expires : Int) (nonce : String) :
    String :=
  components ++ ";" ++ ";".intercalate
    ["keyid=" ++ quotedKeyID, "created=" ++ String.ofList (Chars.decimal created),
      "expires=" ++ String.ofList (Chars.decimal expires), "nonce=" ++ nonce]

structure SignatureHeaders where
  sigInput : String
  signature : String

/-- `generateNonce`, from the random bytes it reads. -/
def nonceText (random : Bytes) : String := String.ofList (Base64.encodeRawURL random)

variable (p : Chars.Printable) (sha : Sha256) (scheme : SignatureScheme)

def sign (method targetURI : String) (created expires : Int) (body : Bytes) (keyID : String)
    (privateKey random : Bytes) : SignatureHeaders :=
  let sigBase := buildSignatureBase sha method targetURI created expires body
  { sigInput := signatureInputText (coveredComponents body) (quote p keyID) created expires
      (nonceText random)
    signature := String.ofList (Base64.encodeRawURL (scheme.sign privateKey sigBase)) }

def signWithExtra (method targetURI : String) (created expires : Int) (body : Bytes) (keyID : String)
    (privateKey random : Bytes) (extra : List ExtraComponent) : SignatureHeaders :=
  let sigBase := buildSignatureBaseWithExtra p sha method targetURI created expires body extra
  let components := coveredComponents body ++ String.join (extra.map fun c => " " ++ quote p c.name)
  { sigInput := signatureInputText components (quote p keyID) created expires (nonceText random)
    signature := String.ofList (Base64.encodeRawURL (scheme.sign privateKey sigBase)) }

/-! ## Parsing -/

def parseComponentList (s : List Char) : List String :=
  (Chars.fields (Chars.trimSpace s)).map fun c => String.ofList (Chars.trim '"' c)

namespace SignatureInput

def param (si : SignatureInput) (part : List Char) : Except String SignatureInput :=
  match Chars.cut '=' (Chars.trimSpace part) with
  | (_, none) => .ok si
  | (key, some v) =>
    let val := Chars.trim '"' v
    if key = "keyid".toList then .ok { si with keyID := String.ofList val }
    else if key = "created".toList then
      match Chars.parseInt64 val with
      | none => .error "invalid created"
      | some v => .ok { si with created := v }
    else if key = "expires".toList then
      match Chars.parseInt64 val with
      | none => .error "invalid expires"
      | some v => .ok { si with expires := v }
    else if key = "nonce".toList then .ok { si with nonce := String.ofList val }
    else if key = "tag".toList then .ok { si with tag := String.ofList val }
    else .ok si

def checkWindow (si : SignatureInput) (now : Int) : Except String Unit :=
  if 0 < si.created ∧ now < wrap64 (si.created - maxSkewSeconds) then
    .error ("signature created in the future: created=" ++ toString si.created ++ " now=" ++
      toString now)
  else if 0 < si.expires ∧ wrap64 (si.expires + maxSkewSeconds) < now then
    .error ("signature expired: expires=" ++ toString si.expires ++ " now=" ++ toString now)
  else if 0 < si.created ∧ 0 < si.expires ∧ maxValidityWindow < wrap64 (si.expires - si.created) then
    .error "validity window exceeds 300 seconds"
  else if si.nonce = "" then .error "missing nonce in signature-input"
  else .ok ()

end SignatureInput

def parseSignatureInput (header : String) : Except String SignatureInput :=
  if Chars.trimSpace header.toList = [] then .error "empty signature-input header"
  else
    let parts := Chars.cut ';' header.toList
    let componentsStr := Chars.trimSpace parts.1
    if componentsStr = [] then .error "missing covered-component list in signature-input"
    else
      match parts.2 with
      | none => .error "missing parameters in signature-input"
      | some params => do
        let si ← (params.splitOn ';').foldlM SignatureInput.param
          { components := parseComponentList componentsStr }
        if si.keyID = "" then .error "missing keyid in signature-input" else .ok si

/-! ## Verifying -/

def verify (sigBase sigB64 : String) (pub : Bytes) : Except String Unit :=
  if pub.length ≠ 32 then .error ("invalid public key length: " ++ toString pub.length)
  else
    match Base64.decode .url false sigB64.toList with
    | none => .error "invalid signature encoding: illegal base64 data"
    | some sig =>
      if scheme.verify pub sigBase sig then .ok () else .error "signature verification failed"

/-- A public key and, for the statements, the entry of the snapshot that has it. The program hands
on the bytes only. -/
structure FoundKey where
  raw : Bytes
  entry : Option KeyEntry
  deriving DecidableEq

section Verify

variable {σ : Type} (now : Prog σ Int) (lookupKey : String → Prog σ (Except String FoundKey))

/-- `VerifySignatureInput`. The clock is read before the key is looked up. -/
def verifySignatureInput (sigInputHeader sigHeader method targetURI : String) (body : Bytes) :
    Prog σ (Except String FoundKey) :=
  match parseSignatureInput sigInputHeader with
  | .error err => pure (.error err)
  | .ok si => do
    let now ← now
    match si.checkWindow now with
    | .error err => pure (.error err)
    | .ok () => do
      let sigBase := buildSignatureBase sha method targetURI si.created si.expires body
      match ← lookupKey si.keyID with
      | .error err => pure (.error ("key lookup failed: " ++ err))
      | .ok key => pure ((verify scheme sigBase sigHeader key.raw).map fun () => key)

end Verify

/-! ## Reading back what a signer writes -/

def IsWord (cs : List Char) : Prop := ∀ c ∈ cs, c ≠ ';' ∧ c ≠ '"' ∧ Chars.isSpace c = false

theorem isWord_decimal (n : Int) : IsWord (Chars.decimal n) := by
  have hspace : (Text.whiteSpace.all fun c => c.isDigit = false ∧ c ≠ '-') = true := by decide
  intro c hc
  have hdigit := Chars.decimal_chars n c hc
  refine ⟨?_, ?_, ?_⟩
  · rintro rfl
    revert hdigit
    decide
  · rintro rfl
    revert hdigit
    decide
  · by_contra hsp
    have hmem : c ∈ Text.whiteSpace := by simpa [Chars.isSpace] using hsp
    have hnot := List.all_eq_true.mp hspace c hmem
    simp only [decide_eq_true_eq] at hnot
    rcases hdigit with h | h
    · rw [hnot.1] at h
      cases h
    · exact hnot.2 h

theorem isWord_encodeRawURL (bytes : Bytes) : IsWord (Base64.encodeRawURL bytes) := by
  have hurl : (Base64.Alphabet.url.chars.all fun c =>
      c ≠ ';' ∧ c ≠ '"' ∧ Chars.isSpace c = false) = true := by decide
  intro c hc
  have hmem : c ∈ Base64.Alphabet.url.chars := by
    simpa [Base64.isURLChar] using Base64.encodeRawURL_chars bytes c hc
  simpa using List.all_eq_true.mp hurl c hmem

namespace SignatureInput

variable {v cs : List Char} {si si' : SignatureInput} {n : Int}

theorem cut_written {key : List Char} (hkey : '=' ∉ key)
    (hhead : key.head?.all (!Chars.isSpace ·) = true)
    (hlast : ∀ c ∈ v.getLast?, Chars.isSpace c = false) :
    Chars.cut '=' (Chars.trimSpace (key ++ '=' :: v)) = (key, some v) := by
  have htrim : Chars.trimSpace (key ++ '=' :: v) = key ++ '=' :: v := by
    apply Chars.trimSpace_of_ends
    · cases key with
      | nil =>
        intro c hc
        obtain rfl : '=' = c := by simpa using hc
        decide
      | cons c cs => simpa using hhead
    · intro c hc
      rw [List.getLast?_append_of_ne_nil _ (List.cons_ne_nil _ _)] at hc
      cases v with
      | nil =>
        obtain rfl : '=' = c := by simpa using hc
        decide
      | cons d ds => exact hlast c (by simpa using hc)
  rw [htrim, Chars.cut_append hkey]

theorem param_keyid (si : SignatureInput) (hlast : ∀ c ∈ v.getLast?, Chars.isSpace c = false) :
    si.param ("keyid".toList ++ '=' :: v) =
      .ok { si with keyID := String.ofList (Chars.trim '"' v) } := by
  rw [param, cut_written (by decide) (by decide) hlast]
  simp

theorem IsWord.last (h : IsWord cs) : ∀ c ∈ cs.getLast?, Chars.isSpace c = false :=
  fun c hc => (h c (List.mem_of_getLast? hc)).2.2

theorem IsWord.trim (h : IsWord cs) : Chars.trim '"' cs = cs :=
  Chars.trim_of_not_mem fun hmem => (h _ hmem).2.1 rfl

theorem param_created : si.param ("created".toList ++ '=' :: Chars.decimal n) = .ok si' ↔
      (-2 ^ 63 ≤ n ∧ n < 2 ^ 63) ∧ { si with created := n } = si' := by
  have hword := isWord_decimal n
  rw [param, cut_written (by decide) (by decide) (IsWord.last hword)]
  simp only [IsWord.trim hword, Chars.parseInt64_decimal, Option.filter_some]
  split_ifs with h <;> simp_all

theorem param_expires : si.param ("expires".toList ++ '=' :: Chars.decimal n) = .ok si' ↔
      (-2 ^ 63 ≤ n ∧ n < 2 ^ 63) ∧ { si with expires := n } = si' := by
  have hword := isWord_decimal n
  rw [param, cut_written (by decide) (by decide) (IsWord.last hword)]
  simp only [IsWord.trim hword, Chars.parseInt64_decimal, Option.filter_some]
  split_ifs with h <;> simp_all

theorem param_nonce (si : SignatureInput) {nonce : List Char} (hword : IsWord nonce) :
    si.param ("nonce".toList ++ '=' :: nonce) = .ok { si with nonce := String.ofList nonce } := by
  rw [param, cut_written (by decide) (by decide) (IsWord.last hword)]
  simp [IsWord.trim hword]

end SignatureInput

def writtenParams (quotedKeyID : String) (created expires : Int) (nonce : String) :
    List (List Char) :=
  ["keyid".toList ++ '=' :: quotedKeyID.toList, "created".toList ++ '=' :: Chars.decimal created,
    "expires".toList ++ '=' :: Chars.decimal expires, "nonce".toList ++ '=' :: nonce.toList]

variable {si : SignatureInput} {components quotedKeyID nonce : String} {created expires : Int}

theorem toList_signatureInputText :
    (signatureInputText components quotedKeyID created expires nonce).toList = components.toList ++
      ';' :: [';'].intercalate (writtenParams quotedKeyID created expires nonce) := by
  simp [signatureInputText, writtenParams]

theorem not_mem_writtenParams (hkey : ';' ∉ quotedKeyID.toList) (hnonce : IsWord nonce.toList) :
    ∀ part ∈ writtenParams quotedKeyID created expires nonce, ';' ∉ part := by
  have hdec : ∀ n, ';' ∉ Chars.decimal n := fun n hmem => (isWord_decimal n _ hmem).1 rfl
  have hnon : ';' ∉ nonce.toList := fun hmem => (hnonce _ hmem).1 rfl
  simp [writtenParams, hkey, hdec, hnon]

theorem parse_signatureInputText
    (hcomp : ';' ∉ components.toList) (hne : Chars.trimSpace components.toList ≠ [])
    (hkey : ';' ∉ quotedKeyID.toList)
    (hlast : ∀ c ∈ quotedKeyID.toList.getLast?, Chars.isSpace c = false) (hnonce : IsWord nonce.toList)
    (hempty : Chars.trim '"' quotedKeyID.toList ≠ []) :
    parseSignatureInput (signatureInputText components quotedKeyID created expires nonce) = .ok si ↔
      ((-2 ^ 63 ≤ created ∧ created < 2 ^ 63) ∧ -2 ^ 63 ≤ expires ∧ expires < 2 ^ 63) ∧
        si = { keyID := String.ofList (Chars.trim '"' quotedKeyID.toList)
               created := created
               expires := expires
               nonce := nonce
               components := parseComponentList (Chars.trimSpace components.toList) } := by
  generalize hparts : writtenParams quotedKeyID created expires nonce = parts
  have hsplit : ([';'].intercalate parts).splitOn ';' = parts := by
    subst hparts
    exact List.splitOn_intercalate ';' (not_mem_writtenParams hkey hnonce) (List.cons_ne_nil _ _)
  have htrim : Chars.trimSpace (components.toList ++ ';' :: [';'].intercalate parts) ≠ [] := by
    rw [ne_eq, Chars.trimSpace_eq_nil_iff] at hne ⊢
    exact fun hall => hne fun c hc => hall c (List.mem_append_left _ hc)
  have hname : ∀ cs : List Char, cs ≠ [] → ¬ String.ofList cs = "" := fun cs hcs => by simpa using hcs
  rw [parseSignatureInput, toList_signatureInputText, hparts, if_neg htrim, Chars.cut_append hcomp]
  simp only [if_neg hne, hsplit]
  subst hparts
  unfold writtenParams
  -- the components are only carried along
  generalize parseComponentList (Chars.trimSpace components.toList) = covered
  rw [foldlM_cons_of_ok _ (SignatureInput.param_keyid _ hlast)]
  constructor
  · intro h
    obtain ⟨si', hfold, h⟩ := bind_eq_ok.mp h
    obtain ⟨si₁, hparam, hfold⟩ := foldlM_cons_eq_ok.mp hfold
    obtain ⟨hcreated, rfl⟩ := SignatureInput.param_created.mp hparam
    obtain ⟨si₂, hparam', hfold⟩ := foldlM_cons_eq_ok.mp hfold
    obtain ⟨hexpires, rfl⟩ := SignatureInput.param_expires.mp hparam'
    rw [foldlM_cons_of_ok _ (SignatureInput.param_nonce _ hnonce)] at hfold
    obtain rfl := Except.ok.inj hfold
    rw [if_neg (hname _ hempty), String.ofList_toList] at h
    exact ⟨⟨hcreated, hexpires⟩, (Except.ok.inj h).symm⟩
  · rintro ⟨⟨hcreated, hexpires⟩, rfl⟩
    rw [foldlM_cons_of_ok _ (SignatureInput.param_created.mpr ⟨hcreated, rfl⟩),
      foldlM_cons_of_ok _ (SignatureInput.param_expires.mpr ⟨hexpires, rfl⟩),
      foldlM_cons_of_ok _ (SignatureInput.param_nonce _ hnonce)]
    change (if String.ofList _ = "" then _ else _) = _
    rw [if_neg (hname _ hempty), String.ofList_toList]

theorem SignatureInput.keyID_param {si' : SignatureInput} {part : List Char}
    (h : si.param part = .ok si') :
    si'.keyID = si.keyID ∨ ∃ key v, Chars.cut '=' (Chars.trimSpace part) = (key, some v) ∧
      si'.keyID = String.ofList (Chars.trim '"' v) := by
  rw [param] at h
  split at h
  · cases h
    exact .inl rfl
  · rename_i key v hcut
    dsimp only at h
    split_ifs at h
    · cases h
      exact .inr ⟨key, v, hcut, rfl⟩
    · split at h
      · cases h
      · cases h
        exact .inl rfl
    · split at h
      · cases h
      · cases h
        exact .inl rfl
    all_goals
      cases h
      exact .inl rfl

theorem parse_keyID_no_semicolon {header : String} (h : parseSignatureInput header = .ok si) :
    ';' ∉ si.keyID.toList := by
  rw [parseSignatureInput] at h
  dsimp only at h
  split_ifs at h
  split at h
  · cases h
  · rename_i params _
    obtain ⟨si', hsi', hok⟩ := bind_eq_ok.mp h
    split_ifs at hok
    cases hok
    refine foldlM_ok_of_mem SignatureInput.param (fun si => ';' ∉ si.keyID.toList) _ ?_ _ _
      (by simp) hsi'
    intro si part si' hpart hsi hparam
    rcases SignatureInput.keyID_param hparam with heq | ⟨key, v, hcut, heq⟩
    · rw [heq]
      exact hsi
    · rw [heq, String.toList_ofList]
      intro hmem
      have hv := Chars.sublist_cut (congrArg Prod.snd hcut)
      exact Chars.not_mem_splitOn params part hpart ((Chars.sublist_trimSpace part).subset
        (hv.subset ((Chars.sublist_trim '"' v).subset hmem)))

end Verilink.Edge

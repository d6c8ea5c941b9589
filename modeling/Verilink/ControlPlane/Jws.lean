import Verilink.ControlPlane.AttestationSchema
import Verilink.Framework.JsValue

/-!
# Signed tokens

A JWS in compact form: `preParseJWS` looks at it before the keys are known, `verifyAttestation`
parses it once more, checks the signature with each candidate key and reads the payload.
-/

namespace Verilink.ControlPlane

open Verilink.Framework

/-- What is taken from the runtime: `String(v)` of a value that is no string, `Number(v)` of one
that is no number (`none` for `NaN`), `crypto.verify` on the data, the raw key and the signature,
and the two hashes. -/
structure Node where
  stringOf : Json → String
  numberOf : Json → Option ℚ
  verify : Bytes → List UInt8 → List UInt8 → Bool
  sha256hex : String → String
  computeFactsHash : Json → Except String String
  fracText : Json.FracText

namespace Node

def text (node : Node) : Json → String
  | .str s => s
  | v => node.stringOf v

def number (node : Node) : Json → Option ℚ
  | .int n => some n
  | .frac q => some q
  | v => node.numberOf v

end Node

def isObject : Json → Bool
  | .arr _ => true
  | .obj _ => true
  | _ => false

def isTruthy : Json → Bool
  | .null => false
  | .bool b => b
  | .int n => n ≠ 0
  | .frac q => q ≠ 0
  | .str s => s ≠ ""
  | .arr _ => true
  | .obj _ => true

/-- A property that is neither `undefined` nor `null`; an array has none of these names. -/
def prop (v : Json) (name : String) : Option Json :=
  match v with
  | .obj fields => present fields name
  | _ => none

structure TokenParts where
  headerB64 : List Char
  payloadB64 : List Char
  signatureB64 : List Char
  deriving DecidableEq

def splitToken (token : String) : Option TokenParts :=
  match token.toList.splitOn '.' with
  | [header, payload, signature] => some ⟨header, payload, signature⟩
  | _ => none

def TokenParts.signedInput (p : TokenParts) : List Char := p.headerB64 ++ '.' :: p.payloadB64

def TokenParts.signature (p : TokenParts) : List UInt8 := Base64.nodeDecode p.signatureB64

structure PreParsedJWS where
  header : Json
  payload : Json

def preParseJWS (token : String) : Except String PreParsedJWS := do
  let parts ← orError "jws: expected 3 compact serialization parts" (splitToken token)
  ensure (parts.headerB64.all Base64.isURLChar ∧ parts.payloadB64.all Base64.isURLChar)
    "jws: invalid base64url encoding"
  let header ← orError "jws: invalid JSON in header or payload"
    (Json.jsParse (Base64.nodeDecode parts.headerB64))
  let payload ← orError "jws: invalid JSON in header or payload"
    (Json.jsParse (Base64.nodeDecode parts.payloadB64))
  ensure (isObject header) "jws: header must be an object"
  ensure (isObject payload) "jws: payload must be an object"
  let alg ← orError "jws: header.alg is required" ((prop header "alg").bind jsString)
  ensure (alg ≠ "") "jws: header.alg is required"
  return ⟨header, payload⟩

structure DecodedJws where
  parts : TokenParts
  header : Json
  payload : Json

/-- The text of an error of `JSON.parse` is left out. -/
def parseJws (token : String) : Except String DecodedJws := do
  let parts ← orError "invalid JWS: expected 3 compact parts" (splitToken token)
  let header ← orError "invalid JSON" (Json.jsParse (Base64.nodeDecode parts.headerB64))
  let payload ← orError "invalid JSON" (Json.jsParse (Base64.nodeDecode parts.payloadB64))
  return ⟨parts, header, payload⟩

structure VerifyPayload where
  attestationType : String
  facts : Json
  trustLevelDelta : Option ℚ
  issuedAtUnix : ℚ
  expiresAtUnix : ℚ
  jti : String
  schemaVersion : String
  visibility : Option String
  observationId : String

def propOr (vli : Json) (name other : String) : Option Json := (prop vli name).or (prop vli other)

def readFacts (vli : Json) : Except String Json :=
  match prop vli "facts" with
  | none => .ok (.obj [])
  | some (.str s) =>
    match Json.jsParse (utf8 s) with
    | some v => .ok v
    | none => .error "facts string is not valid JSON"
  | some v => .ok (if isObject v then v else .obj [])

def readDelta (node : Node) (vli : Json) : Except String (Option ℚ) :=
  match propOr vli "trust_level_delta" "trustLevelDelta" with
  | none => .ok none
  | some v =>
    match node.number v with
    | some q => .ok (some q)
    | none => .error "trust_level_delta is not a valid number"

/-- Missing values stay `none` where the caller tells them from their defaults. -/
def toPayload (node : Node) (jwsPayload : Json) : Except String VerifyPayload := do
  let vli := match prop jwsPayload "vli" with
    | some v => if isObject v then v else jwsPayload
    | none => jwsPayload
  let trustLevelDelta ← readDelta node vli
  let facts ← readFacts vli
  return {
    attestationType := ((propOr vli "type" "attestation_type").map node.text).getD ""
    facts := facts
    trustLevelDelta := trustLevelDelta
    issuedAtUnix := ((prop jwsPayload "iat").bind node.number).getD 0
    expiresAtUnix := ((prop jwsPayload "exp").bind node.number).getD 0
    jti := ((prop jwsPayload "jti").map node.text).getD ""
    schemaVersion := ((propOr vli "schema_version" "schemaVersion").map node.text).getD ""
    visibility := (prop vli "visibility").map node.text
    observationId := ((propOr vli "observation_id" "observationId").map node.text).getD "" }

inductive VerifyError
  | invalid (error : String)
  | thrown (message : String)
  deriving DecidableEq

structure VerifyResult where
  verifiedKeyId : String
  issuerId : String
  subjectId : String
  payload : VerifyPayload

structure KeyCandidate where
  keyId : String
  publicKeyRaw : List UInt8
  deriving DecidableEq

/-- `crypto.verify` with a candidate; only raw keys of 32 bytes are tried. -/
def KeyCandidate.verifies (node : Node) (parts : TokenParts) (k : KeyCandidate) : Bool :=
  k.publicKeyRaw.length = 32 &&
    node.verify (utf8 (String.ofList parts.signedInput)) k.publicKeyRaw parts.signature

def propOfNonNull (v : Json) (name : String) : Except VerifyError (Option Json) :=
  match v with
  | .null => .error (.thrown ("Cannot read properties of null (reading '" ++ name ++ "')"))
  | v => .ok (prop v name)

def verifyDecoded (node : Node) (now : Int) (jws : DecodedJws) (candidateKeys : List KeyCandidate) :
    Except VerifyError VerifyResult := do
  let alg := ((← propOfNonNull jws.header "alg").map node.text).getD ""
  ensure (alg = "EdDSA" ∨ alg = "Ed25519") (VerifyError.invalid ("unsupported alg: " ++ alg))
  let issuerId := ((← propOfNonNull jws.payload "iss").map node.text).getD ""
  let subjectId := ((prop jws.payload "sub").map node.text).getD ""
  ensure (issuerId ≠ "") (VerifyError.invalid "JWS missing iss claim")
  ensure (subjectId ≠ "") (VerifyError.invalid "JWS missing sub claim")
  let candidate ← orError (VerifyError.invalid "no candidate key verified the token")
    (candidateKeys.find? (KeyCandidate.verifies node jws.parts))
  let read ← (toPayload node jws.payload).mapError VerifyError.thrown
  ensure (0 < read.expiresAtUnix → ((now / 1000 : Int) : ℚ) < read.expiresAtUnix)
    (VerifyError.invalid ("token expired at " ++ node.stringOf (numberJson read.expiresAtUnix)))
  return ⟨candidate.keyId, issuerId, subjectId, read⟩

def verifyAttestation (node : Node) (now : Int) (token : String) (candidateKeys : List KeyCandidate) :
    Except VerifyError VerifyResult := do
  ensure (token ≠ "") (VerifyError.invalid "jws_token is required")
  ensure (candidateKeys ≠ []) (VerifyError.invalid "no candidate keys provided")
  let jws ← (parseJws token).mapError fun message => VerifyError.invalid ("malformed JWS: " ++ message)
  verifyDecoded node now jws candidateKeys

/-! ## Tokens that an encoder writes -/

def compactToken (header payload : Json) (signatureB64 : List Char) : String :=
  String.ofList (Base64.encodeRawURL (header.print Json.jsEscape Json.noFracs.text) ++
    '.' :: (Base64.encodeRawURL (payload.print Json.jsEscape Json.noFracs.text) ++ '.' :: signatureB64))

theorem dot_notMem_encodeRawURL (bytes : List UInt8) : '.' ∉ Base64.encodeRawURL bytes := by
  intro hmem
  exact absurd (Base64.encodeRawURL_chars bytes '.' hmem) (by decide)

theorem splitToken_compactToken (header payload : Json) {signatureB64 : List Char}
    (hdot : '.' ∉ signatureB64) :
    splitToken (compactToken header payload signatureB64) = some
      ⟨Base64.encodeRawURL (header.print Json.jsEscape Json.noFracs.text),
        Base64.encodeRawURL (payload.print Json.jsEscape Json.noFracs.text), signatureB64⟩ := by
  have htext : (compactToken header payload signatureB64).toList = ['.'].intercalate
      [Base64.encodeRawURL (header.print Json.jsEscape Json.noFracs.text),
        Base64.encodeRawURL (payload.print Json.jsEscape Json.noFracs.text), signatureB64] := by
    simp [compactToken, List.intercalate]
  rw [splitToken, htext,
    List.splitOn_intercalate '.' (by simp [dot_notMem_encodeRawURL, hdot]) (by simp)]

theorem jsParse_encoded {v : Json} (hfrac : Json.fracFree v = true) (hlast : Json.lastMembers v = v) :
    Json.jsParse (Base64.nodeDecode (Base64.encodeRawURL (v.print Json.jsEscape Json.noFracs.text)))
      = some v := by
  have hparse := Json.parse_print (e := Json.jsEscaper) (t := Json.noFracs) v
  rw [Base64.nodeDecode_encodeRawURL, Json.jsParse,
    show v.print Json.jsEscape _ = v.print Json.jsEscaper.escape _
    from rfl, hparse, Json.reread_of_fracFree _ _ hfrac, Option.map_some, hlast]

section Compact

variable {header payload : Json} {signatureB64 : List Char} (hdot : '.' ∉ signatureB64)
  (hheader : Json.fracFree header = true ∧ Json.lastMembers header = header)
  (hpayload : Json.fracFree payload = true ∧ Json.lastMembers payload = payload)

include hdot hheader hpayload

theorem preParseJWS_compactToken {alg : String}
    (hobjects : isObject header = true ∧ isObject payload = true)
    (halg : (prop header "alg").bind jsString = some alg) (hne : alg ≠ "") :
    preParseJWS (compactToken header payload signatureB64) = .ok ⟨header, payload⟩ := by
  rw [preParseJWS, splitToken_compactToken header payload hdot]
  refine bind_eq_ok.mpr ⟨_, rfl, bind_eq_ok.mpr ⟨(), if_pos ?_, ?_⟩⟩
  · exact ⟨List.all_eq_true.mpr (Base64.encodeRawURL_chars _),
      List.all_eq_true.mpr (Base64.encodeRawURL_chars _)⟩
  · rw [jsParse_encoded hheader.1 hheader.2, jsParse_encoded hpayload.1 hpayload.2]
    refine bind_eq_ok.mpr ⟨_, rfl, bind_eq_ok.mpr ⟨_, rfl, ?_⟩⟩
    refine bind_eq_ok.mpr ⟨(), if_pos hobjects.1, bind_eq_ok.mpr ⟨(), if_pos hobjects.2, ?_⟩⟩
    rw [halg]
    exact bind_eq_ok.mpr ⟨alg, rfl, bind_eq_ok.mpr ⟨(), if_pos hne, rfl⟩⟩

theorem parseJws_compactToken :
    parseJws (compactToken header payload signatureB64) = .ok
      ⟨⟨Base64.encodeRawURL (header.print Json.jsEscape Json.noFracs.text),
        Base64.encodeRawURL (payload.print Json.jsEscape Json.noFracs.text),
          signatureB64⟩, header, payload⟩ := by
  rw [parseJws, splitToken_compactToken header payload hdot]
  refine bind_eq_ok.mpr ⟨_, rfl, ?_⟩
  rw [jsParse_encoded hheader.1 hheader.2, jsParse_encoded hpayload.1 hpayload.2]
  rfl

theorem compactToken_ne_empty : compactToken header payload signatureB64 ≠ "" := by
  intro hempty
  have hparse := parseJws_compactToken hdot hheader hpayload
  rw [hempty] at hparse
  cases hparse

theorem compactToken_inj {header' payload' : Json} {signatureB64' : List Char}
    (hdot' : '.' ∉ signatureB64')
    (hheader' : Json.fracFree header' = true ∧ Json.lastMembers header' = header')
    (hpayload' : Json.fracFree payload' = true ∧ Json.lastMembers payload' = payload')
    (h : compactToken header payload signatureB64 = compactToken header' payload' signatureB64') :
    payload = payload' ∧ signatureB64 = signatureB64' := by
  have hparse := parseJws_compactToken hdot hheader hpayload
  rw [h, parseJws_compactToken hdot' hheader' hpayload', Except.ok.injEq] at hparse
  exact ⟨(congrArg DecodedJws.payload hparse).symm,
    (congrArg (fun jws => jws.parts.signatureB64) hparse).symm⟩

end Compact

end Verilink.ControlPlane

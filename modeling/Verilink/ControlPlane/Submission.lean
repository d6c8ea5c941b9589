import Verilink.ControlPlane.Graph
import Verilink.ControlPlane.Jws
import Verilink.ControlPlane.Registry

/-!
# Submitting an attestation

`submitAttestation` up to its transaction: the issuer and its keys, the signature, the schema and
the subject.
-/

namespace Verilink.ControlPlane

open Verilink.Framework

/-- What a submission reads: the tables, the clock in milliseconds, the settings, and the principal
that a legacy DID is mapped to. -/
structure SubmissionView where
  db : Database
  now : Int
  legacy : LegacyConfig
  findOrCreateByLegacyDID : String → String

structure NewAttestation where
  issuerId : String
  subjectId : String
  jwsToken : String
  tokenDigest : String
  visibility : Visibility
  trustDelta : ℚ
  attestationType : String
  observationId : String
  issuedAt : Timestamp
  expiresAt : Option Timestamp
  verifiedKeyId : String
  deriving DecidableEq

def internalError : AppError := ⟨.internal, "Internal server error"⟩

def dateOfUnix (seconds : ℚ) : Timestamp :=
  let ms := seconds * 1000
  if ms < 0 then -⌊-ms⌋ else ⌊ms⌋

namespace Database

def activeAt (k : PrincipalKeyRow) (iat : Timestamp) : Bool :=
  k.revokedAt.isNone && decide (k.validFrom ≤ iat) && k.validUntil.all fun u => decide (iat ≤ u)

def getKeyByKid (db : Database) (principalId keyId : String) (iat : Timestamp) :
    Option PrincipalKeyRow :=
  db.principalKeys.rows.find? fun k => k.principalId = principalId ∧ k.keyId = keyId ∧ activeAt k iat

def getActiveKeysAt (db : Database) (principalId : String) (iat : Timestamp) : List PrincipalKeyRow :=
  (db.principalKeys.rows.filter fun k => k.principalId = principalId ∧ activeAt k iat).insertionSort
    fun a b => a.validFrom ≤ b.validFrom

end Database

def candidateKeys (view : SubmissionView) (issuerId : String) (kid : Option String) (iat : Timestamp) :
    Except AppError (List PrincipalKeyRow) :=
  match kid with
  | some kid =>
    match view.db.getKeyByKid issuerId kid iat with
    | some key => .ok [key]
    | none => .error (badRequest ("unknown key id: " ++ kid ++ " for issuer " ++ issuerId))
  | none => .ok (view.db.getActiveKeysAt issuerId iat)

def schemaVersionOf (view : SubmissionView) (issuerId schemaVersion : String) : Except AppError String :=
  if schemaVersion ≠ "" then .ok schemaVersion
  else if view.legacy.isV0AllowedForIssuer issuerId then .ok "0"
  else .error (badRequest "schema_version is required for native issuers")

def checkNative (isLegacy : Bool) (kid : Option String) (vp : VerifyPayload) : Except AppError Unit := do
  ensure (isLegacy = false → kid.isSome) (badRequest "kid is required for native v1 attestations")
  ensure (isLegacy = false → vp.trustLevelDelta.isSome)
    (badRequest "trust_level_delta is required for native v1 attestations")
  ensure (isLegacy = false → vp.visibility.isSome)
    (badRequest "visibility is required for native v1 attestations")

def schemaAppError (e : SchemaError) : AppError :=
  ⟨if e.expired then .unprocessable else .badRequest, "schema validation failed: " ++ e.message⟩

def checkDelta (attestationType : String) (delta : ℚ) : Except AppError Unit := do
  ensure (-100 ≤ delta ∧ delta ≤ 100) (badRequest "trust_delta must be between -100 and 100")
  ensure (attestationType = "negative_incident" → delta < 0)
    (badRequest "negative_incident must have negative trust_delta")
  ensure (attestationType ≠ "negative_incident" → 0 ≤ delta)
    (badRequest "non-negative_incident must have non-negative trust_delta")

def checkVisibility : Option String → Except AppError Visibility
  | none => .ok .participants
  | some "participants" => .ok .participants
  | some "public" => .ok .isPublic
  | some v => .error (badRequest ("visibility must be 'participants' or 'public', got '" ++ v ++ "'"))

/-- A subject that is not stored yet is created; that does not change its id. -/
def subjectOf (view : SubmissionView) (isLegacy : Bool) (subjectId : String) : Except AppError String :=
  let native := "vrl:p:".toList.isPrefixOf subjectId.toList
  if isLegacy ∧ native = false then .ok (view.findOrCreateByLegacyDID subjectId)
  else if native = false then
    .error (badRequest ("native v1 subject must be vrl:p:<uuid>, got: " ++ subjectId))
  else if uuidTest (subjectId.toList.drop 6) = false then
    .error (badRequest ("native v1 subject has invalid UUID: " ++ subjectId))
  else .ok subjectId

def verifyAppError : VerifyError → AppError
  | .invalid error => badRequest ("signature verification failed: " ++ error)
  | .thrown _ => internalError

def acceptVerified (node : Node) (view : SubmissionView) (token : String) (kid : Option String)
    (result : VerifyResult) : Except AppError NewAttestation := do
  let vp := result.payload
  let schemaVersion ← schemaVersionOf view result.issuerId vp.schemaVersion
  let isLegacy := view.legacy.isV0AllowedForIssuer result.issuerId && schemaVersion = "0"
  checkNative isLegacy kid vp
  (validateSchema node.fracText view.legacy vp.attestationType schemaVersion vp.facts
    result.issuerId).mapError schemaAppError
  let delta := vp.trustLevelDelta.getD 0
  checkDelta vp.attestationType delta
  let visibility ← checkVisibility vp.visibility
  let _ ← (node.computeFactsHash vp.facts).mapError fun message =>
    badRequest ("facts_hash computation failed: " ++ message)
  let subjectId ← subjectOf view isLegacy result.subjectId
  return {
    issuerId := result.issuerId
    subjectId := subjectId
    jwsToken := token
    tokenDigest := node.sha256hex token
    visibility := visibility
    trustDelta := delta
    attestationType := vp.attestationType
    observationId := vp.observationId
    issuedAt := dateOfUnix vp.issuedAtUnix
    expiresAt := if 0 < vp.expiresAtUnix then some (dateOfUnix vp.expiresAtUnix) else none
    verifiedKeyId := result.verifiedKeyId }

/-- Steps 1 to 9 of `submitAttestation`. A time that is no number is an error of the query that gets
it. -/
def prepareAttestation (node : Node) (view : SubmissionView) (token : String) :
    Except AppError NewAttestation := do
  let pre ← (preParseJWS token).mapError fun message => badRequest ("malformed JWS: " ++ message)
  let iss ← orError (badRequest "JWS missing iss claim") ((prop pre.payload "iss").filter isTruthy)
  let iatValue ← orError (badRequest "JWS missing iat claim") ((prop pre.payload "iat").filter isTruthy)
  let issuerId := node.text iss
  let kid := ((prop pre.header "kid").filter isTruthy).map node.text
  ensure (view.db.principals.rows.any fun p => p.id = issuerId)
    (badRequest ("unknown issuer: " ++ issuerId))
  ensure (view.db.issuers.rows.any fun i => i.principalId = issuerId)
    (badRequest ("principal " ++ issuerId ++ " is not an issuer"))
  let iatSeconds ← orError internalError (node.number iatValue)
  let keys ← candidateKeys view issuerId kid (dateOfUnix iatSeconds)
  ensure (keys ≠ []) (badRequest ("no active keys found for issuer " ++ issuerId ++ " at iat"))
  let result ← (verifyAttestation node view.now token
    (keys.map fun k => ⟨k.keyId, k.publicKeyRaw⟩)).mapError verifyAppError
  acceptVerified node view token kid result

end Verilink.ControlPlane

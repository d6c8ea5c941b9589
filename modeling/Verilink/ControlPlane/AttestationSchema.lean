import Verilink.ControlPlane.DecisionIngest

/-!
# The facts of an attestation

`validateSchema`: the types and versions that are known, the size and depth of the facts, and the
fields of each type. How numbers with a fraction are printed is a parameter.
-/

namespace Verilink.ControlPlane

open Verilink.Framework

structure SchemaError where
  message : String
  expired : Bool := false
  deriving DecidableEq

def SUPPORTED_TYPES : List String :=
  ["behavioral", "transaction_summary", "kyb", "security_audit", "negative_incident"]

def SUPPORTED_VERSIONS : List String := ["0", "1"]

def MAX_FACTS_BYTES : Nat := 8192

def MAX_DEPTH : Nat := 4

def MAX_DATA_BYTES : Nat := 4096

/-- The members of an object, by name: of several with one name the last counts. -/
abbrev Facts := List (String × Json)

def typeOf : Json → String
  | .null => "object"
  | .bool _ => "boolean"
  | .int _ => "number"
  | .frac _ => "number"
  | .str _ => "string"
  | .arr _ => "object"
  | .obj _ => "object"

/-- `Buffer.byteLength(JSON.stringify(v), 'utf8')`. -/
def jsonBytes (t : Json.FracText) (v : Json) : Nat := (v.print Json.jsEscape t.text).length

def checkSize (t : Json.FracText) (depth : Nat) (facts : Json) : Except SchemaError Unit :=
  let bytes := jsonBytes t facts
  if MAX_FACTS_BYTES < bytes then
    .error
      { message :=
          "facts exceed " ++ toString MAX_FACTS_BYTES ++ " byte limit (" ++ toString bytes ++ " bytes)" }
  else if MAX_DEPTH < depth then .error { message := "facts exceed max depth " ++ toString MAX_DEPTH }
  else .ok ()

mutual

/-- Only objects and arrays are looked at, the facts themselves being an object. -/
def checkSizeAndDepth (t : Json.FracText) (depth : Nat) : Json → Except SchemaError Unit
  | .arr elems => do
    checkSize t depth (.arr elems)
    checkElems t (depth + 1) elems
  | .obj fields => do
    checkSize t depth (.obj fields)
    checkMembers t (depth + 1) fields
  | _ => .ok ()

def checkElems (t : Json.FracText) (depth : Nat) : List Json → Except SchemaError Unit
  | [] => .ok ()
  | v :: vs => do
    checkSizeAndDepth t depth v
    checkElems t depth vs

def checkMembers (t : Json.FracText) (depth : Nat) : Facts → Except SchemaError Unit
  | [] => .ok ()
  | (_, v) :: ms => do
    checkSizeAndDepth t depth v
    checkMembers t depth ms

end

def present (facts : Facts) (field : String) : Option Json :=
  match member facts field with
  | some .null => none
  | v => v

def requireFields (facts : Facts) (required : List String) (type : String) : Except SchemaError Unit :=
  required.forM fun field =>
    if (present facts field).isSome then .ok ()
    else .error { message := type ++ "@1 missing or null required field: " ++ field }

def requireString (facts : Facts) (field type : String) : Except SchemaError Unit :=
  match present facts field with
  | none => .error { message := type ++ "@1." ++ field ++ " is required and must be a non-null string" }
  | some (.str _) => .ok ()
  | some v => .error { message := type ++ "@1." ++ field ++ " must be a string, got " ++ typeOf v }

def requireNumber (facts : Facts) (field type : String) : Except SchemaError Unit :=
  match present facts field with
  | none => .error { message := type ++ "@1." ++ field ++ " is required and must be a non-null number" }
  | some (.int _) => .ok ()
  | some (.frac _) => .ok ()
  | some v => .error { message := type ++ "@1." ++ field ++ " must be a number, got " ++ typeOf v }

def rejectExtraProperties (facts : Facts) (allowed : List String) (type : String) :
    Except SchemaError Unit :=
  (facts.map Prod.fst).forM fun key =>
    if key ∈ allowed then .ok ()
    else
      .error { message := type ++ "@1: unknown property \"" ++ key ++
        "\" (additionalProperties: false)" }

def TS_FIELDS : List String := ["start", "end", "success_count", "failure_count", "dispute_count"]

def validateTransactionSummary (facts : Facts) : Except SchemaError Unit := do
  requireFields facts TS_FIELDS "transaction_summary"
  requireString facts "start" "transaction_summary"
  requireString facts "end" "transaction_summary"
  requireNumber facts "success_count" "transaction_summary"
  requireNumber facts "failure_count" "transaction_summary"
  requireNumber facts "dispute_count" "transaction_summary"
  rejectExtraProperties facts TS_FIELDS "transaction_summary"

/-- A type whose fields are all texts. -/
def validateTexts (fields : List String) (type : String) (facts : Facts) : Except SchemaError Unit := do
  requireFields facts fields type
  fields.forM fun f => requireString facts f type
  rejectExtraProperties facts fields type

def KYB_FIELDS : List String :=
  ["status", "verifier", "jurisdiction", "verification_timestamp", "expiry_timestamp"]

def validateKyb : Facts → Except SchemaError Unit := validateTexts KYB_FIELDS "kyb"

def AUDIT_FIELDS : List String := ["standard", "result", "auditor", "report_digest", "audit_timestamp"]

def validateSecurityAudit : Facts → Except SchemaError Unit :=
  validateTexts AUDIT_FIELDS "security_audit"

def INCIDENT_FIELDS : List String := ["category", "severity", "occurrence_timestamp", "evidence_digest"]

def validateNegativeIncident : Facts → Except SchemaError Unit :=
  validateTexts INCIDENT_FIELDS "negative_incident"

def checkBehavioral (t : Json.FracText) (key : String) (value : Json) : Except SchemaError Unit :=
  if key = "observation_ts" then .ok ()
  else
    match key, value with
    | "data", .obj fields =>
      let bytes := jsonBytes t (.obj fields)
      if MAX_DATA_BYTES < bytes then
        .error
          { message :=
              "behavioral@1.data exceeds " ++ toString MAX_DATA_BYTES ++ " byte limit (" ++
                toString bytes ++ " bytes)" }
      else .ok ()
    | _, .str _ => .ok ()
    | _, .int _ => .ok ()
    | _, .frac _ => .ok ()
    | _, .bool _ => .ok ()
    | _, v =>
      .error
        { message :=
            "behavioral@1." ++ key ++ " must be a primitive or a \"data\" object, got " ++ typeOf v }

def validateBehavioralV1 (t : Json.FracText) (facts : Facts) : Except SchemaError Unit := do
  if facts = [] then .error { message := "behavioral@1: facts must contain at least one key" }
  requireString facts "observation_ts" "behavioral"
  facts.forM fun f => checkBehavioral t f.1 f.2

/-- The settings for issuers of before: `BEHAVIORAL_V0_ALLOWLIST`, and whether the cutoff has
passed. -/
structure LegacyConfig where
  v0Allowlist : List String
  v0CutoffPassed : Bool

def LegacyConfig.isV0AllowedForIssuer (c : LegacyConfig) (issuerId : String) : Bool :=
  issuerId ∈ c.v0Allowlist

def validateSchema (t : Json.FracText) (c : LegacyConfig) (type schemaVersion : String) (facts : Json)
    (issuerId : String) : Except SchemaError Unit := do
  if type ∉ SUPPORTED_TYPES then .error { message := "Unknown attestation type: " ++ type }
  if schemaVersion ∉ SUPPORTED_VERSIONS then
    .error { message := "Unknown schema version: " ++ schemaVersion }
  match facts with
  | .obj fields =>
    checkSizeAndDepth t 0 (.obj fields)
    if schemaVersion = "0" then
      if type ≠ "behavioral" then
        .error { message := "schema_version 0 is only allowed for behavioral, got " ++ type }
      else if issuerId = "" ∨ c.isV0AllowedForIssuer issuerId = false then
        .error { message := "behavioral@0 is only allowed for allowlisted legacy issuers" }
      else if c.v0CutoffPassed then
        .error { message := "behavioral@0 is no longer accepted (cutoff passed)", expired := true }
      else .ok ()
    else
      match type with
      | "behavioral" => validateBehavioralV1 t fields
      | "transaction_summary" => validateTransactionSummary fields
      | "kyb" => validateKyb fields
      | "security_audit" => validateSecurityAudit fields
      | "negative_incident" => validateNegativeIncident fields
      | _ => .error { message := "Unsupported attestation type: " ++ type }
  | _ => .error { message := "facts must be an object" }

end Verilink.ControlPlane

import Verilink.ControlPlane.SyncLog
import Verilink.Framework.JsonEscape

/-!
# Ingesting decision batches

`assertBatchShape` of `POST /v1/decisions/batch`. A body has the declared TypeScript types. Whether
`Date.parse` accepts a text is a parameter.
-/

namespace Verilink.ControlPlane

open Verilink.Framework

structure DecisionWire where
  walSeq : ℚ
  fingerprint : String
  principalId : Option String
  score : Option ℚ
  blacklisted : Option Bool
  scoreReason : Option String
  action : String
  decidedAt : String
  deriving DecidableEq

structure DecisionBatchWire where
  batchId : String
  firstWalSeq : ℚ
  lastWalSeq : ℚ
  payloadHash : String
  decisions : List DecisionWire

/-! ## `JSON.parse` and the declared types -/

def member (fields : List (String × Json)) (name : String) : Option Json :=
  (fields.reverse.find? fun f => f.1 = name).map Prod.snd

def jsString : Json → Option String
  | .str s => some s
  | _ => none

def jsBool : Json → Option Bool
  | .bool b => some b
  | _ => none

/-- The double nearest to `m`, of two the even one. -/
def nearestDouble (m : Nat) : Nat :=
  let unit := 2 ^ (m.log2 - 52)
  let low := m / unit * unit
  if 2 * (m - low) < unit ∨ (2 * (m - low) = unit ∧ m / unit % 2 = 0) then low else low + unit

def nearMultiples (unit d : Nat) : List Nat :=
  let low := d / unit * unit
  if 2 * (d - low) ≤ unit then [low, low + unit] else [low + unit, low]

/-- The number that `String` writes for the double nearest to `m`: of those with the fewest digits
that are read as this double, the nearest. -/
def writtenBack (m : Nat) : Nat :=
  let d := nearestDouble m
  ((List.range 21).reverse.flatMap fun k => (nearMultiples (10 ^ k) d).filter fun c =>
    nearestDouble c = d).headD d

/-- A number by the value of its text. A batch with an integer that is written back as another one
has another hash and is refused for it. -/
def jsNumber : Json → Option ℚ
  | .int n => if n.natAbs ≤ 2 ^ 53 ∨ writtenBack n.natAbs = n.natAbs then some n else none
  | .frac q => some q
  | _ => none

def optionalMember {α : Type} (read : Json → Option α) (fields : List (String × Json))
    (name : String) : Option (Option α) :=
  match member fields name with
  | none => some none
  | some .null => some none
  | some v => (read v).map some

def DecisionWire.ofJson : Json → Option DecisionWire
  | .obj fields => do
    let walSeq ← (member fields "wal_seq").bind jsNumber
    let fingerprint ← (member fields "fingerprint").bind jsString
    let principalId ← optionalMember jsString fields "principal_id"
    let score ← optionalMember jsNumber fields "score"
    let blacklisted ← optionalMember jsBool fields "blacklisted"
    let scoreReason ← optionalMember jsString fields "score_reason"
    let action ← (member fields "action").bind jsString
    let decidedAt ← (member fields "decided_at").bind jsString
    return ⟨walSeq, fingerprint, principalId, score, blacklisted, scoreReason, action, decidedAt⟩
  | _ => none

def DecisionBatchWire.ofJson : Json → Option DecisionBatchWire
  | .obj fields => do
    let batchId ← (member fields "batch_id").bind jsString
    let firstWalSeq ← (member fields "first_wal_seq").bind jsNumber
    let lastWalSeq ← (member fields "last_wal_seq").bind jsNumber
    let payloadHash ← (member fields "payload_hash").bind jsString
    let decisions ← match member fields "decisions" with
      | some (.arr elems) => elems.mapM DecisionWire.ofJson
      | _ => none
    return ⟨batchId, firstWalSeq, lastWalSeq, payloadHash, decisions⟩
  | _ => none

/-! ## The canonical form -/

def canonicalDecision (d : DecisionWire) : Json :=
  .obj [("wal_seq", numberJson d.walSeq), ("fingerprint", .str d.fingerprint),
    ("principal_id", .str (d.principalId.getD "")), ("score", numberJson (d.score.getD 0)),
    ("blacklisted", .bool (d.blacklisted.getD false)),
    ("score_reason", .str (d.scoreReason.getD "")), ("action", .str d.action),
    ("decided_at", .str d.decidedAt)]

/-- The text of numbers with a fraction does not matter for what an edge sends. -/
def canonicalizeDecisionsJSON (decisions : List DecisionWire) : Bytes :=
  (Json.arr (decisions.map canonicalDecision)).print Json.jsEscape Json.noFracs.text

/-! ## The checks -/

inductive ErrorCode
  | badRequest
  | payloadTooLarge
  | conflict
  | unprocessable
  | internal
  deriving DecidableEq

structure AppError where
  code : ErrorCode
  message : String
  deriving DecidableEq

def badRequest (message : String) : AppError := ⟨.badRequest, message⟩

def isHexChar (c : Char) : Bool := c.isDigit ∨ ('a' ≤ c ∧ c ≤ 'f') ∨ ('A' ≤ c ∧ c ≤ 'F')

def takeHex (n : Nat) (s : List Char) : Option (List Char) :=
  if (s.take n).length = n ∧ (s.take n).all isHexChar then some (s.drop n) else none

def uuidTest (s : List Char) : Bool :=
  (do
    let s ← takeHex 8 s
    let s ← Calendar.expect '-' s
    let s ← takeHex 4 s
    let s ← Calendar.expect '-' s
    let s ← takeHex 4 s
    let s ← Calendar.expect '-' s
    let s ← takeHex 4 s
    let s ← Calendar.expect '-' s
    takeHex 12 s) = some []

def sha256HexTest (s : List Char) : Bool := takeHex 64 s = some []

def zoneTest : List Char → Bool
  | ['Z'] => true
  | c :: s =>
    (c = '+' ∨ c = '-') ∧
      (do
        let (_, s) ← Calendar.takeDigits 2 0 s
        let s ← Calendar.expect ':' s
        Calendar.takeDigits 2 0 s).map Prod.snd = some []
  | [] => false

def dropFraction : List Char → List Char
  | '.' :: s => if (s.takeWhile Calendar.isDigit) = [] then '.' :: s else s.dropWhile Calendar.isDigit
  | s => s

def rfc3339Test (s : List Char) : Bool :=
  (do
    let (_, s) ← Calendar.takeDigits 4 0 s
    let s ← Calendar.expect '-' s
    let (_, s) ← Calendar.takeDigits 2 0 s
    let s ← Calendar.expect '-' s
    let (_, s) ← Calendar.takeDigits 2 0 s
    let s ← Calendar.expect 'T' s
    let (_, s) ← Calendar.takeDigits 2 0 s
    let s ← Calendar.expect ':' s
    let (_, s) ← Calendar.takeDigits 2 0 s
    let s ← Calendar.expect ':' s
    let (_, s) ← Calendar.takeDigits 2 0 s
    return zoneTest (dropFraction s)) = some true

def toLowerCase (s : String) : List Char := s.toList.map Char.toLower

def slice (start stop : Nat) (s : List Char) : List Char := (s.take stop).drop start

def batchIDFromPayloadHash (h : List Char) : List Char :=
  slice 0 8 h ++ '-' :: (slice 8 12 h ++ '-' :: (slice 12 16 h ++ '-' :: (slice 16 20 h ++ '-' ::
    slice 20 32 h)))

section Shape

variable (sha256Hex : Bytes → List Char) (dateParses : String → Bool)

def assertDecision (d : DecisionWire) : Except AppError Unit := do
  ensure (d.action ∈ ["allow", "deny", "passthrough"]) (badRequest ("invalid action " ++ d.action))
  ensure (d.fingerprint ≠ "") (badRequest "fingerprint required")
  ensure (d.walSeq.den = 1 ∧ 1 ≤ d.walSeq) (badRequest "wal_seq must be a positive integer")
  ensure (rfc3339Test d.decidedAt.toList ∧ dateParses d.decidedAt)
    (badRequest "decided_at must be RFC3339 with timezone")

def assertRange (body : DecisionBatchWire) : Except AppError Unit := do
  ensure (body.firstWalSeq.den = 1 ∧ body.lastWalSeq.den = 1)
    (badRequest "first_wal_seq/last_wal_seq must be integers")
  ensure (body.firstWalSeq ≤ body.lastWalSeq) (badRequest "first_wal_seq must be <= last_wal_seq")
  ensure (body.decisions ≠ []) (badRequest "decisions must be a non-empty array")
  ensure (body.decisions.length ≤ 500)
    (AppError.mk .payloadTooLarge "decisions exceeds max batch size 500")
  ensure (body.decisions.head?.map DecisionWire.walSeq = some body.firstWalSeq ∧
      body.decisions.getLast?.map DecisionWire.walSeq = some body.lastWalSeq)
    (badRequest "wal_seq range must match first/last_wal_seq")

def computedHash (body : DecisionBatchWire) : List Char :=
  sha256Hex (canonicalizeDecisionsJSON body.decisions)

def assertBatchShape (body : DecisionBatchWire) : Except AppError Unit := do
  ensure (body.batchId ≠ "" ∧ uuidTest body.batchId.toList) (badRequest "batch_id must be a UUID")
  ensure (body.payloadHash ≠ "" ∧ sha256HexTest body.payloadHash.toList)
    (badRequest "payload_hash must be a 64-char sha256 hex digest")
  assertRange body
  body.decisions.forM (assertDecision dateParses)
  ensure (computedHash sha256Hex body = toLowerCase body.payloadHash)
    (badRequest "payload_hash does not match decisions")
  ensure (toLowerCase body.batchId = batchIDFromPayloadHash (computedHash sha256Hex body))
    (badRequest "batch_id does not match payload_hash")

end Shape

def hashErrors : List AppError :=
  [badRequest "batch_id must be a UUID", badRequest "payload_hash must be a 64-char sha256 hex digest",
   badRequest "payload_hash does not match decisions", badRequest "batch_id does not match payload_hash"]

end Verilink.ControlPlane

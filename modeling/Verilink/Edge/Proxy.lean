import Verilink.Edge.RequestSignature
import Verilink.Edge.Wal
import Verilink.Framework.ReplayCache

/-!
# The proxy

`ServeHTTP` as a program over what the requests, the sync loop and the clock share.
-/

namespace Verilink.Edge

open Verilink.Framework

inductive SyncMode
  | ok
  | degraded
  | stale
  | expired
  deriving DecidableEq

def SyncMode.text : SyncMode → String
  | .ok => ""
  | .degraded => "degraded"
  | .stale => "stale"
  | .expired => "expired"

def second : Int := 1000000000

def evaluateMode (pol : Option Policy) (last : Option Time) (reachable : Bool) (now : Time) : SyncMode :=
  let maxAge := pol.elim 300 fun pol => clampAge pol.maxSnapshotAgeSeconds
  let failOpen := pol.elim false Policy.failOpenExpired
  let last := last.getD zeroTime
  let age := if last = zeroTime then 86400 * second else now - last
  if maxAge * second < age then if failOpen then .expired else .stale
  else if !reachable then .degraded
  else .ok

def requireSignaturesFromPolicy (pol : Option Policy) : Bool :=
  pol.elim false fun pol => pol.unsignedAction = "deny"

structure Verdict where
  allow : Bool
  score : Int
  reason : String
  blacklisted : Bool

def activeThreshold (pol : Option Policy) : Int := pol.elim 50 Policy.threshold

def activeBelow (pol : Option Policy) : String := pol.elim "deny" Policy.belowOrDefault

/-- `AllowByScore`, on the policy and the entry that it loads. -/
def allowByScore (pol : Option Policy) (entry : Option ScoreEntry) : Verdict :=
  let score := entry.elim 0 ScoreEntry.score
  let reason := entry.elim "unknown" ScoreEntry.scoreReason
  if entry.elim false ScoreEntry.blacklisted then ⟨false, score, "blacklisted", true⟩
  else if activeThreshold pol ≤ score then ⟨true, score, reason, false⟩
  else if activeBelow pol = "allow" then ⟨true, score, reason, false⟩
  else ⟨false, score, "below-threshold", false⟩

def maxSignedBodyBytes : Nat := 1048576

/-- The parts of a request that the proxy reads; a header that is not there is empty. The body may
be cut off. -/
structure Request where
  method : String
  host : String
  requestURI : String
  proto : String := "HTTP/1.1"
  tls : Bool := false
  signatureInput : String := ""
  signature : String := ""
  ja4 : String := ""
  userAgent : String := ""
  forwardedProto : String := ""
  forwardedHost : String := ""
  body : Option Bytes := some []

/-- `strings.ToLower`, by what it makes of each character. -/
def lowerText (lower : Char → Char) (s : String) : String := String.ofList (s.toList.map lower)

/-- `fingerprint.Generate` of what the proxy fills in. -/
def requestFingerprint (lower : Char → Char) (sha : Sha256) (r : Request) : String :=
  let headersHash := String.ofList (sha.hex (utf8 ("user-agent:" ++ r.userAgent)))
  String.ofList (sha.hex (Json.marshal (.obj
    ([("headers_hash", .str headersHash)] ++
      omitEmpty (r.ja4 = "") "ja4" (.str (lowerText lower r.ja4)) ++
      omitEmpty (r.proto = "") "protocol" (.str (lowerText lower r.proto))))))

/-- What the proxies of one process share. `consumed` is the history of the nonce cache. -/
structure Shared where
  clock : Time
  store : Store
  reachable : Bool
  nonces : ReplayCache String
  consumed : List ((String × String) × Time)
  wal : Wal

/-- The fields of `EdgeVerifierProxy` that never change. Without a store (`synced = false`) keys
come from the registry, a map from key ids to public keys in base64. `lower` is `unicode.ToLower`.
-/
structure EdgeProxy where
  lower : Char → Char := Char.toLower
  synced : Bool
  hasWal : Bool
  requireSignatures : Bool
  externalBaseURL : String
  registry : String → Option String
  trustStore : Option (String → Int)

/-- For the statements: the key that verified a signature, and the entry whose owner was judged. -/
structure Evidence where
  verifiedBy : FoundKey
  authorisedBy : Option KeyEntry
  deriving DecidableEq

/-- The headers that are set, the error with its status, and the decision that is recorded. -/
structure Response where
  headers : List (String × String)
  error : Option (Nat × String)
  recorded : Option Decision
  evidence : Option Evidence := none

namespace EdgeProxy

variable (p : EdgeProxy) (sha : Sha256) (scheme : SignatureScheme)

def now : Prog Shared Time := .read Shared.clock

def hasSnapshot : Prog Shared Bool :=
  if p.synced then .read fun s => s.store.snapshot.isSome else pure false

def currentMode : Prog Shared SyncMode := do
  let reachable ← .read Shared.reachable
  let now ← now
  if p.synced then
    let pol ← .read fun s => s.store.activePolicy
    let last ← .read fun s => s.store.lastBytes
    pure (evaluateMode pol last reachable now)
  else pure .ok

def registryKey (keyid : String) : Except String FoundKey :=
  match p.registry keyid with
  | none => .error ("key not found: " ++ keyid)
  | some b64 =>
    match Base64.decode .url false b64.toList with
    | none => .error "invalid public key encoding: illegal base64 data"
    | some pub =>
      if pub.length ≠ 32 then
        .error ("invalid public key length: got " ++ toString pub.length ++ ", want 32")
      else .ok ⟨pub, none⟩

def publicKey (keyid : String) : Prog Shared (Except String FoundKey) := do
  let now ← now
  match ← .read fun s => s.store.lookupKey keyid now with
  | none => pure (.error ("key not found or outside validity window: " ++ keyid))
  | some e =>
    if e.publicKeyRaw.length ≠ 32 then pure (.error ("invalid public key length for " ++ keyid))
    else pure (.ok ⟨e.publicKeyRaw, some e⟩)

def lookupPublicKey (keyid : String) : Prog Shared (Except String FoundKey) := do
  if ← p.hasSnapshot then publicKey keyid else pure (p.registryKey keyid)

def buildTargetURI (r : Request) : String :=
  if p.externalBaseURL ≠ "" then p.externalBaseURL ++ r.requestURI
  else
    let scheme := if r.tls then "https" else "http"
    let scheme := if r.forwardedProto ≠ "" then r.forwardedProto else scheme
    let host := if r.forwardedHost ≠ "" then r.forwardedHost else r.host
    scheme ++ "://" ++ host ++ r.requestURI

def nonceKey (id : String × String) : String := id.1 ++ ":" ++ id.2

/-- `NonceCache.CheckAndConsume`. The clock is read before the lock is taken. -/
def checkAndConsume (nonce keyid : String) : Prog Shared Bool := do
  let now ← now
  .update fun s =>
    let r := s.nonces.checkAndConsume now (nonceKey (keyid, nonce))
    (r.1, { s with
      nonces := r.2
      consumed := if r.1 then s.consumed ++ [((keyid, nonce), now)] else s.consumed })

structure Annotation where
  denied : Bool
  reason : String
  principalID : String
  score : Int
  blacklisted : Bool
  headers : List (String × String)
  key : Option KeyEntry := none

def annotateTrust (r : Request) (keyID : String) : Prog Shared Annotation := do
  if ← p.hasSnapshot then
    let now ← now
    match ← .read fun s => s.store.lookupKey keyID now with
    | none => pure ⟨true, "unknown-key", "", 0, false, [], none⟩
    | some key => do
      let pol ← .read fun s => s.store.activePolicy
      let entry ← .read fun s => s.store.lookupScore key.principalId
      let v := allowByScore pol entry
      let headers := [("X-Verilink-Trust-Score", toString v.score),
        ("X-Verilink-Principal", key.principalId)] ++
        if v.reason ≠ "" then [("X-Verilink-Score-Reason", v.reason)] else []
      pure ⟨!v.allow, v.reason, key.principalId, v.score, v.blacklisted, headers, some key⟩
  else
    match p.trustStore with
    | none => pure ⟨false, "", "", 0, false, [], none⟩
    | some trust =>
      let score := trust (requestFingerprint p.lower sha r)
      pure ⟨false, "", "", score, false, [("X-Verilink-Trust-Score", toString score)], none⟩

/-- An error of `Append` is logged and forgotten. -/
def recordDecision (r : Request) (d : Decision) : Prog Shared Unit :=
  if p.hasWal then do
    let d := if d.fingerprint = "" then { d with fingerprint := requestFingerprint p.lower sha r } else d
    let now ← now
    let d := if d.decidedAt = zeroTime then { d with decidedAt := now } else d
    .update fun s => ((), { s with wal := (s.wal.append d s.clock s.clock).1 })
  else pure ()

def outcome (action reason : String) (principalID : String) (score : Int) (blacklisted : Bool) :
    Decision :=
  { principalId := principalID, score := score, blacklisted := blacklisted, scoreReason := reason,
    action := action, decidedAt := zeroTime }

def answer (r : Request) (headers : List (String × String)) (error : Option (Nat × String))
    (d : Decision) (evidence : Option Evidence) : Prog Shared Response := do
  p.recordDecision sha r d
  pure { headers := headers, error := error, recorded := some d, evidence := evidence }

inductive Rejection
  | unreadable
  | invalidSignature
  | replay

/-- The body up to the limit, the header, the signature and the nonce. -/
def authenticate (r : Request) : Prog Shared (Except Rejection (SignatureInput × FoundKey)) :=
  match r.body.filter (·.length ≤ maxSignedBodyBytes), parseSignatureInput r.signatureInput with
  | none, _ => pure (.error .unreadable)
  | some _, .error _ => pure (.error .invalidSignature)
  | some body, .ok si => do
    match ← verifySignatureInput sha scheme (do return (← now) / second) p.lookupPublicKey
        r.signatureInput r.signature r.method (p.buildTargetURI r) body with
    | .error _ => pure (.error .invalidSignature)
    | .ok key =>
      if si.nonce = "" then pure (.ok (si, key))
      else if ← checkAndConsume si.nonce si.keyID then pure (.ok (si, key))
      else pure (.error .replay)

def serveSigned (r : Request) (headers : List (String × String)) : Prog Shared Response := do
  match ← p.authenticate sha scheme r with
  | .error .unreadable =>
    pure
      { headers := headers ++ [("X-Verilink-Auth-Status", "invalid-signature")]
        error := some (400, "Bad Request: unreadable body")
        recorded := none }
  | .error .invalidSignature =>
    p.answer sha r (headers ++ [("X-Verilink-Auth-Status", "invalid-signature")])
      (some (401, "Unauthorized: Invalid HTTP Message Signature"))
      (outcome "deny" "invalid-signature" "" 0 false) none
  | .error .replay =>
    p.answer sha r (headers ++ [("X-Verilink-Auth-Status", "replay-detected")])
      (some (401, "Unauthorized: Replay detected")) (outcome "deny" "replay-detected" "" 0 false)
      none
  | .ok (si, key) => do
    let a ← p.annotateTrust sha r si.keyID
    if a.denied then
      p.answer sha r
        (headers ++ a.headers ++ [("X-Verilink-Auth-Status", "denied")] ++
          if a.reason ≠ "" then [("X-Verilink-Reason", a.reason)] else [])
        (some (403, "Forbidden: trust policy denied"))
        (outcome "deny" a.reason a.principalID a.score a.blacklisted) (some ⟨key, a.key⟩)
    else
      p.answer sha r (headers ++ a.headers ++ [("X-Verilink-Auth-Status", "signed-verified")]) none
        (outcome "allow" a.reason a.principalID a.score a.blacklisted) (some ⟨key, a.key⟩)

/-- `RequireSignaturesFromPolicy` loads the policy only if it is needed. -/
def requireSig : Prog Shared Bool :=
  if p.requireSignatures then pure true
  else if p.synced then .read fun s => requireSignaturesFromPolicy s.store.activePolicy
  else pure false

def serveUnsigned (r : Request) (headers : List (String × String)) : Prog Shared Response := do
  if ← p.requireSig then
    p.answer sha r (headers ++ [("X-Verilink-Auth-Status", "unsigned-rejected")])
      (some (401, "Unauthorized: Request must be signed"))
        (outcome "deny" "unsigned-rejected" "" 0 false)
      none
  else
    p.answer sha r (headers ++ [("X-Verilink-Auth-Status", "unsigned-passthrough")]) none
      (outcome "passthrough" "unsigned" "" 0 false) none

def serveHTTP (r : Request) : Prog Shared Response := do
  let mode ← p.currentMode
  let headers := if mode ≠ .ok then [("X-Verilink-Mode", mode.text)] else []
  if mode = .stale then
    pure
      { headers := headers
        error := some (503, "Service Unavailable: sync snapshot stale")
        recorded := none }
  else if r.signatureInput ≠ "" then p.serveSigned sha scheme r headers
  else p.serveUnsigned sha r headers

end EdgeProxy

/-- The nonce `id` is used at `now`. -/
def Shared.consuming (s : Shared) (now : Time) (id : String × String) : Shared :=
  { s with
    nonces := (s.nonces.checkAndConsume now (EdgeProxy.nonceKey id)).2
    consumed := s.consumed ++ [(id, now)] }

/-- What others do in one step: the clock, the sync loop with the changes `change` of the store,
other requests and the sweeper of the nonce cache. Clocks may have been read before. -/
inductive Shared.Env (change : Store → Store → Prop) : Shared → Shared → Prop
  | tick (s : Shared) (clock : Time) (le : s.clock ≤ clock) : Env change s { s with clock := clock }
  | sync (s : Shared) (store : Store) (h : change s.store store) : Env change s { s with store := store }
  | reach (s : Shared) (reachable : Bool) : Env change s { s with reachable := reachable }
  | consume (s : Shared) (now : Time) (id : String × String) (le : now ≤ s.clock)
      (new : (s.nonces.checkAndConsume now (EdgeProxy.nonceKey id)).1 = true) :
      Env change s (s.consuming now id)
  | sweep (s : Shared) (now : Time) (le : now ≤ s.clock) :
      Env change s { s with nonces := s.nonces.sweep now }
  | log (s : Shared) (wal : Wal) : Env change s { s with wal := wal }

end Verilink.Edge

import Verilink.Framework.Base64
import Verilink.Framework.Json
import Verilink.Framework.TimeText

/-!
# The edge store

The snapshot an edge serves from, the policy defaults, and `ApplyEvent`: one sync event at a
time, idempotent below the high-water mark, all or nothing on a malformed payload. Times are
nanoseconds since the Unix epoch.
-/

namespace Verilink.Edge

open Verilink.Framework

abbrev Time := Int

def zeroTime : Time := -62135596800 * 1000000000

structure ScoreEntry where
  principalId : String := ""
  entityKind : String := ""
  score : Int := 0
  blacklisted : Bool := false
  scoreReason : String := ""
  deriving DecidableEq, Repr

structure KeyEntry where
  principalId : String
  keyId : String
  publicKeyRaw : List UInt8
  validFrom : Time
  validUntil : Option Time
  deriving DecidableEq

structure Policy where
  threshold : Int := 0
  belowThresholdAction : String := ""
  unsignedAction : String := ""
  failOpenExpired : Bool := false
  noDropDecisions : Bool := false
  maxSnapshotAgeSeconds : Int := 0
  allowFingerprints : List String := []
  denyFingerprints : List String := []
  deriving DecidableEq, Repr

structure Snapshot where
  highWaterVersion : Int := 0
  scores : Finmap fun _ : String => ScoreEntry := ∅
  keys : Finmap fun _ : String => KeyEntry := ∅
  policy : Option Policy := none

/-- The live snapshot, the high-water cursor and the time of the last authenticated bytes. -/
structure Store where
  snapshot : Option Snapshot := none
  highWater : Int := 0
  lastBytes : Option Time := none

namespace Store

def swap (s : Store) (next : Snapshot) : Store :=
  { s with snapshot := some next, highWater := next.highWaterVersion }

def noteBytes (s : Store) (now : Time) : Store := { s with lastBytes := some now }

def advanceHighWater (s : Store) (v : Int) : Store :=
  if v ≤ 0 ∨ v ≤ s.highWater then s else { s with highWater := v }

def lookupScore (s : Store) (principalId : String) : Option ScoreEntry :=
  s.snapshot.bind fun snap => snap.scores.lookup principalId

def lookupKey (s : Store) (keyId : String) (now : Time) : Option KeyEntry :=
  match s.snapshot.bind fun snap => snap.keys.lookup keyId with
  | none => none
  | some e =>
    if now < e.validFrom then none
    else if ∃ u ∈ e.validUntil, u ≤ now then none
    else some e

def activePolicy (s : Store) : Option Policy := s.snapshot.bind Snapshot.policy

end Store

def wrapError {α : Type} (context : String) : Except String α → Except String α :=
  Except.mapError fun err => context ++ ": " ++ err

def quoted (s : String) : String := "\"" ++ s ++ "\""

def cloneSnapshot (src : Option Snapshot) : Snapshot := src.getD {}

def clampAge (sec : Int) : Int := if sec < 60 then 60 else if 1800 < sec then 1800 else sec

/-- The values that stand for empty or zero fields. -/
def Policy.ageOrDefault (p : Policy) : Int :=
  if p.maxSnapshotAgeSeconds = 0 then 300 else p.maxSnapshotAgeSeconds

def Policy.belowOrDefault (p : Policy) : String :=
  if p.belowThresholdAction = "" then "deny" else p.belowThresholdAction

def Policy.unsignedOrDefault (p : Policy) : String :=
  if p.unsignedAction = "" then "passthrough" else p.unsignedAction

def normalizeAndValidatePolicy (p : Policy) : Except String Policy :=
  if p.belowOrDefault ≠ "allow" ∧ p.belowOrDefault ≠ "deny" then
    .error ("unsupported below_threshold_action " ++ quoted p.belowOrDefault)
  else if p.unsignedOrDefault ≠ "passthrough" ∧ p.unsignedOrDefault ≠ "deny" then
    .error ("unsupported unsigned_action " ++ quoted p.unsignedOrDefault)
  else
    .ok { p with
      maxSnapshotAgeSeconds := clampAge p.ageOrDefault
      belowThresholdAction := p.belowOrDefault
      unsignedAction := p.unsignedOrDefault }

def policyFields : List (Json.Field Policy) :=
  [⟨"threshold", fun p v => do .ok { p with threshold := ← Json.decodeInt p.threshold v }⟩,
   ⟨"below_threshold_action", fun p v => do
      .ok { p with belowThresholdAction := ← Json.decodeString p.belowThresholdAction v }⟩,
   ⟨"unsigned_action", fun p v => do
      .ok { p with unsignedAction := ← Json.decodeString p.unsignedAction v }⟩,
   ⟨"fail_open_expired", fun p v => do
      .ok { p with failOpenExpired := ← Json.decodeBool p.failOpenExpired v }⟩,
   ⟨"no_drop_decisions", fun p v => do
      .ok { p with noDropDecisions := ← Json.decodeBool p.noDropDecisions v }⟩,
   ⟨"max_snapshot_age_seconds", fun p v => do
      .ok { p with maxSnapshotAgeSeconds := ← Json.decodeInt p.maxSnapshotAgeSeconds v }⟩,
   ⟨"allow_fingerprints", fun p v => do
      .ok { p with allowFingerprints := ← Json.decodeStringSlice v }⟩,
   ⟨"deny_fingerprints", fun p v => do
      .ok { p with denyFingerprints := ← Json.decodeStringSlice v }⟩]

/-- The default threshold applies only where neither threshold nor action was sent. -/
def policyDefaults (p : Policy) : Policy :=
  { p with
    maxSnapshotAgeSeconds := p.ageOrDefault
    threshold := if p.threshold = 0 ∧ p.belowThresholdAction = "" then 50 else p.threshold }

def parsePolicyPayload (payload : Json) : Except String Policy := do
  let p ← wrapError "policy.replace" (Json.decodeStruct policyFields {} payload)
  wrapError "policy.replace" (normalizeAndValidatePolicy (policyDefaults p))

def scoreFields : List (Json.Field ScoreEntry) :=
  [⟨"principal_id", fun s v => do .ok { s with principalId := ← Json.decodeString s.principalId v }⟩,
   ⟨"entity_kind", fun s v => do .ok { s with entityKind := ← Json.decodeString s.entityKind v }⟩,
   ⟨"score", fun s v => do .ok { s with score := ← Json.decodeInt s.score v }⟩,
   ⟨"blacklisted", fun s v => do .ok { s with blacklisted := ← Json.decodeBool s.blacklisted v }⟩,
   ⟨"score_reason", fun s v => do
      .ok { s with scoreReason := ← Json.decodeString s.scoreReason v }⟩]

structure KeyWire where
  principalId : String := ""
  keyId : String := ""
  publicKeyRaw : String := ""
  validFrom : String := ""
  validUntil : Option String := none

def keyFields : List (Json.Field KeyWire) :=
  [⟨"principal_id", fun k v => do .ok { k with principalId := ← Json.decodeString k.principalId v }⟩,
   ⟨"key_id", fun k v => do .ok { k with keyId := ← Json.decodeString k.keyId v }⟩,
   ⟨"public_key_raw", fun k v => do
      .ok { k with publicKeyRaw := ← Json.decodeString k.publicKeyRaw v }⟩,
   ⟨"valid_from", fun k v => do .ok { k with validFrom := ← Json.decodeString k.validFrom v }⟩,
   ⟨"valid_until", fun k v => do
      .ok { k with validUntil := ← Json.decodeStringPtr k.validUntil v }⟩]

/-- Standard, then raw standard, then raw URL base64; 32 bytes are required. -/
def decodePublicKeyRaw (b64 : String) : Except String (List UInt8) :=
  let s := b64.toList
  match (Base64.decode .std true s).or
      ((Base64.decode .std false s).or (Base64.decode .url false s)) with
  | none => .error "decode public key: illegal base64 data"
  | some raw =>
    if raw.length = 32 then .ok raw
    else .error ("public key length " ++ toString raw.length ++ ", want 32")

def parseTime (s : String) : Except String Time :=
  if s = "" then .error "empty time"
  else
    match Calendar.parseRFC3339 s.toList with
    | none => .error "parsing time"
    | some t => .ok t

/-- The last statement of a handler: the write to the snapshot that it is given. -/
inductive SyncChange
  | setScore (entry : ScoreEntry)
  | deleteScore (principalId : String)
  | setKey (entry : KeyEntry)
  | deleteKey (keyId : String)
  | setPolicy (policy : Policy)
  | nothing
  deriving DecidableEq

def SyncChange.apply (snap : Snapshot) : SyncChange → Snapshot
  | .setScore e => { snap with scores := snap.scores.insert e.principalId e }
  | .deleteScore id => { snap with scores := snap.scores.erase id }
  | .setKey e => { snap with keys := snap.keys.insert e.keyId e }
  | .deleteKey id => { snap with keys := snap.keys.erase id }
  | .setPolicy p => { snap with policy := some p }
  | .nothing => snap

def applyScoreUpsert (payload : Json) : Except String SyncChange := do
  let p ← wrapError "score.upsert" (Json.decodeStruct scoreFields {} payload)
  if p.principalId = "" then .error "score.upsert: missing principal_id"
  else .ok (.setScore p)

def applyScoreDelete (payload : Json) : Except String SyncChange := do
  let p ← wrapError "score.delete" (Json.decodeStruct (scoreFields.take 1) {} payload)
  if p.principalId = "" then .error "score.delete: missing principal_id"
  else .ok (.deleteScore p.principalId)

def applyKeyUpsert (payload : Json) : Except String SyncChange := do
  let p ← wrapError "key.upsert" (Json.decodeStruct keyFields {} payload)
  if p.keyId = "" then .error "key.upsert: missing key_id"
  else if p.principalId = "" then .error "key.upsert: missing principal_id"
  else if p.publicKeyRaw = "" then .error "key.upsert: missing public_key_raw"
  else
    let raw ← decodePublicKeyRaw p.publicKeyRaw
    let vf ← wrapError "key.upsert valid_from" (parseTime p.validFrom)
    let vu ← match p.validUntil with
      | none => .ok none
      | some "" => .ok none
      | some text => do
        let t ← wrapError "key.upsert valid_until" (parseTime text)
        if t ≤ vf then .error "key.upsert: valid_until must be after valid_from"
        else .ok (some t)
    .ok (.setKey ⟨p.principalId, p.keyId, raw, vf, vu⟩)

def applyKeyRevoke (payload : Json) : Except String SyncChange := do
  let p ← wrapError "key.revoke" (Json.decodeStruct ((keyFields.drop 1).take 1) {} payload)
  if p.keyId = "" then .error "key.revoke: missing key_id"
  else .ok (.deleteKey p.keyId)

/-- Unknown event types, and `cursor`, change nothing. -/
def parseChange (eventType : String) (payload : Json) : Except String SyncChange :=
  if eventType = "score.upsert" then applyScoreUpsert payload
  else if eventType = "score.delete" then applyScoreDelete payload
  else if eventType = "key.upsert" then applyKeyUpsert payload
  else if eventType = "key.revoke" then applyKeyRevoke payload
  else if eventType = "policy.replace" then do
    .ok (.setPolicy (← parsePolicyPayload payload))
  else .ok .nothing

def mutateSnapshot (next : Snapshot) (eventType : String) (payload : Json) :
    Except String Snapshot :=
  (parseChange eventType payload).map (SyncChange.apply next)

def applyEvent (store : Store) (now : Time) (syncVersion : Int) (eventType : String)
    (payload : Json) : Except String Store := do
  if syncVersion ≤ 0 then .error ("invalid sync_version " ++ toString syncVersion)
  else if syncVersion ≤ store.highWater then .ok store
  else
    let next ← mutateSnapshot (cloneSnapshot store.snapshot) eventType payload
    .ok ((store.swap { next with highWaterVersion := syncVersion }).noteBytes now)

def applySnapshot (store : Store) (now : Time) (snap : Snapshot) : Store :=
  (store.swap snap).noteBytes now

def advanceCursor (store : Store) (now : Time) (highWater : Int) : Store :=
  (store.advanceHighWater highWater).noteBytes now

@[simp]
theorem wrapError_eq_ok {α : Type} {context : String} {x : Except String α} {a : α} :
    wrapError context x = .ok a ↔ x = .ok a :=
  mapError_eq_ok

@[simp]
theorem wrapError_ok {α : Type} (context : String) (a : α) :
    wrapError context (.ok a) = .ok a := rfl

theorem clampAge_clampAge (sec : Int) : clampAge (clampAge sec) = clampAge sec := by
  unfold clampAge
  split_ifs <;> omega

theorem clampAge_pos (sec : Int) : 0 < clampAge sec := by
  unfold clampAge
  split_ifs <;> omega

theorem normalizeAndValidatePolicy_eq_ok (p q : Policy) : normalizeAndValidatePolicy p = .ok q ↔
      (p.belowOrDefault = "allow" ∨ p.belowOrDefault = "deny") ∧
      (p.unsignedOrDefault = "passthrough" ∨ p.unsignedOrDefault = "deny") ∧
      q = { p with
        maxSnapshotAgeSeconds := clampAge p.ageOrDefault
        belowThresholdAction := p.belowOrDefault
        unsignedAction := p.unsignedOrDefault } := by
  unfold normalizeAndValidatePolicy
  by_cases hb : p.belowOrDefault ≠ "allow" ∧ p.belowOrDefault ≠ "deny"
  · rw [if_pos hb]
    simp [hb.1, hb.2]
  · rw [if_neg hb]
    by_cases hu : p.unsignedOrDefault ≠ "passthrough" ∧ p.unsignedOrDefault ≠ "deny"
    · rw [if_pos hu]
      simp [hu.1, hu.2]
    · rw [if_neg hu, Except.ok.injEq]
      constructor
      · intro h
        exact ⟨by tauto, by tauto, h.symm⟩
      · intro h
        exact h.2.2.symm

theorem normalizeAndValidatePolicy_normalized (p q : Policy)
    (h : normalizeAndValidatePolicy p = .ok q) : normalizeAndValidatePolicy q = .ok q := by
  obtain ⟨hb, hu, hq⟩ := (normalizeAndValidatePolicy_eq_ok p q).mp h
  have hbelow : q.belowOrDefault = p.belowOrDefault := by
    rw [hq]
    apply if_neg
    show p.belowOrDefault ≠ ""
    rcases hb with hb | hb <;> rw [hb] <;> decide
  have hunsigned : q.unsignedOrDefault = p.unsignedOrDefault := by
    rw [hq]
    apply if_neg
    show p.unsignedOrDefault ≠ ""
    rcases hu with hu | hu <;> rw [hu] <;> decide
  have hage : q.ageOrDefault = clampAge p.ageOrDefault := by
    rw [hq]
    exact if_neg (clampAge_pos _).ne'
  rw [normalizeAndValidatePolicy_eq_ok, hbelow, hunsigned, hage, clampAge_clampAge]
  exact ⟨hb, hu, by rw [hq]⟩

theorem parsePolicyPayload_normalized (payload : Json) (p : Policy)
    (h : parsePolicyPayload payload = .ok p) : normalizeAndValidatePolicy p = .ok p := by
  obtain ⟨q, -, hq⟩ := bind_eq_ok.mp h
  exact normalizeAndValidatePolicy_normalized _ p (wrapError_eq_ok.mp hq)

theorem applyEvent_of_lt (store : Store) (now : Time) (v : Int) (eventType : String)
    (payload : Json) (hpos : 0 < v) (hlt : store.highWater < v) :
    applyEvent store now v eventType payload =
      (mutateSnapshot (cloneSnapshot store.snapshot) eventType payload).map fun next =>
        (store.swap { next with highWaterVersion := v }).noteBytes now := by
  rw [applyEvent, if_neg (not_le.mpr hpos), if_neg (not_le.mpr hlt)]
  cases mutateSnapshot (cloneSnapshot store.snapshot) eventType payload with
  | error err => rfl
  | ok next => rfl

theorem applyEvent_of_le (store : Store) (now : Time) (v : Int) (eventType : String)
    (payload : Json) (hpos : 0 < v) (hle : v ≤ store.highWater) :
    applyEvent store now v eventType payload = .ok store := by
  rw [applyEvent, if_neg (not_le.mpr hpos), if_pos hle]

end Verilink.Edge

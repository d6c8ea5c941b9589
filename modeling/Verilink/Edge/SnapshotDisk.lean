import Verilink.Edge.SnapshotWire
import Verilink.Framework.JsonEscape

/-!
# The snapshot on disk

`SaveSnapshot` prints the snapshot as JSON, `LoadSnapshot` reads it back and validates it. Strings,
numbers and raw keys survive the trip.
-/

namespace Verilink.Edge

open Verilink.Framework

def maxSnapshotBytes : Nat := 67108864

def diskSchemaVersion : Int := 1

/-! ## Printing -/

def diskScoreJson (s : ScoreEntry) : Json :=
  .obj [("principal_id", .str s.principalId), ("entity_kind", .str s.entityKind),
    ("score", .int s.score), ("blacklisted", .bool s.blacklisted),
    ("score_reason", .str s.scoreReason)]

def diskTime (t : Time) : String := String.ofList (Calendar.formatRFC3339Nano t)

def diskKey (k : KeyEntry) : KeyWire where
  principalId := k.principalId
  keyId := k.keyId
  publicKeyRaw := String.ofList (Base64.encode k.publicKeyRaw)
  validFrom := diskTime k.validFrom
  validUntil := k.validUntil.map diskTime

def diskKeyJson (k : KeyWire) : Json :=
  .obj ([("principal_id", .str k.principalId), ("key_id", .str k.keyId),
    ("public_key_raw", .str k.publicKeyRaw), ("valid_from", .str k.validFrom)] ++
    k.validUntil.elim [] fun u => [("valid_until", .str u)])

/-- A slice that nothing was appended to is nil. -/
def appendedJson : List Json → Json
  | [] => .null
  | elems => .arr elems

/-- A slice of strings; whether an empty one is nil is not part of the model's policy. -/
def stringSliceJson (isNil : Bool) (texts : List String) : Json :=
  if texts = [] ∧ isNil then .null else .arr (texts.map .str)

/-- `Policy` has no JSON tags, so its keys are the names of its fields. -/
def diskPolicyJson (allowNil denyNil : Bool) (p : Policy) : Json :=
  .obj [("Threshold", .int p.threshold), ("BelowThresholdAction", .str p.belowThresholdAction),
    ("UnsignedAction", .str p.unsignedAction), ("FailOpenExpired", .bool p.failOpenExpired),
    ("NoDropDecisions", .bool p.noDropDecisions),
    ("MaxSnapshotAgeSeconds", .int p.maxSnapshotAgeSeconds),
    ("AllowFingerprints", stringSliceJson allowNil p.allowFingerprints),
    ("DenyFingerprints", stringSliceJson denyNil p.denyFingerprints)]

/-- What a run of `SaveSnapshot` chooses: the order in which Go visits the two maps. The last two
fields tell nil slices of the policy from empty ones. -/
structure SaveOrder (snap : Snapshot) where
  scores : Listing snap.scores
  keys : Listing snap.keys
  allowNil : Bool
  denyNil : Bool

def diskEnvelopeJson (snap : Snapshot) (order : SaveOrder snap) : Json :=
  .obj ([("schema_version", .int diskSchemaVersion), ("highWaterVersion", .int snap.highWaterVersion),
    ("scores", appendedJson (order.scores.values.map diskScoreJson)),
    ("keys", appendedJson (order.keys.values.map fun k => diskKeyJson (diskKey k)))] ++
    snap.policy.elim [] fun p => [("policy", diskPolicyJson order.allowNil order.denyNil p)])

abbrev Files := Finmap fun _ : String => Bytes

/-- `SaveSnapshot` where no file operation fails: the temporary file replaces the old one. -/
def saveSnapshot (path : String) (snap : Snapshot) (order : SaveOrder snap) (files : Files) :
    Except String Files :=
  if path = "" then .error "empty snapshot path"
  else .ok ((files.erase (path ++ ".tmp")).insert path (Json.marshal (diskEnvelopeJson snap order)))

/-! ## Reading -/

structure DiskEnvelope where
  schemaVersion : Int := 0
  highWaterVersion : Int := 0
  scores : List ScoreEntry := []
  keys : List KeyWire := []
  policy : Option Policy := none

def diskPolicyFields : List (Json.Field Policy) :=
  List.zipWith (fun name f => ⟨name, f.store⟩)
    ["Threshold", "BelowThresholdAction", "UnsignedAction", "FailOpenExpired", "NoDropDecisions",
      "MaxSnapshotAgeSeconds", "AllowFingerprints", "DenyFingerprints"] policyFields

/-- A pointer: `null` makes it nil. -/
def decodePolicyPtr (cur : Option Policy) : Json → Except String (Option Policy)
  | .null => .ok none
  | v => do .ok (some (← Json.decodeStruct diskPolicyFields (cur.getD {}) v))

def diskEnvelopeFields : List (Json.Field DiskEnvelope) :=
  [⟨"schema_version", fun e v => do
      .ok { e with schemaVersion := ← Json.decodeInt e.schemaVersion v }⟩,
   ⟨"highWaterVersion", fun e v => do
      .ok { e with highWaterVersion := ← Json.decodeInt e.highWaterVersion v }⟩,
   ⟨"scores", fun e v => do
      .ok { e with scores := ← Json.decodeSlice (Json.decodeStruct scoreFields {}) v }⟩,
   ⟨"keys", fun e v => do
      .ok { e with keys := ← Json.decodeSlice (Json.decodeStruct keyFields {}) v }⟩,
   ⟨"policy", fun e v => do .ok { e with policy := ← decodePolicyPtr e.policy v }⟩]

def loadDiskScore (scores : Finmap fun _ : String => ScoreEntry) (s : ScoreEntry) :
    Except String (Finmap fun _ : String => ScoreEntry) :=
  if s.principalId = "" then .error "score entry missing principal_id"
  else if (scores.lookup s.principalId).isSome then
    .error ("duplicate principal_id " ++ quoted s.principalId)
  else .ok (scores.insert s.principalId s)

def diskKeyToEntry (k : KeyWire) : Except String KeyEntry := do
  let raw ← decodePublicKeyRaw k.publicKeyRaw
  let vf ← parseTime k.validFrom
  let vu ← optionalTime k.validUntil
  .ok ⟨k.principalId, k.keyId, raw, vf, vu⟩

def loadDiskKey (keys : Finmap fun _ : String => KeyEntry) (k : KeyWire) :
    Except String (Finmap fun _ : String => KeyEntry) :=
  if k.keyId = "" then .error "key entry missing key_id"
  else if (keys.lookup k.keyId).isSome then .error ("duplicate key_id " ++ quoted k.keyId)
  else do .ok (keys.insert k.keyId (← diskKeyToEntry k))

/-- The part of `LoadSnapshot` after `json.Unmarshal`. -/
def DiskEnvelope.load (env : DiskEnvelope) : Except String Snapshot :=
  if env.schemaVersion ≠ diskSchemaVersion then
    .error ("unsupported snapshot schema_version " ++ toString env.schemaVersion)
  else do
    let scores ← env.scores.foldlM loadDiskScore ∅
    let keys ← env.keys.foldlM loadDiskKey ∅
    validateSnapshot ⟨env.highWaterVersion, scores, keys, env.policy⟩

def loadSnapshot (path : String) (files : Files) : Except String Snapshot :=
  match files.lookup path with
  | none => .error ("open " ++ path ++ ": no such file or directory")
  | some data =>
    if maxSnapshotBytes < data.length then
      .error ("snapshot file exceeds " ++ toString maxSnapshotBytes ++ " bytes")
    else
      match Json.parse data with
      | none => .error "invalid JSON"
      | some v => do
        let env ← Json.decodeStruct diskEnvelopeFields {} v
        env.load

def Store.snapshotForPersist (s : Store) : Snapshot :=
  { cloneSnapshot s.snapshot with highWaterVersion := s.highWater }

/-! ## What the edge holds -/

def Int64 (n : Int) : Prop := -2 ^ 63 ≤ n ∧ n < 2 ^ 63

structure ScoreEntry.Sound (id : String) (s : ScoreEntry) : Prop where
  key : s.principalId = id
  nonempty : id ≠ ""
  range : Int64 s.score

structure KeyEntry.Sound (id : String) (k : KeyEntry) : Prop where
  key : k.keyId = id
  nonempty : id ≠ ""
  principal : k.principalId ≠ ""
  length : k.publicKeyRaw.length = 32
  window : ∀ u ∈ k.validUntil, k.validFrom < u

structure Policy.Sound (p : Policy) : Prop where
  normalized : normalizeAndValidatePolicy p = .ok p
  threshold : Int64 p.threshold
  age : Int64 p.maxSnapshotAgeSeconds

/-- What every snapshot of an edge meets, however it was filled. -/
structure Snapshot.Sound (snap : Snapshot) : Prop where
  scores : ∀ id s, snap.scores.lookup id = some s → s.Sound id
  keys : ∀ id k, snap.keys.lookup id = some k → k.Sound id
  policy : ∀ p ∈ snap.policy, p.Sound

/-- The times of a key that its text and the validation of the file let through. -/
structure KeyEntry.Durable (k : KeyEntry) : Prop where
  set : k.validFrom ≠ zeroTime
  validFrom : Calendar.FourDigitYear k.validFrom
  validUntil : ∀ u ∈ k.validUntil, Calendar.FourDigitYear u

def Snapshot.Durable (snap : Snapshot) : Prop := ∀ id k, snap.keys.lookup id = some k → k.Durable

/-! ## Reading back what was printed -/

theorem decodeStruct_diskScoreJson {s : ScoreEntry} (h : Int64 s.score) :
    Json.decodeStruct scoreFields {} (diskScoreJson s) = .ok s := by
  have hscore : Json.decodeInt 0 (.int s.score) = .ok s.score := Json.decodeInt_int 0 _ h.1 h.2
  show (Json.decodeInt 0 (.int s.score) >>= fun n => _) >>= _ = _
  rw [hscore]
  rfl

theorem decodeStruct_diskKeyJson (k : KeyWire) :
    Json.decodeStruct keyFields {} (diskKeyJson k) = .ok k := by
  obtain ⟨principalId, keyId, raw, vf, vu⟩ := k
  cases vu with
  | none => rfl
  | some u => rfl

theorem decodeSlice_appendedJson {α β : Type} {elem : Json → Except String α} {toJson : β → Json}
    {val : β → α} {l : List β} (h : ∀ b ∈ l, elem (toJson b) = .ok (val b)) :
    Json.decodeSlice elem (appendedJson (l.map toJson)) = .ok (l.map val) := by
  cases l with
  | nil => rfl
  | cons b l => exact Json.decodeSlice_map elem toJson val (b :: l) h

theorem decodeStringSlice_stringSliceJson (isNil : Bool) (texts : List String) :
    Json.decodeStringSlice (stringSliceJson isNil texts) = .ok texts := by
  unfold stringSliceJson
  split_ifs with hnil
  · rw [hnil.1]
    rfl
  · have h := Json.decodeSlice_map (Json.decodeString "") Json.str id texts fun _ _ => rfl
    rw [List.map_id] at h
    exact h

theorem decodeStruct_diskPolicyJson (allowNil denyNil : Bool) {p : Policy} (h : p.Sound) :
    Json.decodeStruct diskPolicyFields {} (diskPolicyJson allowNil denyNil p) = .ok p := by
  have hthreshold : Json.storeKey diskPolicyFields {} ("Threshold", .int p.threshold) =
      .ok { threshold := p.threshold } := by
    show (Json.decodeInt 0 (.int p.threshold) >>= _) = _
    rw [Json.decodeInt_int 0 _ h.threshold.1 h.threshold.2]
    rfl
  have hage : ∀ q : Policy,
      Json.storeKey diskPolicyFields q ("MaxSnapshotAgeSeconds", .int p.maxSnapshotAgeSeconds) =
      .ok { q with maxSnapshotAgeSeconds := p.maxSnapshotAgeSeconds } := by
    intro q
    show (Json.decodeInt q.maxSnapshotAgeSeconds (.int p.maxSnapshotAgeSeconds) >>= _) = _
    rw [Json.decodeInt_int _ _ h.age.1 h.age.2]
    rfl
  have hallow : ∀ q : Policy, Json.storeKey diskPolicyFields q
      ("AllowFingerprints", stringSliceJson allowNil p.allowFingerprints) =
      .ok { q with allowFingerprints := p.allowFingerprints } := by
    intro q
    show (Json.decodeStringSlice (stringSliceJson allowNil p.allowFingerprints) >>= _) = _
    rw [decodeStringSlice_stringSliceJson]
    rfl
  have hdeny : ∀ q : Policy, Json.storeKey diskPolicyFields q
      ("DenyFingerprints", stringSliceJson denyNil p.denyFingerprints) =
      .ok { q with denyFingerprints := p.denyFingerprints } := by
    intro q
    show (Json.decodeStringSlice (stringSliceJson denyNil p.denyFingerprints) >>= _) = _
    rw [decodeStringSlice_stringSliceJson]
    rfl
  have hmiddle : [("BelowThresholdAction", .str p.belowThresholdAction),
      ("UnsignedAction", .str p.unsignedAction), ("FailOpenExpired", .bool p.failOpenExpired),
      ("NoDropDecisions", .bool p.noDropDecisions)].foldlM (Json.storeKey diskPolicyFields)
        { threshold := p.threshold } =
      .ok
        { threshold := p.threshold
          belowThresholdAction := p.belowThresholdAction
          unsignedAction := p.unsignedAction
          failOpenExpired := p.failOpenExpired
          noDropDecisions := p.noDropDecisions } := rfl
  refine (foldlM_cons_of_ok _ hthreshold).trans ?_
  refine (foldlM_append_of_ok _ hmiddle).trans ?_
  refine (foldlM_cons_of_ok _ (hage _)).trans ?_
  refine (foldlM_cons_of_ok _ (hallow _)).trans ?_
  refine (foldlM_cons_of_ok _ (hdeny _)).trans ?_
  rfl

theorem store_policy {allowNil denyNil : Bool} {p : Policy} (h : p.Sound) (e : DiskEnvelope)
    (he : e.policy = none) :
    Json.storeKey diskEnvelopeFields e ("policy", diskPolicyJson allowNil denyNil p) =
      .ok { e with policy := some p } := by
  show (decodePolicyPtr e.policy (diskPolicyJson allowNil denyNil p) >>= _) = _
  rw [he]
  show ((Json.decodeStruct diskPolicyFields {} (diskPolicyJson allowNil denyNil p) >>= _) >>= _) = _
  rw [decodeStruct_diskPolicyJson allowNil denyNil h]
  rfl

def diskEnvelope (snap : Snapshot) (order : SaveOrder snap) : DiskEnvelope where
  schemaVersion := diskSchemaVersion
  highWaterVersion := snap.highWaterVersion
  scores := order.scores.values
  keys := order.keys.values.map diskKey
  policy := snap.policy

theorem decodeStruct_diskEnvelopeJson {snap : Snapshot} (h : snap.Sound)
    (hversion : Int64 snap.highWaterVersion) (order : SaveOrder snap) :
    Json.decodeStruct diskEnvelopeFields {} (diskEnvelopeJson snap order) =
      .ok (diskEnvelope snap order) := by
  have hhw : Json.storeKey diskEnvelopeFields { schemaVersion := diskSchemaVersion }
      ("highWaterVersion", .int snap.highWaterVersion) =
      .ok { schemaVersion := diskSchemaVersion, highWaterVersion := snap.highWaterVersion } := by
    show (Json.decodeInt 0 (.int snap.highWaterVersion) >>= _) = _
    rw [Json.decodeInt_int 0 _ hversion.1 hversion.2]
    rfl
  have hscores : ∀ e : DiskEnvelope, Json.storeKey diskEnvelopeFields e
      ("scores", appendedJson (order.scores.values.map diskScoreJson)) =
      .ok { e with scores := order.scores.values } := by
    intro e
    have hslice : Json.decodeSlice (Json.decodeStruct scoreFields {})
        (appendedJson (order.scores.values.map diskScoreJson)) = .ok (order.scores.values.map id) := by
      apply decodeSlice_appendedJson
      intro s hs
      obtain ⟨id, hid⟩ := order.scores.mem_values.mp hs
      exact decodeStruct_diskScoreJson (h.scores id s hid).range
    rw [List.map_id] at hslice
    show (Json.decodeSlice (Json.decodeStruct scoreFields {})
      (appendedJson (order.scores.values.map diskScoreJson)) >>= _) = _
    rw [hslice]
    rfl
  have hkeys : ∀ e : DiskEnvelope, Json.storeKey diskEnvelopeFields e
      ("keys", appendedJson (order.keys.values.map fun k => diskKeyJson (diskKey k))) =
      .ok { e with keys := order.keys.values.map diskKey } := by
    intro e
    show (Json.decodeSlice (Json.decodeStruct keyFields {})
      (appendedJson (order.keys.values.map fun k => diskKeyJson (diskKey k))) >>= _) = _
    rw [decodeSlice_appendedJson fun k _ => decodeStruct_diskKeyJson (diskKey k)]
    rfl
  unfold diskEnvelope diskEnvelopeJson
  refine (foldlM_cons_of_ok _ (t := { schemaVersion := diskSchemaVersion }) rfl).trans ?_
  refine (foldlM_cons_of_ok _ hhw).trans ?_
  refine (foldlM_cons_of_ok _ (hscores _)).trans ?_
  refine (foldlM_cons_of_ok _ (hkeys _)).trans ?_
  cases hpolicy : snap.policy with
  | none => rfl
  | some p => exact foldlM_cons_of_ok [] (store_policy (h.policy p hpolicy) _ rfl)

/-! ## Loading -/

theorem diskTime_ne_empty (t : Time) : diskTime t ≠ "" := by
  intro h
  have hlist : Calendar.formatRFC3339Nano t = [] := by simpa [diskTime] using congrArg String.toList h
  simp [Calendar.formatRFC3339Nano, Calendar.rfc3339NanoText] at hlist

theorem parseTime_diskTime (t u : Time) :
    parseTime (diskTime t) = .ok u ↔ Calendar.FourDigitYear t ∧ u = t := by
  rw [parseTime, if_neg (diskTime_ne_empty t), diskTime, String.toList_ofList]
  by_cases hyear : Calendar.FourDigitYear t
  · simp [Calendar.parseRFC3339_formatRFC3339Nano hyear, hyear, eq_comm]
  · simp [Calendar.parseRFC3339_eq_none hyear, hyear]

theorem optionalTime_diskTime (t u : Option Time) :
    optionalTime (t.map diskTime) = .ok u ↔ (∀ x ∈ t, Calendar.FourDigitYear x) ∧ u = t := by
  cases t with
  | none => simp [optionalTime, eq_comm]
  | some t =>
    have hparse := parseTime_diskTime t
    simp only [optionalTime, Option.map_some, reduceCtorEq, Option.some.injEq, diskTime_ne_empty,
      or_self, if_false, Option.getD_some, bind_eq_ok, hparse, Except.ok.injEq]
    simp [eq_comm, and_comm]

theorem decodePublicKeyRaw_encode {raw : List UInt8} (h : raw.length = 32) :
    decodePublicKeyRaw (String.ofList (Base64.encode raw)) = .ok raw := by
  simp [decodePublicKeyRaw, Base64.decode_encode, h]

theorem diskKeyToEntry_diskKey {k : KeyEntry} (hlength : k.publicKeyRaw.length = 32) (e : KeyEntry) :
    diskKeyToEntry (diskKey k) = .ok e ↔ Calendar.FourDigitYear k.validFrom ∧
      (∀ u ∈ k.validUntil, Calendar.FourDigitYear u) ∧ e = k := by
  unfold diskKeyToEntry
  simp only [diskKey, decodePublicKeyRaw_encode hlength, bind_eq_ok, parseTime_diskTime,
    optionalTime_diskTime, Except.ok.injEq]
  constructor
  · rintro ⟨_, rfl, _, ⟨hfrom, rfl⟩, _, ⟨huntil, rfl⟩, rfl⟩
    exact ⟨hfrom, huntil, rfl⟩
  · rintro ⟨hfrom, huntil, rfl⟩
    exact ⟨_, rfl, _, ⟨hfrom, rfl⟩, _, ⟨huntil, rfl⟩, rfl⟩

theorem loadDiskScore_eq_ok (m : Finmap fun _ : String => ScoreEntry) (s : ScoreEntry)
    (m' : Finmap fun _ : String => ScoreEntry) :
    loadDiskScore m s = .ok m' ↔ ∃ e, wireScoreToEntry s = .ok e ∧
      m.lookup e.principalId = none ∧ m' = m.insert e.principalId e := by
  unfold loadDiskScore wireScoreToEntry
  by_cases hempty : s.principalId = ""
  · simp [hempty]
  · simp [hempty, insertNew_eq_ok]

def readDiskKey (k : KeyWire) : Except String KeyEntry :=
  if k.keyId = "" then .error "key entry missing key_id" else diskKeyToEntry k

theorem keyId_of_diskKeyToEntry {k : KeyWire} {e : KeyEntry} (h : diskKeyToEntry k = .ok e) :
    e.keyId = k.keyId := by
  obtain ⟨raw, -, h⟩ := bind_eq_ok.mp h
  obtain ⟨vf, -, h⟩ := bind_eq_ok.mp h
  obtain ⟨vu, -, h⟩ := bind_eq_ok.mp h
  cases h
  rfl

theorem loadDiskKey_eq_ok (m : Finmap fun _ : String => KeyEntry) (k : KeyWire)
    (m' : Finmap fun _ : String => KeyEntry) :
    loadDiskKey m k = .ok m' ↔
      ∃ e, readDiskKey k = .ok e ∧ m.lookup e.keyId = none ∧ m' = m.insert e.keyId e := by
  unfold loadDiskKey readDiskKey
  by_cases hempty : k.keyId = ""
  · simp [hempty]
  · rw [if_neg hempty, if_neg hempty]
    by_cases hold : (m.lookup k.keyId).isSome
    · rw [if_pos hold]
      constructor
      · intro h
        cases h
      · rintro ⟨e, he, hnone, -⟩
        rw [keyId_of_diskKeyToEntry he] at hnone
        simp [hnone] at hold
    · rw [if_neg hold, bind_eq_ok]
      apply exists_congr
      intro e
      apply and_congr_right
      intro he
      have hnone : m.lookup k.keyId = none := by simpa using hold
      rw [keyId_of_diskKeyToEntry he, and_iff_right hnone, Except.ok.injEq, eq_comm]

section Load

variable {snap : Snapshot} (h : snap.Sound) (order : SaveOrder snap)

include h

theorem load_scores : order.scores.values.foldlM loadDiskScore ∅ = .ok snap.scores := by
  have hkey : ∀ id s, snap.scores.lookup id = some s → s.principalId = id :=
    fun id s hs => (h.scores id s hs).key
  rw [foldlM_load_eq_ok ScoreEntry.principalId loadDiskScore wireScoreToEntry loadDiskScore_eq_ok]
  refine ⟨order.scores.values, ?_, order.scores.nodup_values hkey, by simp,
    (order.scores.mapOf_values hkey).symm⟩
  have hread := mapM_map_of_ok wireScoreToEntry id id order.scores.values fun s hs => by
    obtain ⟨id, hid⟩ := order.scores.mem_values.mp hs
    have hsound := h.scores id s hid
    exact if_neg (hsound.key ▸ hsound.nonempty)
  rwa [List.map_id] at hread

theorem load_keys (keys : Finmap fun _ : String => KeyEntry) :
    (order.keys.values.map diskKey).foldlM loadDiskKey ∅ = .ok keys ↔
      (∀ id k, snap.keys.lookup id = some k → Calendar.FourDigitYear k.validFrom ∧
        ∀ u ∈ k.validUntil, Calendar.FourDigitYear u) ∧ keys = snap.keys := by
  have hkey : ∀ id k, snap.keys.lookup id = some k → k.keyId = id := fun id k hk => (h.keys id k hk).key
  have hread : ∀ k ∈ order.keys.values, ∀ e, readDiskKey (diskKey k) = .ok e ↔
      (Calendar.FourDigitYear k.validFrom ∧ ∀ u ∈ k.validUntil, Calendar.FourDigitYear u) ∧
        e = k := by
    intro k hk e
    obtain ⟨id, hid⟩ := order.keys.mem_values.mp hk
    have hsound := h.keys id k hid
    have hne : (diskKey k).keyId ≠ "" := hsound.key.trans_ne hsound.nonempty
    rw [readDiskKey, if_neg hne, diskKeyToEntry_diskKey hsound.length, and_assoc]
  have hall : (∀ k ∈ order.keys.values, Calendar.FourDigitYear k.validFrom ∧
      ∀ u ∈ k.validUntil, Calendar.FourDigitYear u) ↔
      ∀ id k, snap.keys.lookup id = some k → Calendar.FourDigitYear k.validFrom ∧
        ∀ u ∈ k.validUntil, Calendar.FourDigitYear u := by
    simp only [order.keys.mem_values]
    exact ⟨fun hk id k hid => hk k ⟨id, hid⟩, fun hk k ⟨id, hid⟩ => hk id k hid⟩
  rw [foldlM_load_eq_ok KeyEntry.keyId loadDiskKey readDiskKey loadDiskKey_eq_ok, ← hall]
  simp only [mapM_map_eq_ok_iff hread]
  constructor
  · rintro ⟨es, ⟨hyears, rfl⟩, -, -, hkeys⟩
    exact ⟨hyears, hkeys.trans (order.keys.mapOf_values hkey)⟩
  · rintro ⟨hyears, rfl⟩
    exact ⟨_, ⟨hyears, rfl⟩, order.keys.nodup_values hkey, by simp,
      (order.keys.mapOf_values hkey).symm⟩

/-- The validation of the file lets a snapshot of the edge through unless a key has no
`valid_from`. -/
theorem validate_eq_ok (hversion : 0 ≤ snap.highWaterVersion) (loaded : Snapshot) :
    validateSnapshot snap = .ok loaded ↔
      (∀ id k, snap.keys.lookup id = some k → k.validFrom ≠ zeroTime) ∧ loaded = snap := by
  have hscores : ∀ id s, snap.scores.lookup id = some s → scoreFault id s = none := by
    intro id s hs
    have hsound := h.scores id s hs
    simp [scoreFault, hsound.key, hsound.nonempty]
  have hvalid : (∀ id k, snap.keys.lookup id = some k → k.validFrom ≠ zeroTime) →
      validateSnapshot snap = .ok snap := by
    intro hset
    apply validateSnapshot_of_sound snap hversion hscores
    · intro id k hk
      have hsound := h.keys id k hk
      exact (keyFault_eq_none_iff id k).mpr ⟨hsound.key.symm, hsound.key ▸ hsound.nonempty,
        hsound.principal, hsound.length, hset id k hk, hsound.window⟩
    · exact fun p hp => (h.policy p hp).normalized
  constructor
  · intro hok
    have hset : ∀ id k, snap.keys.lookup id = some k → k.validFrom ≠ zeroTime := by
      intro id k hk
      have hnone := validateSnapshot_keys hok id k hk
      exact ((keyFault_eq_none_iff id k).mp hnone).2.2.2.2.1
    have hsame := hvalid hset
    rw [hok, Except.ok.injEq] at hsame
    exact ⟨hset, hsame⟩
  · rintro ⟨hset, rfl⟩
    exact hvalid hset

theorem load_diskEnvelope (hversion : 0 ≤ snap.highWaterVersion) (loaded : Snapshot) :
    (diskEnvelope snap order).load = .ok loaded ↔ snap.Durable ∧ loaded = snap := by
  have hload : (diskEnvelope snap order).load = .ok loaded ↔
      ∃ keys, (order.keys.values.map diskKey).foldlM loadDiskKey ∅ = .ok keys ∧
        validateSnapshot { snap with keys := keys } = .ok loaded := by
    have hschema : (diskEnvelope snap order).schemaVersion = diskSchemaVersion := rfl
    rw [DiskEnvelope.load, if_neg (not_not.mpr hschema)]
    show (order.scores.values.foldlM loadDiskScore ∅ >>= _) = _ ↔ _
    rw [load_scores h order]
    show ((order.keys.values.map diskKey).foldlM loadDiskKey ∅ >>= fun keys =>
      validateSnapshot { snap with keys := keys }) = _ ↔ _
    exact bind_eq_ok
  simp only [hload, load_keys h order]
  constructor
  · rintro ⟨keys, ⟨hyears, rfl⟩, hvalid⟩
    obtain ⟨hset, rfl⟩ := (validate_eq_ok h hversion loaded).mp hvalid
    refine ⟨?_, rfl⟩
    intro id k hk
    exact ⟨hset id k hk, (hyears id k hk).1, (hyears id k hk).2⟩
  · rintro ⟨hdurable, rfl⟩
    refine ⟨_, ⟨?_, rfl⟩, (validate_eq_ok h hversion _).mpr ⟨?_, rfl⟩⟩
    · exact fun id k hk => ⟨(hdurable id k hk).validFrom, (hdurable id k hk).validUntil⟩
    · exact fun id k hk => (hdurable id k hk).set

omit h in
theorem fracFree_diskEnvelopeJson : Json.fracFree (diskEnvelopeJson snap order) = true := by
  have happended : ∀ elems : List Json, (∀ v ∈ elems, Json.fracFree v = true) →
      Json.fracFree (appendedJson elems) = true := by
    intro elems helems
    cases elems with
    | nil => rfl
    | cons v vs => exact (Json.fracFreeElems_iff _).mpr helems
  have hslice : ∀ isNil texts, Json.fracFree (stringSliceJson isNil texts) = true := by
    intro isNil texts
    unfold stringSliceJson
    split_ifs
    · rfl
    · simp [Json.fracFree]
  have hkey : ∀ k, Json.fracFree (diskKeyJson k) = true := by
    intro k
    cases hvu : k.validUntil <;> simp [diskKeyJson, hvu, Json.fracFree]
  have hscores := happended (order.scores.values.map diskScoreJson) (by
    simp [diskScoreJson, Json.fracFree])
  have hkeys := happended (order.keys.values.map fun k => diskKeyJson (diskKey k)) (by simp [hkey])
  cases hpolicy : snap.policy with
  | none => simp [diskEnvelopeJson, hpolicy, Json.fracFree, hscores, hkeys]
  | some p =>
    simp [diskEnvelopeJson, hpolicy, Json.fracFree, hscores, hkeys, diskPolicyJson, hslice]

/-- The file of a snapshot is read back, as what was saved, exactly when the times of its keys
are. -/
theorem loadSnapshot_of_saved (hversion : 0 ≤ snap.highWaterVersion)
    (hrange : snap.highWaterVersion < 2 ^ 63) {path : String} {files saved : Files}
    (hsize : (Json.marshal (diskEnvelopeJson snap order)).length ≤ maxSnapshotBytes)
    (hsave : saveSnapshot path snap order files = .ok saved) (loaded : Snapshot) :
    loadSnapshot path saved = .ok loaded ↔ snap.Durable ∧ loaded = snap := by
  have hfile : saved.lookup path = some (Json.marshal (diskEnvelopeJson snap order)) := by
    rw [saveSnapshot] at hsave
    split_ifs at hsave
    cases hsave
    exact Finmap.lookup_insert _
  rw [loadSnapshot, hfile]
  simp only [if_neg (not_lt.mpr hsize), Json.parse_marshal (fracFree_diskEnvelopeJson order)]
  rw [decodeStruct_diskEnvelopeJson h ⟨by omega, hrange⟩ order]
  exact load_diskEnvelope h order hversion loaded

end Load

end Verilink.Edge

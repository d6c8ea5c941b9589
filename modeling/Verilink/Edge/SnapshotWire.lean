import Verilink.Edge.Store
import Verilink.Framework.KeyedList

/-!
# Reading a snapshot from the wire

`parseSnapshotJSON`: the envelope or the bare body, the high-water mark, scores, keys and
policy, and the validation of the result before it becomes live state.
-/

namespace Verilink.Edge

open Verilink.Framework

structure SnapshotData where
  highWaterVersion : Option Json.Number := none
  scores : List ScoreEntry := []
  keys : List KeyWire := []
  policy : Option Json := none

structure SnapshotWire where
  ok : Bool := false
  data : SnapshotData := {}

def snapshotDataFields : List (Json.Field SnapshotData) :=
  [⟨"highWaterVersion", fun d v => do
      .ok { d with highWaterVersion := ← Json.decodeNumber d.highWaterVersion v }⟩,
   ⟨"scores", fun d v => do
      .ok { d with scores := ← Json.decodeSlice (Json.decodeStruct scoreFields {}) v }⟩,
   ⟨"keys", fun d v => do
      .ok { d with keys := ← Json.decodeSlice (Json.decodeStruct keyFields {}) v }⟩,
   ⟨"policy", fun d v => .ok { d with policy := some v }⟩]

def snapshotWireFields : List (Json.Field SnapshotWire) :=
  [⟨"ok", fun w v => do .ok { w with ok := ← Json.decodeBool w.ok v }⟩,
   ⟨"data", fun w v => do
      .ok { w with data := ← Json.decodeStruct snapshotDataFields w.data v }⟩]

def unmarshalSnapshotWire (body : Json) : Except String SnapshotWire := do
  let wire ← wrapError "snapshot json" (Json.decodeStruct snapshotWireFields {} body)
  if wire.ok ∨ wire.data.highWaterVersion ≠ none then .ok wire
  else
    let bare ← wrapError "snapshot json" (Json.decodeStruct snapshotDataFields {} body)
    .ok { ok := true, data := bare }

def wireScoreToEntry (s : ScoreEntry) : Except String ScoreEntry :=
  if s.principalId = "" then .error "snapshot: score entry missing principal_id" else .ok s

def loadWireScore (scores : Finmap fun _ : String => ScoreEntry) (s : ScoreEntry) :
    Except String (Finmap fun _ : String => ScoreEntry) := do
  let entry ← wireScoreToEntry s
  if (scores.lookup entry.principalId).isSome then
    .error ("snapshot: duplicate principal_id " ++ quoted entry.principalId)
  else .ok (scores.insert entry.principalId entry)

def optionalTime (text : Option String) : Except String (Option Time) :=
  if text = none ∨ text = some "" then .ok none
  else do .ok (some (← parseTime (text.getD "")))

def wireKeyToEntry (k : KeyWire) : Except String KeyEntry := do
  if k.keyId = "" then .error "snapshot: key entry missing key_id"
  else
    let raw ← wrapError ("key " ++ k.keyId) (decodePublicKeyRaw k.publicKeyRaw)
    let vf ← wrapError ("key " ++ k.keyId ++ " valid_from") (parseTime k.validFrom)
    let vu ← optionalTime k.validUntil
    .ok ⟨k.principalId, k.keyId, raw, vf, vu⟩

def loadWireKey (keys : Finmap fun _ : String => KeyEntry) (k : KeyWire) :
    Except String (Finmap fun _ : String => KeyEntry) := do
  let entry ← wireKeyToEntry k
  if (keys.lookup entry.keyId).isSome then
    .error ("snapshot: duplicate key_id " ++ quoted entry.keyId)
  else .ok (keys.insert entry.keyId entry)

def loadWireScores (scores : List ScoreEntry) := scores.foldlM loadWireScore ∅

def loadWireKeys (keys : List KeyWire) := keys.foldlM loadWireKey ∅

def scoreFault (id : String) (s : ScoreEntry) : Option String :=
  if id = "" ∨ s.principalId = "" then some "score entry missing principal_id"
  else if id ≠ s.principalId then
    some ("score map key " ++ quoted id ++ " != principal_id " ++ quoted s.principalId)
  else none

def keyFault (id : String) (k : KeyEntry) : Option String :=
  if id = "" ∨ k.keyId = "" then some "key entry missing key_id"
  else if k.principalId = "" then some ("key " ++ quoted id ++ " missing principal_id")
  else if id ≠ k.keyId then
    some ("key map key " ++ quoted id ++ " != key_id " ++ quoted k.keyId)
  else if k.publicKeyRaw.length ≠ 32 then
    some ("key " ++ quoted id ++ " invalid public key length")
  else if k.validFrom = zeroTime then some ("key " ++ quoted id ++ " missing valid_from")
  else if ∃ u ∈ k.validUntil, u ≤ k.validFrom then
    some ("key " ++ quoted id ++ " valid_until must be after valid_from")
  else none

/-- The first fault among the entries of a map. Go visits a map in an unspecified order, so
which faulty entry is reported is unspecified too; here it is the one of the least key. -/
def firstFault {β : Type} (m : Finmap fun _ : String => β) (fault : String → β → Option String) :
    Option String :=
  (sortedKeys m).findSome? fun id => (m.lookup id).bind (fault id)

def validateSnapshot (snap : Snapshot) : Except String Snapshot :=
  if snap.highWaterVersion < 0 then
    .error ("negative highWaterVersion " ++ toString snap.highWaterVersion)
  else
    match (firstFault snap.scores scoreFault).or (firstFault snap.keys keyFault), snap.policy with
    | some err, _ => .error err
    | none, none => .ok snap
    | none, some p => do .ok { snap with policy := some (← normalizeAndValidatePolicy p) }

def highWaterOf : Option Json.Number → Except String Int
  | none => .error "snapshot: missing highWaterVersion"
  | some .other => .error "snapshot: invalid highWaterVersion"
  | some (.int n) =>
    if n < -2 ^ 63 ∨ 2 ^ 63 ≤ n then .error "snapshot: invalid highWaterVersion"
    else if n < 0 then .error ("snapshot: negative highWaterVersion " ++ toString n)
    else .ok n

def wirePolicy : Option Json → Except String (Option Policy)
  | none => .ok none
  | some .null => .ok none
  | some raw => do .ok (some (← parsePolicyPayload raw))

def parseSnapshotJSON (body : Json) : Except String Snapshot := do
  let wire ← unmarshalSnapshotWire body
  if wire.ok = false then .error "snapshot: ok=false"
  else
    let hw ← highWaterOf wire.data.highWaterVersion
    let scores ← loadWireScores wire.data.scores
    let keys ← loadWireKeys wire.data.keys
    let policy ← wirePolicy wire.data.policy
    wrapError "snapshot" (validateSnapshot ⟨hw, scores, keys, policy⟩)

theorem firstFault_eq_none_iff {β : Type} (m : Finmap fun _ : String => β)
    (fault : String → β → Option String) :
    firstFault m fault = none ↔ ∀ id e, m.lookup id = some e → fault id e = none := by
  simp only [firstFault, List.findSome?_eq_none_iff, mem_sortedKeys, Option.bind_eq_none_iff]
  constructor
  · intro h id e he
    exact h id (Option.isSome_of_mem he) e he
  · intro h id _ e he
    exact h id e he

theorem validateSnapshot_of_sound (snap : Snapshot) (hhw : 0 ≤ snap.highWaterVersion)
    (hscores : ∀ id s, snap.scores.lookup id = some s → scoreFault id s = none)
    (hkeys : ∀ id k, snap.keys.lookup id = some k → keyFault id k = none)
    (hpolicy : ∀ p ∈ snap.policy, normalizeAndValidatePolicy p = .ok p) :
    validateSnapshot snap = .ok snap := by
  rw [validateSnapshot, if_neg (not_lt.mpr hhw), (firstFault_eq_none_iff _ _).mpr hscores,
    (firstFault_eq_none_iff _ _).mpr hkeys]
  obtain ⟨hw, scores, keys, policy⟩ := snap
  cases policy with
  | none => rfl
  | some p =>
    have hp : normalizeAndValidatePolicy p = .ok p := hpolicy p rfl
    show (normalizeAndValidatePolicy p >>= _) = _
    rw [hp]
    rfl

theorem validateSnapshot_highWater (snap snap' : Snapshot) (h : validateSnapshot snap = .ok snap') :
    snap'.highWaterVersion = snap.highWaterVersion := by
  unfold validateSnapshot at h
  split_ifs at h
  split at h
  · cases h
  · cases h
    rfl
  · obtain ⟨q, -, hq⟩ := bind_eq_ok.mp h
    cases hq
    rfl

theorem validateSnapshot_faults {snap snap' : Snapshot} (h : validateSnapshot snap = .ok snap') :
    firstFault snap.scores scoreFault = none ∧ firstFault snap.keys keyFault = none := by
  unfold validateSnapshot at h
  split_ifs at h
  cases hfault : (firstFault snap.scores scoreFault).or (firstFault snap.keys keyFault) with
  | some err =>
    rw [hfault] at h
    cases h
  | none => exact Option.or_eq_none_iff.mp hfault

theorem validateSnapshot_keys {snap snap' : Snapshot} (h : validateSnapshot snap = .ok snap')
    (id : String) (k : KeyEntry) (hk : snap.keys.lookup id = some k) : keyFault id k = none :=
  (firstFault_eq_none_iff _ _).mp (validateSnapshot_faults h).2 id k hk

theorem keyFault_eq_none_iff (id : String) (k : KeyEntry) : keyFault id k = none ↔
      id = k.keyId ∧ k.keyId ≠ "" ∧ k.principalId ≠ "" ∧ k.publicKeyRaw.length = 32 ∧
        k.validFrom ≠ zeroTime ∧ ∀ u ∈ k.validUntil, k.validFrom < u := by
  unfold keyFault
  split_ifs with h₁ h₂ h₃ h₄ h₅ h₆ <;> simp_all
  rintro rfl
  simp_all

theorem insertNew_eq_ok {β : Type} (m m' : Finmap fun _ : String => β) (k err : String) (e : β) :
    (if (m.lookup k).isSome then .error err else .ok (m.insert k e) : Except String _) = .ok m' ↔
      m.lookup k = none ∧ m' = m.insert k e := by
  cases hk : m.lookup k with
  | none => simp [eq_comm]
  | some e' => simp

theorem loadWireScore_eq_ok (m : Finmap fun _ : String => ScoreEntry) (s : ScoreEntry)
    (m' : Finmap fun _ : String => ScoreEntry) :
    loadWireScore m s = .ok m' ↔ ∃ e, wireScoreToEntry s = .ok e ∧ m.lookup e.principalId = none ∧
        m' = m.insert e.principalId e := by
  unfold loadWireScore
  simp only [bind_eq_ok, insertNew_eq_ok]

theorem loadWireKey_eq_ok (m : Finmap fun _ : String => KeyEntry) (k : KeyWire)
    (m' : Finmap fun _ : String => KeyEntry) :
    loadWireKey m k = .ok m' ↔
      ∃ e, wireKeyToEntry k = .ok e ∧ m.lookup e.keyId = none ∧ m' = m.insert e.keyId e := by
  unfold loadWireKey
  simp only [bind_eq_ok, insertNew_eq_ok]

theorem loadWireKeys_eq_ok (keys : List KeyWire) (m : Finmap fun _ : String => KeyEntry) :
    loadWireKeys keys = .ok m ↔
      ∃ es, keys.mapM wireKeyToEntry = .ok es ∧ (es.map KeyEntry.keyId).Nodup ∧
        m = mapOf KeyEntry.keyId es := by
  rw [loadWireKeys, foldlM_load_eq_ok KeyEntry.keyId loadWireKey wireKeyToEntry loadWireKey_eq_ok]
  simp [mapOf]

theorem loadWireScores_of_distinct (scores : List ScoreEntry) (hids : ∀ s ∈ scores, s.principalId ≠ "")
    (hnodup : (scores.map ScoreEntry.principalId).Nodup) :
    loadWireScores scores = .ok (mapOf ScoreEntry.principalId scores) := by
  rw [loadWireScores,
    foldlM_load_eq_ok ScoreEntry.principalId loadWireScore wireScoreToEntry loadWireScore_eq_ok]
  refine ⟨scores, ?_, hnodup, by simp, rfl⟩
  simpa using mapM_map_of_ok wireScoreToEntry id id scores fun s hs => if_neg (hids s hs)

end Verilink.Edge

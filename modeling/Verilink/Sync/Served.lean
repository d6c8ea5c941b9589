import Verilink.ControlPlane.SyncLog
import Verilink.Edge.SnapshotWire

/-!
# The served snapshot, read by the edge

What `parseSnapshotJSON` makes of the body that the control plane serves: under which
conditions on the served rows it succeeds, and the snapshot it then returns.
-/

namespace Verilink.Sync

open Verilink.Framework Verilink.ControlPlane Verilink.Edge

def nanos (t : Timestamp) : Time := t * 1000000

def scoreEntry (r : EngineScore) : ScoreEntry :=
  ⟨r.principalId, r.entityKind, r.score, r.blacklisted, r.scoreReason⟩

def keyEntry (k : PrincipalKeyRow) : KeyEntry :=
  ⟨k.principalId, k.keyId, k.publicKeyRaw, nanos k.validFrom, k.validUntil.map nanos⟩

def edgePolicy (p : PolicyRow) : Policy where
  threshold := p.threshold
  belowThresholdAction := p.belowThresholdAction.text
  unsignedAction := p.unsignedAction.text
  failOpenExpired := p.failOpenExpired
  noDropDecisions := p.noDropDecisions
  maxSnapshotAgeSeconds :=
    clampAge (if p.maxSnapshotAgeSeconds = 0 then 300 else p.maxSnapshotAgeSeconds)
  allowFingerprints := p.allowFingerprints
  denyFingerprints := p.denyFingerprints

def edgeSnapshot (s : ServedSnapshot) : Snapshot where
  highWaterVersion := s.highWaterVersion
  scores := mapOf ScoreEntry.principalId (s.scores.map fun r => scoreEntry r.toEngineScore)
  keys := mapOf KeyEntry.keyId (s.keys.map keyEntry)
  policy := s.policy.map edgePolicy

def Printable (t : Timestamp) : Prop := -62167219200000 ≤ t ∧ t < 253402300800000

/-- What the rows of a snapshot satisfy whatever keys were registered. -/
structure WellTyped (s : ServedSnapshot) : Prop where
  highWater_nonneg : 0 ≤ s.highWaterVersion
  highWater_lt : s.highWaterVersion < 2 ^ 63
  score_ids : ∀ r ∈ s.scores, r.principalId ≠ ""
  score_distinct : (s.scores.map fun r => r.principalId).Nodup
  score_lower : ∀ r ∈ s.scores, -2 ^ 31 ≤ r.score
  score_upper : ∀ r ∈ s.scores, r.score < 2 ^ 31
  key_principals : ∀ k ∈ s.keys, k.principalId ≠ ""
  key_from : ∀ k ∈ s.keys, Printable k.validFrom ∧ nanos k.validFrom ≠ zeroTime
  key_until : ∀ k ∈ s.keys, ∀ u ∈ k.validUntil, Printable u ∧ k.validFrom < u
  policy_threshold : ∀ p ∈ s.policy, 0 ≤ p.threshold ∧ p.threshold < 2 ^ 31
  policy_age : ∀ p ∈ s.policy, 0 ≤ p.maxSnapshotAgeSeconds ∧ p.maxSnapshotAgeSeconds < 2 ^ 31

/-- Distinct, non-empty key ids and raw keys of 32 bytes. -/
structure KeysServable (keys : List PrincipalKeyRow) : Prop where
  distinct : (keys.map PrincipalKeyRow.keyId).Nodup
  nonempty : ∀ k ∈ keys, k.keyId ≠ ""
  length : ∀ k ∈ keys, k.publicKeyRaw.length = 32

def keyWire (k : PrincipalKeyRow) : KeyWire :=
  ⟨k.principalId, k.keyId, String.ofList (Base64.pgEncode 0 k.publicKeyRaw),
    dateText k.validFrom, k.validUntil.map dateText⟩

theorem decodeStruct_scoreJson (r : EngineScore) (hlo : -2 ^ 31 ≤ r.score) (hhi : r.score < 2 ^ 31) :
    Json.decodeStruct scoreFields {} (scoreJson r) = .ok (scoreEntry r) := by
  have hscore : Json.decodeInt 0 (.int r.score) = .ok r.score :=
    Json.decodeInt_int 0 r.score (by omega) (by omega)
  show (Json.decodeInt 0 (.int r.score) >>= fun n => _) >>= _ = _
  rw [hscore]
  rfl

theorem decodeStruct_keyJson (k : PrincipalKeyRow) :
    Json.decodeStruct keyFields {} (keyJson k) = .ok (keyWire k) := by
  obtain ⟨principalId, keyId, raw, hash, vf, vu, revoked⟩ := k
  cases vu with
  | none => rfl
  | some u => rfl

theorem decodeStringSlice_stringsJson (texts : List String) :
    Json.decodeStringSlice (stringsJson texts) = .ok texts := by
  have h := Json.decodeSlice_map (Json.decodeString "") Json.str id texts fun _ _ => rfl
  rw [List.map_id] at h
  exact h

theorem store_threshold (q : Policy) (n : Int) (h : 0 ≤ n ∧ n < 2 ^ 31) :
    Json.storeKey policyFields q ("threshold", .int n) = .ok { q with threshold := n } := by
  show (Json.decodeInt q.threshold (.int n) >>= _) = _
  rw [Json.decodeInt_int _ _ (by omega) (by omega)]
  rfl

theorem store_age (q : Policy) (n : Int) (h : 0 ≤ n ∧ n < 2 ^ 31) :
    Json.storeKey policyFields q ("max_snapshot_age_seconds", .int n) =
      .ok { q with maxSnapshotAgeSeconds := n } := by
  show (Json.decodeInt q.maxSnapshotAgeSeconds (.int n) >>= _) = _
  rw [Json.decodeInt_int _ _ (by omega) (by omega)]
  rfl

theorem store_fingerprints (q : Policy) (allow deny : List String) :
    [("allow_fingerprints", stringsJson allow), ("deny_fingerprints", stringsJson deny)].foldlM
        (Json.storeKey policyFields) q =
      .ok { q with allowFingerprints := allow, denyFingerprints := deny } := by
  show ((Json.decodeStringSlice (stringsJson allow) >>= _) >>= _) = _
  rw [decodeStringSlice_stringsJson]
  show ((Json.decodeStringSlice (stringsJson deny) >>= _) >>= _) = _
  rw [decodeStringSlice_stringsJson]
  rfl

theorem decodeStruct_policyRowJson (p : PolicyRow) (ht : 0 ≤ p.threshold ∧ p.threshold < 2 ^ 31)
    (ha : 0 ≤ p.maxSnapshotAgeSeconds ∧ p.maxSnapshotAgeSeconds < 2 ^ 31) :
    Json.decodeStruct policyFields {} (policyRowJson p) =
      .ok ⟨p.threshold, p.belowThresholdAction.text, p.unsignedAction.text, p.failOpenExpired,
        p.noDropDecisions, p.maxSnapshotAgeSeconds, p.allowFingerprints, p.denyFingerprints⟩ := by
  -- the columns in the order of the table; those the edge does not know are skipped
  show List.foldlM (Json.storeKey policyFields) {} ([("tenant_id", _), ("name", _)] ++
      ([("threshold", _)] ++
      ([("below_threshold_action", _), ("unsigned_action", _)] ++
      ([("allow_fingerprints", _), ("deny_fingerprints", _)] ++
      ([("fail_open_expired", _), ("no_drop_decisions", _)] ++
      ([("max_snapshot_age_seconds", _)] ++ [("allow_sample_rate", _), ("is_active", _)])))))) = _
  rw [foldlM_append_of_ok _ rfl, List.singleton_append,
    foldlM_cons_of_ok _ (store_threshold _ _ ht), foldlM_append_of_ok _ rfl,
    foldlM_append_of_ok _ (store_fingerprints _ _ _), foldlM_append_of_ok _ rfl,
    List.singleton_append, foldlM_cons_of_ok _ (store_age _ _ ha)]
  rfl

theorem parsePolicyPayload_row (p : PolicyRow) (ht : 0 ≤ p.threshold ∧ p.threshold < 2 ^ 31)
    (ha : 0 ≤ p.maxSnapshotAgeSeconds ∧ p.maxSnapshotAgeSeconds < 2 ^ 31) :
    parsePolicyPayload (policyRowJson p) = .ok (edgePolicy p) := by
  rw [parsePolicyPayload, decodeStruct_policyRowJson p ht ha]
  show wrapError _ (normalizeAndValidatePolicy (policyDefaults _)) = _
  rw [wrapError_eq_ok, normalizeAndValidatePolicy_eq_ok]
  -- both actions are present, so no default for an empty text applies
  cases hb : p.belowThresholdAction <;> cases hu : p.unsignedAction <;>
    by_cases hz : p.maxSnapshotAgeSeconds = 0 <;>
    simp [edgePolicy, policyDefaults, Policy.belowOrDefault, Policy.unsignedOrDefault,
      Policy.ageOrDefault, BelowThresholdAction.text, UnsignedAction.text, hb, hu, hz]

theorem dateText_ne_empty (t : Timestamp) (h : Printable t) : dateText t ≠ "" := by
  intro hempty
  have hnil : Calendar.toISOString t = [] := by
    simpa [dateText] using congrArg String.toList hempty
  have hparse := Calendar.parseRFC3339_toISOString t h.1 h.2
  rw [hnil] at hparse
  cases hparse

theorem parseTime_dateText (t : Timestamp) (h : Printable t) :
    parseTime (dateText t) = .ok (nanos t) := by
  have hparse := Calendar.parseRFC3339_toISOString t h.1 h.2
  rw [parseTime, if_neg (dateText_ne_empty t h)]
  simp [dateText, hparse, nanos]

theorem optionalTime_dateText (t : Option Timestamp) (h : ∀ u ∈ t, Printable u) :
    optionalTime (t.map dateText) = .ok (t.map nanos) := by
  cases t with
  | none => rfl
  | some u =>
    have hu : Printable u := h u rfl
    have hne := dateText_ne_empty u hu
    simp [optionalTime, hne, parseTime_dateText u hu, bind, Except.bind]

theorem decodePublicKeyRaw_pgEncode (raw : List UInt8) :
    decodePublicKeyRaw (String.ofList (Base64.pgEncode 0 raw)) =
      if raw.length = 32 then .ok raw
      else .error ("public key length " ++ toString raw.length ++ ", want 32") := by
  simp [decodePublicKeyRaw, Base64.decode_pgEncode]

theorem wireKeyToEntry_keyWire (k : PrincipalKeyRow) (e : KeyEntry) (hfrom : Printable k.validFrom)
    (huntil : ∀ u ∈ k.validUntil, Printable u) :
    wireKeyToEntry (keyWire k) = .ok e ↔
      k.keyId ≠ "" ∧ k.publicKeyRaw.length = 32 ∧ e = keyEntry k := by
  unfold wireKeyToEntry
  simp only [keyWire, decodePublicKeyRaw_pgEncode, parseTime_dateText _ hfrom,
    optionalTime_dateText _ huntil]
  by_cases hid : k.keyId = ""
  · simp [hid]
  · by_cases hlen : k.publicKeyRaw.length = 32
    · rw [if_neg hid, if_pos hlen]
      show Except.ok (keyEntry k) = _ ↔ _
      simp [hid, hlen, eq_comm]
    · rw [if_neg hid, if_neg hlen]
      simp [hlen, wrapError, Except.mapError, bind, Except.bind]

theorem store_scores (d : SnapshotData) (rows : List NetworkScoreRow)
    (hlo : ∀ r ∈ rows, -2 ^ 31 ≤ r.score) (hhi : ∀ r ∈ rows, r.score < 2 ^ 31) :
    Json.storeKey snapshotDataFields d ("scores", .arr (rows.map fun r => scoreJson r.toEngineScore)) =
      .ok { d with scores := rows.map fun r => scoreEntry r.toEngineScore } := by
  show (Json.decodeSlice (Json.decodeStruct scoreFields {}) _ >>= _) = _
  rw [Json.decodeSlice_map _ _ (fun r => scoreEntry r.toEngineScore) rows fun r hr =>
    decodeStruct_scoreJson r.toEngineScore (hlo r hr) (hhi r hr)]
  rfl

theorem store_keys (d : SnapshotData) (rows : List PrincipalKeyRow) :
    Json.storeKey snapshotDataFields d ("keys", .arr (rows.map keyJson)) =
      .ok { d with keys := rows.map keyWire } := by
  show (Json.decodeSlice (Json.decodeStruct keyFields {}) _ >>= _) = _
  rw [Json.decodeSlice_map _ _ keyWire rows fun k _ => decodeStruct_keyJson k]
  rfl

def servedWire (s : ServedSnapshot) : SnapshotWire where
  ok := true
  data :=
    { highWaterVersion := some (.int s.highWaterVersion)
      scores := s.scores.map fun r => scoreEntry r.toEngineScore
      keys := s.keys.map keyWire
      policy := s.policy.map policyRowJson }

variable (s : ServedSnapshot)

theorem unmarshalSnapshotWire_body (h : WellTyped s) :
    unmarshalSnapshotWire s.body = .ok (servedWire s) := by
  have hdata : Json.decodeStruct snapshotDataFields {}
      (.obj ([("highWaterVersion", .int s.highWaterVersion),
        ("scores", .arr (s.scores.map fun r => scoreJson r.toEngineScore)),
        ("keys", .arr (s.keys.map keyJson))] ++
        (s.policy.map fun p => ("policy", policyRowJson p)).toList)) =
      .ok (servedWire s).data := by
    show List.foldlM _ _ (("highWaterVersion", _) :: ("scores", _) :: ("keys", _) :: _) = _
    rw [foldlM_cons_of_ok _ rfl, foldlM_cons_of_ok _ (store_scores _ _ h.score_lower h.score_upper),
      foldlM_cons_of_ok _ (store_keys _ _)]
    obtain ⟨hw, scores, keys, policy⟩ := s
    cases policy with
    | none => rfl
    | some p => rfl
  have hwire : Json.decodeStruct snapshotWireFields {} s.body = .ok (servedWire s) := by
    show ((Json.decodeStruct snapshotDataFields {} _ >>= _) >>= _) = _
    rw [hdata]
    rfl
  rw [unmarshalSnapshotWire, hwire]
  rfl

theorem wirePolicy_row (policy : Option PolicyRow)
    (ht : ∀ p ∈ policy, 0 ≤ p.threshold ∧ p.threshold < 2 ^ 31)
    (ha : ∀ p ∈ policy, 0 ≤ p.maxSnapshotAgeSeconds ∧ p.maxSnapshotAgeSeconds < 2 ^ 31) :
    wirePolicy (policy.map policyRowJson) = .ok (policy.map edgePolicy) := by
  cases policy with
  | none => rfl
  | some p =>
    show (parsePolicyPayload (policyRowJson p) >>= _) = _
    rw [parsePolicyPayload_row p (ht p rfl) (ha p rfl)]
    rfl

theorem loadWireKeys_keyWire (h : WellTyped s) (m : Finmap fun _ : String => KeyEntry) :
    loadWireKeys (s.keys.map keyWire) = .ok m ↔
      KeysServable s.keys ∧ m = mapOf KeyEntry.keyId (s.keys.map keyEntry) := by
  have hconv : ∀ k ∈ s.keys, ∀ e, wireKeyToEntry (keyWire k) = .ok e ↔
      k.keyId ≠ "" ∧ k.publicKeyRaw.length = 32 ∧ e = keyEntry k := fun k hk e =>
    wireKeyToEntry_keyWire k e (h.key_from k hk).1 fun u hu => (h.key_until k hk u hu).1
  have hids : (s.keys.map keyEntry).map KeyEntry.keyId = s.keys.map PrincipalKeyRow.keyId := by
    rw [List.map_map]
    rfl
  rw [loadWireKeys_eq_ok]
  constructor
  · intro ⟨es, hes, hnodup, hm⟩
    have hall : ∀ k ∈ s.keys, k.keyId ≠ "" ∧ k.publicKeyRaw.length = 32 := by
      intro k hk
      obtain ⟨e, he⟩ := exists_of_mapM_eq_ok hes (List.mem_map_of_mem hk)
      obtain ⟨hid, hlen, -⟩ := (hconv k hk e).mp he
      exact ⟨hid, hlen⟩
    have hmap := mapM_map_of_ok wireKeyToEntry keyWire keyEntry s.keys fun k hk =>
      (hconv k hk _).mpr ⟨(hall k hk).1, (hall k hk).2, rfl⟩
    cases hes.symm.trans hmap
    exact ⟨⟨hids ▸ hnodup, fun k hk => (hall k hk).1, fun k hk => (hall k hk).2⟩, hm⟩
  · intro ⟨hkeys, hm⟩
    refine ⟨s.keys.map keyEntry, ?_, hids.symm ▸ hkeys.distinct, hm⟩
    apply mapM_map_of_ok
    intro k hk
    exact (hconv k hk _).mpr ⟨hkeys.nonempty k hk, hkeys.length k hk, rfl⟩

theorem validateSnapshot_edgeSnapshot (h : WellTyped s)
    (hkeys : KeysServable s.keys) : validateSnapshot (edgeSnapshot s) = .ok (edgeSnapshot s) := by
  apply validateSnapshot_of_sound
  · exact h.highWater_nonneg
  · intro id e he
    have hnodup : ((s.scores.map fun r => scoreEntry r.toEngineScore).map
        ScoreEntry.principalId).Nodup := by
      rw [List.map_map]
      exact h.score_distinct
    obtain ⟨hmem, hid⟩ := (lookup_mapOf_eq_some_iff _ _ hnodup id e).mp he
    obtain ⟨r, hr, hre⟩ := List.mem_map.mp hmem
    have hne : e.principalId ≠ "" := by
      rw [← hre]
      exact h.score_ids r hr
    rw [scoreFault, if_neg (by rw [← hid]; simp [hne]), if_neg (by simp [hid])]
  · intro id e he
    have hnodup : ((s.keys.map keyEntry).map KeyEntry.keyId).Nodup := by
      rw [List.map_map]
      exact hkeys.distinct
    obtain ⟨hmem, hid⟩ := (lookup_mapOf_eq_some_iff _ _ hnodup id e).mp he
    obtain ⟨k, hk, hke⟩ := List.mem_map.mp hmem
    subst hke
    rw [keyFault_eq_none_iff]
    refine ⟨hid.symm, hkeys.nonempty k hk, h.key_principals k hk, hkeys.length k hk,
      (h.key_from k hk).2, ?_⟩
    intro u hu
    obtain ⟨v, hv, hvu⟩ := Option.mem_map.mp hu
    rw [← hvu]
    exact mul_lt_mul_of_pos_right (h.key_until k hk v hv).2 (by norm_num)
  · intro q hq
    obtain ⟨p, hp, hpq⟩ := Option.mem_map.mp hq
    rw [← hpq]
    exact parsePolicyPayload_normalized _ _
      (parsePolicyPayload_row p (h.policy_threshold p hp) (h.policy_age p hp))

theorem parseSnapshotJSON_body (h : WellTyped s) (snap : Snapshot) :
    parseSnapshotJSON s.body = .ok snap ↔ KeysServable s.keys ∧ snap = edgeSnapshot s := by
  have hnodup : ((s.scores.map fun r => scoreEntry r.toEngineScore).map
      ScoreEntry.principalId).Nodup := by
    rw [List.map_map]
    exact h.score_distinct
  have hscores : loadWireScores (s.scores.map fun r => scoreEntry r.toEngineScore) =
      .ok (edgeSnapshot s).scores := by
    apply loadWireScores_of_distinct _ _ hnodup
    intro e he
    obtain ⟨r, hr, hre⟩ := List.mem_map.mp he
    rw [← hre]
    exact h.score_ids r hr
  have hhw : highWaterOf (some (.int s.highWaterVersion)) = .ok s.highWaterVersion := by
    have hlo := h.highWater_nonneg
    have hhi := h.highWater_lt
    rw [highWaterOf, if_neg (by omega), if_neg (by omega)]
  have hparse : parseSnapshotJSON s.body =
      (loadWireKeys (s.keys.map keyWire) >>= fun keys => wrapError "snapshot" (validateSnapshot
        ⟨s.highWaterVersion, (edgeSnapshot s).scores, keys, (edgeSnapshot s).policy⟩)) := by
    rw [parseSnapshotJSON, unmarshalSnapshotWire_body s h]
    show (highWaterOf (some (.int s.highWaterVersion)) >>= _) = _
    rw [hhw]
    show (loadWireScores (s.scores.map fun r => scoreEntry r.toEngineScore) >>= _) = _
    rw [hscores]
    show (loadWireKeys _ >>= fun keys => wirePolicy (s.policy.map policyRowJson) >>= _) = _
    rw [wirePolicy_row s.policy h.policy_threshold h.policy_age]
    rfl
  rw [hparse, bind_eq_ok]
  constructor
  · intro ⟨keys, hload, hvalid⟩
    obtain ⟨hkeys, hmap⟩ := (loadWireKeys_keyWire s h keys).mp hload
    have hsound := validateSnapshot_edgeSnapshot s h hkeys
    rw [hmap] at hvalid
    cases (wrapError_eq_ok.mp hvalid).symm.trans hsound
    exact ⟨hkeys, rfl⟩
  · intro ⟨hkeys, hsnap⟩
    refine ⟨_, (loadWireKeys_keyWire s h _).mpr ⟨hkeys, rfl⟩, wrapError_eq_ok.mpr ?_⟩
    rw [hsnap]
    exact validateSnapshot_edgeSnapshot s h hkeys

theorem store_keeps_highWater (d d' : SnapshotData) (entry : String × Json)
    (hname : entry.1 = "scores" ∨ entry.1 = "keys" ∨ entry.1 = "policy")
    (h : Json.storeKey snapshotDataFields d entry = .ok d') :
    d'.highWaterVersion = d.highWaterVersion := by
  obtain ⟨name, value⟩ := entry
  rcases hname with hname | hname | hname
  · cases hname
    obtain ⟨x, -, hx⟩ := bind_eq_ok.mp (show (Json.decodeSlice _ value >>= _) = _ from h)
    cases hx
    rfl
  · cases hname
    obtain ⟨x, -, hx⟩ := bind_eq_ok.mp (show (Json.decodeSlice _ value >>= _) = _ from h)
    cases hx
    rfl
  · cases hname
    cases h
    rfl

theorem unmarshalSnapshotWire_highWater (wire : SnapshotWire)
    (h : unmarshalSnapshotWire s.body = .ok wire) :
    wire.data.highWaterVersion = some (.int s.highWaterVersion) := by
  obtain ⟨w, hw, hrest⟩ := bind_eq_ok.mp h
  rw [wrapError_eq_ok] at hw
  obtain ⟨w', hw', hpure⟩ := bind_eq_ok.mp
    (show (Json.storeKey snapshotWireFields { ok := true } ("data", _) >>= pure) = .ok w from hw)
  obtain ⟨d, hd, hset⟩ :=
    bind_eq_ok.mp (show (Json.decodeStruct snapshotDataFields {} _ >>= _) = .ok w' from hw')
  cases hpure
  cases hset
  have hkeep : d.highWaterVersion = some (.int s.highWaterVersion) := by
    apply foldlM_ok_of_mem (Json.storeKey snapshotDataFields)
      (fun d => d.highWaterVersion = some (.int s.highWaterVersion)) _ _
      { highWaterVersion := some (.int s.highWaterVersion) } d rfl
      (show List.foldlM _ _ (("scores", _) :: ("keys", _) :: _) = _ from hd)
    intro d entry d' hentry hprev hstore
    rw [store_keeps_highWater d d' entry _ hstore, hprev]
    rcases List.mem_cons.mp hentry with rfl | hentry
    · exact .inl rfl
    · rcases List.mem_cons.mp hentry with rfl | hentry
      · exact .inr (.inl rfl)
      · obtain ⟨p, -, rfl⟩ := Option.mem_map.mp (Option.mem_toList.mp hentry)
        exact .inr (.inr rfl)
  cases hrest
  exact hkeep

theorem parseSnapshotJSON_highWater (snap : Snapshot)
    (h : parseSnapshotJSON s.body = .ok snap) : snap.highWaterVersion = s.highWaterVersion := by
  obtain ⟨wire, hwire, h⟩ := bind_eq_ok.mp h
  have hdata := unmarshalSnapshotWire_highWater s wire hwire
  split_ifs at h
  obtain ⟨hw, hhw, h⟩ := bind_eq_ok.mp h
  obtain ⟨scores, -, h⟩ := bind_eq_ok.mp h
  obtain ⟨keys, -, h⟩ := bind_eq_ok.mp h
  obtain ⟨policy, -, h⟩ := bind_eq_ok.mp h
  rw [validateSnapshot_highWater _ _ (wrapError_eq_ok.mp h)]
  rw [hdata] at hhw
  simp only [highWaterOf] at hhw
  split_ifs at hhw
  cases hhw
  rfl

end Verilink.Sync

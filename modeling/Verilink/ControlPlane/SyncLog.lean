import Verilink.ControlPlane.Database
import Verilink.Framework.Base64
import Verilink.Framework.TimeText

/-!
# The sync log and the served snapshot

`appendEventWithClient` allocates the next version inside the caller's transaction; `getSnapshot`
reads scores, keys and the tenant's policy at one high-water mark.
-/

namespace Verilink.ControlPlane

open Verilink.Framework

/-- The rows `getSnapshot` reads in one repeatable-read transaction. -/
structure ServedSnapshot where
  highWaterVersion : Int
  scores : List NetworkScoreRow
  keys : List PrincipalKeyRow
  policy : Option PolicyRow

theorem le_foldl_max (l : List Int) (a : Int) : a ≤ l.foldl max a ∧ ∀ x ∈ l, x ≤ l.foldl max a := by
  induction l generalizing a with
  | nil => simp
  | cons y l ih =>
    obtain ⟨hstart, hrest⟩ := ih (max a y)
    simp only [List.foldl_cons, List.forall_mem_cons]
    exact ⟨(le_max_left a y).trans hstart, (le_max_right a y).trans hstart, hrest⟩

namespace Database

theorem highWater_of_rows_append (db db' : Database) (e : SyncEventRow)
    (h : db'.syncEvents.rows = db.syncEvents.rows ++ [e]) :
    db'.highWater = max db.highWater e.syncVersion := by
  simp [highWater, h]

variable (db : Database)

theorem highWater_nonneg : 0 ≤ db.highWater := (le_foldl_max _ 0).1

theorem le_highWater (e : SyncEventRow) (h : e ∈ db.syncEvents.rows) : e.syncVersion ≤ db.highWater :=
  (le_foldl_max _ 0).2 _ (List.mem_map_of_mem h)

def nextEvent (db : Database) (eventType : SyncEventType) (payload : Json)
    (principalId : Option String) (tenantId : Option Uuid) : SyncEventRow :=
  ⟨db.highWater + 1, eventType, principalId.filter (· ≠ ""), tenantId, payload⟩

/-- `BIGINT` and the primary key are the constraints on the inserted row. -/
def appendEventWithClient (db : Database) (eventType : SyncEventType) (payload : Json)
    (principalId : Option String) (tenantId : Option Uuid) : Except String (Database × Int) :=
  let row := db.nextEvent eventType payload principalId tenantId
  if 2 ^ 63 ≤ row.syncVersion then .error "bigint out of range"
  else
    match db.syncEvents.insert? row with
    | none => .error "duplicate key value violates unique constraint \"sync_events_pkey\""
    | some events => .ok ({ db with syncEvents := events }, row.syncVersion)

theorem nextEvent_fresh (eventType : SyncEventType) (payload : Json)
    (principalId : Option String) (tenantId : Option Uuid) (b : SyncEventRow)
    (hb : b ∈ db.syncEvents.rows) :
    ¬ b.syncVersion = (db.nextEvent eventType payload principalId tenantId).syncVersion :=
  (Int.lt_add_one_of_le (db.le_highWater b hb)).ne

theorem appendEventWithClient_eq_ok (db db' : Database) (eventType : SyncEventType)
    (payload : Json) (principalId : Option String) (tenantId : Option Uuid) (v : Int) :
    db.appendEventWithClient eventType payload principalId tenantId = .ok (db', v) ↔
      v = db.highWater + 1 ∧ v < 2 ^ 63 ∧
      db' = { db with syncEvents := db'.syncEvents } ∧
      db'.syncEvents.rows =
        db.syncEvents.rows ++ [db.nextEvent eventType payload principalId tenantId] := by
  unfold appendEventWithClient
  by_cases hbig : 2 ^ 63 ≤ (db.nextEvent eventType payload principalId tenantId).syncVersion
  · simp only [if_pos hbig, reduceCtorEq, false_iff]
    rintro ⟨rfl, hv, -⟩
    simp only [nextEvent] at hbig
    omega
  · rw [if_neg hbig]
    obtain ⟨events, hins⟩ :=
      db.syncEvents.exists_insert? _ (db.nextEvent_fresh eventType payload principalId tenantId)
    have hrows := ((Table.insert?_eq_some_iff _ _ _).mp hins).2
    rw [hins]
    constructor
    · intro h
      cases h
      exact ⟨rfl, not_le.mp hbig, rfl, hrows⟩
    · intro ⟨hv, _, hdb, hrows'⟩
      have hevents : db'.syncEvents = events := Table.ext (hrows'.trans hrows.symm)
      rw [hdb, hevents, hv]
      rfl

theorem appendEventWithClient_of_lt (eventType : SyncEventType) (payload : Json)
    (principalId : Option String) (tenantId : Option Uuid) (h : db.highWater + 1 < 2 ^ 63) :
    ∃ db', db.appendEventWithClient eventType payload principalId tenantId =
      .ok (db', db.highWater + 1) := by
  have hfits : ¬ 2 ^ 63 ≤ (db.nextEvent eventType payload principalId tenantId).syncVersion :=
    not_le.mpr h
  obtain ⟨events, hins⟩ :=
    db.syncEvents.exists_insert? _ (db.nextEvent_fresh eventType payload principalId tenantId)
  refine ⟨{ db with syncEvents := events }, ?_⟩
  rw [appendEventWithClient, if_neg hfits, hins]
  rfl

/-- The log in the order of its versions, which are positive. -/
structure LogOrdered (db : Database) : Prop where
  ascending : db.syncEvents.rows.Pairwise fun a b => a.syncVersion < b.syncVersion
  positive : ∀ e ∈ db.syncEvents.rows, 0 < e.syncVersion

theorem LogOrdered.append {db db' : Database} {eventType : SyncEventType} {payload : Json}
    {principalId : Option String} {tenantId : Option Uuid} (h : LogOrdered db)
    (hlog : db'.syncEvents.rows = db.syncEvents.rows ++
    [db.nextEvent eventType payload principalId tenantId]) :
    LogOrdered db' ∧ db'.highWater = db.highWater + 1 := by
  have hnonneg := db.highWater_nonneg
  refine ⟨⟨?_, ?_⟩, ?_⟩
  · rw [hlog, List.pairwise_append]
    refine ⟨h.ascending, List.pairwise_singleton _ _, ?_⟩
    intro a ha b hb
    have hle := db.le_highWater a ha
    rw [List.mem_singleton.mp hb]
    simp only [nextEvent]
    omega
  · intro e he
    rw [hlog, List.mem_append, List.mem_singleton] at he
    rcases he with he | rfl
    · exact h.positive e he
    · simp only [nextEvent]
      omega
  · rw [db.highWater_of_rows_append db' _ hlog]
    simp [nextEvent]

/-- `ORDER BY sync_version` over the rows after `since` that are global or the tenant's own. -/
def eventsSince (db : Database) (since : Int) (tenantId : Uuid) : List SyncEventRow :=
  (db.syncEvents.rows.filter fun e =>
    since < e.syncVersion ∧ (e.tenantId = none ∨ e.tenantId = some tenantId)).mergeSort
      fun a b => a.syncVersion ≤ b.syncVersion

def visibleTo (tenantId : Uuid) (e : SyncEventRow) : Bool :=
  e.tenantId = none ∨ e.tenantId = some tenantId

/-- In an ordered log the query returns the visible rows in the order of the log. -/
theorem eventsSince_of_ordered {db : Database} (h : LogOrdered db) (since : Int)
    (tenantId : Uuid) : db.eventsSince since tenantId =
      db.syncEvents.rows.filter fun e => since < e.syncVersion ∧ visibleTo tenantId e := by
  unfold eventsSince
  rw [List.mergeSort_of_pairwise]
  · congr 1
    funext e
    simp [visibleTo]
  · apply (h.ascending.filter _).imp
    intro a b hab
    simpa using hab.le

/-- Rows and high-water mark of one repeatable-read snapshot; the limit cuts the rows only. -/
def fetchEventsAndHighWaterInSnapshot (db : Database) (since : Int) (tenantId : Uuid)
    (fetchLimit : Nat) : List SyncEventRow × Int :=
  ((db.eventsSince since tenantId).take fetchLimit, db.highWater)

structure InitialBatchResult where
  events : List SyncEventRow
  highWater : Int
  backlogExceeded : Bool

def getInitialBatchWithHighWater (db : Database) (since : Int) (tenantId : Uuid)
    (maxBatch : Nat) : InitialBatchResult :=
  let (events, highWater) := db.fetchEventsAndHighWaterInSnapshot since tenantId (maxBatch + 1)
  let backlogExceeded : Bool := maxBatch < events.length
  { events := if backlogExceeded then events.take maxBatch else events
    highWater
    backlogExceeded }

def getPollBatchWithHighWater (db : Database) (since : Int) (tenantId : Uuid) (limit : Nat) :
    List SyncEventRow × Int :=
  db.fetchEventsAndHighWaterInSnapshot since tenantId limit

/-- An initial batch that is not refused is complete. -/
theorem getInitialBatchWithHighWater_complete (since : Int) (tenantId : Uuid) (maxBatch : Nat)
    (h : (db.getInitialBatchWithHighWater since tenantId maxBatch).backlogExceeded = false) :
    (db.getInitialBatchWithHighWater since tenantId maxBatch).events =
      db.eventsSince since tenantId := by
  unfold getInitialBatchWithHighWater fetchEventsAndHighWaterInSnapshot at *
  simp only [decide_eq_false_iff_not, List.length_take, not_lt] at h
  have hfits : (db.eventsSince since tenantId).length ≤ maxBatch := by omega
  simp [List.take_of_length_le (hfits.trans (Nat.le_succ _)), not_lt.mpr hfits]

def servesKey (now : Timestamp) (k : PrincipalKeyRow) : Bool :=
  k.revokedAt = none ∧ ∀ u ∈ k.validUntil, now < u

def getSnapshot (db : Database) (tenantId : Uuid) (now : Timestamp) : ServedSnapshot where
  highWaterVersion := db.highWater
  scores := db.networkScores.rows
  keys := db.principalKeys.rows.filter (servesKey now)
  policy := db.getActivePolicy tenantId

end Database

def dateText (t : Timestamp) : String := String.ofList (Calendar.toISOString t)

def numberJson (q : ℚ) : Json := if q.den = 1 then .int q.num else .frac q

def stringsJson (texts : List String) : Json := .arr (texts.map .str)

def scoreJson (r : EngineScore) : Json :=
  .obj [("principal_id", .str r.principalId), ("entity_kind", .str r.entityKind),
    ("score", .int r.score), ("blacklisted", .bool r.blacklisted),
    ("score_reason", .str r.scoreReason)]

def keyJson (k : PrincipalKeyRow) : Json :=
  .obj [("principal_id", .str k.principalId), ("key_id", .str k.keyId),
    ("public_key_raw", .str (String.ofList (Base64.pgEncode 0 k.publicKeyRaw))),
    ("valid_from", .str (dateText k.validFrom)),
    ("valid_until", match k.validUntil with
      | none => .null
      | some u => .str (dateText u))]

def sampleRateText (q : ℚ) : String :=
  toString (q.num / q.den) ++ "." ++
    String.ofList (Calendar.fixedDigits 3 ((q - (q.num / q.den : Int)) * 1000).num.toNat)

/-- The row of `SELECT * FROM policies`, without its id and creation time. -/
def policyRowJson (p : PolicyRow) : Json :=
  .obj [("tenant_id", .str p.tenantId.text), ("name", .str p.name),
    ("threshold", .int p.threshold),
    ("below_threshold_action", .str p.belowThresholdAction.text),
    ("unsigned_action", .str p.unsignedAction.text),
    ("allow_fingerprints", stringsJson p.allowFingerprints),
    ("deny_fingerprints", stringsJson p.denyFingerprints),
    ("fail_open_expired", .bool p.failOpenExpired),
    ("no_drop_decisions", .bool p.noDropDecisions),
    ("max_snapshot_age_seconds", .int p.maxSnapshotAgeSeconds),
    ("allow_sample_rate", .str (sampleRateText p.allowSampleRate)),
    ("is_active", .bool p.isActive)]

/-- The body of `GET /v1/sync/snapshot`; an absent policy is `undefined` and left out. -/
def ServedSnapshot.body (s : ServedSnapshot) : Json :=
  .obj [("ok", .bool true), ("data", .obj
    ([("highWaterVersion", .int s.highWaterVersion),
      ("scores", .arr (s.scores.map fun r => scoreJson r.toEngineScore)),
      ("keys", .arr (s.keys.map keyJson))] ++
      (s.policy.map fun p => ("policy", policyRowJson p)).toList))]

end Verilink.ControlPlane

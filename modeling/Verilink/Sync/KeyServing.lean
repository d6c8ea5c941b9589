import Verilink.ControlPlane.Writes
import Verilink.Sync.Served

/-!
# Keys on their way to the edge

For every reachable control plane: whether the edge accepts the served snapshot and then
finds every current key under its key id.
-/

namespace Verilink.Sync

open Verilink.Framework Verilink.ControlPlane Verilink.Edge

theorem getSnapshot_keys_of_sound {db : Database} (h : Sound db) (tenantId : Uuid)
    (now : Timestamp) : (db.getSnapshot tenantId now).keys = db.principalKeys.rows := by
  show db.principalKeys.rows.filter (Database.servesKey now) = _
  rw [List.filter_eq_self]
  intro k hk
  obtain ⟨huntil, hrevoked⟩ := h.key_current k hk
  simp [Database.servesKey, huntil, hrevoked]

theorem wellTyped_of_sound {db : Database} (h : Sound db) (tenantId : Uuid) (now : Timestamp) :
    WellTyped (db.getSnapshot tenantId now) := by
  have hkeys := getSnapshot_keys_of_sound h tenantId now
  have hpolicy : ∀ p ∈ (db.getSnapshot tenantId now).policy, p ∈ db.policies.rows := fun p hp =>
    List.mem_of_find?_eq_some hp
  refine ⟨db.highWater_nonneg, h.highWater_lt, ?_, ?_, ?_, ?_, ?_, ?_, ?_, ?_, ?_⟩
  · intro r hr
    obtain ⟨p, hp, hid⟩ := h.score_principals r hr
    rw [← hid]
    exact h.principal_ids p hp
  · exact db.networkScores.nodup_map (fun r => r.principalId) fun _ _ heq => heq
  · exact fun r hr => (h.score_range r hr).1
  · exact fun r hr => (h.score_range r hr).2
  · intro k hk
    obtain ⟨p, hp, hid⟩ := h.key_principals k (hkeys ▸ hk)
    rw [← hid]
    exact h.principal_ids p hp
  · intro k hk
    obtain ⟨hlo, hhi⟩ := h.key_times k (hkeys ▸ hk)
    refine ⟨⟨hlo.trans' (by decide), hhi⟩, ?_⟩
    -- an hour before 1970 is later than year 1
    have hpos : zeroTime < nanos k.validFrom :=
      lt_of_lt_of_le (by decide) (mul_le_mul_of_nonneg_right hlo (by decide))
    exact hpos.ne'
  · intro k hk u hu
    rw [(h.key_current k (hkeys ▸ hk)).1] at hu
    cases hu
  · exact fun p hp => (h.policy_range p (hpolicy p hp)).1
  · exact fun p hp => (h.policy_range p (hpolicy p hp)).2

/-- The edge accepts the snapshot served at `now` and then finds every key that is neither
revoked nor outside its validity window, as its principal's key. -/
def KeysReachEdge (db : Database) (tenantId : Uuid) (now : ClockTime) : Prop :=
  ∃ snap, parseSnapshotJSON (db.getSnapshot tenantId now.millis).body = .ok snap ∧
    ∀ k ∈ db.principalKeys.rows, k.revokedAt = none → k.validFrom ≤ now.millis →
      (∀ u ∈ k.validUntil, now.millis < u) → ∀ (store : Store) (t : Time),
        ∃ e, (applySnapshot store t snap).lookupKey k.keyId (nanos now.millis) = some e ∧
          e.principalId = k.principalId ∧ e.keyId = k.keyId ∧ e.publicKeyRaw = k.publicKeyRaw

theorem lookupKey_edgeSnapshot {db : Database} (h : Sound db) (tenantId : Uuid) (now : ClockTime)
    (hkeys : KeysServable db.principalKeys.rows) (k : PrincipalKeyRow)
    (hk : k ∈ db.principalKeys.rows) (hfrom : k.validFrom ≤ now.millis) (store : Store) (t : Time) :
    (applySnapshot store t (edgeSnapshot (db.getSnapshot tenantId now.millis))).lookupKey k.keyId
      (nanos now.millis) = some (keyEntry k) := by
  have hserved := getSnapshot_keys_of_sound h tenantId now.millis
  have hnodup : ((db.principalKeys.rows.map keyEntry).map KeyEntry.keyId).Nodup := by
    rw [List.map_map]
    exact hkeys.distinct
  have hlookup : (edgeSnapshot (db.getSnapshot tenantId now.millis)).keys.lookup k.keyId =
      some (keyEntry k) := by
    show (mapOf KeyEntry.keyId ((db.getSnapshot tenantId now.millis).keys.map keyEntry)).lookup _ = _
    rw [hserved, lookup_mapOf_eq_some_iff _ _ hnodup]
    exact ⟨List.mem_map_of_mem hk, rfl⟩
  have hstarted : ¬ nanos now.millis < nanos k.validFrom :=
    not_lt.mpr (mul_le_mul_of_nonneg_right hfrom (by decide))
  have hopen : (keyEntry k).validUntil = none := by
    simp [keyEntry, (h.key_current k hk).1]
  have hfound : (applySnapshot store t (edgeSnapshot (db.getSnapshot tenantId now.millis))).snapshot.bind
      (fun snap => snap.keys.lookup k.keyId) = some (keyEntry k) := hlookup
  rw [Store.lookupKey, hfound]
  show (if nanos now.millis < nanos k.validFrom then none
    else if ∃ u ∈ (keyEntry k).validUntil, u ≤ nanos now.millis then none
      else some (keyEntry k)) = _
  rw [if_neg hstarted, if_neg (by simp [hopen])]

/-- In every reachable control plane the keys reach the edge exactly when their key ids are
distinct and non-empty and every raw key has 32 bytes. -/
theorem keysReachEdge_iff (keyHash : List UInt8 → String) (db : Database)
    (hdb : (controlPlane keyHash).Reachable db) (tenantId : Uuid) (now : ClockTime) :
    KeysReachEdge db tenantId now ↔ KeysServable db.principalKeys.rows := by
  have hsound := sound_of_reachable hdb
  have hparse := parseSnapshotJSON_body _ (wellTyped_of_sound hsound tenantId now.millis)
  rw [getSnapshot_keys_of_sound hsound] at hparse
  constructor
  · intro ⟨snap, hok, _⟩
    exact ((hparse snap).mp hok).1
  · intro hkeys
    refine ⟨_, (hparse _).mpr ⟨hkeys, rfl⟩, ?_⟩
    intro k hk _ hfrom _ store t
    exact ⟨keyEntry k, lookupKey_edgeSnapshot hsound tenantId now hkeys k hk hfrom store t, rfl,
      rfl, rfl⟩

def textHash (raw : List UInt8) : String := String.ofList (Base64.encode raw)

def august2026 : ClockTime := ⟨1785542400000, by decide, by decide⟩

def edgeTenant : Uuid := ⟨"0b8a6a3e-6a9e-4f0b-9e61-6a6f1f3c2d11", by decide⟩

def agentUuid : Uuid := ⟨"3d5b2a0c-1f3e-4c55-8f27-9d1c0a7b6e42", by decide⟩

def agentKey : List UInt8 := List.replicate 32 7

theorem oneKey_reachable : ∃ db, (controlPlane textHash).Reachable db ∧
    db.principalKeys.rows.map (fun k => (k.keyId, k.publicKeyRaw)) = [("k1", agentKey)] := by
  have hstart : (controlPlane textHash).Reachable Database.empty := System.Reachable.start rfl
  have hprincipal :=
    System.Reachable.next (Write.createPrincipal agentUuid .agent none none, august2026) hstart rfl
  exact ⟨_, System.Reachable.next
    (Write.addKey ("vrl:p:" ++ agentUuid.text) "k1" agentKey (some []) (textHash agentKey), august2026)
    hprincipal rfl, rfl⟩

theorem keysReachEdge_iff_oneKey : ∃ db, db.principalKeys.rows ≠ [] ∧
    KeysReachEdge db edgeTenant august2026 ∧
    (KeysReachEdge db edgeTenant august2026 ↔ KeysServable db.principalKeys.rows) := by
  obtain ⟨db, hdb, hrows⟩ := oneKey_reachable
  have hservable : KeysServable db.principalKeys.rows := by
    cases hk : db.principalKeys.rows with
    | nil => simp [hk] at hrows
    | cons k rest =>
      simp only [hk, List.map_cons, List.cons.injEq, Prod.mk.injEq, List.map_eq_nil_iff] at hrows
      obtain ⟨⟨hid, hraw⟩, hrest⟩ := hrows
      rw [hrest]
      constructor <;> simp [hid, hraw, agentKey]
  have hiff := keysReachEdge_iff textHash db hdb edgeTenant august2026
  refine ⟨db, ?_, hiff.mpr hservable, hiff⟩
  intro hnil
  simp [hnil] at hrows

theorem seeded_keyIds : (Database.seedBootstrapRegistry textHash none august2026.millis
      Database.empty).toOption.map (fun db => db.principalKeys.rows.map PrincipalKeyRow.keyId) =
    some ["bootstrap-k1", "bootstrap-k1"] := by
  decide

/-- After the bootstrap seed no edge accepts the served snapshot. -/
theorem seeded_snapshot_rejected : ∃ db,
    Database.seedBootstrapRegistry textHash none august2026.millis Database.empty = .ok db ∧
      (controlPlane textHash).Reachable db ∧
      ∀ snap, parseSnapshotJSON (db.getSnapshot edgeTenant august2026.millis).body ≠ .ok snap := by
  cases hseed : Database.seedBootstrapRegistry textHash none august2026.millis Database.empty with
  | error err =>
    have h := seeded_keyIds
    rw [hseed] at h
    cases h
  | ok db =>
    have hids := seeded_keyIds
    rw [hseed] at hids
    have hids : db.principalKeys.rows.map PrincipalKeyRow.keyId =
        ["bootstrap-k1", "bootstrap-k1"] := Option.some.inj hids
    have hstart : (controlPlane textHash).Reachable Database.empty := System.Reachable.start rfl
    have hdb : (controlPlane textHash).Reachable db :=
      System.Reachable.next (Write.seedBootstrapRegistry none, august2026) hstart hseed
    refine ⟨db, rfl, hdb, ?_⟩
    intro snap hsnap
    have hsound := sound_of_reachable hdb
    have hkeys := ((parseSnapshotJSON_body _
      (wellTyped_of_sound hsound edgeTenant august2026.millis) snap).mp hsnap).1
    rw [getSnapshot_keys_of_sound hsound] at hkeys
    have hnodup := hkeys.distinct
    rw [hids] at hnodup
    exact absurd hnodup (by decide)

end Verilink.Sync

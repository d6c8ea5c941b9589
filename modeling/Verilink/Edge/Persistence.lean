import Verilink.Edge.StoreMemory
import Verilink.Edge.SnapshotDisk
import Verilink.Framework.Runs

/-!
# Saving and loading the state of a running edge

An edge starts from a snapshot that `parseSnapshotJSON` has accepted and then applies events. Each
handler checks what it stores, so every snapshot it holds is sound.
-/

namespace Verilink.Edge

open Verilink.Framework

/-! ## What the handlers store -/

variable {text : String} {p : Policy}

theorem decodePublicKeyRaw_length {raw : List UInt8} (h : decodePublicKeyRaw text = .ok raw) :
    raw.length = 32 := by
  unfold decodePublicKeyRaw at h
  dsimp only at h
  split at h
  · cases h
  · split_ifs at h with hlength
    cases h
    exact hlength

variable {payload v : Json} {s : ScoreEntry}

theorem decodeStruct_score_range (h : Json.decodeStruct scoreFields {} v = .ok s) : Int64 s.score := by
  refine Json.decodeStruct_preserves (P := fun s : ScoreEntry => Int64 s.score) ?_ ?_ h
  · constructor <;> decide
  · intro f hf s v s' hs hst
    simp only [scoreFields, List.mem_cons, List.not_mem_nil, or_false] at hf
    rcases hf with rfl | rfl | rfl | rfl | rfl <;> obtain ⟨x, hx, he⟩ := bind_eq_ok.mp hst <;> cases he
    · exact hs
    · exact hs
    · exact Json.decodeInt_range hs hx
    · exact hs
    · exact hs

theorem decodeStruct_policy_range (h : Json.decodeStruct policyFields {} v = .ok p) :
    Int64 p.threshold := by
  refine Json.decodeStruct_preserves (P := fun p : Policy => Int64 p.threshold) ?_ ?_ h
  · constructor <;> decide
  · intro f hf p v p' hp hst
    simp only [policyFields, List.mem_cons, List.not_mem_nil, or_false] at hf
    rcases hf with rfl | rfl | rfl | rfl | rfl | rfl | rfl | rfl <;>
      obtain ⟨x, hx, he⟩ := bind_eq_ok.mp hst <;> cases he
    · exact Json.decodeInt_range hp hx
    all_goals exact hp

theorem int64_clampAge (sec : Int) : Int64 (clampAge sec) := by
  unfold Int64 clampAge
  split_ifs <;> omega

theorem parsePolicyPayload_sound (h : parsePolicyPayload payload = .ok p) : p.Sound := by
  have hnormalized := parsePolicyPayload_normalized payload p h
  obtain ⟨q, hq, hp⟩ := bind_eq_ok.mp h
  have hrange := decodeStruct_policy_range (wrapError_eq_ok.mp hq)
  obtain ⟨-, -, hp⟩ := (normalizeAndValidatePolicy_eq_ok _ _).mp (wrapError_eq_ok.mp hp)
  refine ⟨hnormalized, ?_, ?_⟩
  · rw [hp]
    show Int64 (if q.threshold = 0 ∧ q.belowThresholdAction = "" then 50 else q.threshold)
    split_ifs
    · constructor <;> decide
    · exact hrange
  · rw [hp]
    exact int64_clampAge _

def SyncChange.Sound : SyncChange → Prop
  | .setScore e => e.Sound e.principalId
  | .setKey e => e.Sound e.keyId
  | .setPolicy p => p.Sound
  | .deleteScore _ => True
  | .deleteKey _ => True
  | .nothing => True

variable {c : SyncChange} {eventType id : String}

theorem applyScoreUpsert_sound (h : applyScoreUpsert payload = .ok c) : c.Sound := by
  obtain ⟨s, hs, h⟩ := bind_eq_ok.mp h
  split_ifs at h with hempty
  cases h
  exact ⟨rfl, hempty, decodeStruct_score_range (wrapError_eq_ok.mp hs)⟩

theorem applyScoreDelete_sound (h : applyScoreDelete payload = .ok c) : c.Sound := by
  obtain ⟨s, -, h⟩ := bind_eq_ok.mp h
  split_ifs at h
  cases h
  trivial

theorem applyKeyRevoke_sound (h : applyKeyRevoke payload = .ok c) : c.Sound := by
  obtain ⟨k, -, h⟩ := bind_eq_ok.mp h
  split_ifs at h
  cases h
  trivial

theorem applyKeyUpsert_sound (h : applyKeyUpsert payload = .ok c) : c.Sound := by
  obtain ⟨k, -, h⟩ := bind_eq_ok.mp h
  split_ifs at h with hid hprincipal hkey
  obtain ⟨raw, hraw, h⟩ := bind_eq_ok.mp h
  obtain ⟨vf, -, h⟩ := bind_eq_ok.mp h
  have hlength := decodePublicKeyRaw_length hraw
  -- the expiry is stored only after its comparison with the start
  have hstored : ∀ vu : Option Time, (∀ u ∈ vu, vf < u) →
      (SyncChange.setKey ⟨k.principalId, k.keyId, raw, vf, vu⟩).Sound :=
    fun vu hwindow => ⟨rfl, hid, hprincipal, hlength, hwindow⟩
  generalize k.validUntil = validUntil at h
  split at h
  · cases h
    exact hstored none (by simp)
  · cases h
    exact hstored none (by simp)
  · obtain ⟨t, -, h⟩ := bind_eq_ok.mp h
    split_ifs at h with hle
    · cases h
    · cases h
      exact hstored (some t) (by simpa using hle)

theorem parseChange_sound (h : parseChange eventType payload = .ok c) : c.Sound := by
  unfold parseChange at h
  split_ifs at h
  · exact applyScoreUpsert_sound h
  · exact applyScoreDelete_sound h
  · exact applyKeyUpsert_sound h
  · exact applyKeyRevoke_sound h
  · obtain ⟨p, hp, h⟩ := bind_eq_ok.mp h
    cases h
    exact parsePolicyPayload_sound hp
  · cases h
    trivial

variable {payload : Bytes} {snap : Snapshot} {body : Json}

theorem parseChangeRaw_sound (h : parseChangeRaw eventType payload = .ok c) : c.Sound := by
  unfold parseChangeRaw at h
  split at h
  · exact parseChange_sound h
  · split_ifs at h
    cases h
    trivial

theorem SyncChange.apply_sound (hc : c.Sound) (h : snap.Sound) :
    (c.apply snap).Sound := by
  cases c with
  | setScore e =>
    refine ⟨?_, h.keys, h.policy⟩
    intro id s hs
    by_cases hid : id = e.principalId
    · rw [hid] at hs ⊢
      rw [SyncChange.apply, Finmap.lookup_insert, Option.some.injEq] at hs
      exact hs ▸ hc
    · rw [SyncChange.apply, Finmap.lookup_insert_of_ne _ hid] at hs
      exact h.scores id s hs
  | deleteScore key =>
    refine ⟨?_, h.keys, h.policy⟩
    intro id s hs
    by_cases hid : id = key
    · rw [hid, SyncChange.apply, Finmap.lookup_erase] at hs
      cases hs
    · rw [SyncChange.apply, Finmap.lookup_erase_ne hid] at hs
      exact h.scores id s hs
  | setKey e =>
    refine ⟨h.scores, ?_, h.policy⟩
    intro id k hk
    by_cases hid : id = e.keyId
    · rw [hid] at hk ⊢
      rw [SyncChange.apply, Finmap.lookup_insert, Option.some.injEq] at hk
      exact hk ▸ hc
    · rw [SyncChange.apply, Finmap.lookup_insert_of_ne _ hid] at hk
      exact h.keys id k hk
  | deleteKey key =>
    refine ⟨h.scores, ?_, h.policy⟩
    intro id k hk
    by_cases hid : id = key
    · rw [hid, SyncChange.apply, Finmap.lookup_erase] at hk
      cases hk
    · rw [SyncChange.apply, Finmap.lookup_erase_ne hid] at hk
      exact h.keys id k hk
  | setPolicy p =>
    refine ⟨h.scores, h.keys, ?_⟩
    intro q hq
    cases hq
    exact hc
  | nothing => exact h

/-! ## What a snapshot of the wire holds -/

theorem decodeStruct_data_range {d zero : SnapshotData} (hzero : ∀ s ∈ zero.scores, Int64 s.score)
    (h : Json.decodeStruct snapshotDataFields zero v = .ok d) : ∀ s ∈ d.scores, Int64 s.score := by
  refine Json.decodeStruct_preserves (P := fun d : SnapshotData => ∀ s ∈ d.scores, Int64 s.score)
    hzero ?_ h
  intro f hf d v d' hd hst
  simp only [snapshotDataFields, List.mem_cons, List.not_mem_nil, or_false] at hf
  rcases hf with rfl | rfl | rfl | rfl
  · obtain ⟨x, -, he⟩ := bind_eq_ok.mp hst
    cases he
    exact hd
  · obtain ⟨x, hx, he⟩ := bind_eq_ok.mp hst
    cases he
    exact Json.decodeSlice_forall (fun v s => decodeStruct_score_range) hx
  · obtain ⟨x, -, he⟩ := bind_eq_ok.mp hst
    cases he
    exact hd
  · cases hst
    exact hd

theorem unmarshalSnapshotWire_range {wire : SnapshotWire} (h : unmarshalSnapshotWire body = .ok wire) :
    ∀ s ∈ wire.data.scores, Int64 s.score := by
  obtain ⟨w, hw, h⟩ := bind_eq_ok.mp h
  split_ifs at h with hdone
  · cases h
    refine Json.decodeStruct_preserves
      (P := fun w : SnapshotWire => ∀ s ∈ w.data.scores, Int64 s.score) (by simp) ?_
      (wrapError_eq_ok.mp hw)
    intro f hf w v w' hd hst
    simp only [snapshotWireFields, List.mem_cons, List.not_mem_nil, or_false] at hf
    rcases hf with rfl | rfl <;> obtain ⟨x, hx, he⟩ := bind_eq_ok.mp hst <;> cases he
    · exact hd
    · exact decodeStruct_data_range hd hx
  · obtain ⟨d, hd, h⟩ := bind_eq_ok.mp h
    cases h
    exact decodeStruct_data_range (by simp) (wrapError_eq_ok.mp hd)

theorem loadWireScores_forall {P : ScoreEntry → Prop} {scores : List ScoreEntry}
    {m : Finmap fun _ : String => ScoreEntry} (hP : ∀ s ∈ scores, P s)
    (h : loadWireScores scores = .ok m) (hs : m.lookup id = some s) :
    P s := by
  rw [loadWireScores, foldlM_load_eq_ok ScoreEntry.principalId loadWireScore wireScoreToEntry
    loadWireScore_eq_ok] at h
  obtain ⟨es, hes, hnodup, -, rfl⟩ := h
  obtain ⟨hmem, -⟩ := (lookup_mapOf_eq_some_iff ScoreEntry.principalId es hnodup id s).mp hs
  obtain ⟨s', hs', hentry⟩ := mem_of_mapM_eq_ok hes hmem
  rw [wireScoreToEntry] at hentry
  split_ifs at hentry
  cases hentry
  exact hP s hs'

theorem highWaterOf_range {n : Option Json.Number} {hw : Int} (h : highWaterOf n = .ok hw) :
    0 ≤ hw ∧ hw < 2 ^ 63 := by
  unfold highWaterOf at h
  split at h
  · cases h
  · cases h
  · split_ifs at h with hrange hneg
    cases h
    omega

theorem wirePolicy_sound {raw : Option Json} {policy : Option Policy}
    (h : wirePolicy raw = .ok policy) : ∀ p ∈ policy, p.Sound := by
  unfold wirePolicy at h
  split at h
  · cases h
    simp
  · cases h
    simp
  · obtain ⟨q, hq, h⟩ := bind_eq_ok.mp h
    cases h
    intro p hp
    cases hp
    exact parsePolicyPayload_sound hq

theorem scoreFault_eq_none (h : scoreFault id s = none) :
    s.principalId = id ∧ id ≠ "" := by
  unfold scoreFault at h
  split_ifs at h with hempty hkey
  exact ⟨(not_not.mp hkey).symm, fun hid => hempty (.inl hid)⟩

theorem parseSnapshotJSON_sound (h : parseSnapshotJSON body = .ok snap) :
    snap.Sound ∧ 0 ≤ snap.highWaterVersion ∧ snap.highWaterVersion < 2 ^ 63 := by
  obtain ⟨wire, hwire, h⟩ := bind_eq_ok.mp h
  split_ifs at h
  obtain ⟨hw, hhw, h⟩ := bind_eq_ok.mp h
  obtain ⟨scores, hscores, h⟩ := bind_eq_ok.mp h
  obtain ⟨keys, -, h⟩ := bind_eq_ok.mp h
  obtain ⟨policy, hpolicy, h⟩ := bind_eq_ok.mp h
  have hvalid := wrapError_eq_ok.mp h
  have hrange := highWaterOf_range hhw
  obtain ⟨hscoreFault, hkeyFault⟩ := validateSnapshot_faults hvalid
  rw [firstFault_eq_none_iff] at hscoreFault hkeyFault
  have hsame := validateSnapshot_of_sound ⟨hw, scores, keys, policy⟩ hrange.1 hscoreFault hkeyFault
    fun p hp => (wirePolicy_sound hpolicy p hp).normalized
  rw [hvalid, Except.ok.injEq] at hsame
  subst hsame
  refine ⟨⟨?_, ?_, wirePolicy_sound hpolicy⟩, hrange⟩
  · intro id s hs
    obtain ⟨hkey, hne⟩ := scoreFault_eq_none (hscoreFault id s hs)
    exact ⟨hkey, hne, loadWireScores_forall (unmarshalSnapshotWire_range hwire) hscores hs⟩
  · intro id k hk
    obtain ⟨hid, hne, hprincipal, hlength, -, hwindow⟩ :=
      (keyFault_eq_none_iff id k).mp (hkeyFault id k hk)
    exact ⟨hid.symm, hid ▸ hne, hprincipal, hlength, hwindow⟩

/-! ## Runs -/

/-- What reaches the store of an edge after its first snapshot. Versions are of type `int64`. -/
inductive StoreCall
  | applyEvent (now : Time) (syncVersion : Int) (eventType : String) (payload : Bytes)
  | advanceCursor (now : Time) (highWater : Int)

inductive StoreCall.Step : Store → StoreCall → Store → Prop
  | applyEvent {s t : Store} {now : Time} {v : Int} {eventType : String} {payload : Bytes} :
      Int64 v → applyEventRaw s now v eventType payload = .ok t →
      Step s (.applyEvent now v eventType payload) t
  | advanceCursor {s : Store} {now : Time} {v : Int} :
      Int64 v → Step s (.advanceCursor now v) (Edge.advanceCursor s now v)

def storeRuns : System Store StoreCall where
  init s := ∃ body snap before now, parseSnapshotJSON body = .ok snap ∧
    s = applySnapshot before now snap
  step := StoreCall.Step

def Store.call (s : Store) : StoreCall → Store
  | .applyEvent now v eventType payload => (applyEventRaw s now v eventType payload).toOption.getD s
  | .advanceCursor now v => Edge.advanceCursor s now v

namespace MemoryStore

def call (s : MemoryStore) : StoreCall → MemoryStore
  | .applyEvent now v eventType payload => (s.applyEvent now v eventType payload).1
  | .advanceCursor now v => s.advanceCursor now v

theorem grows_call (s : MemoryStore) (c : StoreCall) : s.Grows (s.call c) := by
  cases c with
  | applyEvent now v eventType payload => exact s.grows_applyEvent now v eventType payload
  | advanceCursor now v => exact s.grows_advanceCursor now v

theorem view_call (s : MemoryStore) (hhw : 0 ≤ s.hw) (c : StoreCall) :
    (s.call c).view = s.view.call c := by
  cases c with
  | applyEvent now v eventType payload =>
    obtain ⟨hcall, herror⟩ := s.refines now hhw v eventType payload
    rw [call, Store.call, hcall]
    cases h : (s.applyEvent now v eventType payload).2 with
    | none => rfl
    | some err => exact herror (by simp [h])
  | advanceCursor now v =>
    have hmark : s.view.highWater = s.hw := rfl
    rw [call, Store.call, MemoryStore.advanceCursor, Edge.advanceCursor, Store.advanceHighWater, hmark]
    split_ifs <;> rfl

/-- Any calls show the readers of the store what the calls on values compute. -/
theorem run_refines (s : MemoryStore) (hhw : 0 ≤ s.hw) (calls : List StoreCall) :
    (calls.foldl call s).view = calls.foldl Store.call s.view ∧ s.Grows (calls.foldl call s) := by
  induction calls generalizing s with
  | nil => exact ⟨rfl, le_rfl, le_rfl, fun _ _ => rfl⟩
  | cons c calls ih =>
    have hstep := s.grows_call c
    obtain ⟨hview, hrun⟩ := ih (s.call c) (hhw.trans hstep.mark)
    rw [view_call s hhw] at hview
    refine ⟨hview, hstep.mark.trans hrun.mark, hstep.objects.trans hrun.objects, ?_⟩
    intro p hp
    exact (hrun.unchanged p (hp.trans_le hstep.objects)).trans (hstep.unchanged p hp)

theorem run_refines_new : (0 : Int) ≤ ({} : MemoryStore).hw ∧
    ([.applyEvent 0 1 "key.revoke" [], .advanceCursor 0 5].foldl call {}).view =
      [.applyEvent 0 1 "key.revoke" [], .advanceCursor 0 5].foldl Store.call {} :=
  ⟨le_rfl, (run_refines {} le_rfl _).1⟩

end MemoryStore

variable {s t : Store}

theorem applyEventRaw_cases {now : Time} {v : Int}
    (h : applyEventRaw s now v eventType payload = .ok t) :
    t = s ∨ s.highWater < v ∧ ∃ change, parseChangeRaw eventType payload = .ok change ∧
      t = (s.swap { change.apply (cloneSnapshot s.snapshot) with
        highWaterVersion := v }).noteBytes now := by
  by_cases hpos : v ≤ 0
  · have herror : ∀ value, applyEvent s now v eventType value ≠ .ok t := by
      intro value hok
      rw [applyEvent, if_pos hpos] at hok
      cases hok
    unfold applyEventRaw at h
    split at h
    · exact absurd h (herror _)
    · split_ifs at h
      exact absurd h (herror _)
  · by_cases hlt : s.highWater < v
    · rw [applyEventRaw_of_lt s now eventType payload (not_le.mp hpos) hlt, map_eq_ok] at h
      obtain ⟨change, hchange, rfl⟩ := h
      exact .inr ⟨hlt, change, hchange, rfl⟩
    · have hskip : ∀ value, applyEvent s now v eventType value = .ok s :=
        fun value => applyEvent_of_le s now v eventType value (not_le.mp hpos) (not_lt.mp hlt)
      unfold applyEventRaw at h
      left
      split at h
      · rw [hskip, Except.ok.injEq] at h
        exact h.symm
      · rw [if_neg fun hn => hlt hn.1, hskip, Except.ok.injEq] at h
        exact h.symm

structure Store.Sound (s : Store) : Prop where
  snapshot : (cloneSnapshot s.snapshot).Sound
  nonneg : 0 ≤ s.highWater
  range : s.highWater < 2 ^ 63

theorem advanceCursor_cases (s : Store) (now : Time) (v : Int) :
    (advanceCursor s now v).snapshot = s.snapshot ∧
      ((advanceCursor s now v).highWater = s.highWater ∨
        0 < v ∧ (advanceCursor s now v).highWater = v) := by
  unfold advanceCursor Store.advanceHighWater
  split_ifs with hskip
  · exact ⟨rfl, .inl rfl⟩
  · exact ⟨rfl, .inr ⟨by omega, rfl⟩⟩

theorem step_sound {call : StoreCall} (hst : StoreCall.Step s call t) (h : s.Sound) :
    t.Sound := by
  cases hst with
  | applyEvent hv hok =>
    rcases applyEventRaw_cases hok with rfl | ⟨hlt, change, hchange, rfl⟩
    · exact h
    · have hnext := SyncChange.apply_sound (parseChangeRaw_sound hchange) h.snapshot
      exact ⟨⟨hnext.scores, hnext.keys, hnext.policy⟩, h.nonneg.trans hlt.le, hv.2⟩
  | @advanceCursor now v hv =>
    obtain ⟨hsnapshot, hhw⟩ := advanceCursor_cases s now v
    rcases hhw with hhw | ⟨hpos, hhw⟩
    · exact ⟨hsnapshot ▸ h.snapshot, hhw ▸ h.nonneg, hhw ▸ h.range⟩
    · exact ⟨hsnapshot ▸ h.snapshot, hpos.le.trans_eq hhw.symm, hhw.trans_lt hv.2⟩

theorem reachable_sound (h : storeRuns.Reachable s) : s.Sound := by
  have hinit : ∀ s, storeRuns.init s → s.Sound := by
    rintro s ⟨body, snap, before, now, hparse, rfl⟩
    obtain ⟨hsound, hnonneg, hrange⟩ := parseSnapshotJSON_sound hparse
    exact ⟨hsound, hnonneg, hrange⟩
  exact h.invariant hinit fun s call t hs hst => step_sound hst hs

/-- After any run, the saved state is loaded again as it was exactly when every key the edge holds
has a `valid_from` other than the zero time and times in the years that RFC 3339 can name. -/
theorem saved_state_loads {s : Store} (h : storeRuns.Reachable s)
    (order : SaveOrder s.snapshotForPersist) (path : String) (hpath : path ≠ "") (files : Files)
    (hsize : (Json.marshal (diskEnvelopeJson s.snapshotForPersist order)).length ≤
      maxSnapshotBytes) :
    (∃ saved loaded, saveSnapshot path s.snapshotForPersist order files = .ok saved ∧
      loadSnapshot path saved = .ok loaded ∧
      loaded.scores = (cloneSnapshot s.snapshot).scores ∧
      loaded.keys = (cloneSnapshot s.snapshot).keys ∧
      loaded.policy = (cloneSnapshot s.snapshot).policy ∧
      loaded.highWaterVersion = s.highWater) ↔
    ∀ id k, (cloneSnapshot s.snapshot).keys.lookup id = some k → k.Durable := by
  have hsound := reachable_sound h
  have hpersist : s.snapshotForPersist.Sound :=
    ⟨hsound.snapshot.scores, hsound.snapshot.keys, hsound.snapshot.policy⟩
  have hsave : ∃ saved, saveSnapshot path s.snapshotForPersist order files = .ok saved :=
    ⟨_, if_neg hpath⟩
  obtain ⟨saved, hsaved⟩ := hsave
  have hload := loadSnapshot_of_saved hpersist order hsound.nonneg hsound.range hsize hsaved
  constructor
  · rintro ⟨saved', loaded, hsaved', hloaded, -⟩
    rw [hsaved, Except.ok.injEq] at hsaved'
    subst hsaved'
    exact ((hload loaded).mp hloaded).1
  · intro hdurable
    exact ⟨saved, _, hsaved, (hload _).mpr ⟨hdurable, rfl⟩, rfl, rfl, rfl, rfl⟩

/-! ## Two edges with one key -/

def sampleKeyPayload (validFrom : String) : Json :=
  .obj [("principal_id", .str "p"), ("key_id", .str "k"),
    ("public_key_raw", .str "AAAAAAAAAAAAAAAAAAAAAAAAAAAAAAAAAAAAAAAAAAA="),
    ("valid_from", .str validFrom)]

def sampleKey (validFrom : Time) : KeyEntry := ⟨"p", "k", List.replicate 32 0, validFrom, none⟩

def sampleKeys (validFrom : Time) : Finmap fun _ : String => KeyEntry :=
  Finmap.singleton "k" (sampleKey validFrom)

def sampleStore (validFrom : Time) : Store where
  snapshot := some { highWaterVersion := 1, keys := sampleKeys validFrom }
  highWater := 1
  lastBytes := some 0

def sampleOrder (validFrom : Time) : SaveOrder (sampleStore validFrom).snapshotForPersist where
  scores := ⟨[], List.nodupKeys_nil, rfl⟩
  keys := ⟨[⟨"k", sampleKey validFrom⟩], List.nodupKeys_singleton _, rfl⟩
  allowNil := true
  denyNil := true

variable {validFrom : Time}

theorem sampleStore_reachable
    (h : parseChange "key.upsert" (sampleKeyPayload text) = .ok (.setKey (sampleKey validFrom))) :
    storeRuns.Reachable (sampleStore validFrom) := by
  have hvalid : validateSnapshot {} = .ok {} := by
    apply validateSnapshot_of_sound <;> simp
  have hparse : parseSnapshotJSON (.obj [("highWaterVersion", .int 0)]) = .ok {} := by
    have hbody : parseSnapshotJSON (.obj [("highWaterVersion", .int 0)]) =
        wrapError "snapshot" (validateSnapshot {}) := rfl
    rw [hbody, hvalid, wrapError_ok]
  have hstart : storeRuns.Reachable (applySnapshot {} 0 {}) :=
    System.Reachable.start ⟨_, _, _, _, hparse, rfl⟩
  refine hstart.next (.applyEvent 0 1 "key.upsert" (Json.marshal (sampleKeyPayload text)))
    (.applyEvent ⟨by decide, by decide⟩ ?_)
  have hraw : parseChangeRaw "key.upsert" (Json.marshal (sampleKeyPayload text)) =
      .ok (.setKey (sampleKey validFrom)) := by
    rw [parseChangeRaw, Json.parse_marshal rfl]
    exact h
  rw [applyEventRaw_of_lt _ _ _ _ (by decide) (by decide), hraw]
  rfl

theorem sampleStore_lookup {k : KeyEntry}
    (h : (cloneSnapshot (sampleStore validFrom).snapshot).keys.lookup id = some k) :
    k = sampleKey validFrom := by
  have hkeys : (sampleKeys validFrom).lookup id = some k := h
  have hmem : id ∈ sampleKeys validFrom := Finmap.mem_iff.mpr ⟨k, hkeys⟩
  have hid : id = "k" := (Finmap.mem_singleton _ _ _).mp hmem
  subst hid
  exact (Option.some.inj (Finmap.lookup_singleton_eq.symm.trans hkeys)).symm

def newYear2026 : Time := 1767225600 * 1000000000

theorem saved_state_loads_new_year : ∃ saved loaded,
    saveSnapshot "snap.json" (sampleStore newYear2026).snapshotForPersist (sampleOrder newYear2026) ∅ =
      .ok saved ∧
    loadSnapshot "snap.json" saved = .ok loaded ∧
    loaded.scores = ∅ ∧ loaded.keys = sampleKeys newYear2026 ∧
    loaded.policy = none ∧ loaded.highWaterVersion = 1 := by
  have hparse : parseChange "key.upsert" (sampleKeyPayload "2026-01-01T00:00:00Z") =
      .ok (.setKey (sampleKey newYear2026)) := by decide
  have hsize : (Json.marshal (diskEnvelopeJson (sampleStore newYear2026).snapshotForPersist
      (sampleOrder newYear2026))).length ≤ maxSnapshotBytes := by decide +kernel
  refine (saved_state_loads (sampleStore_reachable hparse) (sampleOrder newYear2026) "snap.json"
    (by decide) ∅ hsize).mpr ?_
  intro id k hk
  rw [sampleStore_lookup hk]
  exact ⟨by decide, by decide, by simp [sampleKey]⟩

/-- A `key.upsert` event with the zero time as `valid_from` is applied; the file with that key is
never loaded. -/
theorem zero_valid_from_not_loaded :
    parseChange "key.upsert" (sampleKeyPayload "0001-01-01T00:00:00Z") =
      .ok (.setKey (sampleKey zeroTime)) ∧
    storeRuns.Reachable (sampleStore zeroTime) ∧
    (Json.marshal (diskEnvelopeJson (sampleStore zeroTime).snapshotForPersist
      (sampleOrder zeroTime))).length ≤ maxSnapshotBytes ∧
    ∃ saved, saveSnapshot "snap.json" (sampleStore zeroTime).snapshotForPersist
        (sampleOrder zeroTime) ∅ = .ok saved ∧
      ∀ loaded, loadSnapshot "snap.json" saved ≠ .ok loaded := by
  have hparse : parseChange "key.upsert" (sampleKeyPayload "0001-01-01T00:00:00Z") =
      .ok (.setKey (sampleKey zeroTime)) := by decide
  have hsize : (Json.marshal (diskEnvelopeJson (sampleStore zeroTime).snapshotForPersist
      (sampleOrder zeroTime))).length ≤ maxSnapshotBytes := by decide +kernel
  have hreach := sampleStore_reachable hparse
  have hsound := reachable_sound hreach
  have hpersist : (sampleStore zeroTime).snapshotForPersist.Sound :=
    ⟨hsound.snapshot.scores, hsound.snapshot.keys, hsound.snapshot.policy⟩
  refine ⟨hparse, hreach, hsize, _, if_neg (by decide), ?_⟩
  intro loaded hloaded
  obtain ⟨hdurable, -⟩ := (loadSnapshot_of_saved hpersist (sampleOrder zeroTime) hsound.nonneg
    hsound.range hsize (if_neg (by decide)) loaded).mp hloaded
  exact (hdurable "k" (sampleKey zeroTime) Finmap.lookup_singleton_eq).set rfl

end Verilink.Edge

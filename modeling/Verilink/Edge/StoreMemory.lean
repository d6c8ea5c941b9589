import Verilink.Edge.SseReader

/-!
# The store in memory

In Go a snapshot is an object with two maps, and maps are shared through references.
-/

namespace Verilink.Edge

open Verilink.Framework

/-- Only the handlers look at the payload. -/
def parseChangeRaw (eventType : String) (payload : Bytes) : Except String SyncChange :=
  match Json.parse payload with
  | some value => parseChange eventType value
  | none =>
    if eventType ∈ payloadTypes then .error (eventType ++ ": invalid JSON") else .ok .nothing

/-! ## Objects and maps -/

/-- A snapshot object. Its maps are references; a policy is replaced and never written to. -/
structure SnapshotObject where
  highWaterVersion : Int
  scores : Nat
  keys : Nat
  policy : Option Policy

structure Memory where
  scores : List (Finmap fun _ : String => ScoreEntry) := []
  keys : List (Finmap fun _ : String => KeyEntry) := []
  snapshots : List SnapshotObject := []
  inRange : ∀ o ∈ snapshots, o.scores < scores.length ∧ o.keys < keys.length := by simp

namespace Memory

def read (m : Memory) (p : Nat) : Option Snapshot :=
  m.snapshots[p]?.map fun o =>
    ⟨o.highWaterVersion, m.scores.getD o.scores ∅, m.keys.getD o.keys ∅, o.policy⟩

def alloc (m : Memory) (snap : Snapshot) : Memory where
  scores := m.scores ++ [snap.scores]
  keys := m.keys ++ [snap.keys]
  snapshots := m.snapshots ++
    [⟨snap.highWaterVersion, m.scores.length, m.keys.length, snap.policy⟩]
  inRange := by
    intro o ho
    simp only [List.mem_append, List.mem_singleton, List.length_append, List.length_singleton] at ho ⊢
    rcases ho with ho | rfl
    · have := m.inRange o ho
      omega
    · exact ⟨Nat.lt_succ_self _, Nat.lt_succ_self _⟩

def writeScores (m : Memory) (p : Nat) (f : (Finmap fun _ : String => ScoreEntry) →
    Finmap fun _ : String => ScoreEntry) : Memory :=
  { m with
    scores := m.scores.modify ((m.snapshots[p]?.map SnapshotObject.scores).getD m.scores.length) f
    inRange := by simpa using m.inRange }

def writeKeys (m : Memory) (p : Nat) (f : (Finmap fun _ : String => KeyEntry) →
    Finmap fun _ : String => KeyEntry) : Memory :=
  { m with
    keys := m.keys.modify ((m.snapshots[p]?.map SnapshotObject.keys).getD m.keys.length) f
    inRange := by simpa using m.inRange }

def writeFields (m : Memory) (p : Nat) (version : Int → Int) (policy : Option Policy → Option Policy) :
    Memory :=
  { m with
    snapshots := m.snapshots.modify p fun o =>
      ⟨version o.highWaterVersion, o.scores, o.keys, policy o.policy⟩
    inRange := by
      intro o ho
      obtain ⟨i, hi⟩ := List.mem_iff_getElem?.mp ho
      rw [List.getElem?_modify] at hi
      obtain ⟨x, hx, rfl⟩ := Option.map_eq_some_iff.mp hi
      have hrange := m.inRange x (List.mem_of_getElem? hx)
      split <;> exact hrange }

@[simp]
theorem length_alloc (m : Memory) (snap : Snapshot) :
    (m.alloc snap).snapshots.length = m.snapshots.length + 1 := by
  simp [alloc]

@[simp]
theorem length_writeFields (m : Memory) (p : Nat) (version : Int → Int)
    (policy : Option Policy → Option Policy) :
    (m.writeFields p version policy).snapshots.length = m.snapshots.length := by
  simp [writeFields]

end Memory

/-- The last statement of a handler, through the references of the object `next`. -/
def SyncChange.write (m : Memory) (next : Nat) : SyncChange → Memory
  | .setScore e => m.writeScores next fun scores => scores.insert e.principalId e
  | .deleteScore id => m.writeScores next fun scores => scores.erase id
  | .setKey e => m.writeKeys next fun keys => keys.insert e.keyId e
  | .deleteKey id => m.writeKeys next fun keys => keys.erase id
  | .setPolicy p => m.writeFields next id fun _ => some p
  | .nothing => m

@[simp]
theorem SyncChange.length_write (m : Memory) (next : Nat) (c : SyncChange) :
    (c.write m next).snapshots.length = m.snapshots.length := by
  cases c with
  | setPolicy p => exact Memory.length_writeFields _ _ _ _
  | _ => rfl

/-- The store: a pointer to an allocated object, and the high-water mark beside it. -/
structure MemoryStore where
  memory : Memory := {}
  ptr : Option Nat := none
  hw : Int := 0
  lastBytes : Option Time := none
  allocated : ∀ p ∈ ptr, p < memory.snapshots.length := by simp

namespace MemoryStore

def view (s : MemoryStore) : Store := ⟨s.ptr.bind s.memory.read, s.hw, s.lastBytes⟩

def clone (s : MemoryStore) : MemoryStore :=
  { s with
    memory := s.memory.alloc (cloneSnapshot s.view.snapshot)
    allocated := by
      intro p hp
      rw [Memory.length_alloc]
      exact Nat.lt_succ_of_lt (s.allocated p hp) }

def applyEvent (s : MemoryStore) (now : Time) (syncVersion : Int) (eventType : String)
    (payload : Bytes) : MemoryStore × Option String :=
  if syncVersion ≤ 0 then (s, some ("invalid sync_version " ++ toString syncVersion))
  else if syncVersion ≤ s.hw then (s, none)
  else
    let next := s.memory.snapshots.length
    match parseChangeRaw eventType payload with
    | .error err => (s.clone, some err)
    | .ok change =>
      let memory := (change.write s.clone.memory next).writeFields next (fun _ => syncVersion) id
      ({ memory := memory
         ptr := some next
         hw := syncVersion
         lastBytes := some now
         allocated := by simp [memory, next, clone] }, none)

def advanceCursor (s : MemoryStore) (now : Time) (highWater : Int) : MemoryStore :=
  if highWater ≤ 0 ∨ highWater ≤ s.hw then { s with lastBytes := some now }
  else { s with hw := highWater, lastBytes := some now }

end MemoryStore

/-! ## The new object is not shared -/

theorem modify_concat {α : Type} (l : List α) (a : α) (f : α → α) :
    (l ++ [a]).modify l.length f = l ++ [f a] := by
  induction l with
  | nil => rfl
  | cons b l ih => simp [ih]

namespace Memory

variable (m : Memory) (snap : Snapshot)

theorem read_alloc_new : (m.alloc snap).read m.snapshots.length = some snap := by
  simp [read, alloc]

theorem read_alloc_old {p : Nat} (hp : p < m.snapshots.length) :
    (m.alloc snap).read p = m.read p := by
  have hobject : (m.alloc snap).snapshots[p]? = m.snapshots[p]? := List.getElem?_append_left hp
  have hrange := m.inRange m.snapshots[p] (List.getElem_mem hp)
  unfold read
  rw [hobject, List.getElem?_eq_getElem hp]
  simp only [Option.map_some, alloc, Option.some.injEq, Snapshot.mk.injEq, true_and, and_true]
  constructor
  · simp [List.getElem?_append_left hrange.1]
  · simp [List.getElem?_append_left hrange.2]

end Memory

theorem write_alloc (m : Memory) (snap : Snapshot) (c : SyncChange) :
    c.write (m.alloc snap) m.snapshots.length = m.alloc (c.apply snap) := by
  cases c <;> simp [SyncChange.write, SyncChange.apply, Memory.writeScores, Memory.writeKeys,
    Memory.writeFields, Memory.alloc, modify_concat]

theorem writeFields_alloc (m : Memory) (snap : Snapshot) (v : Int) :
    (m.alloc snap).writeFields m.snapshots.length (fun _ => v) id =
      m.alloc { snap with highWaterVersion := v } := by
  simp [Memory.writeFields, Memory.alloc, modify_concat]

namespace MemoryStore

variable (s : MemoryStore) (now : Time)

def publish (syncVersion : Int) (change : SyncChange) : MemoryStore where
  memory := s.memory.alloc
    { change.apply (cloneSnapshot s.view.snapshot) with highWaterVersion := syncVersion }
  ptr := some s.memory.snapshots.length
  hw := syncVersion
  lastBytes := some now
  allocated := by simp

/-- The outcomes of a call: it is refused, skipped, refused after the clone, or published. -/
theorem applyEvent_cases (syncVersion : Int) (eventType : String) (payload : Bytes) :
    (syncVersion ≤ 0 ∧ s.applyEvent now syncVersion eventType payload =
      (s, some ("invalid sync_version " ++ toString syncVersion))) ∨
    (0 < syncVersion ∧ syncVersion ≤ s.hw ∧ s.applyEvent now syncVersion eventType payload = (s, none)) ∨
    (0 < syncVersion ∧ s.hw < syncVersion ∧ ∃ err, parseChangeRaw eventType payload = .error err ∧
      s.applyEvent now syncVersion eventType payload = (s.clone, some err)) ∨
    (0 < syncVersion ∧ s.hw < syncVersion ∧ ∃ change, parseChangeRaw eventType payload = .ok change ∧
      s.applyEvent now syncVersion eventType payload =
        (s.publish now syncVersion change, none)) := by
  unfold applyEvent
  split_ifs with hpos hskip
  · exact .inl ⟨hpos, rfl⟩
  · exact .inr (.inl ⟨not_le.mp hpos, hskip, rfl⟩)
  · cases hchange : parseChangeRaw eventType payload with
    | error err => exact .inr (.inr (.inl ⟨not_le.mp hpos, not_le.mp hskip, err, rfl, rfl⟩))
    | ok change =>
      refine .inr (.inr (.inr ⟨not_le.mp hpos, not_le.mp hskip, change, rfl, ?_⟩))
      simp only [clone, publish, write_alloc, writeFields_alloc]

/-- The mark only rises, and no object that was there before is written to, so readers of older
snapshots are safe. -/
structure Grows (t : MemoryStore) : Prop where
  mark : s.hw ≤ t.hw
  objects : s.memory.snapshots.length ≤ t.memory.snapshots.length
  unchanged : ∀ p < s.memory.snapshots.length, t.memory.read p = s.memory.read p

theorem grows_applyEvent (syncVersion : Int) (eventType : String) (payload : Bytes) :
    s.Grows (s.applyEvent now syncVersion eventType payload).1 := by
  have hobjects : ∀ snap, s.memory.snapshots.length ≤ (s.memory.alloc snap).snapshots.length := by simp
  rcases s.applyEvent_cases now syncVersion eventType payload with
    ⟨-, h⟩ | ⟨-, -, h⟩ | ⟨-, -, err, -, h⟩ | ⟨-, hlt, change, -, h⟩ <;> rw [h]
  · exact ⟨le_rfl, le_rfl, fun _ _ => rfl⟩
  · exact ⟨le_rfl, le_rfl, fun _ _ => rfl⟩
  · exact ⟨le_rfl, hobjects _, fun _ => Memory.read_alloc_old _ _⟩
  · exact ⟨hlt.le, hobjects _, fun _ => Memory.read_alloc_old _ _⟩

theorem grows_advanceCursor (highWater : Int) : s.Grows (s.advanceCursor now highWater) := by
  unfold advanceCursor
  split_ifs with hold
  · exact ⟨le_rfl, le_rfl, fun _ _ => rfl⟩
  · exact ⟨(not_le.mp (not_or.mp hold).2).le, le_rfl, fun _ _ => rfl⟩

theorem view_clone : s.clone.view = s.view := by
  have hread : s.ptr.bind s.clone.memory.read = s.ptr.bind s.memory.read := by
    apply Option.bind_congr
    intro p hp
    exact Memory.read_alloc_old _ _ (s.allocated p hp)
  exact congrArg (fun snap => (⟨snap, s.hw, s.lastBytes⟩ : Store)) hread

theorem view_publish (syncVersion : Int) (change : SyncChange) :
    (s.publish now syncVersion change).view =
      (s.view.swap { change.apply (cloneSnapshot s.view.snapshot) with
        highWaterVersion := syncVersion }).noteBytes now := by
  simp only [view, publish, Option.bind_some, Memory.read_alloc_new]
  rfl

end MemoryStore

theorem applyEventRaw_of_lt (store : Store) (now : Time) {v : Int} (eventType : String)
    (payload : Bytes) (hpos : 0 < v) (hlt : store.highWater < v) :
    applyEventRaw store now v eventType payload = (parseChangeRaw eventType payload).map fun change =>
        (store.swap { change.apply (cloneSnapshot store.snapshot) with
          highWaterVersion := v }).noteBytes now := by
  unfold applyEventRaw parseChangeRaw
  cases Json.parse payload with
  | some value =>
    dsimp only
    rw [applyEvent_of_lt _ _ _ _ _ hpos hlt, mutateSnapshot]
    cases parseChange eventType value <;> rfl
  | none =>
    dsimp only
    by_cases hmem : eventType ∈ payloadTypes
    · rw [if_pos ⟨hlt, hmem⟩, if_pos hmem]
      rfl
    · have hother : parseChange eventType .null = .ok .nothing := by
        simp only [payloadTypes, List.mem_cons, List.not_mem_nil, or_false, not_or] at hmem
        simp [parseChange, hmem]
      rw [if_neg (fun h => hmem h.2), if_neg hmem, applyEvent_of_lt _ _ _ _ _ hpos hlt, mutateSnapshot,
        hother]
      rfl

/-- The call on values is what is seen of the call in memory; an error leaves nothing to see. -/
theorem MemoryStore.refines (s : MemoryStore) (now : Time) (hhw : 0 ≤ s.hw) (v : Int)
    (eventType : String) (payload : Bytes) :
    applyEventRaw s.view now v eventType payload =
        (match (s.applyEvent now v eventType payload).2 with
          | none => .ok (s.applyEvent now v eventType payload).1.view
          | some err => .error err) ∧
      ((s.applyEvent now v eventType payload).2 ≠ none →
        (s.applyEvent now v eventType payload).1.view = s.view) := by
  have hold : v ≤ s.hw → applyEventRaw s.view now v eventType payload =
      if v ≤ 0 then .error ("invalid sync_version " ++ toString v) else .ok s.view := by
    intro hle
    have hview : v ≤ s.view.highWater := hle
    unfold applyEventRaw
    cases Json.parse payload with
    | some value => simp [Edge.applyEvent, hview]
    | none => simp [Edge.applyEvent, hview, not_lt.mpr hview]
  rcases s.applyEvent_cases now v eventType payload with
    ⟨hpos, h⟩ | ⟨hpos, hskip, h⟩ | ⟨hpos, hlt, err, hchange, h⟩ | ⟨hpos, hlt, change, hchange, h⟩
  · rw [h, hold (hpos.trans hhw), if_pos hpos]
    exact ⟨rfl, fun _ => rfl⟩
  · rw [h, hold hskip, if_neg (not_le.mpr hpos)]
    exact ⟨rfl, fun hne => absurd rfl hne⟩
  · rw [h, applyEventRaw_of_lt _ _ _ _ hpos hlt, hchange]
    exact ⟨rfl, fun _ => s.view_clone⟩
  · rw [h, applyEventRaw_of_lt _ _ _ _ hpos hlt, hchange]
    refine ⟨?_, fun hne => absurd rfl hne⟩
    rw [view_publish]
    rfl

end Verilink.Edge

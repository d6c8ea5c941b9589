import Verilink.Edge.Wal

/-!
# Opening the decision log

`NewDecisionWAL`: the file is read twice, once for the watermark and the next number and once for
the decisions above the watermark; then it is opened for appending, and age and capacity are
enforced.
-/

namespace Verilink.Edge

open Verilink.Framework

def defaultWALMaxBytes : Int := 268435456

def defaultNoDropWALBytes : Int := 8589934592

def defaultWALMaxAge : Int := 86400 * 1000000000

structure WalConfig where
  hasPath : Bool
  maxBytes : Int := 0
  maxAge : Int := 0
  noDrop : Bool := false

def walFormat : LineFormat WalLine WalError where
  limit := walMaxLineBytes
  decode := WalLine.decode
  tooLong := .other "bufio.Scanner: token too long"
  torn := .other "wal load line"

structure Watermarks where
  ackThrough : Int := 0
  nextSeq : Int := 1
  deriving DecidableEq

def Watermarks.step (m : Watermarks) (line : WalLine) : Watermarks :=
  if line.type = "meta" then
    if m.nextSeq < line.nextSeq then { m with nextSeq := line.nextSeq } else m
  else if line.type = "dec" then
    if m.nextSeq ≤ line.walSeq then { m with nextSeq := line.walSeq + 1 } else m
  else if line.type = "ack" then
    if m.ackThrough < line.through then { m with ackThrough := line.through } else m
  else m

def scanWALWatermarks (content : Bytes) : Except WalError Watermarks :=
  walFormat.scanFile (fun m line => .ok (m.step line)) content {}

structure Loaded where
  sawMeta : Bool := false
  entries : List WalEntry := []
  bytes : Int := 0

def reloadedEntry (d : Decision) : WalEntry := ⟨d, estimateDecisionBytes d⟩

def Loaded.step (ackThrough : Int) (s : Loaded) (line : WalLine) : Except WalError Loaded :=
  if line.type = "meta" then
    if line.schemaVersion ≠ 0 ∧ line.schemaVersion ≠ walSchemaVersion then
      .error (.other ("unsupported wal schema_version " ++ toString line.schemaVersion))
    else .ok { s with sawMeta := true }
  else if line.type = "dec" then
    if line.walSeq ≤ ackThrough then .ok s
    else
      .ok { s with
        entries := s.entries ++ [reloadedEntry line.decision]
        bytes := s.bytes + estimateDecisionBytes line.decision }
  else .ok s

def Queue.loadStream (q : Queue) (content : Bytes) : Except WalError Queue := do
  let m ← scanWALWatermarks content
  let s ← walFormat.scanFile (Loaded.step m.ackThrough) content {}
  .ok
    { q with
      nextSeq := m.nextSeq
      entries := s.entries
      bytes := s.bytes
      staleBytes := if !s.sawMeta ∧ s.entries = [] ∧ m.ackThrough = 0 then q.staleBytes else 0 }

def noDropLimitError (bytes maxBytes : Int) : WalError :=
  .other ("wal loaded " ++ toString bytes ++ " bytes exceeds no-drop limit " ++ toString maxBytes ++
    "; drain or raise VERILINK_WAL_MAX_BYTES")

namespace Wal

/-- `openAndLoad` after `loadStream`: the file is opened, and made if it is not there. -/
def enforceLimits (w : Wal) (now : Time) : WalOutcome :=
  if w.disk.content = [] then w.onDisk (w.disk.writeLineLocked (metaLine w.queue.nextSeq) true)
  else
    (w.pruneExpiredLocked now).andThen fun w =>
      if w.queue.noDrop ∧ w.queue.maxBytes < w.queue.bytes then
        (w, some (noDropLimitError w.queue.bytes w.queue.maxBytes))
      else w.dropForCapacityLocked 0

def openAndLoad (w : Wal) (file : Option Bytes) (now : Time) : WalOutcome :=
  match file with
  | none => enforceLimits { w with disk := { w.disk with handle := .named, content := [] } } now
  | some content =>
    match w.queue.loadStream content with
    | .error err => ({ w with disk := { w.disk with content := content } }, some err)
    | .ok q =>
      enforceLimits
        { queue := q, disk := { w.disk with handle := .named, content := content } } now

end Wal

/-- The log before anything is loaded. `dropped` is what the counter says. -/
def WalConfig.empty (cfg : WalConfig) (dropped : Nat) (writes : List WriteAnswer) : Wal where
  queue :=
    { maxBytes :=
        if cfg.maxBytes ≤ 0 then
          if cfg.noDrop then defaultNoDropWALBytes else defaultWALMaxBytes
        else cfg.maxBytes
      maxAge := if cfg.maxAge = 0 then defaultWALMaxAge else cfg.maxAge
      forcedNoDrop := cfg.noDrop
      noDrop := cfg.noDrop
      dropped := dropped }
  disk := { hasPath := cfg.hasPath, writes := writes }

def newDecisionWAL (cfg : WalConfig) (dropped : Nat) (writes : List WriteAnswer)
    (file : Option Bytes) (now : Time) : WalOutcome :=
  if cfg.hasPath then (cfg.empty dropped writes).openAndLoad file now
  else (cfg.empty dropped writes, none)

/-! ## Numbers of what is loaded -/

theorem Watermarks.nextSeq_le_step (m : Watermarks) (line : WalLine) :
    m.nextSeq ≤ (m.step line).nextSeq := by
  unfold Watermarks.step
  split_ifs <;> simp <;> omega

theorem Watermarks.walSeq_lt_step (m : Watermarks) {line : WalLine} (h : line.type = "dec") :
    line.walSeq < (m.step line).nextSeq := by
  have hmeta : line.type ≠ "meta" := by rw [h]; decide
  rw [Watermarks.step, if_neg hmeta, if_pos h]
  split
  · exact Int.lt_add_one_of_le le_rfl
  · exact not_le.mp ‹_›

theorem scanWALWatermarks_bound {content : Bytes} {m : Watermarks}
    (h : scanWALWatermarks content = .ok m) :
    ∀ line ∈ (scanLines content).filterMap walFormat.record,
      line.type = "dec" → line.walSeq < m.nextSeq := by
  apply foldlM_ok_of_step (fun m line => .ok (Watermarks.step m line))
    (fun m seen => ∀ line ∈ seen, line.type = "dec" → line.walSeq < m.nextSeq) _ _ {} m
    (List.forall_mem_nil _) (LineFormat.foldlM_of_scan h)
  intro m seen line m' hseen hstep
  cases hstep
  simp only [List.forall_mem_append, List.forall_mem_singleton]
  exact ⟨fun l hl hdec => (hseen l hl hdec).trans_le (m.nextSeq_le_step line), m.walSeq_lt_step⟩

theorem Loaded.entries_of_scan {ackThrough : Int} {content : Bytes} {s : Loaded}
    (h : walFormat.scanFile (Loaded.step ackThrough) content {} = .ok s) :
    ∀ e ∈ s.entries, ∃ line ∈ (scanLines content).filterMap walFormat.record,
      line.type = "dec" ∧ e.record = line.decision := by
  apply foldlM_ok_of_step (Loaded.step ackThrough)
    (fun s seen => ∀ e ∈ s.entries, ∃ line ∈ seen, line.type = "dec" ∧ e.record = line.decision)
    _ _ {} s (List.forall_mem_nil _) (LineFormat.foldlM_of_scan h)
  intro s seen line s' hseen hstep
  have hold : ∀ e ∈ s.entries, ∃ l ∈ seen ++ [line], l.type = "dec" ∧ e.record = l.decision := by
    intro e he
    obtain ⟨l, hl, hdec⟩ := hseen e he
    exact ⟨l, List.mem_append_left _ hl, hdec⟩
  unfold Loaded.step at hstep
  split at hstep
  · split at hstep <;> cases hstep
    exact hold
  · split at hstep
    · rename_i hdec
      split at hstep <;> cases hstep
      · exact hold
      · simp only [List.forall_mem_append, List.forall_mem_singleton]
        exact ⟨hold, line, by simp, hdec, rfl⟩
    · cases hstep
      exact hold

theorem loadStream_bound {q q' : Queue} {content : Bytes} (h : q.loadStream content = .ok q') :
    ∀ e ∈ q'.entries, e.record.walSeq < q'.nextSeq := by
  obtain ⟨m, hm, hrest⟩ := bind_eq_ok.mp h
  obtain ⟨s, hs, hq⟩ := bind_eq_ok.mp hrest
  cases hq
  intro e he
  obtain ⟨line, hline, hdec, hrec⟩ := Loaded.entries_of_scan hs e he
  rw [hrec]
  exact scanWALWatermarks_bound hm line hline hdec

theorem Wal.enforceLimits_dropped (w : Wal) (now : Time) :
    ∃ k, Queue.Dropped k w.queue (w.enforceLimits now).1.queue := by
  rw [Wal.enforceLimits]
  split
  · exact ⟨0, .refl _⟩
  · obtain ⟨j, hj⟩ := w.pruneExpiredLocked_dropped now
    rcases Outcome.andThen_cases (w.pruneExpiredLocked now) _ with ⟨-, h⟩ | ⟨e, -, h⟩ <;> rw [h]
    · split
      · exact ⟨j, hj⟩
      · obtain ⟨k, hk⟩ := (w.pruneExpiredLocked now).1.dropForCapacityLocked_dropped 0
        exact ⟨j + k, hj.trans hk⟩
    · exact ⟨j, hj⟩

theorem newDecisionWAL_bound (cfg : WalConfig) (dropped : Nat) (writes : List WriteAnswer)
    (file : Option Bytes) (now : Time) :
    ∀ e ∈ (newDecisionWAL cfg dropped writes file now).1.queue.entries,
      e.record.walSeq < (newDecisionWAL cfg dropped writes file now).1.queue.nextSeq := by
  have henforce : ∀ w : Wal, (∀ e ∈ w.queue.entries, e.record.walSeq < w.queue.nextSeq) →
      ∀ e ∈ (w.enforceLimits now).1.queue.entries,
        e.record.walSeq < (w.enforceLimits now).1.queue.nextSeq := by
    intro w hw e he
    obtain ⟨k, hk⟩ := w.enforceLimits_dropped now
    rw [hk.entries] at he
    rw [hk.nextSeq]
    exact hw e (List.mem_of_mem_drop he)
  rw [newDecisionWAL]
  split
  · unfold Wal.openAndLoad
    split
    · exact henforce _ (List.forall_mem_nil _)
    · split
      · exact List.forall_mem_nil _
      · rename_i q hq
        exact henforce _ (loadStream_bound hq)
  · exact List.forall_mem_nil _

end Verilink.Edge

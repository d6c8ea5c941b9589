import Verilink.ControlPlane.BatchIngest
import Verilink.Edge.FlushWorker
import Verilink.Sync.BatchAgreement

/-!
# An edge node and the control plane

The runs of one node: its process opens a log, appends and flushes, and may stop at any time; the
next process opens whatever file is there, or a log in memory.
-/

namespace Verilink.Sync

open Verilink.Framework Verilink.ControlPlane Verilink.Edge

structure NodeSetting where
  sha : Sha256
  dateParse : String → Option Int
  timestamptz : String → Int
  batchSize : Nat := 100
  tenantId : Uuid
  nodeId : Uuid

def NodeSetting.env (c : NodeSetting) : IngestEnv := ⟨c.sha.hex, c.dateParse, c.timestamptz⟩

/-- `edge` is the running process. A run also records the decisions that have been in a log of the
node and the batches that the control plane has accepted. -/
structure NodeRun where
  edge : Option EdgeRun := none
  sent : List FlushBatch := []
  tables : DecisionTables := {}
  known : List Decision := []
  committed : List FlushBatch := []

inductive NodeAction
  | start (cfg : WalConfig) (dropped : Nat) (writes : List WriteAnswer) (file : Option Bytes)
      (now : Time)
  | stop
  | edge (a : EdgeAction)
  | ingest (request : Nat) (active : Option PolicyRow)
  | foreign (tenantId nodeId : Uuid) (active : Option PolicyRow) (body : DecisionBatchWire)

namespace NodeRun

/-- The control plane has the batch, so it answers with a success. -/
def answered (c : NodeSetting) (t : DecisionTables) (b : FlushBatch) : Bool :=
  t.batches.rows.any fun r => r.edgeNodeId = c.nodeId ∧ r.batchId = toLowerCase b.batchId ∧
    r.payloadHash = toLowerCase b.payloadHash

/-- A success that the worker sees is one that the control plane gave. -/
def truthful (c : NodeSetting) (t : DecisionTables) (worker : WorkerState) (a : EdgeAction) : Bool :=
  match worker, a with
  | .sending _ b, .work answer => !answer.sent || answered c t b
  | _, _ => true

def newlySent (before after : WorkerState) : List FlushBatch :=
  match before, after with
  | .flushing _, .sending _ b => [b]
  | _, _ => []

def newlyLogged (e e' : EdgeRun) (a : EdgeAction) : List Decision :=
  match a with
  | .append d clock _ _ _ =>
    if e'.wal.queue.nextSeq = e.wal.queue.nextSeq then [] else [e.wal.stamped d clock]
  | _ => []

def started (w : Wal) : EdgeRun := { wal := w, droppedBefore := w.queue.dropped }

def receive (c : NodeSetting) (s : NodeRun) (b : FlushBatch) (active : Option PolicyRow) :
    Option NodeRun :=
  (received b).bind fun body =>
    match ingestDecisionBatch c.env c.tenantId c.nodeId active s.tables body with
    | .error _ => none
    | .ok (result, t) =>
      some { s with
        tables := t
        committed := if result.duplicate then s.committed else s.committed ++ [b] }

def next (c : NodeSetting) (s : NodeRun) : NodeAction → Option NodeRun
  | .start cfg dropped writes file now =>
    let r := newDecisionWAL cfg dropped writes file now
    if s.edge.isSome ∨ r.2 ≠ none then none
    else
      some { s with
        edge := some (started r.1)
        known := s.known ++ r.1.queue.records.filter (· ∉ s.known) }
  | .stop => some { s with edge := none }
  | .edge a =>
    s.edge.bind fun e =>
      if truthful c s.tables e.worker a then
        let e' := e.next c.sha c.batchSize a
        some { s with
          edge := some e'
          sent := s.sent ++ newlySent e.worker e'.worker
          known := s.known ++ newlyLogged e e' a }
      else none
  | .ingest request active => s.sent[request]?.bind fun b => s.receive c b active
  | .foreign tenantId nodeId active body =>
    if nodeId = c.nodeId then none
    else
      match ingestDecisionBatch c.env tenantId nodeId active s.tables body with
      | .error _ => none
      | .ok (_, t) => some { s with tables := t }

end NodeRun

/-- Nothing of the node is known at first; other nodes may have sent batches. -/
def nodeSystem (c : NodeSetting) : System NodeRun NodeAction where
  init s := ∃ t : DecisionTables, s = { tables := t } ∧
    (∀ r ∈ t.samples.rows, r.edgeNodeId ≠ c.nodeId) ∧ ∀ r ∈ t.batches.rows, r.edgeNodeId ≠ c.nodeId
  step s a t := s.next c a = some t

/-! ## What arrives is what was sent -/

theorem eq_receivedDecision {d : Decision} {w : DecisionWire}
    (h : DecisionWire.ofJson (decisionWire d) = some w) : w = receivedDecision d := by
  have hnumber : ∀ (n : Int) q, jsNumber (.int n) = some q → q = n := by
    intro n q hq
    rw [jsNumber] at hq
    split_ifs at hq
    exact (Option.some.inj hq).symm
  simp [DecisionWire.ofJson, decisionWire, member, optionalMember, jsString, jsBool, timeJson,
    Option.bind_eq_some_iff] at h
  obtain ⟨q, hq, s, hs, rfl⟩ := h
  rw [hnumber _ _ hq, hnumber _ _ hs]
  rfl

theorem mapM_ofJson_eq {ds : List Decision} {ws : List DecisionWire}
    (h : (ds.map decisionWire).mapM DecisionWire.ofJson = some ws) : ws = ds.map receivedDecision := by
  induction ds generalizing ws with
  | nil =>
    cases h
    rfl
  | cons d ds ih =>
    simp only [List.map_cons, List.mapM_cons, Option.bind_eq_bind, Option.bind_eq_some_iff] at h
    obtain ⟨w, hw, ws', hws', heq⟩ := h
    cases heq
    rw [eq_receivedDecision hw, ih hws', List.map_cons]

theorem received_eq_some {b : FlushBatch} {body : DecisionBatchWire} (h : received b = some body) :
    body.batchId = b.batchId ∧ body.decisions = b.decisions.map receivedDecision := by
  have hfree : Json.fracFree b.toJson = true := by
    simp [FlushBatch.toJson, Json.fracFree, fracFree_decisionWire]
  rw [received, FlushBatch.body, Json.parse_marshal hfree, FlushBatch.toJson, Option.bind_some] at h
  generalize hwires : b.decisions.map decisionWire = wires at h
  simp [DecisionBatchWire.ofJson, member, jsString, Option.bind_eq_some_iff] at h
  obtain ⟨first, -, last, -, ws, hws, rfl⟩ := h
  subst hwires
  exact ⟨rfl, mapM_ofJson_eq hws⟩

/-! ## What a step of the process does -/

namespace NodeRun

variable {sha : Sha256} {n : Nat} {e : EdgeRun}

theorem sublist_work (answer : WorkAnswer) :
    (e.work sha n answer).wal.queue.records.Sublist e.wal.queue.records := by
  rw [EdgeRun.work]
  split
  · exact .refl _
  · split
    · exact .refl _
    · split
      · exact .refl _
      · split <;> exact .refl _
  · split <;> exact .refl _
  · split <;> exact .refl _
  · rename_i batch _
    obtain ⟨k, hk⟩ := (e.wal.answering answer.writes answer.compact).ackThrough_spec batch.lastWalSeq
    rw [Queue.records, hk.entries]
    exact (List.drop_sublist k _).map _
  · split
    · exact .refl _
    · split <;> exact .refl _

theorem records_next (a : EdgeAction) : ∀ d ∈ (e.next sha n a).wal.queue.records,
    d ∈ e.wal.queue.records ∨ d ∈ newlyLogged e (e.next sha n a) a := by
  intro d hd
  cases a with
  | append x clock now writes compact =>
    obtain ⟨k, new, hspec⟩ := (e.wal.answering writes compact).append_spec x clock now
    have hentries : (e.next sha n (.append x clock now writes compact)).wal.queue.entries =
        e.wal.queue.entries.drop k ++ new := hspec.entries
    have hnext : (e.next sha n (.append x clock now writes compact)).wal.queue.nextSeq =
        e.wal.queue.nextSeq + new.length := hspec.nextSeq
    rw [Queue.records, hentries, List.map_append, List.map_drop, List.mem_append] at hd
    rcases hd with hold | hnew
    · exact .inl (List.mem_of_mem_drop hold)
    · rcases hspec.new with ⟨rfl, -⟩ | ⟨size, rfl⟩
      · cases hnew
      · right
        rw [newlyLogged, if_neg (by rw [hnext]; simp)]
        exact hnew
  | setNoDrop v => exact .inl hd
  | close => exact .inl hd
  | flushOnce =>
    rw [EdgeRun.next] at hd
    split at hd <;> exact .inl hd
  | flushAll =>
    rw [EdgeRun.next] at hd
    split at hd <;> exact .inl hd
  | work answer => exact .inl ((sublist_work answer).subset hd)

theorem newlySent_next {a : EdgeAction} {b : FlushBatch}
    (hb : b ∈ newlySent e.worker (e.next sha n a).worker) :
    ∃ d ds, e.wal.pending n = d :: ds ∧ b = buildFlushBatch sha d ds := by
  cases hworker : e.worker with
  | flushing head =>
    cases a with
    | work answer =>
      rw [EdgeRun.next, EdgeRun.work, hworker] at hb
      dsimp only at hb
      split at hb
      · exfalso
        revert hb
        cases head <;> simp [newlySent, WorkerState.returned]
      · rename_i d ds hpending
        exact ⟨d, ds, hpending, List.mem_singleton.mp hb⟩
    | append x clock now writes compact => simp [EdgeRun.next, EdgeRun.append, newlySent, hworker] at hb
    | setNoDrop v => simp [EdgeRun.next, newlySent, hworker] at hb
    | close => simp [EdgeRun.next, newlySent, hworker] at hb
    | flushOnce => simp [EdgeRun.next, newlySent, hworker] at hb
    | flushAll => simp [EdgeRun.next, newlySent, hworker] at hb
  | idle => simp [newlySent, hworker] at hb
  | draining lastAcked => simp [newlySent, hworker] at hb
  | sending head batch => simp [newlySent, hworker] at hb
  | acking head batch => simp [newlySent, hworker] at hb
  | drained head => simp [newlySent, hworker] at hb

theorem decisions_of_newlySent {a : EdgeAction} {b : FlushBatch}
    (hb : b ∈ newlySent e.worker (e.next sha n a).worker) :
    ∀ d ∈ b.decisions, d ∈ e.wal.queue.records := by
  obtain ⟨d, ds, hpending, rfl⟩ := newlySent_next hb
  intro x hx
  have hmem : x ∈ e.wal.pending n := hpending ▸ hx
  rw [Wal.pending, List.map_take] at hmem
  exact List.mem_of_mem_take hmem

/-- A request that the control plane handles leaves the batch recorded or changes nothing. -/
theorem receive_cases {c : NodeSetting} {s s' : NodeRun} {b : FlushBatch} {active : Option PolicyRow}
    (h : s.receive c b active = some s') :
    s' = s ∨ ∃ body batches, received b = some body ∧
      s.tables.batches.insert? (batchRow c.tenantId c.nodeId body) = some batches ∧
      s' = { s with
        tables := recordBatch c.env c.tenantId c.nodeId s.tables (loadSampleRate active) batches body
        committed := s.committed ++ [b] } := by
  obtain ⟨body, hbody, h⟩ := Option.bind_eq_some_iff.mp h
  cases hingest : ingestDecisionBatch c.env c.tenantId c.nodeId active s.tables body with
  | error err =>
    rw [hingest] at h
    cases h
  | ok r =>
    obtain ⟨result, t⟩ := r
    rw [hingest] at h
    cases h
    rcases ingestDecisionBatch_cases hingest with ⟨hnew, batches, hins, rfl⟩ | ⟨hold, rfl, -⟩
    · exact .inr ⟨body, batches, hbody, hins, by rw [hnew]; rfl⟩
    · exact .inl (by rw [hold]; rfl)

theorem foreign_cases {c : NodeSetting} {s s' : NodeRun} {tenantId nodeId : Uuid}
    {active : Option PolicyRow}
    {body : DecisionBatchWire} (h : s.next c (.foreign tenantId nodeId active body) = some s') :
    nodeId ≠ c.nodeId ∧ (s' = s ∨ ∃ batches,
      s.tables.batches.insert? (batchRow tenantId nodeId body) = some batches ∧
      s' = { s with
        tables := recordBatch c.env tenantId nodeId s.tables (loadSampleRate active) batches body }) := by
  rw [NodeRun.next] at h
  split_ifs at h with hnode
  refine ⟨hnode, ?_⟩
  cases hingest : ingestDecisionBatch c.env tenantId nodeId active s.tables body with
  | error err =>
    rw [hingest] at h
    cases h
  | ok r =>
    obtain ⟨result, t⟩ := r
    rw [hingest] at h
    cases h
    rcases ingestDecisionBatch_cases hingest with ⟨-, batches, hins, rfl⟩ | ⟨-, rfl, -⟩
    · exact .inr ⟨batches, hins, rfl⟩
    · exact .inl rfl

end NodeRun

end Verilink.Sync

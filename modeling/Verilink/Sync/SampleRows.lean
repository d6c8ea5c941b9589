import Verilink.Sync.DecisionDelivery

/-!
# A row for every denied decision

A sample is keyed by the node and the number of the decision in the log, and a second row with the
same key is not written.
-/

namespace Verilink.Sync

open Verilink.Framework Verilink.ControlPlane Verilink.Edge

namespace NodeRun

/-- The node does not use a number for a second decision: neither the file that a process opens nor
the counter of an append brings back a number of another decision. -/
def numbersFresh (s : NodeRun) : NodeAction → Bool
  | .start cfg dropped writes file now =>
    let loaded := (newDecisionWAL cfg dropped writes file now).1.queue.records
    (loaded.map Decision.walSeq).Nodup ∧
      ∀ d ∈ loaded, ∀ x ∈ s.known, x.walSeq = d.walSeq → x = d
  | .edge (.append _ _ _ _ _) =>
    ∀ e ∈ s.edge, ∀ x ∈ s.known, x.walSeq ≠ e.wal.queue.nextSeq
  | _ => true

def rowOf (c : NodeSetting) (d : Decision) : SampleRow :=
  sampleRow c.env c.tenantId c.nodeId (receivedDecision d)

structure Inv (c : NodeSetting) (s : NodeRun) : Prop where
  numbers : (s.known.map Decision.walSeq).Nodup
  pending : ∀ e ∈ s.edge, ∀ d ∈ e.wal.queue.records, d ∈ s.known
  sent : ∀ b ∈ s.sent, ∀ d ∈ b.decisions, d ∈ s.known
  rows : ∀ r ∈ s.tables.samples.rows, r.edgeNodeId = c.nodeId → ∃ d ∈ s.known, r = rowOf c d
  committed : ∀ b ∈ s.committed, b ∈ s.sent
  denied : ∀ b ∈ s.committed, ∀ d ∈ b.decisions, d.action = "deny" →
    rowOf c d ∈ s.tables.samples.rows

variable {c : NodeSetting} {s s' : NodeRun}

theorem Inv.row_eq (h : Inv c s) {r : SampleRow} (hr : r ∈ s.tables.samples.rows)
    {d : Decision} (hd : d ∈ s.known) (hconflict : r.Conflict (rowOf c d)) : r = rowOf c d := by
  obtain ⟨x, hx, rfl⟩ := h.rows r hr hconflict.1
  have hcast : (x.walSeq : ℚ) = d.walSeq := hconflict.2
  have hseq : x.walSeq = d.walSeq := by exact_mod_cast hcast
  rw [List.inj_on_of_nodup_map h.numbers hx hd hseq]

theorem Inv.start (h : Inv c s) {w : Wal} (hnodup : (w.queue.records.map Decision.walSeq).Nodup)
    (hfresh : ∀ d ∈ w.queue.records, ∀ x ∈ s.known, x.walSeq = d.walSeq → x = d) :
    Inv c { s with
      edge := some (started w), known := s.known ++ w.queue.records.filter (· ∉ s.known) } := by
  refine ⟨?_, ?_, ?_, ?_, h.committed, h.denied⟩
  · rw [List.map_append, List.nodup_append']
    refine ⟨h.numbers, hnodup.sublist (List.filter_sublist.map _), ?_⟩
    intro q hq hq'
    obtain ⟨x, hx, rfl⟩ := List.mem_map.mp hq
    obtain ⟨d, hd, hseq⟩ := List.mem_map.mp hq'
    rw [List.mem_filter, decide_eq_true_eq] at hd
    exact hd.2 (hfresh d hd.1 x hx hseq.symm ▸ hx)
  · intro e he d hd
    cases he
    by_cases hknown : d ∈ s.known
    · exact List.mem_append_left _ hknown
    · exact List.mem_append_right _ (List.mem_filter.mpr ⟨hd, decide_eq_true hknown⟩)
  · exact fun b hb d hd => List.mem_append_left _ (h.sent b hb d hd)
  · intro r hr hnode
    obtain ⟨d, hd, hrow⟩ := h.rows r hr hnode
    exact ⟨d, List.mem_append_left _ hd, hrow⟩

theorem newlyLogged_cases {e : EdgeRun} (he : s.edge = some e) (e' : EdgeRun) {a : EdgeAction}
    (hfresh : s.numbersFresh (.edge a) = true) :
    newlyLogged e e' a = [] ∨
      ∃ d, newlyLogged e e' a = [d] ∧ ∀ x ∈ s.known, x.walSeq ≠ d.walSeq := by
  cases a with
  | append x clock now writes compact =>
    rw [numbersFresh, decide_eq_true_eq] at hfresh
    by_cases hnext : e'.wal.queue.nextSeq = e.wal.queue.nextSeq
    · exact .inl (if_pos hnext)
    · exact .inr ⟨_, if_neg hnext, hfresh e he⟩
  | setNoDrop v => exact .inl rfl
  | close => exact .inl rfl
  | flushOnce => exact .inl rfl
  | flushAll => exact .inl rfl
  | work answer => exact .inl rfl

theorem Inv.process (h : Inv c s) {e : EdgeRun} (he : s.edge = some e) (a : EdgeAction)
    (hfresh : s.numbersFresh (.edge a) = true) :
    Inv c { s with
      edge := some (e.next c.sha c.batchSize a)
      sent := s.sent ++ newlySent e.worker (e.next c.sha c.batchSize a).worker
      known := s.known ++ newlyLogged e (e.next c.sha c.batchSize a) a } := by
  have hlogged := newlyLogged_cases he (e.next c.sha c.batchSize a) hfresh
  refine ⟨?_, ?_, ?_, ?_, ?_, h.denied⟩
  · rcases hlogged with hnone | ⟨d, hone, hnew⟩
    · rw [hnone, List.append_nil]
      exact h.numbers
    · rw [hone, List.map_append, List.map_singleton, List.nodup_append']
      refine ⟨h.numbers, List.nodup_singleton _, ?_⟩
      rw [List.disjoint_singleton]
      intro hmem
      obtain ⟨x, hx, hseq⟩ := List.mem_map.mp hmem
      exact hnew x hx hseq
  · intro e' he' d hd
    cases he'
    rcases records_next a d hd with hold | hnew
    · exact List.mem_append_left _ (h.pending e he d hold)
    · exact List.mem_append_right _ hnew
  · intro b hb d hd
    apply List.mem_append_left
    rcases List.mem_append.mp hb with hb | hb
    · exact h.sent b hb d hd
    · exact h.pending e he d (decisions_of_newlySent hb d hd)
  · intro r hr hnode
    obtain ⟨d, hd, hrow⟩ := h.rows r hr hnode
    exact ⟨d, List.mem_append_left _ hd, hrow⟩
  · exact fun b hb => List.mem_append_left _ (h.committed b hb)

theorem Inv.record (h : Inv c s) {b : FlushBatch} (hb : b ∈ s.sent) {body : DecisionBatchWire}
    (hbody : received b = some body) (rate : ℚ) (batches : Table BatchRow BatchRow.Conflict) :
    Inv c { s with
      tables := recordBatch c.env c.tenantId c.nodeId s.tables rate batches body
      committed := s.committed ++ [b] } := by
  have hdecisions := (received_eq_some hbody).2
  have hsampled : ∀ w ∈ sampled c.env rate body, ∃ d ∈ b.decisions, w = receivedDecision d := by
    intro w hw
    have hmem := List.mem_of_mem_filter hw
    rw [hdecisions] at hmem
    obtain ⟨d, hd, rfl⟩ := List.mem_map.mp hmem
    exact ⟨d, hd, rfl⟩
  obtain ⟨hold, hnew, hconflict⟩ := Table.foldl_insertNew (fun a => ⟨rfl, rfl⟩)
    ((sampled c.env rate body).map (sampleRow c.env c.tenantId c.nodeId)) s.tables.samples
  have hrows : ∀ r ∈ (insertSamples c.env c.tenantId c.nodeId s.tables.samples
      (sampled c.env rate body)).rows, r.edgeNodeId = c.nodeId → ∃ d ∈ s.known, r = rowOf c d := by
    intro r hr hnode
    rcases hnew r hr with hr | hr
    · exact h.rows r hr hnode
    · obtain ⟨w, hw, rfl⟩ := List.mem_map.mp hr
      obtain ⟨d, hd, rfl⟩ := hsampled w hw
      exact ⟨d, h.sent b hb d hd, rfl⟩
  have hafter : Inv c { s with
      tables := recordBatch c.env c.tenantId c.nodeId s.tables rate batches body } :=
    ⟨h.numbers, h.pending, h.sent, hrows, h.committed, fun b' hb' d hd hdeny =>
      hold (h.denied b' hb' d hd hdeny)⟩
  refine ⟨h.numbers, h.pending, h.sent, hrows, ?_, ?_⟩
  · rw [List.forall_mem_append, List.forall_mem_singleton]
    exact ⟨h.committed, hb⟩
  · rw [List.forall_mem_append, List.forall_mem_singleton]
    refine ⟨hafter.denied, ?_⟩
    intro d hd hdeny
    have hmem : receivedDecision d ∈ sampled c.env rate body := by
      apply mem_sampled_of_deny _ hdeny
      rw [hdecisions]
      exact List.mem_map_of_mem hd
    obtain ⟨r, hr, hrd⟩ := hconflict _ (List.mem_map_of_mem hmem)
    rw [← hafter.row_eq hr (h.sent b hb d hd) hrd]
    exact hr

theorem Inv.foreign (h : Inv c s) {tenantId nodeId : Uuid} (hnode : nodeId ≠ c.nodeId)
    {body : DecisionBatchWire} (rate : ℚ) (batches : Table BatchRow BatchRow.Conflict) :
    Inv c { s with tables := recordBatch c.env tenantId nodeId s.tables rate batches body } := by
  obtain ⟨hold, hnew, -⟩ := Table.foldl_insertNew (fun a => ⟨rfl, rfl⟩)
    ((sampled c.env rate body).map (sampleRow c.env tenantId nodeId)) s.tables.samples
  refine ⟨h.numbers, h.pending, h.sent, ?_, h.committed,
    fun b hb d hd hdeny => hold (h.denied b hb d hd hdeny)⟩
  intro r hr hrnode
  rcases hnew r hr with hr | hr
  · exact h.rows r hr hrnode
  · obtain ⟨w, -, rfl⟩ := List.mem_map.mp hr
    exact absurd hrnode hnode

theorem Inv.next (h : Inv c s) {a : NodeAction} (hfresh : s.numbersFresh a = true)
    (hstep : s.next c a = some s') : Inv c s' := by
  cases a with
  | start cfg dropped writes file now =>
    rw [numbersFresh, decide_eq_true_eq] at hfresh
    rw [NodeRun.next] at hstep
    split_ifs at hstep
    cases hstep
    exact h.start hfresh.1 hfresh.2
  | stop =>
    cases hstep
    exact ⟨h.numbers, by simp, h.sent, h.rows, h.committed, h.denied⟩
  | edge a =>
    obtain ⟨e, he, hstep⟩ := Option.bind_eq_some_iff.mp hstep
    split_ifs at hstep
    cases hstep
    exact h.process he a hfresh
  | ingest request active =>
    obtain ⟨b, hb, hstep⟩ := Option.bind_eq_some_iff.mp hstep
    rcases receive_cases hstep with rfl | ⟨body, batches, hbody, -, rfl⟩
    · exact h
    · exact h.record (List.mem_of_getElem? hb) hbody _ batches
  | foreign tenantId nodeId active body =>
    obtain ⟨hnode, rfl | ⟨batches, -, rfl⟩⟩ := foreign_cases hstep
    · exact h
    · exact h.foreign hnode _ batches

theorem inv_of_reachable (h : (nodeSystem c).ReachableVia (fun s a => s.numbersFresh a = true) s) :
    Inv c s := by
  have hinit : ∀ s, (nodeSystem c).init s → Inv c s := by
    rintro s ⟨t, rfl, hsamples, -⟩
    exact ⟨List.nodup_nil, by simp, by simp, fun r hr hnode => absurd hnode (hsamples r hr), by simp,
      by simp⟩
  exact h.invariant hinit fun s a t hs hfresh hstep => hs.next hfresh hstep

end NodeRun

/-- In a run in which the node never uses a number twice, every denied decision of an accepted batch
has a row with its values, and no other decision of the node has its number. -/
theorem denied_decisions_sampled {c : NodeSetting} {s : NodeRun}
    (h : (nodeSystem c).ReachableVia (fun s a => s.numbersFresh a = true) s) :
    (∀ b ∈ s.committed, ∀ d ∈ b.decisions, d.action = "deny" →
      d ∈ s.known ∧ NodeRun.rowOf c d ∈ s.tables.samples.rows) ∧
      (s.known.map Decision.walSeq).Nodup := by
  have hinv := NodeRun.inv_of_reachable h
  refine ⟨?_, hinv.numbers⟩
  intro b hb d hd hdeny
  exact ⟨hinv.sent b (hinv.committed b hb) d hd, hinv.denied b hb d hd hdeny⟩

/-! ## Two processes of one node -/

def lengthSha : Sha256 :=
  ⟨fun message => UInt8.ofNat message.length :: List.replicate 31 0, by simp⟩

theorem sampleTenant_ne : "5f0c7a52-93f4-4a52-8a3e-0d3a8f6f2b10" ≠ "" := by decide

def sampleSetting : NodeSetting where
  sha := lengthSha
  dateParse s := (Calendar.parseRFC3339 s.toList).map (· / 1000000)
  timestamptz s := (Calendar.parseRFC3339 s.toList).getD 0 / 1000
  tenantId := ⟨"5f0c7a52-93f4-4a52-8a3e-0d3a8f6f2b10", sampleTenant_ne⟩
  nodeId := ⟨"c4a1d0c7-2b6e-4c8e-b5a2-7f3d9e10a6b4", by decide⟩

def sampleNow : Time := 1767225600 * 1000000000

def denial (fingerprint : String) : Decision :=
  { fingerprint := fingerprint, action := "deny", decidedAt := sampleNow }

def denyOnce (request : Nat) (fingerprint : String) : List NodeAction :=
  [.edge (.append (denial fingerprint) 0 sampleNow [] .done), .edge .flushOnce, .edge (.work {}),
    .ingest request none, .edge (.work {}), .edge (.work {})]

def openLog (hasPath : Bool) (file : Option Bytes) : NodeAction :=
  .start { hasPath := hasPath } 0 [] file sampleNow

def runNode (allowed : NodeRun → NodeAction → Bool) (actions : List NodeAction) : Option NodeRun :=
  actions.foldlM (fun s a => if allowed s a then s.next sampleSetting a else none) {}

def firstProcess : List NodeAction := openLog true none :: denyOnce 0 "a"

def fileLeft : Option Bytes :=
  ((runNode NodeRun.numbersFresh firstProcess).bind NodeRun.edge).map fun e => e.wal.disk.content

theorem sampleSetting_init : (nodeSystem sampleSetting).init {} :=
  ⟨{}, rfl, by simp [Table.empty], by simp [Table.empty]⟩

theorem denied_decisions_sampled_reopened : ∃ s : NodeRun,
    (s.committed.map fun b => b.decisions.map Decision.fingerprint) = [["a"], ["bb"]] ∧
    (∀ b ∈ s.committed, ∀ d ∈ b.decisions, d.action = "deny" →
      d ∈ s.known ∧ NodeRun.rowOf sampleSetting d ∈ s.tables.samples.rows) ∧
      (s.known.map Decision.walSeq).Nodup := by
  have hrun : (runNode NodeRun.numbersFresh
      (firstProcess ++ [.stop, openLog true fileLeft] ++ denyOnce 1 "bb")).map
        (fun s => s.committed.map fun b => b.decisions.map Decision.fingerprint) =
      some [["a"], ["bb"]] := by decide +kernel
  obtain ⟨s, hs, hcommitted⟩ := Option.map_eq_some_iff.mp hrun
  have hreach := (System.ReachableVia.init sampleSetting_init).run
    (fun s a t hallowed hnext => ⟨hallowed, hnext⟩) _ hs
  exact ⟨s, hcommitted, denied_decisions_sampled hreach⟩

/-- Two processes with a log in memory both number their first decision 1. The control plane accepts
both batches, and the second denial has no row. -/
theorem second_process_not_sampled : ∃ s : NodeRun, (nodeSystem sampleSetting).Reachable s ∧
    (s.committed.map fun b => b.decisions.map Decision.fingerprint) = [["a"], ["bb"]] ∧
    (∃ b ∈ s.committed, ∃ d ∈ b.decisions, d.action = "deny" ∧ d.fingerprint = "bb" ∧
      NodeRun.rowOf sampleSetting d ∉ s.tables.samples.rows) ∧
    s.tables.samples.rows.map SampleRow.fingerprint = ["a"] := by
  have hrun : (runNode (fun _ _ => true)
      (openLog false none :: denyOnce 0 "a" ++ [.stop, openLog false none] ++ denyOnce 1 "bb")).map
        (fun s => (s.committed.map fun b => b.decisions.map Decision.fingerprint,
          s.tables.samples.rows.map SampleRow.fingerprint,
          decide (∃ b ∈ s.committed, ∃ d ∈ b.decisions, d.action = "deny" ∧ d.fingerprint = "bb" ∧
            NodeRun.rowOf sampleSetting d ∉ s.tables.samples.rows))) =
      some ([["a"], ["bb"]], ["a"], true) := by decide +kernel
  obtain ⟨s, hs, hfacts⟩ := Option.map_eq_some_iff.mp hrun
  rw [Prod.mk.injEq, Prod.mk.injEq, decide_eq_true_eq] at hfacts
  have hreach := (System.Reachable.start sampleSetting_init).run
    (fun s a t hallowed hnext => ⟨trivial, hnext⟩) _ hs
  exact ⟨s, hreach, hfacts.1, hfacts.2.2, hfacts.2.1⟩

end Verilink.Sync

import Verilink.Sync.SampleRows

/-!
# Each decision counts once

The rollups count every decision of every batch that is accepted, and a batch is named by the hash
of its decisions.
-/

namespace Verilink.ControlPlane

open Verilink.Framework

variable {env : IngestEnv} {tenantId edgeNodeId : Uuid}

/-! ## Counts -/

/-- What the rows of a call add to a rollup. -/
def addedTo (key : AggKey) (rows : List (AggKey × Nat)) :
    Nat := (rows.map fun r => if r.1 = key then r.2 else 0).sum

theorem addedTo_bumpAgg (rows : List (AggKey × Nat)) (k key : AggKey) :
    addedTo key (bumpAgg rows k) = addedTo key rows + if k = key then 1 else 0 := by
  unfold addedTo bumpAgg
  induction rows with
  | nil => simp [upsert]
  | cons r rows ih =>
    rw [upsert]
    by_cases hr : r.1 = k
    · by_cases hkey : k = key
      · simp [hr, hkey]
        omega
      · simp [hr, hkey]
    · rw [if_neg hr, List.map_cons, List.sum_cons, ih, List.map_cons, List.sum_cons, Nat.add_assoc]

theorem addedTo_foldl_bumpAgg (keys : List AggKey) (rows : List (AggKey × Nat)) (key : AggKey) :
    addedTo key (keys.foldl bumpAgg rows) = addedTo key rows + keys.count key := by
  induction keys generalizing rows with
  | nil => rfl
  | cons k keys ih =>
    rw [List.foldl_cons, ih, addedTo_bumpAgg, List.count_cons]
    simp only [beq_iff_eq]
    omega

theorem lookup_insertAggregates (t : Finmap fun _ : AggKey => Nat) (rows : List (AggKey × Nat))
    (key : AggKey) :
    ((insertAggregates t rows).lookup key).getD 0 = (t.lookup key).getD 0 + addedTo key rows := by
  unfold insertAggregates
  induction rows generalizing t with
  | nil => rfl
  | cons r rows ih =>
    rw [List.foldl_cons, ih]
    by_cases hkey : r.1 = key
    · subst hkey
      simp [addedTo, Nat.add_assoc]
    · simp [hkey, addedTo, Finmap.lookup_insert_of_ne _ (Ne.symm hkey)]

theorem count_flatMap_aggKeys (ds : List DecisionWire) (key : AggKey) :
    (ds.flatMap (aggKeys env tenantId edgeNodeId)).count key =
      ds.countP fun d => key ∈ aggKeys env tenantId edgeNodeId d := by
  induction ds with
  | nil => rfl
  | cons d ds ih =>
    have hnodup : (aggKeys env tenantId edgeNodeId d).Nodup := by
      unfold aggKeys
      split_ifs <;> simp
    rw [List.flatMap_cons, List.count_append, ih, List.countP_cons, hnodup.count, Nat.add_comm]
    simp

theorem lookup_recordBatch (t : DecisionTables) (rate : ℚ) (batches : Table BatchRow BatchRow.Conflict)
    (body : DecisionBatchWire) (key : AggKey) :
    ((recordBatch env tenantId edgeNodeId t rate batches body).aggregates.lookup key).getD 0 =
      (t.aggregates.lookup key).getD 0 + body.decisions.countP fun d => key ∈ aggKeys env tenantId
        edgeNodeId d := by
  rw [recordBatch, lookup_insertAggregates, addedTo_foldl_bumpAgg, count_flatMap_aggKeys]
  simp [addedTo]

theorem node_of_mem_aggKeys {d : DecisionWire} {key : AggKey}
    (h : key ∈ aggKeys env tenantId edgeNodeId d) :
    key.edgeNodeId = edgeNodeId := by
  unfold aggKeys at h
  split_ifs at h <;> simp at h <;> rcases h with rfl | rfl | rfl <;> rfl

end Verilink.ControlPlane

namespace Verilink.Sync

open Verilink.Framework Verilink.ControlPlane Verilink.Edge

namespace NodeRun

variable {c : NodeSetting} {s₀ s s' : NodeRun} {e : EdgeRun}

/-! ## The log -/

variable {a : EdgeAction} {b : FlushBatch}

/-- No decision is twice in the queue of a node that uses no number twice. -/
theorem nodup_next (sha : Sha256) (n : Nat) (hs : Inv c s) (he : s.edge = some e)
    (hn : e.wal.queue.records.Nodup)
    (hfresh : s.numbersFresh (.edge a) = true) : (e.next sha n a).wal.queue.records.Nodup := by
  cases a with
  | append x clock now writes compact =>
    rw [numbersFresh, decide_eq_true_eq] at hfresh
    obtain ⟨k, new, hspec⟩ := (e.wal.answering writes compact).append_spec x clock now
    have hrecords : (e.next sha n (.append x clock now writes compact)).wal.queue.records =
        e.wal.queue.records.drop k ++ new.map WalEntry.record := by
      rw [Queue.records, show (e.next sha n (.append x clock now writes compact)).wal.queue.entries
        = _ from hspec.entries, List.map_append, List.map_drop]
      rfl
    have hdrop := hn.sublist (List.drop_sublist k _)
    rw [hrecords]
    rcases hspec.new with ⟨rfl, -⟩ | ⟨size, rfl⟩
    · simpa using hdrop
    · refine hdrop.append (List.nodup_singleton _) (List.disjoint_singleton.mpr fun hmem => ?_)
      exact hfresh e he _ (hs.pending e he _ (List.mem_of_mem_drop hmem)) rfl
  | setNoDrop v => exact hn
  | close => exact hn
  | flushOnce =>
    rw [EdgeRun.next]
    split <;> exact hn
  | flushAll =>
    rw [EdgeRun.next]
    split <;> exact hn
  | work answer => exact hn.sublist (sublist_work answer)

/-- Only a worker that takes its batch sends one. -/
theorem flushing_of_newlySent {sha : Sha256} {n : Nat}
    (hb : b ∈ newlySent e.worker (e.next sha n a).worker) :
    (∃ head, e.worker = .flushing head) ∧ ∃ answer, a = .work answer := by
  cases hworker : e.worker with
  | flushing head =>
    refine ⟨⟨head, rfl⟩, ?_⟩
    cases a with
    | work answer => exact ⟨answer, rfl⟩
    | _ => simp [EdgeRun.next, EdgeRun.append, newlySent, hworker] at hb
  | _ => simp [newlySent, hworker] at hb

/-! ## Batches -/

def takesBatch : WorkerState → Bool
  | .flushing _ => true
  | _ => false

/-- The batch that the worker is about to take was sent before, or none of its decisions was. -/
def headSettled (c : NodeSetting) (s : NodeRun) : NodeAction → Bool
  | .edge (.work _) => ∀ e ∈ s.edge, takesBatch e.worker = true → ∀ b ∈ s.sent,
      b.decisions = e.wal.pending c.batchSize ∨ ∀ d ∈ b.decisions, d ∉ e.wal.pending c.batchSize
  | _ => true

/-- The decisions that the control plane has accepted, in the order of the batches. -/
def counted (s : NodeRun) : List Decision := s.committed.flatMap FlushBatch.decisions

def belongsTo (c : NodeSetting) (key : AggKey) (d : Decision) : Bool :=
  key ∈ aggKeys c.env c.tenantId c.nodeId (receivedDecision d)

structure CountInv (c : NodeSetting) (s₀ s : NodeRun) : Prop where
  base : Inv c s
  queue : ∀ e ∈ s.edge, e.wal.queue.records.Nodup
  built : ∀ b ∈ s.sent, ∃ d ds, b = buildFlushBatch c.sha d ds
  distinct : ∀ b ∈ s.sent, b.decisions.Nodup
  settled : ∀ b ∈ s.sent, ∀ b' ∈ s.sent, b.decisions = b'.decisions ∨ b.decisions.Disjoint b'.decisions
  rows : ∀ b ∈ s.committed, ∃ r ∈ s.tables.batches.rows, r.edgeNodeId = c.nodeId ∧
    r.batchId = toLowerCase b.batchId
  once : s.counted.Nodup
  counts : ∀ key, key.edgeNodeId = c.nodeId → (s.tables.aggregates.lookup key).getD 0 =
    (s₀.tables.aggregates.lookup key).getD 0 + s.counted.countP (belongsTo c key)

theorem CountInv.init (h : (nodeSystem c).init s₀) : CountInv c s₀ s₀ := by
  have hbase := inv_of_reachable (.init h)
  obtain ⟨t, rfl, -, -⟩ := h
  exact ⟨hbase, by simp, by simp, by simp, by simp, by simp, List.nodup_nil, fun key _ => rfl⟩

theorem CountInv.process (h : CountInv c s₀ s) (he : s.edge = some e) (a : EdgeAction)
    (hfresh : s.numbersFresh (.edge a) = true) (hsettled : s.headSettled c (.edge a) = true) :
    CountInv c s₀ { s with
      edge := some (e.next c.sha c.batchSize a)
      sent := s.sent ++ newlySent e.worker (e.next c.sha c.batchSize a).worker
      known := s.known ++ newlyLogged e (e.next c.sha c.batchSize a) a } := by
  have hnew : ∀ b ∈ newlySent e.worker (e.next c.sha c.batchSize a).worker,
      (∃ d ds, b = buildFlushBatch c.sha d ds) ∧ b.decisions.Nodup ∧
        ∀ b' ∈ s.sent, b'.decisions = b.decisions ∨ b'.decisions.Disjoint b.decisions := by
    intro b hb
    obtain ⟨⟨head, hworker⟩, answer, rfl⟩ := flushing_of_newlySent hb
    obtain ⟨d, ds, hpending, rfl⟩ := newlySent_next hb
    rw [headSettled, decide_eq_true_eq] at hsettled
    have hsettled := hsettled e he (by rw [hworker]; rfl)
    refine ⟨⟨d, ds, rfl⟩, ?_, ?_⟩
    · have htake := (h.queue e he).sublist (List.take_sublist c.batchSize _)
      rw [Queue.records, ← List.map_take, ← Wal.pending, hpending] at htake
      exact htake
    · intro b' hb'
      rcases hsettled b' hb' with hsame | hother
      · exact .inl (hsame.trans hpending)
      · exact .inr fun x hx hx' => hother x hx (hpending ▸ hx')
  have hone : ∀ b ∈ newlySent e.worker (e.next c.sha c.batchSize a).worker,
      ∀ b' ∈ newlySent e.worker (e.next c.sha c.batchSize a).worker, b = b' := by
    unfold newlySent
    split <;> simp
  refine ⟨h.base.process he a hfresh, ?_, ?_, ?_, ?_, h.rows, h.once, h.counts⟩
  · intro e' he'
    cases he'
    exact nodup_next c.sha c.batchSize h.base he (h.queue e he) hfresh
  · rw [List.forall_mem_append]
    exact ⟨h.built, fun b hb => (hnew b hb).1⟩
  · rw [List.forall_mem_append]
    exact ⟨h.distinct, fun b hb => (hnew b hb).2.1⟩
  · simp only [List.forall_mem_append]
    refine ⟨fun b hb => ⟨h.settled b hb, fun b' hb' => (hnew b' hb').2.2 b hb⟩, fun b hb => ⟨?_, ?_⟩⟩
    · intro b' hb'
      exact ((hnew b hb).2.2 b' hb').imp Eq.symm List.Disjoint.symm
    · intro b' hb'
      exact .inl (by rw [hone b hb b' hb'])

variable {body : DecisionBatchWire} {batches : Table BatchRow BatchRow.Conflict}

theorem CountInv.record (h : CountInv c s₀ s) (hb : b ∈ s.sent) (hbody : received b = some body)
    (rate : ℚ)
    (hins : s.tables.batches.insert? (batchRow c.tenantId c.nodeId body) = some batches) :
    CountInv c s₀ { s with
      tables := recordBatch c.env c.tenantId c.nodeId s.tables rate batches body
      committed := s.committed ++ [b] } := by
  obtain ⟨hfree, hrows⟩ := (Table.insert?_eq_some_iff _ _ _).mp hins
  have hid : (batchRow c.tenantId c.nodeId body).batchId = toLowerCase b.batchId := by
    rw [batchRow, (received_eq_some hbody).1]
  -- A batch with the same decisions has the same name, and then the insertion is refused.
  have hnew : ∀ b' ∈ s.committed, b'.decisions.Disjoint b.decisions := by
    intro b' hb'
    rcases h.settled b' (h.base.committed b' hb') b hb with hsame | hother
    · obtain ⟨d, ds, rfl⟩ := h.built b hb
      obtain ⟨d', ds', rfl⟩ := h.built b' (h.base.committed b' hb')
      cases hsame
      obtain ⟨r, hr, hnode, hname⟩ := h.rows _ hb'
      exact absurd ⟨hnode, hname.trans hid.symm⟩ (hfree r hr)
    · exact hother
  have hcounted : (s.committed ++ [b]).flatMap FlushBatch.decisions = s.counted ++ b.decisions := by
    simp [counted]
  refine ⟨h.base.record hb hbody rate batches, h.queue, h.built, h.distinct, h.settled, ?_, ?_, ?_⟩
  · intro b' hb'
    change ∃ r ∈ batches.rows, _
    rw [hrows]
    rcases List.mem_append.mp hb' with hb' | hb'
    · obtain ⟨r, hr, hr'⟩ := h.rows b' hb'
      exact ⟨r, List.mem_append_left _ hr, hr'⟩
    · rw [List.mem_singleton.mp hb']
      exact ⟨_, List.mem_append_right _ (List.mem_singleton.mpr rfl), rfl, hid⟩
  · change ((s.committed ++ [b]).flatMap FlushBatch.decisions).Nodup
    rw [hcounted]
    refine h.once.append (h.distinct b hb) fun d hd hd' => ?_
    obtain ⟨b', hb', hdb'⟩ := List.mem_flatMap.mp hd
    exact hnew b' hb' hdb' hd'
  · intro key hkey
    change _ = _ + ((s.committed ++ [b]).flatMap FlushBatch.decisions).countP _
    rw [lookup_recordBatch, h.counts key hkey, hcounted, List.countP_append,
      (received_eq_some hbody).2, List.countP_map, Nat.add_assoc]
    rfl

theorem CountInv.foreign (h : CountInv c s₀ s) {tenantId nodeId : Uuid} (hnode : nodeId ≠ c.nodeId)
    (rate : ℚ) (hins : s.tables.batches.insert? (batchRow tenantId nodeId body) = some batches) :
    CountInv c s₀ { s with tables := recordBatch c.env tenantId nodeId s.tables rate batches body } := by
  have hrows := ((Table.insert?_eq_some_iff _ _ _).mp hins).2
  refine ⟨h.base.foreign hnode rate batches, h.queue, h.built, h.distinct, h.settled, ?_, h.once, ?_⟩
  · intro b hb
    obtain ⟨r, hr, hr'⟩ := h.rows b hb
    exact ⟨r, by change r ∈ batches.rows; rw [hrows]; exact List.mem_append_left _ hr, hr'⟩
  · intro key hkey
    have hnone : body.decisions.countP (fun d => key ∈ aggKeys c.env tenantId nodeId d) = 0 := by
      rw [List.countP_eq_zero]
      intro d _ hd
      exact hnode ((node_of_mem_aggKeys (of_decide_eq_true hd)).symm.trans hkey)
    rw [lookup_recordBatch, hnone]
    exact h.counts key hkey

theorem CountInv.next (h : CountInv c s₀ s) {a : NodeAction} (hfresh : s.numbersFresh a = true)
    (hsettled : s.headSettled c a = true) (hstep : s.next c a = some s') : CountInv c s₀ s' := by
  have hbase := h.base.next hfresh hstep
  cases a with
  | start cfg dropped writes file now =>
    rw [numbersFresh, decide_eq_true_eq] at hfresh
    rw [NodeRun.next] at hstep
    split_ifs at hstep
    cases hstep
    refine ⟨hbase, ?_, h.built, h.distinct, h.settled, h.rows, h.once, h.counts⟩
    intro e he
    cases he
    exact hfresh.1.of_map
  | stop =>
    cases hstep
    exact ⟨hbase, by simp, h.built, h.distinct, h.settled, h.rows, h.once, h.counts⟩
  | edge a =>
    obtain ⟨e, he, hstep⟩ := Option.bind_eq_some_iff.mp hstep
    split_ifs at hstep
    cases hstep
    exact h.process he a hfresh hsettled
  | ingest request active =>
    obtain ⟨b, hb, hstep⟩ := Option.bind_eq_some_iff.mp hstep
    rcases receive_cases hstep with rfl | ⟨body, batches, hbody, hins, rfl⟩
    · exact h
    · exact h.record (List.mem_of_getElem? hb) hbody _ hins
  | foreign tenantId nodeId active body =>
    obtain ⟨hnode, rfl | ⟨batches, hins, rfl⟩⟩ := foreign_cases hstep
    · exact h
    · exact h.foreign hnode _ hins

end NodeRun

def nodeFrom (c : NodeSetting) (s₀ : NodeRun) : System NodeRun NodeAction :=
  { nodeSystem c with init := fun s => s = s₀ }

/-- If the node uses no number twice and a batch is sent again only as it was, every rollup of the
node has grown by the number of different decisions that belong to it. -/
theorem decisions_counted_once {c : NodeSetting} {s₀ s : NodeRun} (hinit : (nodeSystem c).init s₀)
    (h : (nodeFrom c s₀).ReachableVia
    (fun s a => s.numbersFresh a = true ∧ s.headSettled c a = true) s) :
    (s.counted.map Decision.walSeq).Nodup ∧ ∀ key, key.edgeNodeId = c.nodeId →
      (s.tables.aggregates.lookup key).getD 0 =
        (s₀.tables.aggregates.lookup key).getD 0 + s.counted.countP (NodeRun.belongsTo c key) := by
  have hinv : NodeRun.CountInv c s₀ s := by
    apply h.invariant
    · rintro s rfl
      exact NodeRun.CountInv.init hinit
    · intro s a t hs hok hstep
      exact hs.next hok.1 hok.2 hstep
  refine ⟨hinv.once.map_on fun d hd d' hd' hseq => ?_, hinv.counts⟩
  have hknown : ∀ d ∈ s.counted, d ∈ s.known := by
    intro d hd
    obtain ⟨b, hb, hdb⟩ := List.mem_flatMap.mp hd
    exact hinv.base.sent b (hinv.base.committed b hb) d hdb
  exact List.inj_on_of_nodup_map hinv.base.numbers (hknown d hd) (hknown d' hd') hseq

/-! ## A lost response -/

def lostResponse (more : List NodeAction) : List NodeAction :=
  [openLog true none, .edge (.append (denial "a") 0 sampleNow [] .done), .edge .flushOnce,
    .edge (.work {}),
    .ingest 0 none, .edge (.work { sent := false })] ++ more ++ [.edge .flushOnce, .edge (.work {}),
      .ingest 1 none]

def rollupOfA : AggKey :=
  ⟨sampleSetting.tenantId, sampleSetting.nodeId, 1767225600000, .fingerprint, "a", "deny"⟩

theorem decisions_counted_once_retried : ∃ s : NodeRun, s.counted.map Decision.fingerprint = ["a"] ∧
    (s.counted.map Decision.walSeq).Nodup ∧ ∀ key, key.edgeNodeId = sampleSetting.nodeId →
      (s.tables.aggregates.lookup key).getD 0 =
        ((∅ : Finmap fun _ : AggKey => Nat).lookup key).getD 0 + s.counted.countP
        (NodeRun.belongsTo sampleSetting key) := by
  have hrun : (runNode (fun s a => s.numbersFresh a && s.headSettled sampleSetting a)
      (lostResponse [])).map
      (fun s => s.counted.map Decision.fingerprint) = some ["a"] := by decide +kernel
  obtain ⟨s, hs, hcounted⟩ := Option.map_eq_some_iff.mp hrun
  have hreach := (System.ReachableVia.init (S := nodeFrom sampleSetting {}) rfl).run
    (fun s a t hallowed hnext => ⟨(Bool.and_eq_true _ _).mp hallowed, hnext⟩) _ hs
  exact ⟨s, hcounted, decisions_counted_once sampleSetting_init hreach⟩

/-- Another decision was logged in between, so the batch has another name. -/
theorem decision_counted_twice : ∃ s : NodeRun,
    (nodeFrom sampleSetting {}).ReachableVia (fun s a => s.numbersFresh a = true) s ∧
      s.counted.map Decision.walSeq = [1, 1, 2] ∧ s.tables.aggregates.lookup rollupOfA = some 2 := by
  have hrun : (runNode NodeRun.numbersFresh
      (lostResponse [.edge (.append (denial "bb") 0 sampleNow [] .done)])).map
        (fun s => (s.counted.map Decision.walSeq, s.tables.aggregates.lookup rollupOfA)) =
          some ([1, 1, 2], some 2) := by
    decide +kernel
  obtain ⟨s, hs, hfacts⟩ := Option.map_eq_some_iff.mp hrun
  rw [Prod.mk.injEq] at hfacts
  have hreach := (System.ReachableVia.init (S := nodeFrom sampleSetting {}) rfl).run
    (fun s a t hallowed hnext => ⟨hallowed, hnext⟩) _ hs
  exact ⟨s, hreach, hfacts.1, hfacts.2⟩

end Verilink.Sync

import Verilink.ControlPlane.DecisionIngest

/-!
# What a decision batch leaves in the database

`ingestDecisionBatch` after the checks of `assertBatchShape`: a batch is received once for each node
and `batch_id`.
-/

namespace Verilink.ControlPlane

open Verilink.Framework

/-! ## Tables -/

inductive Dimension
  | all
  | principal
  | fingerprint
  deriving DecidableEq

/-- `UNIQUE (tenant_id, edge_node_id, bucket_minute, dimension_kind, dimension_value, action)`. -/
structure AggKey where
  tenantId : Uuid
  edgeNodeId : Uuid
  bucketMinute : Int
  kind : Dimension
  value : String
  action : String
  deriving DecidableEq

structure SampleRow where
  tenantId : Uuid
  edgeNodeId : Uuid
  walSeq : ℚ
  fingerprint : String
  principalId : Option String
  score : ℚ
  blacklisted : Bool
  scoreReason : Option String
  action : String
  decidedAt : Int
  deriving DecidableEq

/-- `UNIQUE (edge_node_id, wal_seq)`. -/
abbrev SampleRow.Conflict (a b : SampleRow) : Prop :=
  a.edgeNodeId = b.edgeNodeId ∧ a.walSeq = b.walSeq

structure BatchRow where
  edgeNodeId : Uuid
  batchId : List Char
  tenantId : Uuid
  firstWalSeq : ℚ
  lastWalSeq : ℚ
  payloadHash : List Char
  deriving DecidableEq

/-- `PRIMARY KEY (edge_node_id, batch_id)`. -/
abbrev BatchRow.Conflict (a b : BatchRow) : Prop :=
  a.edgeNodeId = b.edgeNodeId ∧ a.batchId = b.batchId

/-- `decision_batches`, `decision_aggregates` with its `count` column, and `decision_samples`. -/
structure DecisionTables where
  batches : Table BatchRow BatchRow.Conflict := Table.empty
  aggregates : Finmap fun _ : AggKey => Nat := ∅
  samples : Table SampleRow SampleRow.Conflict := Table.empty

/-! ## Sampling and rollups -/

/-- The functions that the ingest calls: `sha256Hex`, `Date.parse` in milliseconds and the
conversion of a text to `TIMESTAMPTZ` in microseconds. -/
structure IngestEnv where
  sha256Hex : Bytes → List Char
  dateParse : String → Option Int
  timestamptz : String → Int

def loadSampleRate (active : Option PolicyRow) : ℚ :=
  match active with
  | none => 1 / 100
  | some p =>
    if p.allowSampleRate < 0 then 1 / 100
    else if 1 < p.allowSampleRate then 1
    else p.allowSampleRate

section Ingest

variable (env : IngestEnv)

def shouldSample (action decidedAt : String) (rate : ℚ) : Bool :=
  if action = "deny" then true
  else if rate ≤ 0 then false
  else if 1 ≤ rate then true
  else
    match env.dateParse decidedAt with
    | none => false
    | some ms => ((ms % 10000 : Int) : ℚ) / 10000 < rate

def minuteBucket (iso : String) : Int :=
  let ms := (env.dateParse iso).getD 0
  ms - ms % 60000

variable (tenantId edgeNodeId : Uuid)

def aggKeys (d : DecisionWire) : List AggKey :=
  let key kind value : AggKey :=
    ⟨tenantId, edgeNodeId, minuteBucket env d.decidedAt, kind, value, d.action⟩
  [key .all "", key .fingerprint d.fingerprint] ++
    if d.principalId.getD "" = "" then [] else [key .principal (d.principalId.getD "")]

/-- `aggMap`; a `Map` keeps the order of its first insertions. -/
def bumpAgg (rows : List (AggKey × Nat)) (key : AggKey) : List (AggKey × Nat) :=
  upsert Prod.fst (fun row => (row.1, row.2 + 1)) (key, 1) rows

def insertAggregates (aggregates : Finmap fun _ : AggKey => Nat) (rows : List (AggKey × Nat)) :
    Finmap fun _ : AggKey => Nat :=
  rows.foldl (fun t row => t.insert row.1 ((t.lookup row.1).getD 0 + row.2)) aggregates

def nullIfEmpty (s : String) : Option String := if s = "" then none else some s

def sampleRow (d : DecisionWire) : SampleRow where
  tenantId := tenantId
  edgeNodeId := edgeNodeId
  walSeq := d.walSeq
  fingerprint := d.fingerprint
  principalId := nullIfEmpty (d.principalId.getD "")
  score := d.score.getD 0
  blacklisted := d.blacklisted.getD false
  scoreReason := nullIfEmpty (d.scoreReason.getD "")
  action := d.action
  decidedAt := env.timestamptz d.decidedAt

def insertSamples (samples : Table SampleRow SampleRow.Conflict) (ds : List DecisionWire) :
    Table SampleRow SampleRow.Conflict :=
  (ds.map (sampleRow env tenantId edgeNodeId)).foldl Table.insertNew samples

/-! ## The call -/

structure IngestResult where
  duplicate : Bool
  edgeNodeId : Uuid
  accepted : Nat
  sampled : Nat
  deriving DecidableEq

def batchRow (body : DecisionBatchWire) : BatchRow where
  edgeNodeId := edgeNodeId
  batchId := toLowerCase body.batchId
  tenantId := tenantId
  firstWalSeq := body.firstWalSeq
  lastWalSeq := body.lastWalSeq
  payloadHash := toLowerCase body.payloadHash

def sampled (rate : ℚ) (body : DecisionBatchWire) : List DecisionWire :=
  body.decisions.filter fun d => shouldSample env d.action d.decidedAt rate

def recordBatch (t : DecisionTables) (rate : ℚ) (batches : Table BatchRow BatchRow.Conflict)
    (body : DecisionBatchWire) : DecisionTables where
  batches := batches
  aggregates := insertAggregates t.aggregates
    ((body.decisions.flatMap (aggKeys env tenantId edgeNodeId)).foldl bumpAgg [])
  samples := insertSamples env tenantId edgeNodeId t.samples (sampled env rate body)

/-- `ingestDecisionBatch` for the node of the caller's key; `active` is the policy that
`loadSampleRate` reads. -/
def ingestDecisionBatch (active : Option PolicyRow) (t : DecisionTables) (body : DecisionBatchWire) :
    Except AppError (IngestResult × DecisionTables) := do
  assertBatchShape env.sha256Hex (fun s => (env.dateParse s).isSome) body
  let row := batchRow tenantId edgeNodeId body
  match t.batches.insert? row with
  | some batches =>
    .ok (⟨false, edgeNodeId, body.decisions.length, (sampled env (loadSampleRate active) body).length⟩,
      recordBatch env tenantId edgeNodeId t (loadSampleRate active) batches body)
  | none =>
    match t.batches.rows.find? fun r => r.edgeNodeId = edgeNodeId ∧ r.batchId = row.batchId with
    | some old =>
      if old.payloadHash = row.payloadHash then .ok (⟨true, edgeNodeId, 0, 0⟩, t)
      else .error ⟨.conflict, "batch_id reused with different payload_hash"⟩
    | none => .error ⟨.conflict, "batch_id reused with different payload_hash"⟩

end Ingest

/-! ## What a call can do -/

section Spec

variable {env : IngestEnv} {tenantId edgeNodeId : Uuid} {active : Option PolicyRow}
  {t t' : DecisionTables} {body : DecisionBatchWire} {result : IngestResult}

theorem ingestDecisionBatch_cases (h : ingestDecisionBatch env tenantId edgeNodeId active t body =
    .ok (result, t')) :
    (result.duplicate = false ∧ ∃ batches, t.batches.insert? (batchRow tenantId edgeNodeId body) =
      some batches ∧
        t' = recordBatch env tenantId edgeNodeId t (loadSampleRate active) batches body) ∨
    result.duplicate = true ∧ t' = t ∧ ∃ old ∈ t.batches.rows,
      old.edgeNodeId = edgeNodeId ∧ old.batchId = toLowerCase body.batchId ∧
        old.payloadHash = toLowerCase body.payloadHash := by
  obtain ⟨-, h⟩ := seq_eq_ok.mp h
  dsimp only at h
  cases hins : t.batches.insert? (batchRow tenantId edgeNodeId body) with
  | some batches =>
    rw [hins] at h
    cases h
    exact .inl ⟨rfl, batches, rfl, rfl⟩
  | none =>
    rw [hins] at h
    dsimp only at h
    cases hfind : t.batches.rows.find? fun r =>
        r.edgeNodeId = edgeNodeId ∧ r.batchId = (batchRow tenantId edgeNodeId body).batchId with
    | none =>
      rw [hfind] at h
      cases h
    | some old =>
      rw [hfind] at h
      dsimp only at h
      split_ifs at h with hhash
      cases h
      have hkey := List.find?_some hfind
      rw [decide_eq_true_eq] at hkey
      exact .inr ⟨rfl, rfl, old, List.mem_of_find?_eq_some hfind, hkey.1, hkey.2, hhash⟩

theorem mem_sampled_of_deny {rate : ℚ} {d : DecisionWire} (hd : d ∈ body.decisions)
    (haction : d.action = "deny") : d ∈ sampled env rate body := by
  rw [sampled, List.mem_filter]
  exact ⟨hd, by simp [shouldSample, haction]⟩

end Spec

end Verilink.ControlPlane

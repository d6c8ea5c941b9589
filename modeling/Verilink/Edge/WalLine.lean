import Verilink.Edge.Decision

/-!
# The lines of the decision log

The log is a file of JSON lines: a `meta` line, a `dec` line for each decision and an `ack` line
with the watermark up to which decisions are done. Fields that are empty are left out, the time
stamp apart.
-/

namespace Verilink.Edge

open Verilink.Framework

def walSchemaVersion : Int := 2

def walMaxLineBytes : Nat := 1048576

inductive WalError
  | full
  | other (message : String)
  deriving DecidableEq

structure WalLine where
  type : String := ""
  schemaVersion : Int := 0
  nextSeq : Int := 0
  through : Int := 0
  walSeq : Int := 0
  fingerprint : String := ""
  principalId : String := ""
  score : Int := 0
  blacklisted : Bool := false
  scoreReason : String := ""
  action : String := ""
  decidedAt : Time := zeroTime
  deriving DecidableEq

def WalLine.members (l : WalLine) : List (String × Json) :=
  [("t", .str l.type)] ++
    omitEmpty (l.schemaVersion = 0) "schema_version" (.int l.schemaVersion) ++
    omitEmpty (l.nextSeq = 0) "next_seq" (.int l.nextSeq) ++
    omitEmpty (l.through = 0) "through" (.int l.through) ++
    omitEmpty (l.walSeq = 0) "wal_seq" (.int l.walSeq) ++
    omitEmpty (l.fingerprint = "") "fingerprint" (.str l.fingerprint) ++
    omitEmpty (l.principalId = "") "principal_id" (.str l.principalId) ++
    omitEmpty (l.score = 0) "score" (.int l.score) ++
    omitEmpty (l.blacklisted = false) "blacklisted" (.bool l.blacklisted) ++
    omitEmpty (l.scoreReason = "") "score_reason" (.str l.scoreReason) ++
    omitEmpty (l.action = "") "action" (.str l.action) ++
    [("decided_at", timeJson l.decidedAt)]

def WalLine.text (l : WalLine) : Bytes := Json.marshal (.obj l.members)

/-- `json.Marshal` and the line feed. A year without four digits and a long line are errors. -/
def WalLine.data (l : WalLine) : Except WalError Bytes :=
  if ¬ Calendar.FourDigitYear l.decidedAt then
    .error (.other "Time.MarshalJSON: year outside of range [0,9999]")
  else if walMaxLineBytes < l.text.length + 1 then .error (.other "wal line exceeds 1048576 bytes")
  else .ok (l.text ++ [0x0A])

def decodeTime (cur : Time) : Json → Except String Time
  | .null => .ok cur
  | .str s =>
    match Calendar.parseRFC3339 s.toList with
    | some t => .ok t
    | none => .error "parsing time"
  | _ => .error "Time.UnmarshalJSON: input is not a JSON string"

def walLineFields : List (Json.Field WalLine) :=
  [⟨"t", fun l v => do .ok { l with type := ← Json.decodeString l.type v }⟩,
   ⟨"schema_version", fun l v => do
      .ok { l with schemaVersion := ← Json.decodeInt l.schemaVersion v }⟩,
   ⟨"next_seq", fun l v => do .ok { l with nextSeq := ← Json.decodeInt l.nextSeq v }⟩,
   ⟨"through", fun l v => do .ok { l with through := ← Json.decodeInt l.through v }⟩,
   ⟨"wal_seq", fun l v => do .ok { l with walSeq := ← Json.decodeInt l.walSeq v }⟩,
   ⟨"fingerprint", fun l v => do
      .ok { l with fingerprint := ← Json.decodeString l.fingerprint v }⟩,
   ⟨"principal_id", fun l v => do
      .ok { l with principalId := ← Json.decodeString l.principalId v }⟩,
   ⟨"score", fun l v => do .ok { l with score := ← Json.decodeInt l.score v }⟩,
   ⟨"blacklisted", fun l v => do
      .ok { l with blacklisted := ← Json.decodeBool l.blacklisted v }⟩,
   ⟨"score_reason", fun l v => do
      .ok { l with scoreReason := ← Json.decodeString l.scoreReason v }⟩,
   ⟨"action", fun l v => do .ok { l with action := ← Json.decodeString l.action v }⟩,
   ⟨"decided_at", fun l v => do .ok { l with decidedAt := ← decodeTime l.decidedAt v }⟩]

/-- `json.Unmarshal` of a line; any error makes the line unreadable. -/
def WalLine.decode (raw : Bytes) : Option WalLine :=
  (Json.parse raw).bind fun v => (Json.decodeStruct walLineFields {} v).toOption

def decLine (d : Decision) : WalLine :=
  { type := "dec", walSeq := d.walSeq, fingerprint := d.fingerprint, principalId := d.principalId,
    score := d.score, blacklisted := d.blacklisted, scoreReason := d.scoreReason,
    action := d.action, decidedAt := d.decidedAt }

def ackLine (through : Int) : WalLine := { type := "ack", through := through }

def metaLine (nextSeq : Int) : WalLine :=
  { type := "meta", schemaVersion := walSchemaVersion, nextSeq := nextSeq }

def WalLine.decision (l : WalLine) : Decision :=
  { walSeq := l.walSeq, fingerprint := l.fingerprint, principalId := l.principalId,
    score := l.score, blacklisted := l.blacklisted, scoreReason := l.scoreReason,
    action := l.action, decidedAt := l.decidedAt }

@[simp]
theorem decision_decLine (d : Decision) : (decLine d).decision = d := rfl

def estimateDecisionBytes (d : Decision) : Int :=
  if Calendar.FourDigitYear d.decidedAt then (Json.marshal d.toJson).length + 1 else 256

theorem data_eq_ok {l : WalLine} {data : Bytes} : l.data = .ok data ↔
    Calendar.FourDigitYear l.decidedAt ∧
      l.text.length + 1 ≤ walMaxLineBytes ∧ data = l.text ++ [0x0A] := by
  unfold WalLine.data
  split_ifs with hyear hlong
  · exact ⟨nofun, fun h => absurd h.2.1 (not_le.mpr hlong)⟩
  · rw [Except.ok.injEq, eq_comm]
    exact ⟨fun h => ⟨hyear, not_lt.mp hlong, h⟩, fun h => h.2.2⟩
  · exact ⟨nofun, fun h => absurd h.1 hyear⟩

/-! ## Reading a line back -/

structure WalLine.Int64 (l : WalLine) : Prop where
  schemaVersion : -2 ^ 63 ≤ l.schemaVersion ∧ l.schemaVersion < 2 ^ 63
  nextSeq : -2 ^ 63 ≤ l.nextSeq ∧ l.nextSeq < 2 ^ 63
  through : -2 ^ 63 ≤ l.through ∧ l.through < 2 ^ 63
  walSeq : -2 ^ 63 ≤ l.walSeq ∧ l.walSeq < 2 ^ 63
  score : -2 ^ 63 ≤ l.score ∧ l.score < 2 ^ 63

theorem fracFree_members (l : WalLine) : Json.fracFree (.obj l.members) = true := by
  have homit : ∀ (empty : Prop) [Decidable empty] (key : String) (v : Json), Json.fracFree v = true →
      ∀ m ∈ omitEmpty empty key v, Json.fracFree m.2 = true := by
    intro empty _ key v hv m hm
    rw [omitEmpty] at hm
    split at hm
    · cases hm
    · rw [List.mem_singleton.mp hm]
      exact hv
  simp only [Json.fracFree, Json.fracFreeMembers_iff, WalLine.members, List.forall_mem_append]
  refine ⟨⟨⟨⟨⟨⟨⟨⟨⟨⟨⟨?_, ?_⟩, ?_⟩, ?_⟩, ?_⟩, ?_⟩, ?_⟩, ?_⟩, ?_⟩, ?_⟩, ?_⟩, ?_⟩
  · simp [Json.fracFree]
  all_goals first
    | exact homit _ _ _ rfl
    | simp [Json.fracFree, timeJson]

section Fields

variable {σ : Type} {fields : List (Json.Field σ)} {zero s' : σ} {ms : List (String × Json)}

theorem foldlM_omitEmpty (s : σ) {empty : Prop} [Decidable empty] {key : String} {v : Json}
    (hempty : empty → s = s') (hstore : Json.storeKey fields s (key, v) = .ok s')
    (h : ms.foldlM (Json.storeKey fields) zero = .ok s) :
    (ms ++ omitEmpty empty key v).foldlM (Json.storeKey fields) zero = .ok s' := by
  rw [foldlM_append_of_ok _ h, omitEmpty]
  split
  · rename_i hyes
    rw [hempty hyes]
    rfl
  · rw [foldlM_cons_of_ok _ hstore]
    rfl

end Fields

theorem decodeTime_timeJson {t : Time} (h : Calendar.FourDigitYear t) (cur : Time) :
    decodeTime cur (timeJson t) = .ok t := by
  simp [decodeTime, timeJson, Calendar.parseRFC3339_formatRFC3339Nano h]

theorem decodeInt_of_int64 {n cur : Int} (h : -2 ^ 63 ≤ n ∧ n < 2 ^ 63) :
    Json.decodeInt cur (.int n) = .ok n :=
  Json.decodeInt_int cur n h.1 h.2

theorem decodeStruct_members {l : WalLine} (h : l.Int64) (hyear : Calendar.FourDigitYear l.decidedAt) :
    Json.decodeStruct walLineFields {} (.obj l.members) = .ok l := by
  -- From the last member to the first, with the line as far as it is read.
  have hlast : [("decided_at", timeJson l.decidedAt)].foldlM (Json.storeKey walLineFields)
      { l with decidedAt := zeroTime } = .ok l := by
    refine foldlM_cons_of_ok [] (t := l) ?_
    refine (congrArg (· >>= _) (decodeTime_timeJson hyear _)).trans ?_
    rfl
  refine (foldlM_append_of_ok _ ?_).trans hlast
  refine foldlM_omitEmpty { l with action := "", decidedAt := zeroTime } (fun hz => by rw [hz]) rfl ?_
  refine foldlM_omitEmpty { l with scoreReason := "", action := "", decidedAt := zeroTime }
    (fun hz => by rw [hz]) rfl ?_
  refine foldlM_omitEmpty
    { l with blacklisted := false, scoreReason := "", action := "", decidedAt := zeroTime }
    (fun hz => by rw [hz]) rfl ?_
  refine foldlM_omitEmpty
    { l with score := 0, blacklisted := false, scoreReason := "", action := "", decidedAt := zeroTime }
    (fun hz => by rw [hz]) (bind_eq_ok.mpr ⟨_, decodeInt_of_int64 h.score, rfl⟩) ?_
  refine foldlM_omitEmpty
    { type := l.type, schemaVersion := l.schemaVersion, nextSeq := l.nextSeq,
      through := l.through, walSeq := l.walSeq, fingerprint := l.fingerprint }
    (fun hz => by rw [hz]) rfl ?_
  refine foldlM_omitEmpty
    { type := l.type, schemaVersion := l.schemaVersion, nextSeq := l.nextSeq,
      through := l.through, walSeq := l.walSeq }
    (fun hz => by rw [hz]) rfl ?_
  refine foldlM_omitEmpty
    { type := l.type, schemaVersion := l.schemaVersion, nextSeq := l.nextSeq,
      through := l.through }
    (fun hz => by rw [hz]) (bind_eq_ok.mpr ⟨_, decodeInt_of_int64 h.walSeq, rfl⟩) ?_
  refine foldlM_omitEmpty
    { type := l.type, schemaVersion := l.schemaVersion, nextSeq := l.nextSeq }
    (fun hz => by rw [hz]) (bind_eq_ok.mpr ⟨_, decodeInt_of_int64 h.through, rfl⟩) ?_
  refine foldlM_omitEmpty
    { type := l.type, schemaVersion := l.schemaVersion }
    (fun hz => by rw [hz]) (bind_eq_ok.mpr ⟨_, decodeInt_of_int64 h.nextSeq, rfl⟩) ?_
  refine foldlM_omitEmpty
    { type := l.type }
    (fun hz => by rw [hz]) (bind_eq_ok.mpr ⟨_, decodeInt_of_int64 h.schemaVersion, rfl⟩) ?_
  rfl

theorem decode_text {l : WalLine} (h : l.Int64) (hyear : Calendar.FourDigitYear l.decidedAt) :
    WalLine.decode l.text = some l := by
  rw [WalLine.decode, WalLine.text, Json.parse_marshal (fracFree_members l), Option.bind_some,
    decodeStruct_members h hyear]
  rfl

theorem text_ge (l : WalLine) : ∀ b ∈ l.text, 0x20 ≤ b :=
  Json.print_ge Json.goEscaper Json.noFracs (.obj l.members)

theorem decode_cut {l : WalLine} {p s : Bytes} (h : p ++ s = l.text) (hs : s ≠ []) :
    WalLine.decode p = none := by
  have hparse : Json.parse p = none := Json.parse_cut Json.goEscaper Json.noFracs h hs
  rw [WalLine.decode, hparse]
  rfl

end Verilink.Edge

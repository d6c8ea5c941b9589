import Verilink.ControlPlane.DecisionIngest
import Verilink.Edge.Flush

/-!
# Two serialisers, one hash

The edge hashes the decisions of a batch as `json.Marshal` prints them; the control plane prints the
parsed decisions with `JSON.stringify` and compares the hashes.
-/

namespace Verilink.Sync

open Verilink.Framework Verilink.ControlPlane Verilink.Edge

/-- The batch that the control plane parses from the body of the edge. -/
def received (b : FlushBatch) : Option DecisionBatchWire :=
  (Json.parse b.body).bind DecisionBatchWire.ofJson

/-- The integers of a decision are below 2⁵³. -/
structure SafeInts (d : Decision) : Prop where
  walSeq : d.walSeq.natAbs < 2 ^ 53
  score : d.score.natAbs < 2 ^ 53

def decisionTexts (d : Decision) : List String :=
  [d.fingerprint, d.principalId, d.scoreReason, d.action]

def receivedDecision (d : Decision) : DecisionWire :=
  ⟨d.walSeq, d.fingerprint, some d.principalId, some (d.score : ℚ), some d.blacklisted,
    some d.scoreReason, d.action, String.ofList (Calendar.formatRFC3339Nano d.decidedAt)⟩

/-! ## What arrives -/

theorem jsNumber_int {n : Int} (h : n.natAbs < 2 ^ 53) :
    jsNumber (.int n) = some (n : ℚ) := if_pos (.inl h.le)

variable {d : Decision} {ds : List Decision}

theorem ofJson_decisionWire (h : SafeInts d) :
    DecisionWire.ofJson (decisionWire d) = some (receivedDecision d) := by
  simp [DecisionWire.ofJson, decisionWire, member, optionalMember, jsString, jsBool, timeJson,
    jsNumber_int h.walSeq, jsNumber_int h.score, receivedDecision]

theorem numberJson_int (n : Int) : numberJson (n : ℚ) = .int n := by
  simp [numberJson]

theorem canonicalDecision_received (d : Decision) :
    canonicalDecision (receivedDecision d) = decisionWire d := by
  simp [canonicalDecision, receivedDecision, decisionWire, numberJson_int, timeJson]

theorem mapM_ofJson (h : ∀ d ∈ ds, SafeInts d) :
    (ds.map decisionWire).mapM DecisionWire.ofJson = some (ds.map receivedDecision) := by
  induction ds with
  | nil => rfl
  | cons d ds ih =>
    rw [List.forall_mem_cons] at h
    simp [ofJson_decisionWire h.1, ih h.2]

theorem fracFree_decisionWire (d : Decision) : Json.fracFree (decisionWire d) = true := by
  simp [decisionWire, Json.fracFree, timeJson]

theorem received_batch {b : FlushBatch} (hfirst : b.firstWalSeq.natAbs < 2 ^ 53)
    (hlast : b.lastWalSeq.natAbs < 2 ^ 53) (hdecisions : ∀ d ∈ b.decisions, SafeInts d) :
    received b = some ⟨b.batchId, b.firstWalSeq, b.lastWalSeq, b.payloadHash,
      b.decisions.map receivedDecision⟩ := by
  have hfree : Json.fracFree b.toJson = true := by
    simp [FlushBatch.toJson, Json.fracFree, fracFree_decisionWire]
  have hmap := mapM_ofJson hdecisions
  rw [received, FlushBatch.body, Json.parse_marshal hfree, FlushBatch.toJson, Option.bind_some]
  generalize b.decisions.map decisionWire = wires at hmap ⊢
  simp [DecisionBatchWire.ofJson, member, jsString, jsNumber_int hfirst, jsNumber_int hlast, hmap]

def receivedBatch (sha : Sha256) (d : Decision) (ds : List Decision) : DecisionBatchWire :=
  ⟨(buildFlushBatch sha d ds).batchId, d.walSeq, (ds.getLast?.getD d).walSeq,
    (buildFlushBatch sha d ds).payloadHash, (d :: ds).map receivedDecision⟩

variable (sha : Sha256)

theorem received_buildFlushBatch (h : ∀ x ∈ d :: ds, SafeInts x) :
    received (buildFlushBatch sha d ds) = some (receivedBatch sha d ds) := by
  have hlast : SafeInts (ds.getLast?.getD d) := by
    cases hl : ds.getLast? with
    | none => exact h d List.mem_cons_self
    | some x => exact h x (List.mem_cons_of_mem _ (List.mem_of_getLast? hl))
  exact received_batch (h d List.mem_cons_self).walSeq hlast.walSeq h

/-! ## The rebuilt bytes -/

theorem canonicalizeDecisionsJSON_received (ds : List Decision) :
    canonicalizeDecisionsJSON (ds.map receivedDecision) =
      (Json.arr (ds.map decisionWire)).print Json.jsEscape Json.noFracs.text := by
  have hmap : (ds.map receivedDecision).map canonicalDecision = ds.map decisionWire := by
    rw [List.map_map]
    exact List.map_congr_left fun d _ => canonicalDecision_received d
  rw [canonicalizeDecisionsJSON, hmap]

theorem mem_texts_arr {vs : List Json} {s : String} :
    s ∈ Json.texts (.arr vs) ↔ ∃ v ∈ vs, s ∈ Json.texts v := by
  have helems : ∀ vs, s ∈ Json.textsElems vs ↔ ∃ v ∈ vs, s ∈ Json.texts v := by
    intro vs
    induction vs with
    | nil => simp [Json.textsElems]
    | cons v vs ih => simp [Json.textsElems, ih]
  exact helems vs

def wireKeys : List String :=
  ["wal_seq", "fingerprint", "principal_id", "score", "blacklisted", "score_reason", "action",
    "decided_at"]

theorem texts_decisionWire_htmlFree (d : Decision) :
    (∀ s ∈ Json.texts (decisionWire d), Json.htmlFree s) ↔ ∀ s ∈ decisionTexts d, Json.htmlFree s := by
  have hkeys : ∀ s ∈ wireKeys, Json.htmlFree s := by
    simp [wireKeys, Json.htmlFree, Json.htmlEscaped]
  simp only [wireKeys, List.forall_mem_cons] at hkeys
  simp [Json.texts, Json.textsMembers, decisionWire, timeJson, decisionTexts, hkeys, htmlFree_stamp]

theorem payload_eq_iff (ds : List Decision) :
    canonicalizeDecisionsJSON (ds.map receivedDecision) = batchPayload ds ↔
      ∀ d ∈ ds, ∀ s ∈ decisionTexts d, Json.htmlFree s := by
  rw [canonicalizeDecisionsJSON_received, batchPayload, Json.marshal, eq_comm,
    Json.print_goEscape_eq_iff]
  simp only [mem_texts_arr, List.mem_map, ← texts_decisionWire_htmlFree]
  constructor
  · intro h d hd s hs
    exact h s ⟨_, ⟨d, hd, rfl⟩, hs⟩
  · rintro h s ⟨_, ⟨d, hd, rfl⟩, hs⟩
    exact h d hd s hs

/-! ## Hash and name -/

variable {c : Char} {l : List Char} {sum : Bytes} {body : DecisionBatchWire} {dateParses : String → Bool}

theorem isHexChar_of_lower (h : isLowerHex c = true) : isHexChar c = true := by
  simp only [isLowerHex, isHexChar, decide_eq_true_eq] at h ⊢
  tauto

theorem toLower_of_lowerHex (h : isLowerHex c = true) : c.toLower = c := by
  have hlower : ¬ (c.val ≥ 'A'.val ∧ c.val ≤ 'Z'.val) := by
    simp only [isLowerHex, Char.isDigit, decide_eq_true_eq, Bool.and_eq_true, Char.le_def,
      ge_iff_le, UInt32.le_iff_toNat_le] at h ⊢
    simp at h ⊢
    omega
  exact dif_neg hlower

theorem takeHex_append {n : Nat} (hlen : l.length = n) (hl : ∀ c ∈ l, isLowerHex c = true)
    (rest : List Char) :
    takeHex n (l ++ rest) = some rest := by
  have hall : l.all isHexChar = true := List.all_eq_true.mpr fun c hc => isHexChar_of_lower (hl c hc)
  rw [takeHex, List.take_left' hlen, List.drop_left' hlen, if_pos ⟨hlen, hall⟩]

theorem uuidTest_batchIdText (h : sum.length = 32) : uuidTest (batchIdText sum) = true := by
  have hhex := hexText_isLowerHex
  have hlen : ∀ a n, a + n ≤ 32 → (hexText ((sum.drop a).take n)).length = 2 * n := by
    intro a n hle
    rw [length_hexText, List.length_take, List.length_drop]
    omega
  have hexpect : ∀ rest, Calendar.expect '-' ('-' :: rest) = some rest := by simp [Calendar.expect]
  have h₁ : (hexText (sum.take 4)).length = 8 := hlen 0 4 (by omega)
  have h₅ := takeHex_append (hlen 10 6 (by omega)) (hhex _) []
  rw [List.append_nil] at h₅
  simp only [uuidTest, batchIdText, takeHex_append h₁ (hhex _),
    takeHex_append (hlen 4 2 (by omega)) (hhex _), takeHex_append (hlen 6 2 (by omega)) (hhex _),
    takeHex_append (hlen 8 2 (by omega)) (hhex _), h₅, hexpect, Option.bind_eq_bind,
    Option.bind_some, decide_true]

theorem sha256HexTest_hexText (h : sum.length = 32) :
    sha256HexTest (hexText sum) = true := by
  have htake := takeHex_append (show (hexText sum).length = 64 by rw [length_hexText, h])
    (hexText_isLowerHex sum) []
  rw [List.append_nil] at htake
  simp [sha256HexTest, htake]

theorem batchIDFromPayloadHash_hexText (sum : Bytes) :
    batchIDFromPayloadHash (hexText sum) = batchIdText sum := by
  have hslice : ∀ a n, slice (2 * a) (2 * (a + n)) (hexText sum) = hexText ((sum.drop a).take n) := by
    intro a n
    rw [slice, take_hexText, drop_hexText, List.drop_take, Nat.add_sub_cancel_left]
  have h₁ : slice 0 8 (hexText sum) = hexText (sum.take 4) := hslice 0 4
  have h₂ := hslice 4 2
  have h₃ := hslice 6 2
  have h₄ := hslice 8 2
  have h₅ := hslice 10 6
  norm_num at h₂ h₃ h₄ h₅
  simp only [batchIDFromPayloadHash, batchIdText, h₁, h₂, h₃, h₄, h₅]

theorem toLowerCase_hexText (sum : Bytes) :
    toLowerCase (String.ofList (hexText sum)) = hexText sum := by
  rw [toLowerCase, String.toList_ofList]
  calc (hexText sum).map Char.toLower = (hexText sum).map id :=
        List.map_congr_left fun c hc => toLower_of_lowerHex (hexText_isLowerHex sum c hc)
    _ = hexText sum := List.map_id _

theorem toLowerCase_batchIdText (sum : Bytes) :
    toLowerCase (String.ofList (batchIdText sum)) = batchIdText sum := by
  have hhex : ∀ bs, (hexText bs).map Char.toLower = hexText bs := by
    intro bs
    have hlower := toLowerCase_hexText bs
    rwa [toLowerCase, String.toList_ofList] at hlower
  have hdash : '-'.toLower = '-' := by decide
  simp [toLowerCase, batchIdText, hhex, hdash]

/-! ## The checks on a received batch -/

variable {e : AppError}

theorem assertRange_not_hashError (h : assertRange body = .error e) : e ∉ hashErrors := by
  simp only [assertRange, bind_eq_error, ensure_eq_error] at h
  rcases h with ⟨-, rfl⟩ | ⟨_, -, ⟨-, rfl⟩ | ⟨_, -, ⟨-, rfl⟩ | ⟨_, -, ⟨-, rfl⟩ | ⟨_, -, -, rfl⟩⟩⟩⟩ <;>
    decide

theorem assertDecision_not_hashError {d : DecisionWire} (h : assertDecision dateParses d = .error e) :
    e ∉ hashErrors := by
  simp only [assertDecision, bind_eq_error, ensure_eq_error] at h
  rcases h with ⟨-, rfl⟩ | ⟨_, -, ⟨-, rfl⟩ | ⟨_, -, ⟨-, rfl⟩ | ⟨_, -, -, rfl⟩⟩⟩
  · -- The text of the action is part of the message; its first word is not.
    have hhead : ∀ m ∈ hashErrors.map AppError.message, m.toList.head? ≠ some 'i' := by decide
    intro hmem
    apply hhead _ (List.mem_map_of_mem hmem)
    simp [badRequest]
  all_goals decide

theorem assertBatchShape_not_hashError {sha256Hex : Bytes → List Char}
    (hid : body.batchId ≠ "" ∧ uuidTest body.batchId.toList)
    (hhash : body.payloadHash ≠ "" ∧ sha256HexTest body.payloadHash.toList)
    (hcomputed : computedHash sha256Hex body = toLowerCase body.payloadHash)
    (hname : toLowerCase body.batchId = batchIDFromPayloadHash (computedHash sha256Hex body)) :
    ∀ e ∈ hashErrors, assertBatchShape sha256Hex dateParses body ≠ .error e := by
  intro e he h
  simp only [assertBatchShape, bind_eq_error, ensure_eq_error] at h
  rcases h with ⟨hnot, -⟩ | ⟨_, -,
    ⟨hnot, -⟩ | ⟨_, -, hrange | ⟨_, -, hall | ⟨_, -, ⟨hnot, -⟩ | ⟨_, -, hnot, -⟩⟩⟩⟩⟩
  · exact hnot hid
  · exact hnot hhash
  · exact assertRange_not_hashError hrange he
  · obtain ⟨d, -, hd⟩ := forM_eq_error hall
    exact assertDecision_not_hashError hd he
  · exact hnot hcomputed
  · exact hnot hname

theorem ofList_ne_empty (h : l ≠ []) : String.ofList l ≠ "" := by
  intro hempty
  have htexts := congrArg String.toList hempty
  rw [String.toList_ofList] at htexts
  exact h htexts

theorem receivedBatch_named (d : Decision) (ds : List Decision) :
    (receivedBatch sha d ds).batchId ≠ "" ∧ uuidTest (receivedBatch sha d ds).batchId.toList := by
  refine ⟨ofList_ne_empty (by simp [batchIdText]), ?_⟩
  simp only [receivedBatch, buildFlushBatch, String.toList_ofList]
  exact uuidTest_batchIdText (sha.length_sum _)

theorem receivedBatch_hashed (d : Decision) (ds : List Decision) :
    (receivedBatch sha d ds).payloadHash ≠ "" ∧
      sha256HexTest (receivedBatch sha d ds).payloadHash.toList := by
  have hlen := sha.length_sum (batchPayload (d :: ds))
  have hne : hexText (sha.sum (batchPayload (d :: ds))) ≠ [] := by
    intro hnil
    have hlen' := length_hexText (sha.sum (batchPayload (d :: ds)))
    rw [hnil, hlen] at hlen'
    cases hlen'
  refine ⟨ofList_ne_empty hne, ?_⟩
  simp only [receivedBatch, buildFlushBatch, String.toList_ofList]
  exact sha256HexTest_hexText hlen

theorem hash_accepted_of_payload_eq (dateParses : String → Bool)
    (h : canonicalizeDecisionsJSON ((d :: ds).map receivedDecision) = batchPayload (d :: ds)) :
    ∀ e ∈ hashErrors, assertBatchShape sha.hex dateParses (receivedBatch sha d ds) ≠ .error e := by
  have hcomputed : computedHash sha.hex (receivedBatch sha d ds) =
      hexText (sha.sum (batchPayload (d :: ds))) :=
    congrArg sha.hex h
  apply assertBatchShape_not_hashError (receivedBatch_named sha d ds) (receivedBatch_hashed sha d ds)
  · rw [hcomputed]
    exact (toLowerCase_hexText _).symm
  · rw [hcomputed, batchIDFromPayloadHash_hexText]
    exact toLowerCase_batchIdText _

/-- The control plane rebuilds the hashed bytes and accepts hash and name exactly when no string
of a decision has a character that only `json.Marshal` escapes. -/
theorem batch_agrees_iff (sha : Sha256) (dateParses : String → Bool) (d : Decision)
    (ds : List Decision) (h : ∀ x ∈ d :: ds, SafeInts x) :
    (∃ batch, received (buildFlushBatch sha d ds) = some batch ∧
        canonicalizeDecisionsJSON batch.decisions = batchPayload (d :: ds) ∧
        ∀ e ∈ hashErrors, assertBatchShape sha.hex dateParses batch ≠ .error e) ↔
      ∀ x ∈ d :: ds, ∀ s ∈ decisionTexts x, Json.htmlFree s := by
  rw [received_buildFlushBatch sha h, ← payload_eq_iff]
  constructor
  · rintro ⟨batch, hbatch, heq, -⟩
    cases hbatch
    exact heq
  · intro heq
    exact ⟨_, rfl, heq, hash_accepted_of_payload_eq sha dateParses heq⟩

def plainDecision : Decision :=
  { walSeq := 1, fingerprint := "f", action := "deny", scoreReason := "below-threshold", decidedAt := 0 }

theorem batch_agrees_iff_plain :
    (∃ batch, received (buildFlushBatch zeroSha plainDecision []) = some batch ∧
        canonicalizeDecisionsJSON batch.decisions = batchPayload [plainDecision] ∧
        ∀ e ∈ hashErrors, assertBatchShape zeroSha.hex (fun _ => true) batch ≠ .error e) ↔
      ∀ x ∈ [plainDecision], ∀ s ∈ decisionTexts x, Json.htmlFree s :=
  batch_agrees_iff zeroSha (fun _ => true) plainDecision [] (by
    intro x hx
    rw [List.mem_singleton.mp hx]
    exact ⟨by decide, by decide⟩)

def ampersandDecision : Decision := { plainDecision with principalId := "agent&co" }

theorem assertBatchShape_ampersand (dateParses : String → Bool)
    (hdate : dateParses (String.ofList (Calendar.formatRFC3339Nano 0)) = true)
    (hsum : sha.sum (canonicalizeDecisionsJSON [receivedDecision ampersandDecision]) ≠
      sha.sum (batchPayload [ampersandDecision])) :
    assertBatchShape sha.hex dateParses (receivedBatch sha ampersandDecision []) =
      .error ⟨.badRequest, "payload_hash does not match decisions"⟩ := by
  have hrange : assertRange (receivedBatch sha ampersandDecision []) = .ok () := by
    simp [assertRange, ensure, receivedBatch, receivedDecision, bind, Except.bind]
  have hdecision : (receivedBatch sha ampersandDecision []).decisions.forM
      (assertDecision dateParses) = .ok () := by
    have hstamp : rfc3339Test (Calendar.formatRFC3339Nano 0) = true := by decide
    rw [forM_eq_ok]
    simp [receivedBatch, receivedDecision, ampersandDecision, plainDecision, assertDecision, ensure,
      hdate, hstamp, bind, Except.bind]
  have hmismatch : computedHash sha.hex (receivedBatch sha ampersandDecision []) ≠
      toLowerCase (receivedBatch sha ampersandDecision []).payloadHash := by
    intro heq
    apply hsum
    apply hexText_injective
    exact heq.trans (toLowerCase_hexText _)
  simp only [assertBatchShape, ensure, if_pos (receivedBatch_named sha ampersandDecision []),
    if_pos (receivedBatch_hashed sha ampersandDecision []), hrange, hdecision, if_neg hmismatch]
  rfl

/-- Its batch is refused whenever the hashes of the two texts differ, now and at every retry. -/
theorem batch_rejected_ampersand :
    SafeInts ampersandDecision ∧
      canonicalizeDecisionsJSON [receivedDecision ampersandDecision] ≠
        batchPayload [ampersandDecision] ∧
      ∀ (sha : Sha256) (dateParses : String → Bool),
        dateParses (String.ofList (Calendar.formatRFC3339Nano 0)) = true →
        sha.sum (canonicalizeDecisionsJSON [receivedDecision ampersandDecision]) ≠
          sha.sum (batchPayload [ampersandDecision]) →
        ∃ batch, received (buildFlushBatch sha ampersandDecision []) = some batch ∧
          assertBatchShape sha.hex dateParses batch =
            .error ⟨.badRequest, "payload_hash does not match decisions"⟩ := by
  have hsafe : SafeInts ampersandDecision := ⟨by decide, by decide⟩
  refine ⟨hsafe, ?_, ?_⟩
  · intro heq
    have hfree := (payload_eq_iff [ampersandDecision]).mp heq ampersandDecision (by simp) "agent&co"
      (by decide)
    exact absurd (hfree '&' (by decide)) (by decide)
  · intro sha dateParses hdate hsum
    exact ⟨_, received_buildFlushBatch sha (by simpa using hsafe),
      assertBatchShape_ampersand sha dateParses hdate hsum⟩

end Verilink.Sync

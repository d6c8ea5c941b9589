import Verilink.Edge.Store
import Verilink.Framework.JsonEscape

/-!
# Decisions and their JSON forms

A decision has three JSON forms: the line of the write-ahead log, which leaves out empty fields, the
form by which a loaded record is measured, which leaves out two of them, and the wire form of a
batch, which has every field.
-/

namespace Verilink.Edge

open Verilink.Framework

structure Decision where
  walSeq : Int := 0
  fingerprint : String := ""
  principalId : String := ""
  score : Int := 0
  blacklisted : Bool := false
  scoreReason : String := ""
  action : String := ""
  decidedAt : Time
  deriving DecidableEq

def timeJson (t : Time) : Json := .str (String.ofList (Calendar.formatRFC3339Nano t))

/-- A member that is left out when its value is the zero one. -/
def omitEmpty (empty : Prop) [Decidable empty] (key : String) (v : Json) : List (String × Json) :=
  if empty then [] else [(key, v)]

def Decision.toJson (d : Decision) : Json :=
  .obj ([("wal_seq", .int d.walSeq), ("fingerprint", .str d.fingerprint)] ++
    omitEmpty (d.principalId = "") "principal_id" (.str d.principalId) ++
    [("score", .int d.score), ("blacklisted", .bool d.blacklisted)] ++
    omitEmpty (d.scoreReason = "") "score_reason" (.str d.scoreReason) ++
    [("action", .str d.action), ("decided_at", timeJson d.decidedAt)])

/-- `toDecisionWire`: no member is left out. -/
def decisionWire (d : Decision) : Json :=
  .obj [("wal_seq", .int d.walSeq), ("fingerprint", .str d.fingerprint),
    ("principal_id", .str d.principalId), ("score", .int d.score),
    ("blacklisted", .bool d.blacklisted), ("score_reason", .str d.scoreReason),
    ("action", .str d.action), ("decided_at", timeJson d.decidedAt)]

theorem stampChar_htmlFree {c : Char} (h : Calendar.isStampChar c = true) :
    Json.htmlEscaped c = false := by
  simp only [Calendar.isStampChar, List.mem_cons, List.not_mem_nil, or_false, decide_eq_true_eq] at h
  rcases h with hdigit | rfl | rfl | rfl | rfl | rfl
  · simp only [Json.htmlEscaped, List.mem_cons, List.not_mem_nil, or_false, decide_eq_false_iff_not]
    rintro (rfl | rfl | rfl | rfl | rfl) <;> exact absurd hdigit (by decide)
  all_goals decide

theorem htmlFree_stamp (t : Time) : Json.htmlFree (String.ofList (Calendar.formatRFC3339Nano t)) := by
  intro c hc
  rw [String.toList_ofList] at hc
  exact stampChar_htmlFree (Calendar.formatRFC3339Nano_stamp t c hc)

end Verilink.Edge

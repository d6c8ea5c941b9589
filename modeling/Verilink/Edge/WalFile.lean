import Verilink.Edge.WalLoad

/-!
# The log as a list of records

What the file says, without its bytes: a list of records, each of them a number to go on with, a
decision or a watermark.
-/

namespace Verilink.Edge

open Verilink.Framework

theorem walFormat_decode : walFormat.decode = WalLine.decode := rfl

inductive LogLine
  | next (seq : Int)
  | dec (d : Decision)
  | ack (through : Int)

namespace LogLine

def line : LogLine → WalLine
  | next seq => metaLine seq
  | dec d => decLine d
  | ack through => ackLine through

def mark (m : Watermarks) : LogLine → Watermarks
  | next seq => { m with nextSeq := max m.nextSeq seq }
  | dec d => { m with nextSeq := max m.nextSeq (d.walSeq + 1) }
  | ack through => { m with ackThrough := max m.ackThrough through }

def decision? : LogLine → Option Decision
  | dec d => some d
  | _ => none

theorem step_line (m : Watermarks) (l : LogLine) : m.step l.line = l.mark m := by
  cases l with
  | next seq =>
    change (if m.nextSeq < seq then { m with nextSeq := seq } else m) = _
    rw [mark]
    by_cases h : m.nextSeq < seq
    · rw [if_pos h, max_eq_right h.le]
    · rw [if_neg h, max_eq_left (not_lt.mp h)]
  | dec d =>
    change (if m.nextSeq ≤ d.walSeq then { m with nextSeq := d.walSeq + 1 } else m) = _
    rw [mark]
    by_cases h : m.nextSeq ≤ d.walSeq
    · rw [if_pos h, max_eq_right (by omega)]
    · rw [if_neg h, max_eq_left (by omega)]
  | ack through =>
    change (if m.ackThrough < through then { m with ackThrough := through } else m) = _
    rw [mark]
    by_cases h : m.ackThrough < through
    · rw [if_pos h, max_eq_right h.le]
    · rw [if_neg h, max_eq_left (not_lt.mp h)]

structure Ok (l : LogLine) : Prop where
  int64 : l.line.Int64
  year : Calendar.FourDigitYear l.line.decidedAt
  short : l.line.text.length + 1 ≤ walMaxLineBytes

theorem Ok.data {l : LogLine} (h : l.Ok) : l.line.data = .ok (l.line.text ++ [0x0A]) :=
  data_eq_ok.mpr ⟨h.year, h.short, rfl⟩

theorem text_ne_nil (l : LogLine) : l.line.text ≠ [] := List.cons_ne_nil _ _

theorem Ok.writes {l : LogLine} (h : l.Ok) : walFormat.Writes WalLine.text l.line := by
  have hge : ∀ b ∈ l.line.text, 0x20 ≤ b := text_ge l.line
  have hlf : 0x0A ∉ l.line.text := fun hmem => absurd (hge _ hmem) (by decide)
  have hcr : l.line.text.getLast? ≠ some 0x0D := fun hlast =>
    absurd (hge _ (List.mem_of_getLast? hlast)) (by decide)
  have hdecode : walFormat.decode l.line.text = some l.line := by
    rw [walFormat_decode]
    exact decode_text h.int64 h.year
  exact ⟨Nat.lt_of_succ_le h.short, hlf, l.text_ne_nil, hcr, hdecode⟩

/-! Watermarks and numbers are short lines. -/

theorem year_zeroTime : Calendar.FourDigitYear zeroTime := by decide

theorem zero_int64 : -2 ^ 63 ≤ (0 : Int) ∧ (0 : Int) < 2 ^ 63 := by decide

theorem sum_omitEmpty_le (empty : Prop) [Decidable empty] (key : String) (v : Json) :
    ((omitEmpty empty key v).map Json.memberLength).sum ≤ Json.memberLength (key, v) := by
  rw [omitEmpty]
  split <;> simp

theorem memberLength_int_le (key : String) {n : Int} (h : -2 ^ 63 ≤ n ∧ n < 2 ^ 63) :
    Json.memberLength (key, .int n) ≤ (Json.quoteText Json.goEscape key).length + 22 := by
  have hlen : (Json.marshal (.int n)).length ≤ 20 := Json.length_intText_le h
  change (Json.quoteText Json.goEscape key).length + (Json.marshal (.int n)).length + 2 ≤ _
  omega

theorem memberLength_zeroTime : Json.memberLength ("decided_at", timeJson zeroTime) = 36 := by
  decide

theorem ok_ack {t : Int} (h : -2 ^ 63 ≤ t ∧ t < 2 ^ 63) : (ack t).Ok where
  int64 := ⟨zero_int64, zero_int64, h, zero_int64, zero_int64⟩
  year := year_zeroTime
  short := by
    have hmembers : (ack t).line.members = ("t", Json.str "ack") ::
        (omitEmpty (t = 0) "through" (.int t) ++ [("decided_at", timeJson zeroTime)]) := by
      by_cases ht : t = 0 <;> simp [WalLine.members, line, ackLine, omitEmpty, ht]
    have hne : (ack t).line.members ≠ [] := List.cons_ne_nil _ _
    have hthrough :=
      (sum_omitEmpty_le (t = 0) "through" (.int t)).trans (memberLength_int_le "through" h)
    have hquote : (Json.quoteText Json.goEscape "through").length = 9 := by decide
    have ht : Json.memberLength ("t", Json.str "ack") = 10 := by decide
    rw [WalLine.text, Json.length_marshal_obj hne, hmembers, walMaxLineBytes]
    simp only [List.map_append, List.sum_append, List.map_cons, List.map_nil, List.sum_cons,
      List.sum_nil, ht, memberLength_zeroTime]
    omega

theorem ok_next {n : Int} (h : -2 ^ 63 ≤ n ∧ n < 2 ^ 63) : (next n).Ok where
  int64 := ⟨show -2 ^ 63 ≤ (2 : Int) ∧ (2 : Int) < 2 ^ 63 by decide, h, zero_int64, zero_int64,
    zero_int64⟩
  year := year_zeroTime
  short := by
    have hmembers : (next n).line.members = ("t", Json.str "meta") :: ("schema_version", Json.int 2) ::
        (omitEmpty (n = 0) "next_seq" (.int n) ++ [("decided_at", timeJson zeroTime)]) := by
      by_cases hn : n = 0 <;> simp [WalLine.members, line, metaLine, walSchemaVersion, omitEmpty, hn]
    have hne : (next n).line.members ≠ [] := List.cons_ne_nil _ _
    have hnext := (sum_omitEmpty_le (n = 0) "next_seq" (.int n)).trans (memberLength_int_le "next_seq" h)
    have hquote : (Json.quoteText Json.goEscape "next_seq").length = 10 := by decide
    have ht : Json.memberLength ("t", Json.str "meta") = 11 := by decide
    have hs : Json.memberLength ("schema_version", Json.int 2) = 19 := by decide
    rw [WalLine.text, Json.length_marshal_obj hne, hmembers, walMaxLineBytes]
    simp only [List.map_append, List.sum_append, List.map_cons, List.map_nil, List.sum_cons,
      List.sum_nil, ht, hs, memberLength_zeroTime]
    omega

end LogLine

def marks (ls : List LogLine) : Watermarks := ls.foldl LogLine.mark {}

def decisions (ls : List LogLine) : List Decision := ls.filterMap LogLine.decision?

def pendingOf (ls : List LogLine) : List Decision :=
  (decisions ls).filter fun d => (marks ls).ackThrough < d.walSeq

def logText (ls : List LogLine) : Bytes := LineFormat.fileText WalLine.text (ls.map LogLine.line)

@[simp]
theorem logText_append (ls ls' : List LogLine) : logText (ls ++ ls') = logText ls ++ logText ls' := by
  simp [logText]

@[simp]
theorem logText_singleton (l : LogLine) : logText [l] = l.line.text ++ [0x0A] := by
  simp [logText]

@[simp]
theorem decisions_append (ls ls' : List LogLine) :
    decisions (ls ++ ls') = decisions ls ++ decisions ls' :=
  List.filterMap_append

theorem marks_concat (ls : List LogLine) (l : LogLine) : marks (ls ++ [l]) = l.mark (marks ls) := by
  simp [marks]

variable {ls : List LogLine}

theorem mem_decisions {d : Decision} : d ∈ decisions ls ↔ LogLine.dec d ∈ ls := by
  rw [decisions, List.mem_filterMap]
  constructor
  · rintro ⟨l, hl, hd⟩
    cases l with
    | dec d' =>
      cases hd
      exact hl
    | next _ => cases hd
    | ack _ => cases hd
  · exact fun h => ⟨_, h, rfl⟩

theorem marks_bounds (ls : List LogLine) : 0 ≤ (marks ls).ackThrough ∧ 1 ≤ (marks ls).nextSeq := by
  induction ls using List.reverseRecOn with
  | nil => exact ⟨le_rfl, le_rfl⟩
  | append_singleton ls l ih =>
    rw [marks_concat]
    cases l with
    | next seq => exact ⟨ih.1, ih.2.trans (le_max_left _ _)⟩
    | dec d => exact ⟨ih.1, ih.2.trans (le_max_left _ _)⟩
    | ack through => exact ⟨ih.1.trans (le_max_left _ _), ih.2⟩

/-! What a compaction writes: the next number and the pending decisions. -/

theorem decisions_compacted (n : Int) (records : List Decision) :
    decisions (.next n :: records.map .dec) = records := by
  rw [decisions, List.filterMap_cons_none rfl, List.filterMap_map]
  exact List.filterMap_some

theorem marks_compacted {n : Int} (hn : 1 ≤ n) {records : List Decision}
    (h : ∀ d ∈ records, d.walSeq < n) : marks (.next n :: records.map .dec) = ⟨0, n⟩ := by
  have hfold : (records.map LogLine.dec).foldl LogLine.mark ⟨0, n⟩ = ⟨0, n⟩ := by
    induction records with
    | nil => rfl
    | cons d records ih =>
      have hd : max n (d.walSeq + 1) = n := max_eq_left (h d List.mem_cons_self)
      rw [List.map_cons, List.foldl_cons, LogLine.mark, hd]
      exact ih fun a ha => h a (List.mem_cons_of_mem _ ha)
  rw [marks, List.foldl_cons, LogLine.mark, max_eq_right hn]
  exact hfold

theorem walSeq_lt_marks : ∀ d ∈ decisions ls, d.walSeq < (marks ls).nextSeq := by
  induction ls using List.reverseRecOn with
  | nil => exact List.forall_mem_nil _
  | append_singleton ls l ih =>
    rw [marks_concat, decisions_append]
    cases l with
    | next seq =>
      rw [show decisions [.next seq] = [] from rfl, List.append_nil]
      exact fun d hd => (ih d hd).trans_le (le_max_left _ _)
    | dec d =>
      rw [show decisions [.dec d] = [d] from rfl, List.forall_mem_append, List.forall_mem_singleton]
      exact ⟨fun a ha => (ih a ha).trans_le (le_max_left _ _), lt_max_of_lt_right (Int.lt_succ _)⟩
    | ack through =>
      rw [show decisions [.ack through] = [] from rfl, List.append_nil]
      exact ih

/-! ## Loading -/

theorem foldlM_mark (ls : List LogLine) (m : Watermarks) :
    (ls.map LogLine.line).foldlM (m := Except WalError) (fun m line => .ok (m.step line)) m =
      .ok (ls.foldl LogLine.mark m) := by
  induction ls generalizing m with
  | nil => rfl
  | cons l ls ih =>
    rw [List.map_cons, foldlM_cons_of_ok _ rfl, LogLine.step_line, ih, List.foldl_cons]

theorem foldlM_loaded (a : Int) (ls : List LogLine) (s : Loaded) :
    ∃ saw, (ls.map LogLine.line).foldlM (Loaded.step a) s =
      .ok
        { sawMeta := saw
          entries := s.entries ++ ((decisions ls).filter fun d => a < d.walSeq).map reloadedEntry
          bytes := s.bytes +
            (((decisions ls).filter fun d => a < d.walSeq).map estimateDecisionBytes).sum } := by
  induction ls generalizing s with
  | nil => exact ⟨s.sawMeta, by simp [decisions, pure, Except.pure]⟩
  | cons l ls ih =>
    cases l with
    | next seq =>
      have hstep : Loaded.step a s (LogLine.next seq).line = .ok { s with sawMeta := true } := rfl
      obtain ⟨saw, hsaw⟩ := ih { s with sawMeta := true }
      exact ⟨saw, (foldlM_cons_of_ok _ hstep).trans hsaw⟩
    | dec d =>
      by_cases hd : a < d.walSeq
      · have hstep : Loaded.step a s (LogLine.dec d).line = .ok { s with
            entries := s.entries ++ [reloadedEntry d]
            bytes := s.bytes + estimateDecisionBytes d } := by
          simp [Loaded.step, LogLine.line, decLine, not_le.mpr hd, WalLine.decision]
        obtain ⟨saw, hsaw⟩ := ih { s with
          entries := s.entries ++ [reloadedEntry d], bytes := s.bytes + estimateDecisionBytes d }
        refine ⟨saw, (foldlM_cons_of_ok _ hstep).trans (hsaw.trans ?_)⟩
        simp [decisions, LogLine.decision?, hd, Int.add_assoc]
      · have hstep : Loaded.step a s (LogLine.dec d).line = .ok s := by
          simp [Loaded.step, LogLine.line, decLine, not_lt.mp hd]
        obtain ⟨saw, hsaw⟩ := ih s
        refine ⟨saw, (foldlM_cons_of_ok _ hstep).trans (hsaw.trans ?_)⟩
        simp [decisions, LogLine.decision?, hd]
    | ack through =>
      have hstep : Loaded.step a s (LogLine.ack through).line = .ok s := rfl
      obtain ⟨saw, hsaw⟩ := ih s
      exact ⟨saw, (foldlM_cons_of_ok _ hstep).trans hsaw⟩

def Queue.reloaded (q : Queue) (ls : List LogLine) : Queue :=
  { q with
    nextSeq := (marks ls).nextSeq
    entries := (pendingOf ls).map reloadedEntry
    bytes := ((pendingOf ls).map estimateDecisionBytes).sum
    staleBytes := 0 }

variable {q : Queue}

/-- A file is loaded by what its two scans read. -/
theorem loadStream_of_scan (hq : q.staleBytes = 0) {content : Bytes}
    (h : ∀ (σ : Type) (step : σ → WalLine → Except WalError σ) (s : σ),
      walFormat.scanFile step content s = (ls.map LogLine.line).foldlM step s) :
    q.loadStream content = .ok (q.reloaded ls) := by
  obtain ⟨saw, hsaw⟩ := foldlM_loaded (marks ls).ackThrough ls {}
  have hmarks : scanWALWatermarks content = .ok (marks ls) := (h _ _ _).trans (foldlM_mark ls {})
  have hloaded := (h _ (Loaded.step (marks ls).ackThrough) {}).trans hsaw
  rw [Queue.loadStream, hmarks]
  simp only [bind, Except.bind, hloaded, Queue.reloaded, pendingOf, List.nil_append, zero_add, hq,
    ite_self]

theorem writes_of_ok (h : ∀ l ∈ ls, l.Ok) :
    ∀ a ∈ ls.map LogLine.line, walFormat.Writes WalLine.text a := by
  intro a ha
  obtain ⟨l, hl, rfl⟩ := List.mem_map.mp ha
  exact (h l hl).writes

theorem loadStream_torn (hq : q.staleBytes = 0) (h : ∀ l ∈ ls, l.Ok) {tail : Bytes}
    (ht : walFormat.TornTail tail) :
    q.loadStream (logText ls ++ tail) = .ok (q.reloaded ls) :=
  loadStream_of_scan hq fun _ step s => LineFormat.scanFile_torn (writes_of_ok h) ht step s

theorem loadStream_logText (hq : q.staleBytes = 0) (h : ∀ l ∈ ls, l.Ok) :
    q.loadStream (logText ls) = .ok (q.reloaded ls) := by
  have htail : walFormat.TornTail [] := ⟨by decide, List.not_mem_nil, rfl⟩
  simpa using loadStream_torn hq h htail

def decLines (content : Bytes) : List Decision :=
  (((scanLines content).filterMap walFormat.record).filter fun l => l.type = "dec").map
    WalLine.decision

theorem decLines_logText (h : ∀ l ∈ ls, l.Ok) :
    decLines (logText ls) = decisions ls := by
  rw [decLines, logText, LineFormat.filterMap_record_fileText (writes_of_ok h)]
  clear h
  induction ls with
  | nil => rfl
  | cons l ls ih =>
    cases l with
    | next seq => exact ih
    | dec d => exact congrArg (d :: ·) ih
    | ack through => exact ih

/-! ## Records that stand for a queue -/

/-- The records say that `records` are pending and that numbers go on from `nextSeq`. -/
structure Replays (ls : List LogLine) (records : List Decision) (nextSeq : Int) : Prop where
  pending : pendingOf ls = records
  next : (marks ls).nextSeq = nextSeq
  ack_lt : (marks ls).ackThrough < nextSeq
  sorted : records.Pairwise fun a b => a.walSeq < b.walSeq
  bound : ∀ d ∈ records, d.walSeq < nextSeq

section Replays

variable {ls : List LogLine} {records : List Decision} {n : Int}

variable (h : Replays ls records n)
include h

theorem Replays.next_pos : 1 ≤ n := h.next ▸ (marks_bounds ls).2

theorem Replays.pos : ∀ d ∈ records, 0 < d.walSeq := by
  intro d hd
  rw [← h.pending, pendingOf, List.mem_filter, decide_eq_true_eq] at hd
  exact (marks_bounds ls).1.trans_lt hd.2

theorem Replays.mem {d : Decision} (hd : d ∈ records) :
    LogLine.dec d ∈ ls := by
  rw [← h.pending, pendingOf] at hd
  exact mem_decisions.mp (List.mem_of_mem_filter hd)

theorem Replays.dec {d : Decision} (hd : d.walSeq = n) :
    Replays (ls ++ [.dec d]) (records ++ [d]) (n + 1) where
  pending := by
    have hack : (marks ls).ackThrough < d.walSeq := hd ▸ h.ack_lt
    have hmarks : (marks (ls ++ [.dec d])).ackThrough = (marks ls).ackThrough := by
      rw [marks_concat]
      rfl
    rw [pendingOf, hmarks, decisions_append, List.filter_append, ← h.pending, pendingOf]
    congr 1
    simp [decisions, LogLine.decision?, hack]
  next := by
    rw [marks_concat, LogLine.mark, h.next, hd]
    exact max_eq_right (by omega)
  ack_lt := by
    rw [marks_concat]
    exact h.ack_lt.trans (Int.lt_succ n)
  sorted := by
    refine List.pairwise_append.mpr ⟨h.sorted, List.pairwise_singleton _ _, fun a ha b hb => ?_⟩
    rw [List.mem_singleton.mp hb, hd]
    exact h.bound a ha
  bound := by
    rw [List.forall_mem_append, List.forall_mem_singleton, hd]
    exact ⟨fun a ha => (h.bound a ha).trans (Int.lt_succ n), Int.lt_succ n⟩

theorem Replays.ack {t : Int} {k : Nat} (ht : t < n)
    (htake : ∀ d ∈ records.take k, d.walSeq ≤ t) (hdrop : ∀ d ∈ records.drop k, t < d.walSeq) :
    Replays (ls ++ [.ack t]) (records.drop k) n where
  pending := by
    have hmarks : (marks (ls ++ [.ack t])).ackThrough = max (marks ls).ackThrough t := by
      rw [marks_concat]
      rfl
    have hfilter : pendingOf (ls ++ [.ack t]) = records.filter fun d => t < d.walSeq := by
      rw [← h.pending, pendingOf, hmarks, pendingOf, List.filter_filter]
      have hdecisions : decisions (ls ++ [.ack t]) = decisions ls := by
        simp [decisions, LogLine.decision?]
      rw [hdecisions]
      apply List.filter_congr
      intro d _
      simp [and_comm]
    have htake' : (records.take k).filter (fun d => t < d.walSeq) = [] := by
      rw [List.filter_eq_nil_iff]
      intro d hd
      simpa using htake d hd
    have hdrop' : (records.drop k).filter (fun d => t < d.walSeq) = records.drop k := by
      rw [List.filter_eq_self]
      intro d hd
      simpa using hdrop d hd
    calc pendingOf (ls ++ [.ack t]) = (records.take k ++ records.drop k).filter fun d => t <
      d.walSeq := by
          rw [hfilter, List.take_append_drop]
      _ = records.drop k := by rw [List.filter_append, htake', hdrop', List.nil_append]
  next := by
    rw [marks_concat]
    exact h.next
  ack_lt := by
    rw [marks_concat]
    exact max_lt h.ack_lt ht
  sorted := h.sorted.sublist (List.drop_sublist k records)
  bound := fun d hd => h.bound d (List.mem_of_mem_drop hd)

theorem Replays.compact :
    Replays (.next n :: records.map .dec) records n := by
  have hmarks := marks_compacted h.next_pos h.bound
  refine ⟨?_, by rw [hmarks], by rw [hmarks]; exact h.next_pos, h.sorted, h.bound⟩
  rw [pendingOf, decisions_compacted, hmarks, List.filter_eq_self]
  exact fun d hd => decide_eq_true (h.pos d hd)

end Replays

end Verilink.Edge

import Verilink.Edge.FlushWorker
import Verilink.Edge.WalFile

/-!
# Runs of the log on a healthy disk

Every write goes through. Then the records on disk stand for the queue in memory after every
operation.
-/

namespace Verilink.Edge

open Verilink.Framework

structure Disk.Healthy (d : Disk) : Prop where
  hasPath : d.hasPath = true
  handle : d.handle = .named
  writes : d.writes = []
  compact : d.compact = .done

def Disk.extended (d : Disk) (l : LogLine) (sinceSync : Nat) : Disk :=
  { d with content := d.content ++ logText [l], sinceSync := sinceSync }

namespace Disk.Healthy

variable {d : Disk}

theorem extended (h : d.Healthy) (l : LogLine) (sinceSync : Nat) : (d.extended l sinceSync).Healthy :=
  ⟨h.hasPath, h.handle, h.writes, h.compact⟩

theorem writeBytesLocked (h : d.Healthy) (l : LogLine) (force : Bool) :
    ∃ n, d.writeBytesLocked (l.line.text ++ [0x0A]) force = (d.extended l n, none) := by
  obtain ⟨hasPath, handle, content, sinceSync, writes, compact⟩ := d
  obtain ⟨rfl, rfl, rfl, rfl⟩ := h
  rw [← logText_singleton]
  by_cases hsync : force = true ∨ walSyncEveryN ≤ sinceSync + 1
  · refine ⟨0, ?_⟩
    simp [Disk.writeBytesLocked, Disk.put, Disk.extended, hsync]
  · refine ⟨sinceSync + 1, ?_⟩
    simp [Disk.writeBytesLocked, Disk.put, Disk.extended, hsync]

theorem writeLineLocked (h : d.Healthy) {l : LogLine} (hl : l.Ok) (force : Bool) :
    ∃ n, d.writeLineLocked l.line force = (d.extended l n, none) := by
  rw [Disk.writeLineLocked, hl.data, h.hasPath]
  exact h.writeBytesLocked l force

end Disk.Healthy

def compactedLog (q : Queue) : List LogLine := .next q.nextSeq :: q.records.map .dec

/-- The decisions of the queue can be written, and their numbers grow up to the next one. -/
structure Queue.Numbered (q : Queue) : Prop where
  ok : ∀ d ∈ q.records, (LogLine.dec d).Ok
  sorted : q.records.Pairwise fun a b => a.walSeq < b.walSeq
  bound : ∀ d ∈ q.records, d.walSeq < q.nextSeq
  next_pos : 1 ≤ q.nextSeq
  int64 : q.nextSeq < 2 ^ 63

namespace Queue.Numbered

variable {q : Queue} {d : Decision}

theorem ok_compactedLog (h : q.Numbered) : ∀ l ∈ compactedLog q, l.Ok := by
  have hpos := h.next_pos
  have hint := h.int64
  refine List.forall_mem_cons.mpr ⟨LogLine.ok_next ⟨by omega, by omega⟩, ?_⟩
  rw [List.forall_mem_map]
  exact h.ok

theorem ok_dec (h : q.Numbered) (hscore : -2 ^ 63 ≤ d.score ∧ d.score < 2 ^ 63)
    (hseq : d.walSeq = q.nextSeq) {data : Bytes} (hdata : (decLine d).data = .ok data) :
    (LogLine.dec d).Ok ∧ data = (LogLine.dec d).line.text ++ [0x0A] := by
  obtain ⟨hyear, hshort, rfl⟩ := data_eq_ok.mp hdata
  have hpos := h.next_pos
  have hint := h.int64
  have hwal : -2 ^ 63 ≤ d.walSeq ∧ d.walSeq < 2 ^ 63 := ⟨by omega, by omega⟩
  exact ⟨⟨⟨LogLine.zero_int64, LogLine.zero_int64, LogLine.zero_int64, hwal, hscore⟩, hyear,
    hshort⟩, rfl⟩

end Queue.Numbered

/-- The records `ls` are on the disk and stand for the queue. -/
structure Wal.Backed (w : Wal) (ls : List LogLine) : Prop where
  healthy : w.disk.Healthy
  content : w.disk.content = logText ls
  ne_nil : ls ≠ []
  ok : ∀ l ∈ ls, l.Ok
  replays : Replays ls w.queue.records w.queue.nextSeq
  int64 : w.queue.nextSeq < 2 ^ 63

namespace Wal

variable {w : Wal} {ls : List LogLine} {q : Queue}

theorem Backed.extended (h : w.Backed ls) {l : LogLine} (hl : l.Ok)
    (hq : Replays (ls ++ [l]) q.records q.nextSeq) (hint : q.nextSeq < 2 ^ 63) (n : Nat) :
    Backed ⟨q, w.disk.extended l n⟩ (ls ++ [l]) where
  healthy := h.healthy.extended l n
  content := by rw [Disk.extended, h.content, logText_append]
  ne_nil := List.concat_ne_nil _ _
  ok := List.forall_mem_append.mpr ⟨h.ok, List.forall_mem_singleton.mpr hl⟩
  replays := hq
  int64 := hint

theorem Backed.numbered (h : w.Backed ls) : w.queue.Numbered :=
  ⟨fun _ hd => h.ok _ (h.replays.mem hd), h.replays.sorted, h.replays.bound, h.replays.next_pos, h.int64⟩

theorem Backed.ok_ack (h : w.Backed ls) {t : Int} (hpos : 0 < t) (ht : t < w.queue.nextSeq) :
    (LogLine.ack t).Ok := by
  have := h.int64
  exact LogLine.ok_ack ⟨by omega, by omega⟩

theorem Backed.writeAck (h : w.Backed ls) {k : Nat} {t : Int} (hpos : 0 < t) (ht : t < w.queue.nextSeq)
    (hrecords : q.records = w.queue.records.drop k) (hnext : q.nextSeq = w.queue.nextSeq)
    (htake : ∀ d ∈ w.queue.records.take k, d.walSeq ≤ t)
    (hdrop : ∀ d ∈ w.queue.records.drop k, t < d.walSeq) :
    ∃ n, writeLineLocked { w with queue := q } (ackLine t) = (⟨q, w.disk.extended (.ack t) n⟩, none) ∧
      Backed ⟨q, w.disk.extended (.ack t) n⟩ (ls ++ [.ack t]) := by
  obtain ⟨n, hn⟩ := h.healthy.writeLineLocked (h.ok_ack hpos ht) false
  refine ⟨n, ?_, h.extended (h.ok_ack hpos ht) ?_ (hnext ▸ h.int64) n⟩
  · change onDisk _ (w.disk.writeLineLocked (LogLine.ack t).line false) = _
    rw [hn]
    rfl
  · rw [hrecords, hnext]
    exact h.replays.ack ht htake hdrop

theorem Backed.ackDropped (h : w.Backed ls) {k : Nat} (hq : Queue.Dropped k w.queue q) :
    (w.ackDropped q).2 = none ∧ ∃ ls', (w.ackDropped q).1.Backed ls' := by
  have hrecords : q.records = w.queue.records.drop k := by
    rw [Queue.records, hq.entries, List.map_drop, Queue.records]
  have hlen : w.queue.entries.length - q.entries.length = k := by
    have := hq.le
    rw [hq.entries, List.length_drop]
    omega
  rw [Wal.ackDropped, hlen]
  split
  · rename_i hnone
    have hzero : w.queue.entries.take k = [] := List.getLast?_eq_none_iff.mp hnone
    have hsame : q.entries = w.queue.entries := by
      conv_rhs => rw [← List.take_append_drop k w.queue.entries, hzero, List.nil_append]
      exact hq.entries
    refine ⟨rfl, ls, h.healthy, h.content, h.ne_nil, h.ok, ?_, hq.nextSeq ▸ h.int64⟩
    have hsame' : q.records = w.queue.records := congrArg (List.map _) hsame
    change Replays ls q.records q.nextSeq
    rw [hsame', hq.nextSeq]
    exact h.replays
  · rename_i last hlast
    have hlast' : (w.queue.records.take k).getLast? = some last.record := by
      rw [Queue.records, ← List.map_take, List.getLast?_map, hlast]
      rfl
    have hmem := List.mem_of_getLast? hlast'
    have hin := List.mem_of_mem_take hmem
    -- In an ordered queue the last of the first `k` separates them from the rest.
    have hsorted := h.replays.sorted
    rw [← List.take_append_drop k w.queue.records] at hsorted
    have htake : ∀ d ∈ w.queue.records.take k, d.walSeq ≤ last.record.walSeq :=
      Watermark.le_of_getLast? (List.pairwise_append.mp hsorted).1 hlast'
    have hdrop : ∀ d ∈ w.queue.records.drop k, last.record.walSeq < d.walSeq :=
      fun d hd => (List.pairwise_append.mp hsorted).2.2 _ hmem d hd
    obtain ⟨n, hn, hback⟩ :=
      h.writeAck (h.replays.pos _ hin) (h.replays.bound _ hin) hrecords hq.nextSeq htake hdrop
    rw [hn]
    exact ⟨rfl, _, hback⟩

theorem mapM_compactedLines (h : ∀ l ∈ compactedLog q, l.Ok) :
    ∃ data, q.compactedLines.mapM WalLine.data = .ok data ∧ data.flatten = logText (compactedLog q) := by
  have hlines : q.compactedLines = (compactedLog q).map LogLine.line := by
    simp [Queue.compactedLines, compactedLog, LogLine.line, Queue.records]
  refine ⟨(compactedLog q).map fun l => l.line.text ++ [0x0A], ?_, ?_⟩
  · rw [hlines]
    exact mapM_map_of_ok _ _ _ _ fun l hl => (h l hl).data
  · rw [logText, LineFormat.fileText, List.flatMap_map, List.flatMap_def]

theorem Backed.compactLocked (h : w.Backed ls) :
    w.compactLocked.2 = none ∧ w.compactLocked.1.queue = { w.queue with staleBytes := 0 } ∧
      w.compactLocked.1.Backed (compactedLog w.queue) := by
  obtain ⟨data, hdata, hflat⟩ := mapM_compactedLines h.numbered.ok_compactedLog
  rw [Wal.compactLocked, hdata, h.healthy.compact]
  exact ⟨rfl, rfl, ⟨h.healthy.hasPath, rfl, h.healthy.writes, h.healthy.compact⟩, hflat,
    List.cons_ne_nil _ _, h.numbered.ok_compactedLog, h.replays.compact, h.int64⟩

theorem Backed.maybeCompactLocked (h : w.Backed ls) :
    w.maybeCompactLocked.2 = none ∧ ∃ ls', w.maybeCompactLocked.1.Backed ls' := by
  obtain ⟨herr, -, hback⟩ := h.compactLocked
  rw [Wal.maybeCompactLocked]
  split_ifs
  · exact ⟨rfl, ls, h⟩
  · exact ⟨rfl, ls, h⟩
  · exact ⟨rfl, ls, h⟩
  · exact ⟨herr, _, hback⟩

theorem Backed.pruneExpiredLocked (h : w.Backed ls) (now : Time) :
    (w.pruneExpiredLocked now).2 = none ∧ ∃ ls', (w.pruneExpiredLocked now).1.Backed ls' :=
  pruneExpiredLocked_induct (Q := fun r => r.2 = none ∧ ∃ ls', r.1.Backed ls') ⟨rfl, ls, h⟩
    (fun _ _ hk => h.ackDropped hk) now

theorem Backed.dropForCapacityLocked (h : w.Backed ls) (need : Int) :
    ∃ ls', (w.dropForCapacityLocked need).1.Backed ls' :=
  dropForCapacityLocked_keeps (P := fun w' => ∃ ls', w'.Backed ls') ⟨ls, h⟩
    (fun _ _ hk => (h.ackDropped hk).2) need

variable {d : Decision}

theorem Backed.appendEntry (h : w.Backed ls) (hscore : -2 ^ 63 ≤ d.score ∧ d.score < 2 ^ 63)
    (hseq : d.walSeq = w.queue.nextSeq) (hint : w.queue.nextSeq + 1 < 2 ^ 63) {data : Bytes}
    (hdata : (decLine d).data = .ok data) :
    ∃ ls', (w.appendEntry d data).1.Backed ls' := by
  obtain ⟨hok, rfl⟩ := h.numbered.ok_dec hscore hseq hdata
  obtain ⟨n, hn⟩ := h.healthy.writeBytesLocked (.dec d) false
  rw [Wal.appendEntry, hn]
  refine (Backed.maybeCompactLocked (h.extended hok ?_ hint n)).2
  have hreplays := h.replays.dec hseq
  rw [Queue.records, List.map_append]
  exact hreplays

theorem Backed.append (h : w.Backed ls) (hscore : -2 ^ 63 ≤ d.score ∧ d.score < 2 ^ 63)
    (hint : w.queue.nextSeq + 1 < 2 ^ 63) (clock now : Time) :
    ∃ ls', (w.append d clock now).1.Backed ls' := by
  obtain ⟨-, hprune⟩ := h.pruneExpiredLocked now
  refine append_induct (P := fun w' => ∃ ls', w'.Backed ls')
    (Q := fun r => ∃ ls', r.1.Backed ls') ⟨ls, h⟩ hprune ?_ ?_ ?_
  · rintro w' need ⟨ls', h'⟩
    exact h'.dropForCapacityLocked need
  · exact fun _ _ h' => h'
  · rintro w' data ⟨ls', h'⟩ hnext - hdata
    exact h'.appendEntry (d := w.stamped d clock) hscore hnext.symm (hnext ▸ hint) hdata

theorem Backed.ackThrough (h : w.Backed ls) {seq : Int} (hseq : seq < w.queue.nextSeq) :
    ∃ ls', (w.ackThrough seq).1.Backed ls' := by
  rw [Wal.ackThrough]
  split
  · exact ⟨ls, h⟩
  · rename_i hwork
    have hsorted := h.replays.sorted
    rw [Queue.records, List.pairwise_map] at hsorted
    have habove := Watermark.lt_of_mem_drop_takeWhile hsorted seq
    generalize hacked : w.queue.entries.takeWhile (fun e => decide (e.record.walSeq ≤ seq)) = acked
      at hwork habove
    have htake : w.queue.entries.take acked.length = acked := by
      rw [← hacked, ← List.prefix_iff_eq_take.mp (List.takeWhile_prefix _)]
    have hreached : ∀ d ∈ w.queue.records.take acked.length, d.walSeq ≤ seq := by
      rw [Queue.records, ← List.map_take, htake, List.forall_mem_map, ← hacked]
      exact fun e he => by simpa using List.mem_takeWhile_imp he
    have hrest : ∀ d ∈ w.queue.records.drop acked.length, seq < d.walSeq := by
      rw [Queue.records, ← List.map_drop, List.forall_mem_map]
      exact habove
    have hpos : 0 < seq := not_le.mp fun hle => hwork (.inl hle)
    let q : Queue :=
      { w.queue with
        entries := w.queue.entries.drop acked.length
        bytes := max 0 (w.queue.bytes - (acked.map WalEntry.size).sum)
        staleBytes := w.queue.staleBytes + (acked.map WalEntry.size).sum }
    obtain ⟨n, hn, hback⟩ := h.writeAck (q := q) hpos hseq (List.map_drop ..) rfl hreached hrest
    change ∃ ls', (Outcome.andThen (writeLineLocked ⟨q, w.disk⟩ (ackLine seq))
      Wal.maybeCompactLocked).1.Backed ls'
    rw [hn]
    exact hback.maybeCompactLocked.2

end Wal

/-! ## Opening the log again -/

def reopen (cfg : WalConfig) (w : Wal) (now : Time) : WalOutcome :=
  newDecisionWAL cfg w.queue.dropped [] (some w.disk.content) now

/-- The log as it is loaded, before age and capacity are enforced. -/
def WalConfig.loaded (cfg : WalConfig) (w : Wal) (ls : List LogLine) : Wal where
  queue := (cfg.empty w.queue.dropped []).queue.reloaded ls
  disk := { (cfg.empty w.queue.dropped []).disk with handle := .named, content := w.disk.content }

namespace Wal

variable {cfg : WalConfig} {w : Wal} {ls : List LogLine}

theorem reopen_logText (hcontent : w.disk.content = logText ls) (hok : ∀ l ∈ ls, l.Ok)
    (hpath : cfg.hasPath = true)
    (now : Time) : reopen cfg w now = (cfg.loaded w ls).enforceLimits now := by
  have hload : (cfg.empty w.queue.dropped []).queue.loadStream w.disk.content =
      .ok ((cfg.empty w.queue.dropped []).queue.reloaded ls) := by
    rw [hcontent]
    exact loadStream_logText rfl hok
  rw [reopen, newDecisionWAL, if_pos hpath, openAndLoad, hload]
  rfl

theorem Backed.reopen_eq (h : w.Backed ls) (hpath : cfg.hasPath = true) (now : Time) :
    reopen cfg w now = (cfg.loaded w ls).enforceLimits now :=
  reopen_logText h.content h.ok hpath now

theorem records_reloaded (q : Queue) (ls : List LogLine) : (q.reloaded ls).records = pendingOf ls := by
  rw [Queue.records, Queue.reloaded, List.map_map]
  exact List.map_id _

theorem Backed.loaded (h : w.Backed ls) (hpath : cfg.hasPath = true) : (cfg.loaded w ls).Backed ls where
  healthy := ⟨hpath, rfl, rfl, rfl⟩
  content := h.content
  ne_nil := h.ne_nil
  ok := h.ok
  replays := by
    have hrecords : (cfg.loaded w ls).queue.records = w.queue.records :=
      (records_reloaded _ ls).trans h.replays.pending
    have hnext : (cfg.loaded w ls).queue.nextSeq = w.queue.nextSeq := h.replays.next
    rw [hrecords, hnext]
    exact h.replays
  int64 := h.replays.next.trans_lt h.int64

end Wal

/-- At the time `now` no pending decision is older than `maxAge`, if there is a limit. -/
def Queue.NoneExpired (q : Queue) (now : Time) : Prop :=
  0 ≤ q.maxAge → ∀ d ∈ q.records, now - q.maxAge ≤ d.decidedAt

namespace Wal

variable {cfg : WalConfig} {w : Wal} {ls : List LogLine} {now : Time}

theorem pruneExpiredLocked_of_noneExpired (h : w.queue.NoneExpired now) :
    w.pruneExpiredLocked now = (w, none) := by
  rw [Wal.pruneExpiredLocked]
  split
  · rfl
  · rename_i hage
    have hhead : w.queue.headExpired (now - w.queue.maxAge) = false := by
      rw [Queue.headExpired]
      split
      · rfl
      · rename_i e rest hentries
        have hmem : e.record ∈ w.queue.records := by
          rw [Queue.records, hentries]
          exact List.mem_cons_self
        exact decide_eq_false (not_lt.mpr (h (not_lt.mp hage) _ hmem))
    rw [Queue.removeWhile_eq_self hhead, ackDropped_self]

theorem logText_ne_nil {ls : List LogLine} (h : ls ≠ []) : logText ls ≠ [] := by
  obtain ⟨l, ls', rfl⟩ := List.exists_cons_of_ne_nil h
  rw [← List.singleton_append, logText_append, logText_singleton]
  simp

theorem Backed.enforceLimits_eq (h : w.Backed ls) (hnone : w.queue.NoneExpired now) :
    w.enforceLimits now =
      if w.queue.noDrop ∧ w.queue.maxBytes < w.queue.bytes then
        (w, some (noDropLimitError w.queue.bytes w.queue.maxBytes))
      else w.dropForCapacityLocked 0 := by
  have hcontent : w.disk.content ≠ [] := by
    rw [h.content]
    exact logText_ne_nil h.ne_nil
  rw [Wal.enforceLimits, if_neg hcontent, pruneExpiredLocked_of_noneExpired hnone, Outcome.andThen_none]

theorem Backed.enforceLimits (h : w.Backed ls) (now : Time) :
    ∃ ls', (w.enforceLimits now).1.Backed ls' := by
  have hcontent : w.disk.content ≠ [] := by
    rw [h.content]
    exact logText_ne_nil h.ne_nil
  rw [Wal.enforceLimits, if_neg hcontent]
  refine Outcome.andThen_keeps (P := fun w' : Wal => ∃ ls', w'.Backed ls')
    (h.pruneExpiredLocked now).2 ?_
  rintro w' ⟨ls', h'⟩
  split
  · exact ⟨ls', h'⟩
  · exact h'.dropForCapacityLocked 0

theorem Backed.enforceLimits_fits (h : w.Backed ls) (hnone : w.queue.NoneExpired now)
    (hfits : w.queue.bytes ≤ w.queue.maxBytes) : w.enforceLimits now = (w, none) := by
  have hover : w.queue.overfull 0 = false := by
    rw [Queue.overfull, add_zero]
    exact decide_eq_false (not_lt.mpr hfits)
  rw [h.enforceLimits_eq hnone, if_neg fun hlimit => absurd hlimit.2 (not_lt.mpr hfits),
    dropForCapacityLocked_fits hover]

/-- Beyond the limit the log is refused, or loses at least one decision. -/
theorem Backed.enforceLimits_overfull (h : w.Backed ls) (hnone : w.queue.NoneExpired now)
    (hover : w.queue.maxBytes < w.queue.bytes) (hne : w.queue.entries ≠ []) :
    (w.enforceLimits now).2 = some (noDropLimitError w.queue.bytes w.queue.maxBytes) ∨
      ∃ d ∈ w.queue.records, d ∉ (w.enforceLimits now).1.queue.records := by
  rw [h.enforceLimits_eq hnone]
  by_cases hdrop : w.queue.noDrop = true
  · exact .inl (by rw [if_pos ⟨hdrop, hover⟩])
  · right
    have hover' : w.queue.overfull 0 = true := by
      rw [Queue.overfull, add_zero]
      exact decide_eq_true hover
    obtain ⟨k, hk⟩ := Queue.removeWhile_dropped_of_cond hover' hne
    rw [if_neg fun hlimit => hdrop hlimit.1, queue_dropForCapacityLocked fun hfull => hdrop hfull.2.2]
    -- Numbers are distinct, so the oldest decision does not occur again.
    obtain ⟨e, rest, hentries⟩ := List.exists_cons_of_ne_nil hne
    have hrecords : w.queue.records = e.record :: rest.map WalEntry.record := by
      rw [Queue.records, hentries, List.map_cons]
    have hsorted := h.replays.sorted
    rw [hrecords, List.pairwise_cons] at hsorted
    refine ⟨e.record, hrecords ▸ List.mem_cons_self, fun hmem => ?_⟩
    rw [Queue.records, hk.entries, List.map_drop, ← Queue.records, hrecords, Nat.add_comm,
      List.drop_succ_cons] at hmem
    exact lt_irrefl _ (hsorted.1 _ (List.mem_of_mem_drop hmem))

end Wal

/-! ## The size of a decision that is read back -/

def reloadedBytes (d : Decision) : Int :=
  (decLine d).text.length + 1 - 10 + (if d.fingerprint = "" then 17 else 0) +
    (if d.score = 0 then 10 else 0) + (if d.blacklisted = false then 20 else 0) +
    (if d.action = "" then 12 else 0)

def membersLength (ms : List (String × Json)) : Nat := (ms.map Json.memberLength).sum

@[simp]
theorem membersLength_append (ms ms' : List (String × Json)) :
    membersLength (ms ++ ms') = membersLength ms + membersLength ms' := by
  simp [membersLength]

@[simp]
theorem membersLength_cons (m : String × Json) (ms : List (String × Json)) :
    membersLength (m :: ms) = Json.memberLength m + membersLength ms := by
  simp [membersLength]

@[simp]
theorem membersLength_nil : membersLength [] = 0 := rfl

theorem membersLength_omitEmpty (empty : Prop) [Decidable empty] (key : String) (v : Json) {n : Int}
    (h : empty → Json.memberLength (key, v) = n) :
    (membersLength (omitEmpty empty key v) : Int) =
      Json.memberLength (key, v) - if empty then n else 0 := by
  rw [omitEmpty]
  split
  · rw [← h ‹_›, sub_self]
    rfl
  · simp

theorem estimateDecisionBytes_eq {d : Decision} (hyear : Calendar.FourDigitYear d.decidedAt)
    (hseq : d.walSeq ≠ 0) : estimateDecisionBytes d = reloadedBytes d := by
  have hline : (decLine d).text.length = 1 + membersLength (decLine d).members :=
    Json.length_marshal_obj (List.cons_ne_nil _ _)
  have hjson : (Json.marshal d.toJson).length = 1 + membersLength _ :=
    Json.length_marshal_obj (List.cons_ne_nil _ _)
  have htype : Json.memberLength ("t", .str "dec") = 10 := by decide
  have hwal : membersLength (omitEmpty (d.walSeq = 0) "wal_seq" (.int d.walSeq)) =
      Json.memberLength ("wal_seq", .int d.walSeq) := by
    simp [omitEmpty, hseq]
  have hfp := membersLength_omitEmpty (d.fingerprint = "") "fingerprint" (.str d.fingerprint)
    (n := 17) fun h => by rw [h]; decide
  have hscore := membersLength_omitEmpty (d.score = 0) "score" (.int d.score)
    (n := 10) fun h => by rw [h]; decide
  have hblack := membersLength_omitEmpty (d.blacklisted = false) "blacklisted" (.bool d.blacklisted)
    (n := 20) fun h => by rw [h]; decide
  have haction := membersLength_omitEmpty (d.action = "") "action" (.str d.action)
    (n := 12) fun h => by rw [h]; decide
  have hmembers : (decLine d).members =
      ("t", .str "dec") :: (omitEmpty (d.walSeq = 0) "wal_seq" (.int d.walSeq) ++
      omitEmpty (d.fingerprint = "") "fingerprint" (.str d.fingerprint) ++
      omitEmpty (d.principalId = "") "principal_id" (.str d.principalId) ++
      omitEmpty (d.score = 0) "score" (.int d.score) ++
      omitEmpty (d.blacklisted = false) "blacklisted" (.bool d.blacklisted) ++
      omitEmpty (d.scoreReason = "") "score_reason" (.str d.scoreReason) ++
      omitEmpty (d.action = "") "action" (.str d.action) ++
      [("decided_at", timeJson d.decidedAt)]) := rfl
  rw [estimateDecisionBytes, if_pos hyear, reloadedBytes, hjson, hline, hmembers]
  simp only [membersLength_append, membersLength_cons, membersLength_nil, htype, hwal]
  push_cast [hfp, hscore, hblack, haction]
  ring

/-! ## Runs -/

structure LogRun where
  wal : Wal
  assigned : List Int := []

inductive LogAction
  | append (d : Decision) (clock now : Time)
  | ack (seq : Int)
  | compact
  | reopen (now : Time)

namespace LogRun

def next (cfg : WalConfig) (s : LogRun) : LogAction → LogRun
  | .append d clock now =>
    let r := s.wal.append d clock now
    { wal := r.1
      assigned := if r.2 = none then s.assigned ++ [s.wal.queue.nextSeq] else s.assigned }
  | .ack seq => { s with wal := (s.wal.ackThrough seq).1 }
  | .compact => { s with wal := s.wal.compactLocked.1 }
  | .reopen now => { s with wal := (reopen cfg s.wal now).1 }

/-- Scores and numbers are of type `int64`, and only a log that opens is used. -/
def Enabled (cfg : WalConfig) (s : LogRun) : LogAction → Prop
  | .append d _ _ => (-2 ^ 63 ≤ d.score ∧ d.score < 2 ^ 63) ∧ s.wal.queue.nextSeq + 1 < 2 ^ 63
  | .ack seq => -2 ^ 63 ≤ seq ∧ seq < 2 ^ 63
  | .compact => True
  | .reopen now => (Edge.reopen cfg s.wal now).2 = none

/-- Only numbers that were given out are acknowledged. -/
def AcksKnown (s : LogRun) : LogAction → Prop
  | .ack seq => seq < s.wal.queue.nextSeq
  | _ => True

end LogRun

def logSystem (cfg : WalConfig) : System LogRun LogAction where
  init s := cfg.hasPath = true ∧ ∃ dropped file now, (file = none ∨ file = some []) ∧
    s = { wal := (newDecisionWAL cfg dropped [] file now).1 }
  step s a t := s.Enabled cfg a ∧ t = s.next cfg a

namespace LogRun

variable {cfg : WalConfig} {s : LogRun}

structure Inv (cfg : WalConfig) (s : LogRun) : Prop where
  hasPath : cfg.hasPath = true
  backed : ∃ ls, s.wal.Backed ls
  assigned : ∀ n ∈ s.assigned, n < s.wal.queue.nextSeq

variable {w : Wal}

theorem Inv.of_wal (h : Inv cfg s) (hback : ∃ ls, w.Backed ls)
    (hnext : s.wal.queue.nextSeq ≤ w.queue.nextSeq) :
    Inv cfg { s with wal := w } :=
  ⟨h.hasPath, hback, fun n hn => (h.assigned n hn).trans_le hnext⟩

theorem Inv.append (h : Inv cfg s) {d : Decision} (hscore : -2 ^ 63 ≤ d.score ∧ d.score < 2 ^ 63)
    (hint : s.wal.queue.nextSeq + 1 < 2 ^ 63) (clock now : Time) :
    Inv cfg (s.next cfg (.append d clock now)) := by
  obtain ⟨ls, hback⟩ := h.backed
  obtain ⟨k, new, hspec⟩ := s.wal.append_spec d clock now
  have hnext := hspec.nextSeq
  have hold : ∀ n ∈ s.assigned, n < (s.wal.append d clock now).1.queue.nextSeq := by
    intro n hn
    have := h.assigned n hn
    omega
  refine ⟨h.hasPath, hback.append hscore hint clock now, ?_⟩
  change ∀ n ∈ (if (s.wal.append d clock now).2 = none then s.assigned ++ [s.wal.queue.nextSeq]
    else s.assigned), n < (s.wal.append d clock now).1.queue.nextSeq
  split
  · rename_i hok
    rw [List.forall_mem_append, List.forall_mem_singleton]
    refine ⟨hold, ?_⟩
    rcases hspec.new with ⟨-, herr⟩ | ⟨size, rfl⟩
    · exact absurd hok herr
    · rw [hnext]
      exact Int.lt_succ _
  · exact hold

theorem Inv.reopen (h : Inv cfg s) (now : Time) : Inv cfg (s.next cfg (.reopen now)) := by
  obtain ⟨ls, hback⟩ := h.backed
  have hloaded := hback.loaded h.hasPath
  obtain ⟨k, hk⟩ := (cfg.loaded s.wal ls).enforceLimits_dropped now
  have hnext : s.wal.queue.nextSeq = (cfg.loaded s.wal ls).queue.nextSeq := hback.replays.next.symm
  apply h.of_wal
  · rw [hback.reopen_eq h.hasPath]
    exact hloaded.enforceLimits now
  · rw [hback.reopen_eq h.hasPath, hk.nextSeq, hnext]

theorem Inv.next (h : Inv cfg s) {a : LogAction} (hok : s.AcksKnown a) (hen : s.Enabled cfg a) :
    Inv cfg (s.next cfg a) := by
  obtain ⟨ls, hback⟩ := h.backed
  cases a with
  | append d clock now => exact h.append hen.1 hen.2 clock now
  | ack seq =>
    obtain ⟨k, hk⟩ := s.wal.ackThrough_spec seq
    exact h.of_wal (hback.ackThrough hok) hk.nextSeq.ge
  | compact =>
    obtain ⟨-, hqueue, hcompact⟩ := hback.compactLocked
    exact h.of_wal ⟨_, hcompact⟩ (by rw [hqueue])
  | reopen now => exact h.reopen now

theorem backed_new (hpath : cfg.hasPath = true) (dropped : Nat) {file : Option Bytes}
    (hfile : file = none ∨ file = some []) (now : Time) :
    (newDecisionWAL cfg dropped [] file now).1.Backed [.next 1] := by
  let w : Wal :=
    { queue := (cfg.empty dropped []).queue
      disk := { (cfg.empty dropped []).disk with handle := .named, content := [] } }
  have hopen : newDecisionWAL cfg dropped [] file now = w.enforceLimits now := by
    rcases hfile with rfl | rfl <;> rw [newDecisionWAL, if_pos hpath] <;> rfl
  have hhealthy : w.disk.Healthy := ⟨hpath, rfl, rfl, rfl⟩
  have hone : (LogLine.next 1).Ok := LogLine.ok_next (by decide)
  obtain ⟨n, hn⟩ := hhealthy.writeLineLocked hone true
  have henforce : w.enforceLimits now = (⟨w.queue, w.disk.extended (.next 1) n⟩, none) := by
    rw [Wal.enforceLimits, if_pos rfl]
    exact congrArg (Wal.onDisk w) hn
  rw [hopen, henforce]
  exact ⟨hhealthy.extended _ _, rfl, List.cons_ne_nil _ _, List.forall_mem_singleton.mpr hone,
    ⟨rfl, rfl, show (0 : Int) < 1 by decide, List.Pairwise.nil, List.forall_mem_nil _⟩,
    show (1 : Int) < 2 ^ 63 by decide⟩

theorem inv_of_reachable (h : (logSystem cfg).ReachableVia AcksKnown s) : Inv cfg s := by
  have hinit : ∀ s, (logSystem cfg).init s → Inv cfg s := by
    rintro s ⟨hpath, dropped, file, now, hfile, rfl⟩
    exact ⟨hpath, ⟨_, backed_new hpath dropped hfile now⟩, List.forall_mem_nil _⟩
  have hstep : ∀ s a t, Inv cfg s → AcksKnown s a → (logSystem cfg).step s a t → Inv cfg t := by
    rintro s a t hs hok ⟨hen, rfl⟩
    exact hs.next hok hen
  exact h.invariant hinit hstep

def limit (cfg : WalConfig) : Int := (cfg.empty 0 []).queue.maxBytes

def Unexpired (cfg : WalConfig) (records : List Decision) (now : Time) : Prop :=
  0 ≤ (cfg.empty 0 []).queue.maxAge → ∀ d ∈ records, now - (cfg.empty 0 []).queue.maxAge ≤ d.decidedAt

variable {ls : List LogLine}

theorem bytes_loaded (h : w.Backed ls) :
    (cfg.loaded w ls).queue.bytes = (w.queue.records.map reloadedBytes).sum := by
  change ((pendingOf ls).map estimateDecisionBytes).sum = _
  rw [h.replays.pending]
  have hmap : w.queue.records.map estimateDecisionBytes = w.queue.records.map reloadedBytes := by
    apply List.map_congr_left
    intro d hd
    exact estimateDecisionBytes_eq (h.ok _ (h.replays.mem hd)).year (h.replays.pos d hd).ne'
  rw [hmap]

theorem records_loaded (h : w.Backed ls) : (cfg.loaded w ls).queue.records = w.queue.records :=
  (Wal.records_reloaded _ ls).trans h.replays.pending

theorem noneExpired_loaded (h : w.Backed ls) {now : Time} (hnone : Unexpired cfg w.queue.records now) :
    (cfg.loaded w ls).queue.NoneExpired now := by
  intro hage
  rw [records_loaded h]
  exact hnone hage

theorem reopen_of_fits (hpath : cfg.hasPath = true) (h : w.Backed ls) {now : Time}
    (hnone : Unexpired cfg w.queue.records now) (hfits : (cfg.loaded w ls).queue.bytes ≤ limit cfg) :
    reopen cfg w now = (cfg.loaded w ls, none) := by
  rw [h.reopen_eq hpath]
  exact (h.loaded hpath).enforceLimits_fits (noneExpired_loaded h hnone) hfits

def sized (maxBytes : Int) : WalConfig := { hasPath := true, maxBytes := maxBytes, maxAge := -1 }

def appendSmall : LogAction :=
  .append { action := "allow", fingerprint := "f", score := 1, decidedAt := 0 } 0 0

def oneAppend (maxBytes : Int) : LogRun :=
  LogRun.next (sized maxBytes) { wal := (newDecisionWAL (sized maxBytes) 0 [] none 0).1 } appendSmall

theorem reachable_oneAppend (maxBytes : Int) :
    (logSystem (sized maxBytes)).ReachableVia AcksKnown (oneAppend maxBytes) := by
  have hstart : (logSystem (sized maxBytes)).ReachableVia AcksKnown
      { wal := (newDecisionWAL (sized maxBytes) 0 [] none 0).1 } :=
    .init ⟨rfl, 0, none, 0, .inl rfl, rfl⟩
  have hone : (newDecisionWAL (sized maxBytes) 0 [] none 0).1.queue.nextSeq = 1 := rfl
  refine hstart.next appendSmall trivial ⟨⟨⟨by decide, by decide⟩, ?_⟩, rfl⟩
  rw [hone]
  decide

/-- A second decision, and the first acknowledged. -/
def ackedOne : LogRun := ((oneAppend 1000).next (sized 1000) appendSmall).next (sized 1000) (.ack 1)

theorem reachable_ackedOne : (logSystem (sized 1000)).ReachableVia AcksKnown ackedOne := by
  have htwo := (reachable_oneAppend 1000).next appendSmall trivial
    ⟨⟨⟨by decide, by decide⟩, by decide +kernel⟩, rfl⟩
  exact htwo.next (.ack 1) (show (1 : Int) < _ by decide +kernel) ⟨⟨by decide, by decide⟩, rfl⟩

theorem unexpired_sized (maxBytes : Int) (records : List Decision) :
    Unexpired (sized maxBytes) records 0 :=
  fun hage => absurd hage (by change ¬ (0 : Int) ≤ -1; decide)

/-- A log that is closed and opened again has the same decisions and goes on with the numbers. -/
theorem reopen_same (h : (logSystem cfg).ReachableVia AcksKnown s) {now : Time}
    (hnone : Unexpired cfg s.wal.queue.records now)
    (hfits : (s.wal.queue.records.map estimateDecisionBytes).sum ≤ limit cfg) :
    (reopen cfg s.wal now).2 = none ∧ (reopen cfg s.wal now).1.queue.records = s.wal.queue.records ∧
      ∀ n ∈ s.assigned, n < (reopen cfg s.wal now).1.queue.nextSeq := by
  obtain ⟨hpath, ⟨ls, hback⟩, hassigned⟩ := inv_of_reachable h
  have hbytes : (cfg.loaded s.wal ls).queue.bytes ≤ limit cfg := by
    change ((pendingOf ls).map estimateDecisionBytes).sum ≤ limit cfg
    rw [hback.replays.pending]
    exact hfits
  rw [reopen_of_fits hpath hback hnone hbytes]
  refine ⟨rfl, records_loaded hback, ?_⟩
  change ∀ n ∈ s.assigned, n < (marks ls).nextSeq
  rw [hback.replays.next]
  exact hassigned

theorem reopen_same_ackedOne :
    ackedOne.wal.queue.records.map Decision.walSeq = [2] ∧
      (reopen (sized 1000) ackedOne.wal 0).2 = none ∧
      (reopen (sized 1000) ackedOne.wal 0).1.queue.records = ackedOne.wal.queue.records ∧
      ∀ n ∈ ackedOne.assigned, n < (reopen (sized 1000) ackedOne.wal 0).1.queue.nextSeq :=
  ⟨by decide +kernel, reopen_same reachable_ackedOne (unexpired_sized 1000 _) (by decide +kernel)⟩

theorem limit_pos (cfg : WalConfig) : 0 < limit cfg := by
  change 0 < if cfg.maxBytes ≤ 0 then
    if cfg.noDrop then defaultNoDropWALBytes else defaultWALMaxBytes else cfg.maxBytes
  split_ifs with h
  · decide
  · decide
  · exact not_le.mp h

/-- Opening the log again keeps what is pending exactly when the decisions fit by the size with
which they are read back. -/
theorem reopen_keeps_iff (h : (logSystem cfg).ReachableVia AcksKnown s) {now : Time}
    (hnone : Unexpired cfg s.wal.queue.records now) :
    ((∀ bytes maxBytes, (reopen cfg s.wal now).2 ≠ some (noDropLimitError bytes maxBytes)) ∧
        ∀ d ∈ s.wal.queue.records, d ∈ (reopen cfg s.wal now).1.queue.records) ↔
      (s.wal.queue.records.map reloadedBytes).sum ≤ limit cfg := by
  obtain ⟨hpath, ⟨ls, hback⟩, -⟩ := inv_of_reachable h
  have hbytes : (cfg.loaded s.wal ls).queue.bytes = _ := bytes_loaded hback
  have hrecords : (cfg.loaded s.wal ls).queue.records = _ := records_loaded hback
  rw [← hbytes]
  constructor
  · intro hkeeps
    by_contra hover
    have hne : (cfg.loaded s.wal ls).queue.entries ≠ [] := by
      intro hnil
      apply hover
      rw [hbytes, ← hrecords, Queue.records, hnil]
      exact (limit_pos cfg).le
    rw [hback.reopen_eq hpath] at hkeeps
    rcases (hback.loaded hpath).enforceLimits_overfull (noneExpired_loaded hback hnone)
      (not_le.mp hover) hne with herr | ⟨d, hd, hlost⟩
    · exact hkeeps.1 _ _ herr
    · exact hlost (hkeeps.2 d (hrecords ▸ hd))
  · intro hfits
    rw [reopen_of_fits hpath hback hnone hfits]
    exact ⟨fun _ _ => (Option.some_ne_none _).symm, fun d hd => hrecords.symm ▸ hd⟩

theorem reopen_keeps_iff_ackedOne :
    ackedOne.wal.queue.records.map Decision.walSeq = [2] ∧
      (∀ bytes maxBytes, (reopen (sized 1000) ackedOne.wal 0).2 ≠
        some (noDropLimitError bytes maxBytes)) ∧
      ∀ d ∈ ackedOne.wal.queue.records, d ∈ (reopen (sized 1000) ackedOne.wal 0).1.queue.records :=
  ⟨by decide +kernel, (reopen_keeps_iff reachable_ackedOne (unexpired_sized 1000 _)).mpr (by decide +kernel)⟩

/-- With room for exactly one line the decision is accepted, and lost when the log opens again. -/
theorem reopen_drops_pending :
    (logSystem (sized 105)).ReachableVia AcksKnown (oneAppend 105) ∧
      Unexpired (sized 105) (oneAppend 105).wal.queue.records 0 ∧
      (oneAppend 105).wal.queue.records.map Decision.walSeq = [1] ∧
      (reopen (sized 105) (oneAppend 105).wal 0).1.queue.records = [] :=
  ⟨reachable_oneAppend 105, unexpired_sized 105 _, by decide +kernel, by decide +kernel⟩

end LogRun

end Verilink.Edge

import Verilink.Edge.WalRun

/-!
# Writes and syncs that fail

A write of the log may fail and write nothing, and a sync may fail and leave what was written in the
file.
-/

namespace Verilink.Edge

open Verilink.Framework

/-- A write that fails writes nothing. -/
def WriteAnswer.Whole : WriteAnswer → Prop
  | .done => True
  | .short written => written = 0
  | .unsynced => True

/-- The file is open, and the answers of the system, the first of `answers`, leave lines whole. -/
structure Disk.Clean (d : Disk) (answers : List WriteAnswer) : Prop where
  hasPath : d.hasPath = true
  handle : d.handle = .named
  writes : d.writes ⊆ answers
  whole : ∀ a ∈ answers, a.Whole
  compact : d.compact ≠ .notReopened

/-- What a write of one line can do. -/
structure Disk.Written (d : Disk) (answers : List WriteAnswer) (l : LogLine)
    (r : Outcome Disk WalError) :
    Prop where
  clean : r.1.Clean answers
  content : r.1.content = d.content ∨ r.1.content = d.content ++ logText [l]
  /-- Without failing syncs an error means that nothing was written. -/
  exact : .unsynced ∉ answers → r.2 ≠ none → r.1.content = d.content

variable {answers : List WriteAnswer}

theorem Disk.Clean.writeBytesLocked {d : Disk} (h : d.Clean answers) (l : LogLine) (force : Bool) :
    d.Written answers l (d.writeBytesLocked (l.line.text ++ [0x0A]) force) := by
  obtain ⟨hasPath, handle, content, sinceSync, writes, compact⟩ := d
  obtain ⟨rfl, rfl, hwrites, hwhole, hcompact⟩ := h
  rw [← logText_singleton]
  have hclean : ∀ (data : Bytes) (n : Nat),
      Disk.Clean ⟨true, .named, data, n, writes.tail, compact⟩ answers :=
    fun _ _ => ⟨rfl, rfl, fun a ha => hwrites (List.mem_of_mem_tail ha), hwhole, hcompact⟩
  -- Whether a sync is due does not matter for what is in the file.
  by_cases hsync : force = true ∨ walSyncEveryN ≤ sinceSync + 1
  all_goals
    cases writes with
    | nil =>
      simp only [Disk.writeBytesLocked, Disk.put, hsync]
      exact ⟨hclean _ _, .inr rfl, fun _ herr => absurd rfl herr⟩
    | cons a writes =>
      have hanswer := hwrites List.mem_cons_self
      cases a with
      | done =>
        simp only [Disk.writeBytesLocked, Disk.put, hsync]
        exact ⟨hclean _ _, .inr rfl, fun _ herr => absurd rfl herr⟩
      | short written =>
        obtain rfl : written = 0 := hwhole _ hanswer
        simp only [Disk.writeBytesLocked, Disk.put]
        have hsame : content ++ (logText [l]).take 0 = content := by simp
        exact ⟨hclean _ _, .inl hsame, fun _ _ => hsame⟩
      | unsynced =>
        simp only [Disk.writeBytesLocked, Disk.put, hsync]
        exact ⟨hclean _ _, .inr rfl, fun hnone => absurd hanswer hnone⟩

theorem Disk.Clean.writeLineLocked {d : Disk} (h : d.Clean answers) {l : LogLine} (hl : l.Ok)
    (force : Bool) :
    d.Written answers l (d.writeLineLocked l.line force) := by
  rw [Disk.writeLineLocked, hl.data, h.hasPath]
  exact h.writeBytesLocked l force

/-! ## Numbers that occur once -/

/-- The file holds whole lines, and the numbers of its decisions grow; all of them were given out.
-/
structure Wal.Unique (w : Wal) (answers : List WriteAnswer) (ls : List LogLine) : Prop where
  clean : w.disk.Clean answers
  content : w.disk.content = logText ls
  ne_nil : ls ≠ []
  ok : ∀ l ∈ ls, l.Ok
  sorted : (decisions ls).Pairwise fun a b => a.walSeq < b.walSeq
  marks_le : (marks ls).nextSeq ≤ w.queue.nextSeq
  queue : w.queue.Numbered

theorem Queue.Numbered.drop {q q' : Queue} (h : q.Numbered) {k : Nat}
    (hrecords : q'.records = q.records.drop k) (hnext : q'.nextSeq = q.nextSeq) : q'.Numbered where
  ok d hd := h.ok d (List.mem_of_mem_drop (hrecords ▸ hd))
  sorted := hrecords ▸ h.sorted.sublist (List.drop_sublist k _)
  bound d hd := hnext ▸ h.bound d (List.mem_of_mem_drop (hrecords ▸ hd))
  next_pos := hnext ▸ h.next_pos
  int64 := hnext ▸ h.int64

namespace Wal

variable {w : Wal} {ls : List LogLine}

theorem Unique.written (h : w.Unique answers ls) {through : Int} (hl : (LogLine.ack through).Ok)
    {r : Outcome Disk WalError} (hr : w.disk.Written answers (.ack through) r) :
    ∃ ls', Unique (w.onDisk r).1 answers ls' := by
  rcases hr.content with hsame | hmore
  · exact ⟨ls, hr.clean, hsame.trans h.content, h.ne_nil, h.ok, h.sorted, h.marks_le, h.queue⟩
  · have hdecisions : decisions (ls ++ [.ack through]) = decisions ls := by
      rw [decisions_append]
      exact List.append_nil _
    have hmarks : (marks (ls ++ [.ack through])).nextSeq = (marks ls).nextSeq := by
      rw [marks_concat]
      rfl
    refine ⟨ls ++ [.ack through], hr.clean, ?_, List.concat_ne_nil _ _, ?_, hdecisions ▸ h.sorted,
      hmarks.trans_le h.marks_le, h.queue⟩
    · change r.1.content = _
      rw [hmore, h.content, logText_append]
    · exact List.forall_mem_append.mpr ⟨h.ok, List.forall_mem_singleton.mpr hl⟩

variable {q : Queue} {d : Decision}

theorem Unique.of_records (h : w.Unique answers ls) {k : Nat}
    (hrecords : q.records = w.queue.records.drop k)
    (hnext : q.nextSeq = w.queue.nextSeq) : Unique { w with queue := q } answers ls :=
  ⟨h.clean, h.content, h.ne_nil, h.ok, h.sorted, hnext ▸ h.marks_le, h.queue.drop hrecords hnext⟩

theorem Unique.ackDropped (h : w.Unique answers ls) {k : Nat} (hq : Queue.Dropped k w.queue q) :
    ∃ ls', (w.ackDropped q).1.Unique answers ls' := by
  have hrecords : q.records = w.queue.records.drop k := by
    rw [Queue.records, hq.entries, List.map_drop, Queue.records]
  have hdropped := h.of_records hrecords hq.nextSeq
  rw [Wal.ackDropped]
  split
  · exact ⟨ls, hdropped⟩
  · rename_i last hlast
    have hmem : last.record ∈ w.queue.records :=
      List.mem_map_of_mem (List.mem_of_mem_take (List.mem_of_getLast? hlast))
    have hok : (LogLine.ack last.record.walSeq).Ok := LogLine.ok_ack (h.queue.ok _ hmem).int64.walSeq
    exact hdropped.written hok (h.clean.writeLineLocked hok false)

theorem Unique.pruneExpiredLocked (h : w.Unique answers ls) (now : Time) :
    ∃ ls', (w.pruneExpiredLocked now).1.Unique answers ls' :=
  pruneExpiredLocked_induct (Q := fun r => ∃ ls', r.1.Unique answers ls') ⟨ls, h⟩
    (fun _ _ hk => h.ackDropped hk) now

theorem Unique.dropForCapacityLocked (h : w.Unique answers ls) (need : Int) :
    ∃ ls', (w.dropForCapacityLocked need).1.Unique answers ls' :=
  dropForCapacityLocked_keeps (P := fun w' => ∃ ls', w'.Unique answers ls') ⟨ls, h⟩
    (fun _ _ hk => h.ackDropped hk) need

theorem Unique.maybeCompactLocked (h : w.Unique answers ls) :
    ∃ ls', w.maybeCompactLocked.1.Unique answers ls' := by
  have hok := h.queue.ok_compactedLog
  obtain ⟨data, hdata, hflat⟩ := mapM_compactedLines hok
  have hdecisions : decisions (compactedLog w.queue) = w.queue.records := decisions_compacted _ _
  have hmarks : (marks (compactedLog w.queue)).nextSeq = w.queue.nextSeq := by
    rw [compactedLog, marks_compacted h.queue.next_pos h.queue.bound]
  have hcompacted : ∀ n, Unique
      ⟨{ w.queue with staleBytes := 0 },
        { w.disk with content := data.flatten, handle := .named, sinceSync := n }⟩
      answers (compactedLog w.queue) := fun n =>
    ⟨⟨h.clean.hasPath, rfl, h.clean.writes, h.clean.whole, h.clean.compact⟩, hflat,
      List.cons_ne_nil _ _, hok,
      hdecisions ▸ h.queue.sorted, hmarks.le, h.queue.drop (k := 0) rfl rfl⟩
  rw [Wal.maybeCompactLocked]
  split_ifs
  · exact ⟨ls, h⟩
  · exact ⟨ls, h⟩
  · exact ⟨ls, h⟩
  · rw [Wal.compactLocked, hdata]
    cases hanswer : w.disk.compact with
    | done => exact ⟨_, hcompacted 0⟩
    | failed => exact ⟨ls, h⟩
    | dirUnsynced => exact ⟨_, hcompacted 0⟩
    | notReopened => exact absurd hanswer h.clean.compact

theorem Unique.queued (h : w.Unique answers ls) (hd : (LogLine.dec d).Ok)
    (hseq : d.walSeq = w.queue.nextSeq)
    (hint : w.queue.nextSeq + 1 < 2 ^ 63) (hrecords : q.records = w.queue.records ++ [d])
    (hnext : q.nextSeq = w.queue.nextSeq + 1) {disk : Disk} (hclean : disk.Clean answers)
    (hcontent : disk.content = w.disk.content ∨ disk.content = w.disk.content ++ logText [.dec d]) :
    ∃ ls', Unique ⟨q, disk⟩ answers ls' := by
  have hle := Int.lt_succ w.queue.nextSeq
  have hsorted : ∀ l : List Decision, (l.Pairwise fun a b => a.walSeq < b.walSeq) →
      (∀ a ∈ l, a.walSeq < w.queue.nextSeq) → (l ++ [d]).Pairwise fun a b => a.walSeq < b.walSeq := by
    intro l hl hb
    refine List.pairwise_append.mpr ⟨hl, List.pairwise_singleton _ _, fun a ha b hb' => ?_⟩
    rw [List.mem_singleton.mp hb', hseq]
    exact hb a ha
  have hpos := h.queue.next_pos
  have hmarks : (marks ls).nextSeq ≤ q.nextSeq := (h.marks_le.trans hle.le).trans hnext.ge
  have hqueue : q.Numbered := by
    refine ⟨?_, hrecords ▸ hsorted _ h.queue.sorted h.queue.bound, ?_, by omega, by omega⟩
    · rw [hrecords, List.forall_mem_append, List.forall_mem_singleton]
      exact ⟨h.queue.ok, hd⟩
    · rw [hrecords, List.forall_mem_append, List.forall_mem_singleton, hnext, hseq]
      exact ⟨fun a ha => (h.queue.bound a ha).trans hle, hle⟩
  rcases hcontent with hsame | hmore
  · exact ⟨ls, hclean, hsame.trans h.content, h.ne_nil, h.ok, h.sorted, hmarks, hqueue⟩
  · refine ⟨ls ++ [.dec d], hclean, ?_, List.concat_ne_nil _ _, ?_, ?_, ?_, hqueue⟩
    · change disk.content = _
      rw [hmore, h.content, logText_append]
    · exact List.forall_mem_append.mpr ⟨h.ok, List.forall_mem_singleton.mpr hd⟩
    · rw [decisions_append]
      exact hsorted _ h.sorted fun d hd => (walSeq_lt_marks d hd).trans_le h.marks_le
    · rw [marks_concat, LogLine.mark, hseq]
      exact max_le hmarks hnext.ge

theorem Unique.appendEntry (h : w.Unique answers ls) (hsync : .unsynced ∉ answers)
    (hscore : -2 ^ 63 ≤ d.score ∧ d.score < 2 ^ 63) (hseq : d.walSeq = w.queue.nextSeq)
    (hint : w.queue.nextSeq + 1 < 2 ^ 63) {data : Bytes} (hdata : (decLine d).data = .ok data) :
    ∃ ls', (w.appendEntry d data).1.Unique answers ls' := by
  obtain ⟨hok, rfl⟩ := h.queue.ok_dec hscore hseq hdata
  have hwritten := h.clean.writeBytesLocked (.dec d) false
  rw [Wal.appendEntry]
  generalize w.disk.writeBytesLocked ((LogLine.dec d).line.text ++ [0x0A]) false = r at hwritten
  rcases Outcome.andThen_cases (w.onDisk r) _ with ⟨-, heq⟩ | ⟨e, he, heq⟩
  · rw [heq]
    let size : Int := ((LogLine.dec d).line.text ++ [0x0A]).length
    have hrecords : (Wal.queued w.queue d size w.queue.staleBytes).records =
        w.queue.records ++ [d] := List.map_append
    obtain ⟨ls', hqueued⟩ := h.queued hok hseq hint hrecords rfl hwritten.clean hwritten.content
    exact hqueued.maybeCompactLocked
  · have hsame : r.1.content = w.disk.content := by
      apply hwritten.exact hsync
      rw [show r.2 = some e from he]
      exact Option.some_ne_none e
    rw [heq]
    exact ⟨ls, hwritten.clean, hsame.trans h.content, h.ne_nil, h.ok, h.sorted, h.marks_le, h.queue⟩

theorem Unique.append (h : w.Unique answers ls) (hsync : .unsynced ∉ answers)
    (hscore : -2 ^ 63 ≤ d.score ∧ d.score < 2 ^ 63) (hint : w.queue.nextSeq + 1 < 2 ^ 63)
    (clock now : Time) :
    ∃ ls', (w.append d clock now).1.Unique answers ls' := by
  refine append_induct (P := fun w' => ∃ ls', w'.Unique answers ls')
    (Q := fun r => ∃ ls', r.1.Unique answers ls')
    ⟨ls, h⟩ (h.pruneExpiredLocked now) ?_ ?_ ?_
  · rintro w' need ⟨ls', h'⟩
    exact h'.dropForCapacityLocked need
  · exact fun _ _ h' => h'
  · rintro w' data ⟨ls', h'⟩ hnext - hdata
    exact h'.appendEntry hsync (d := w.stamped d clock) hscore hnext.symm (hnext ▸ hint) hdata

theorem Unique.ackThrough (h : w.Unique answers ls) {seq : Int} (hint : -2 ^ 63 ≤ seq ∧ seq < 2 ^ 63) :
    ∃ ls', (w.ackThrough seq).1.Unique answers ls' := by
  rw [Wal.ackThrough]
  split
  · exact ⟨ls, h⟩
  · have hok : (LogLine.ack seq).Ok := LogLine.ok_ack hint
    have hacked : ∀ (k : Nat) (bytes stale : Int), Unique ⟨{ w.queue with
        entries := w.queue.entries.drop k, bytes := bytes, staleBytes := stale }, w.disk⟩ answers ls :=
      fun k _ _ => h.of_records (k := k) List.map_drop rfl
    refine Outcome.andThen_keeps (P := fun w' : Wal => ∃ ls', w'.Unique answers ls') ?_ ?_
    · exact (hacked _ _ _).written hok (h.clean.writeLineLocked hok false)
    · rintro w' ⟨ls', h'⟩
      exact h'.maybeCompactLocked

theorem Unique.loaded {cfg : WalConfig} (hpath : cfg.hasPath = true) (h : w.Unique answers ls) :
    (cfg.loaded w ls).Unique answers ls := by
  have hrecords : (cfg.loaded w ls).queue.records = pendingOf ls := records_reloaded _ ls
  have hsub : ∀ d ∈ pendingOf ls, d ∈ decisions ls := fun d hd => List.mem_of_mem_filter hd
  refine ⟨⟨hpath, rfl, List.nil_subset _, h.clean.whole, nofun⟩, h.content, h.ne_nil, h.ok,
    h.sorted, le_rfl, ?_⟩
  refine ⟨?_, ?_, ?_, (marks_bounds ls).2, h.marks_le.trans_lt h.queue.int64⟩
  · rw [hrecords]
    exact fun d hd => h.ok _ (mem_decisions.mp (hsub d hd))
  · rw [hrecords]
    exact h.sorted.filter _
  · rw [hrecords]
    exact fun d hd => walSeq_lt_marks d (hsub d hd)

theorem Unique.reopen {cfg : WalConfig} (hpath : cfg.hasPath = true) (h : w.Unique answers ls)
    (now : Time) :
    ∃ ls', (reopen cfg w now).1.Unique answers ls' := by
  have hcontent : (cfg.loaded w ls).disk.content ≠ [] := by
    rw [(h.loaded hpath).content]
    exact logText_ne_nil h.ne_nil
  rw [reopen_logText h.content h.ok hpath, Wal.enforceLimits, if_neg hcontent]
  refine Outcome.andThen_keeps (P := fun w' : Wal => ∃ ls', w'.Unique answers ls')
    ((h.loaded hpath).pruneExpiredLocked now) ?_
  rintro w' ⟨ls', h'⟩
  split
  · exact ⟨ls', h'⟩
  · exact h'.dropForCapacityLocked 0

end Wal

/-! ## Runs -/

inductive FaultAction
  | append (d : Decision) (clock now : Time) (writes : List WriteAnswer) (compact : CompactAnswer)
  | ack (seq : Int) (writes : List WriteAnswer) (compact : CompactAnswer)
  | reopen (now : Time)

namespace FaultAction

def next (cfg : WalConfig) (w : Wal) : FaultAction → Wal
  | append d clock now writes compact => ((w.answering writes compact).append d clock now).1
  | ack seq writes compact => ((w.answering writes compact).ackThrough seq).1
  | reopen now => (Edge.reopen cfg w now).1

/-- Numbers are of type `int64`, writes fail as a whole, and no file fails to open. -/
def Enabled (w : Wal) : FaultAction → Prop
  | append d _ _ writes compact =>
    ((-2 ^ 63 ≤ d.score ∧ d.score < 2 ^ 63) ∧ w.queue.nextSeq + 1 < 2 ^ 63) ∧
      (∀ a ∈ writes, a.Whole) ∧ compact ≠ .notReopened
  | ack seq writes compact =>
    (-2 ^ 63 ≤ seq ∧ seq < 2 ^ 63) ∧ (∀ a ∈ writes, a.Whole) ∧ compact ≠ .notReopened
  | reopen _ => True

/-- No sync fails in an `Append`. -/
def AppendSynced (_ : Wal) : FaultAction → Prop
  | append _ _ _ writes _ => .unsynced ∉ writes
  | _ => True

end FaultAction

def faultSystem (cfg : WalConfig) : System Wal FaultAction where
  init w := cfg.hasPath = true ∧ ∃ dropped file now, (file = none ∨ file = some []) ∧
    w = (newDecisionWAL cfg dropped [] file now).1
  step w a w' := a.Enabled w ∧ w' = a.next cfg w

def decSeqs (content : Bytes) : List Int := (decLines content).map Decision.walSeq

namespace FaultAction

variable {cfg : WalConfig} {w : Wal}

theorem unique_next (hpath : cfg.hasPath = true) {ls : List LogLine} (h : w.Unique answers ls)
    {a : FaultAction}
    (hsync : a.AppendSynced w) (hen : a.Enabled w) :
    ∃ answers ls', (a.next cfg w).Unique answers ls' := by
  have hanswering : ∀ writes compact, (∀ a ∈ writes, WriteAnswer.Whole a) → compact ≠ .notReopened →
      (w.answering writes compact).Unique writes ls := fun writes compact hwrites hcompact =>
    ⟨⟨h.clean.hasPath, h.clean.handle, List.Subset.refl _, hwrites, hcompact⟩, h.content, h.ne_nil,
      h.ok, h.sorted, h.marks_le, h.queue⟩
  cases a with
  | append d clock now writes compact =>
    exact ⟨_, (hanswering writes compact hen.2.1 hen.2.2).append hsync hen.1.1 hen.1.2 clock now⟩
  | ack seq writes compact => exact ⟨_, (hanswering writes compact hen.2.1 hen.2.2).ackThrough hen.1⟩
  | reopen now => exact ⟨_, h.reopen hpath now⟩

theorem unique_of_reachable (h : (faultSystem cfg).ReachableVia (fun w a => a.AppendSynced w) w) :
    cfg.hasPath = true ∧ ∃ answers ls, w.Unique answers ls := by
  have hinit : ∀ w, (faultSystem cfg).init w → cfg.hasPath = true ∧
      ∃ answers ls, w.Unique answers ls := by
    rintro w ⟨hpath, dropped, file, now, hfile, rfl⟩
    have hback := LogRun.backed_new hpath dropped hfile now
    generalize (newDecisionWAL cfg dropped [] file now).1 = w at hback
    exact ⟨hpath, [], _, ⟨hback.healthy.hasPath, hback.healthy.handle, by simp [hback.healthy.writes],
      List.forall_mem_nil _, by simp [hback.healthy.compact]⟩, hback.content, hback.ne_nil, hback.ok,
      List.Pairwise.nil, hback.replays.next.le, hback.numbered⟩
  have hstep : ∀ w a w', (cfg.hasPath = true ∧ ∃ answers ls, Wal.Unique w answers ls) →
      FaultAction.AppendSynced w a →
      (faultSystem cfg).step w a w' → cfg.hasPath = true ∧ ∃ answers ls, Wal.Unique w' answers ls := by
    rintro w a w' ⟨hpath, answers, ls, hw⟩ hsync ⟨hen, rfl⟩
    exact ⟨hpath, unique_next hpath hw hsync hen⟩
  exact h.invariant hinit hstep

/-- Without failing syncs of decisions, a number occurs once in the file and once in the queue. -/
theorem numbers_unique (h : (faultSystem cfg).ReachableVia (fun w a => a.AppendSynced w) w) :
    (decSeqs w.disk.content).Nodup ∧ (w.queue.records.map Decision.walSeq).Nodup := by
  obtain ⟨-, answers, ls, hw⟩ := unique_of_reachable h
  rw [decSeqs, hw.content, decLines_logText hw.ok]
  constructor
  · rw [List.Nodup, List.pairwise_map]
    exact hw.sorted.imp fun hlt => hlt.ne
  · rw [List.Nodup, List.pairwise_map]
    exact hw.queue.sorted.imp fun hlt => hlt.ne

end FaultAction

/-! ## A sync that fails -/

namespace LostSync

def cfg : WalConfig := { hasPath := true, maxBytes := 100000, maxAge := -1 }

def decided (seq : Int) : Decision :=
  { walSeq := seq, action := "allow", fingerprint := "f", decidedAt := 0 }

def appended (writes : List WriteAnswer) (w : Wal) : Wal :=
  (FaultAction.append (decided 0) 0 0 writes .done).next cfg w

def filled : Nat → Wal
  | 0 => (newDecisionWAL cfg 0 [] none 0).1
  | k + 1 => appended [] (filled k)

theorem nextSeq_appended_le (writes : List WriteAnswer) (w : Wal) :
    (appended writes w).queue.nextSeq ≤ w.queue.nextSeq + 1 := by
  obtain ⟨k, new, h⟩ := (w.answering writes .done).append_spec (decided 0) 0 0
  have hlen : new.length ≤ 1 := by rcases h.new with ⟨rfl, -⟩ | ⟨_, rfl⟩ <;> simp
  have hnext : (appended writes w).queue.nextSeq = w.queue.nextSeq + new.length := h.nextSeq
  omega

theorem filled_reachable (k : Nat) (hk : k ≤ 31) : (filled k).queue.nextSeq ≤ k + 1 ∧
    (faultSystem cfg).ReachableVia (fun w a => a.AppendSynced w) (filled k) := by
  induction k with
  | zero => exact ⟨by decide, .init ⟨rfl, 0, none, 0, .inl rfl, rfl⟩⟩
  | succ k ih =>
    obtain ⟨hseq, hreach⟩ := ih (by omega)
    have hnext := nextSeq_appended_le [] (filled k)
    refine ⟨hnext.trans
      (by omega), hreach.next (.append (decided 0) 0 0 [] .done) List.not_mem_nil ⟨?_, rfl⟩⟩
    exact ⟨⟨by decide, by omega⟩, List.forall_mem_nil _, nofun⟩

theorem numbers_unique_filled :
    (decSeqs (filled 31).disk.content).Nodup ∧ ((filled 31).queue.records.map Decision.walSeq).Nodup :=
  FaultAction.numbers_unique (filled_reachable 31 le_rfl).2

/-- The 32nd write is due for a sync. When that fails its line stays, and the number is given out
again. -/
theorem number_given_twice :
    (faultSystem cfg).Reachable (appended [] (appended [.unsynced] (filled 31))) ∧
      ¬ (decSeqs (appended [] (appended [.unsynced] (filled 31))).disk.content).Nodup := by
  obtain ⟨hseq, hreach⟩ := filled_reachable 31 le_rfl
  have hlost := nextSeq_appended_le [.unsynced] (filled 31)
  constructor
  · have hagain : (faultSystem cfg).Reachable (appended [.unsynced] (filled 31)) :=
      hreach.reachable.next (.append (decided 0) 0 0 [.unsynced] .done)
        ⟨⟨⟨by decide, by omega⟩, by simp [WriteAnswer.Whole], nofun⟩, rfl⟩
    exact hagain.next (.append (decided 0) 0 0 [] .done)
      ⟨⟨⟨by decide, by omega⟩, List.forall_mem_nil _, nofun⟩, rfl⟩
  · have hcontent : (appended [] (appended [.unsynced] (filled 31))).disk.content =
        (filled 31).disk.content ++ logText [.dec (decided 32), .dec (decided 32)] := by decide +kernel
    obtain ⟨-, answers, ls, hunique⟩ := FaultAction.unique_of_reachable hreach
    have hd : (LogLine.dec (decided 32)).Ok := by
      refine ⟨⟨LogLine.zero_int64, LogLine.zero_int64,
        LogLine.zero_int64, by decide, LogLine.zero_int64⟩, ?_, ?_⟩
      · exact show Calendar.FourDigitYear 0 by decide
      · decide +kernel
    have hok : ∀ l ∈ ls ++ [LogLine.dec (decided 32), .dec (decided 32)], l.Ok := by
      simpa [or_imp, forall_and, hd] using hunique.ok
    rw [hcontent, hunique.content, ← logText_append, decSeqs, decLines_logText hok,
      decisions_append, List.map_append]
    intro hnodup
    exact absurd hnodup.of_append_right (by decide)

end LostSync

end Verilink.Edge

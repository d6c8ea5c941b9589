import Verilink.Edge.WalRun

/-!
# Crashes of the log

A crash cuts the file inside the last write. `NewDecisionWAL` skips what is left of a line at the
end of the file but does not remove it, so that the next line is appended to it.
-/

namespace Verilink.Edge

open Verilink.Framework

/-- The lines `ls` are what is read of a file, and they say the same as `gs`. -/
structure Reads (content : Bytes) (gs ls : List LogLine) (records : List Decision) (nextSeq : Int) :
    Prop where
  ne_nil : content ≠ []
  load : ∀ q : Queue, q.staleBytes = 0 → q.loadStream content = .ok (q.reloaded ls)
  whole : content.getLast? = some 0x0A → content = logText ls ∧ ls ≠ []
  ok : ∀ l ∈ ls, l.Ok
  replays : Replays ls records nextSeq
  same : Replays gs records nextSeq
  int64 : nextSeq < 2 ^ 63

/-- Age and capacity leave these decisions alone. -/
def Fits (cfg : WalConfig) (records : List Decision) (now : Time) : Prop :=
  LogRun.Unexpired cfg records now ∧ (records.map estimateDecisionBytes).sum ≤ LogRun.limit cfg

def Wal.cut (w : Wal) (n : Nat) : Wal :=
  { w with disk := { w.disk with content := w.disk.content.take n } }

def Wal.acked (w : Wal) (seq : Int) : List WalEntry :=
  w.queue.entries.takeWhile fun e => e.record.walSeq ≤ seq

section Reads

variable {cfg : WalConfig} {w : Wal} {gs ls : List LogLine} {l : LogLine} {records : List Decision}
  {m : Int}

theorem Reads.of_backed (h : w.Backed ls) (hg : Replays gs w.queue.records w.queue.nextSeq) :
    Reads w.disk.content gs ls w.queue.records w.queue.nextSeq where
  ne_nil := h.content ▸ Wal.logText_ne_nil h.ne_nil
  load _ hq := h.content ▸ loadStream_logText hq h.ok
  whole _ := ⟨h.content, h.ne_nil⟩
  ok := h.ok
  replays := h.replays
  same := hg
  int64 := h.int64

theorem getLast?_text_ne {p : Bytes} (h : ∀ b ∈ p, 0x20 ≤ b) (content : Bytes) (hp : p ≠ []) :
    (content ++ p).getLast? ≠ some 0x0A := by
  rw [List.getLast?_append_of_ne_nil _ hp]
  exact fun hlast => absurd (h _ (List.mem_of_getLast? hlast)) (by decide)

/-- Part of a line says nothing. -/
theorem Reads.torn (h : w.Backed ls) (hg : Replays gs w.queue.records w.queue.nextSeq) (hl : l.Ok)
    {k : Nat} (hk : k < l.line.text.length) :
    Reads (w.disk.content ++ l.line.text.take k) gs ls w.queue.records w.queue.nextSeq := by
  have hge : ∀ b ∈ l.line.text.take k, 0x20 ≤ b := fun b hb => text_ge l.line b (List.mem_of_mem_take hb)
  have hcr : dropCR (l.line.text.take k) = l.line.text.take k :=
    if_neg fun hlast => absurd (hge _ (List.mem_of_getLast? hlast)) (by decide)
  have hrest : l.line.text.drop k ≠ [] := by
    rw [Ne, List.drop_eq_nil_iff]
    omega
  have hnone : walFormat.record (l.line.text.take k) = none := by
    rw [LineFormat.record, hcr, walFormat_decode, decode_cut (List.take_append_drop k _) hrest, ite_self]
  have htail : walFormat.TornTail (l.line.text.take k) := by
    refine ⟨?_, fun hmem => absurd (hge _ hmem) (by decide), hnone⟩
    have := hl.short
    rw [List.length_take]
    exact (Nat.min_le_left _ _).trans_lt (by change k < walMaxLineBytes; omega)
  refine ⟨?_, fun q hq => ?_, fun hlast => ?_, h.ok, h.replays, hg, h.int64⟩
  · exact List.append_ne_nil_of_left_ne_nil (h.content ▸ Wal.logText_ne_nil h.ne_nil) _
  · rw [h.content]
    exact loadStream_torn hq h.ok htail
  · by_cases hp : l.line.text.take k = []
    · rw [hp, List.append_nil]
      exact ⟨h.content, h.ne_nil⟩
    · exact absurd hlast (getLast?_text_ne hge _ hp)

/-- A line that lacks its line feed counts. -/
theorem Reads.unterminated (h : w.Backed ls) (hl : l.Ok) (hls : Replays (ls ++ [l]) records m)
    (hgs : Replays gs records m) (hm : m < 2 ^ 63) :
    Reads (w.disk.content ++ l.line.text) gs (ls ++ [l]) records m := by
  refine ⟨?_, fun q hq => ?_, fun hlast => ?_, ?_, hls, hgs, hm⟩
  · exact List.append_ne_nil_of_right_ne_nil _ l.text_ne_nil
  · refine loadStream_of_scan hq fun _ step s => ?_
    rw [h.content, List.map_append]
    exact LineFormat.scanFile_unterminated (writes_of_ok h.ok) hl.writes step s
  · exact absurd hlast (getLast?_text_ne (text_ge l.line) _ l.text_ne_nil)
  · exact List.forall_mem_append.mpr ⟨h.ok, List.forall_mem_singleton.mpr hl⟩

theorem Reads.reopen_eq (h : Reads w.disk.content gs ls records m) (hpath : cfg.hasPath = true)
    {now : Time}
    (hfits : Fits cfg (pendingOf gs) now) : reopen cfg w now = (cfg.loaded w ls, none) := by
  have hpending : pendingOf gs = pendingOf ls := h.same.pending.trans h.replays.pending.symm
  have hrecords : (cfg.loaded w ls).queue.records = pendingOf gs :=
    (Wal.records_reloaded _ ls).trans hpending.symm
  have hnone : (cfg.loaded w ls).queue.NoneExpired now := by
    intro hage
    rw [hrecords]
    exact hfits.1 hage
  have hbytes : (cfg.loaded w ls).queue.bytes ≤ (cfg.loaded w ls).queue.maxBytes := by
    change ((pendingOf ls).map estimateDecisionBytes).sum ≤ _
    rw [← hpending]
    exact hfits.2
  have hover : (cfg.loaded w ls).queue.overfull 0 = false := by
    rw [Queue.overfull, add_zero]
    exact decide_eq_false (not_lt.mpr hbytes)
  have hne : (cfg.loaded w ls).disk.content ≠ [] := h.ne_nil
  have hload : reopen cfg w now = (cfg.loaded w ls).enforceLimits now := by
    rw [reopen, newDecisionWAL, if_pos hpath, Wal.openAndLoad, h.load _ rfl]
    rfl
  rw [hload, Wal.enforceLimits, if_neg hne, Wal.pruneExpiredLocked_of_noneExpired hnone,
    Outcome.andThen_none,
    if_neg fun hlimit => absurd hlimit.2 (not_lt.mpr hbytes), Wal.dropForCapacityLocked_fits hover]

theorem Reads.backed (h : Reads w.disk.content gs ls records m) (hpath : cfg.hasPath = true)
    (hlast : w.disk.content.getLast? = some 0x0A) :
    (cfg.loaded w ls).Backed ls ∧
      Replays gs (cfg.loaded w ls).queue.records (cfg.loaded w ls).queue.nextSeq := by
  have hrecords : (cfg.loaded w ls).queue.records = records :=
    (Wal.records_reloaded _ ls).trans h.replays.pending
  have hnext : (cfg.loaded w ls).queue.nextSeq = m := h.replays.next
  refine ⟨⟨⟨hpath, rfl, rfl, rfl⟩, (h.whole hlast).1, (h.whole hlast).2, h.ok, ?_, hnext ▸ h.int64⟩,
    ?_⟩ <;>
    rw [hrecords, hnext]
  · exact h.replays
  · exact h.same

theorem Wal.queue_ackThrough {seq : Int} (h : ¬ (seq ≤ 0 ∨ w.acked seq = [])) :
    (w.ackThrough seq).1.queue.records = w.queue.records.drop (w.acked seq).length ∧
      (w.ackThrough seq).1.queue.nextSeq = w.queue.nextSeq := by
  rw [Wal.ackThrough]
  refine (if_neg h).symm ▸ Outcome.andThen_keeps (P := fun w' : Wal =>
    w'.queue.records = w.queue.records.drop (w.acked seq).length ∧ w'.queue.nextSeq = w.queue.nextSeq)
    ⟨List.map_drop .., rfl⟩ ?_
  intro w' h'
  obtain ⟨stale, hq⟩ := w'.queue_maybeCompactLocked
  rw [hq]
  exact h'

end Reads

/-- The log, the lines that were written in full, and how many bytes of the file the last write has.
-/
structure CrashRun where
  wal : Wal
  written : List LogLine
  lastWrite : Nat := 0

inductive CrashAction
  | append (d : Decision) (clock now : Time)
  | ack (seq : Int)
  | crash (n : Nat) (now : Time)

namespace CrashRun

/-- A crash can leave the first `n` bytes of the file. -/
def MayKeep (s : CrashRun) (n : Nat) : Prop :=
  s.wal.disk.content.length ≤ n + s.lastWrite ∧ n ≤ s.wal.disk.content.length

/-- The lines of which the first `n` bytes have all but a line feed. -/
def survivors (s : CrashRun) (n : Nat) : List LogLine :=
  if s.wal.disk.content.length ≤ n + 1 then s.written else s.written.dropLast

/-- After the line `l`. A compaction that followed has replaced the file as a whole. -/
def wrote (s : CrashRun) (l : LogLine) (w : Wal) : CrashRun where
  wal := w
  written := s.written ++ [l]
  lastWrite := if w.disk.content = s.wal.disk.content ++ logText [l] then (logText [l]).length else 0

/-- An acknowledgement of nothing writes nothing. -/
def next (cfg : WalConfig) (s : CrashRun) : CrashAction → CrashRun
  | .append d clock now => s.wrote (.dec (s.wal.stamped d clock)) (s.wal.append d clock now).1
  | .ack seq => if seq ≤ 0 ∨ s.wal.acked seq = [] then s else s.wrote (.ack seq) (s.wal.ackThrough seq).1
  | .crash n now => { wal := (reopen cfg (s.wal.cut n) now).1, written := s.survivors n }

/-- Appends succeed and drop nothing. -/
def Enabled (cfg : WalConfig) (s : CrashRun) : CrashAction → Prop
  | .append d clock now =>
    (-2 ^ 63 ≤ d.score ∧ d.score < 2 ^ 63) ∧ s.wal.queue.nextSeq + 1 < 2 ^ 63 ∧
      (s.wal.append d clock now).2 = none ∧ (s.wal.append d clock now).1.queue.dropped =
        s.wal.queue.dropped
  | .ack _ => True
  | .crash n now =>
    s.MayKeep n ∧ Fits cfg (pendingOf (s.survivors n)) now ∧ (reopen cfg (s.wal.cut n) now).2 = none

/-- Lines are only written to a file that ends in a line feed, and known numbers acknowledged. -/
def OnWholeLines (s : CrashRun) : CrashAction → Prop
  | .append _ _ _ => s.wal.disk.content.getLast? = some 0x0A
  | .ack seq => s.wal.disk.content.getLast? = some 0x0A ∧ seq < s.wal.queue.nextSeq
  | .crash _ _ => True

end CrashRun

def crashSystem (cfg : WalConfig) : System CrashRun CrashAction where
  init s := cfg.hasPath = true ∧ ∃ dropped now,
    s = { wal := (newDecisionWAL cfg dropped [] none now).1, written := [.next 1] }
  step s a t := s.Enabled cfg a ∧ t = s.next cfg a

namespace CrashRun

variable {cfg : WalConfig} {s : CrashRun} {ls ls' : List LogLine} {l : LogLine} {w : Wal}

structure Inv (cfg : WalConfig) (s : CrashRun) : Prop where
  hasPath : cfg.hasPath = true
  reads : ∀ n, s.MayKeep n → ∃ ls r m, Reads (s.wal.disk.content.take n) (s.survivors n) ls r m
  backed : s.wal.disk.content.getLast? = some 0x0A →
    ∃ ls, s.wal.Backed ls ∧ Replays s.written s.wal.queue.records s.wal.queue.nextSeq

theorem reads_all (h : s.wal.Backed ls)
    (hg : Replays s.written s.wal.queue.records s.wal.queue.nextSeq) :
    ∃ ls r m, Reads (s.wal.disk.content.take s.wal.disk.content.length)
      (s.survivors s.wal.disk.content.length)
      ls r m := by
  rw [List.take_length, survivors, if_pos (Nat.le_succ _)]
  exact ⟨_, _, _, .of_backed h hg⟩

theorem Inv.wrote (h : Inv cfg s) (hback : s.wal.Backed ls)
    (hg : Replays s.written s.wal.queue.records s.wal.queue.nextSeq) (hl : l.Ok) (hw : w.Backed ls')
    (hlog : ∀ gs, Replays gs s.wal.queue.records s.wal.queue.nextSeq →
      Replays (gs ++ [l]) w.queue.records w.queue.nextSeq) :
    Inv cfg (s.wrote l w) := by
  refine ⟨h.hasPath, fun n hn => ?_, fun _ => ⟨_, hw, hlog _ hg⟩⟩
  by_cases hall : n = w.disk.content.length
  · rw [hall]
    exact reads_all (s := s.wrote l w) hw (hlog _ hg)
  obtain ⟨hge, hle⟩ := hn
  change w.disk.content.length ≤ n + (if w.disk.content = s.wal.disk.content ++ logText [l] then
    (logText [l]).length else 0) at hge
  change n ≤ w.disk.content.length at hle
  split at hge
  · rename_i hcontent
    have hlen : w.disk.content.length = s.wal.disk.content.length + (l.line.text.length + 1) := by
      simp [hcontent]
    rw [logText_singleton, List.length_append, List.length_singleton, hlen] at hge
    obtain ⟨k, rfl⟩ := Nat.exists_eq_add_of_le (show s.wal.disk.content.length ≤ n by omega)
    have htake : w.disk.content.take (s.wal.disk.content.length + k) =
        s.wal.disk.content ++ l.line.text.take k := by
      rw [hcontent, List.take_length_add_append, logText_singleton,
        List.take_append_of_le_length (by omega)]
    change ∃ ls r m, Reads (w.disk.content.take _)
      (if w.disk.content.length ≤ _ then s.written ++ [l] else
      (s.written ++ [l]).dropLast) ls r m
    rw [htake]
    rcases (show k ≤ l.line.text.length by omega).lt_or_eq with hk | hk
    · rw [if_neg (by omega), List.dropLast_concat]
      exact ⟨_, _, _, .torn hback hg hl hk⟩
    · rw [if_pos (by omega), hk, List.take_length]
      exact ⟨_, _, _, .unterminated hback hl (hlog _ hback.replays) (hlog _ hg) hw.int64⟩
  · omega

theorem Inv.append (h : Inv cfg s) {d : Decision} {clock now : Time}
    (hen : s.Enabled cfg (.append d clock now))
    (hok : s.OnWholeLines (.append d clock now)) : Inv cfg (s.next cfg (.append d clock now)) := by
  obtain ⟨hscore, hint, herr, hdropped⟩ := hen
  obtain ⟨ls, hback, hg⟩ := h.backed hok
  obtain ⟨ls', hback'⟩ := hback.append hscore hint clock now
  obtain ⟨k, new, hspec⟩ := s.wal.append_spec d clock now
  have hk : k = 0 := by
    have := hspec.dropped
    omega
  rcases hspec.new with ⟨-, hnew⟩ | ⟨size, hnew⟩
  · exact absurd herr hnew
  have hrecords : (s.wal.append d clock now).1.queue.records =
      s.wal.queue.records ++ [s.wal.stamped d clock] := by
    rw [Queue.records, hspec.entries, hk, hnew, List.drop_zero, List.map_append]
    rfl
  have hnext : (s.wal.append d clock now).1.queue.nextSeq = s.wal.queue.nextSeq + 1 := by
    rw [hspec.nextSeq, hnew]
    rfl
  have hmem : s.wal.stamped d clock ∈ (s.wal.append d clock now).1.queue.records := by simp [hrecords]
  refine h.wrote hback hg (hback'.ok _ (hback'.replays.mem hmem)) hback' fun gs hgs => ?_
  rw [hrecords, hnext]
  exact hgs.dec rfl

theorem Inv.ack (h : Inv cfg s) {seq : Int} (hok : s.OnWholeLines (.ack seq)) :
    Inv cfg (s.next cfg (.ack seq)) := by
  obtain ⟨ls, hback, hg⟩ := h.backed hok.1
  rw [CrashRun.next]
  split
  · exact h
  rename_i hwork
  obtain ⟨ls', hback'⟩ := hback.ackThrough hok.2
  obtain ⟨hrecords, hnext⟩ := Wal.queue_ackThrough hwork
  have hpos : 0 < seq := not_le.mp fun hle => hwork (.inl hle)
  refine h.wrote hback hg (hback.ok_ack hpos hok.2) hback' fun gs hgs => ?_
  have hsorted := hback.replays.sorted
  rw [Queue.records, List.pairwise_map] at hsorted
  have htake : s.wal.queue.entries.take (s.wal.acked seq).length = s.wal.acked seq :=
    (List.prefix_iff_eq_take.mp (List.takeWhile_prefix _)).symm
  rw [hrecords, hnext]
  refine hgs.ack hok.2 ?_ ?_
  · rw [Queue.records, ← List.map_take, htake, List.forall_mem_map]
    exact fun e he => by simpa using List.mem_takeWhile_imp he
  · rw [Queue.records, ← List.map_drop, List.forall_mem_map]
    exact Watermark.lt_of_mem_drop_takeWhile hsorted seq

theorem Inv.crash (h : Inv cfg s) {n : Nat} {now : Time} (hen : s.Enabled cfg (.crash n now)) :
    Inv cfg (s.next cfg (.crash n now)) := by
  obtain ⟨hkeep, hfits, -⟩ := hen
  obtain ⟨ls, r, m, hreads⟩ := h.reads n hkeep
  have hopen : s.next cfg (.crash n now) =
      { wal := cfg.loaded (s.wal.cut n) ls, written := s.survivors n } := by
    rw [CrashRun.next, Reads.reopen_eq (w := s.wal.cut n) hreads h.hasPath hfits]
  rw [hopen]
  refine ⟨h.hasPath, fun k hk => ⟨ls, r, m, ?_⟩, fun hlast => ⟨ls,
    hreads.backed (w := s.wal.cut n) h.hasPath hlast⟩⟩
  have hk' : (s.wal.disk.content.take n).length ≤ k := hk.1
  change Reads ((s.wal.disk.content.take n).take k)
    (if (s.wal.disk.content.take n).length ≤ k + 1 then s.survivors n
    else _) ls r m
  rw [List.take_of_length_le hk', if_pos (hk'.trans (Nat.le_succ k))]
  exact hreads

theorem inv_of_reachableVia (h : (crashSystem cfg).ReachableVia OnWholeLines s) : Inv cfg s := by
  have hinit : ∀ s, (crashSystem cfg).init s → Inv cfg s := by
    rintro s ⟨hpath, dropped, now, rfl⟩
    have hback := LogRun.backed_new hpath dropped (.inl rfl) now
    refine ⟨hpath, fun n hn => ?_, fun _ => ⟨_, hback, hback.replays⟩⟩
    rw [le_antisymm hn.2 hn.1]
    exact reads_all hback hback.replays
  have hstep : ∀ s a t, Inv cfg s → OnWholeLines s a → (crashSystem cfg).step s a t → Inv cfg t := by
    rintro s a t hs hok ⟨hen, rfl⟩
    cases a with
    | append d clock now => exact hs.append hen hok
    | ack seq => exact hs.ack hok
    | crash n now => exact hs.crash hen
  exact h.invariant hinit hstep

/-- A log opens after every crash, with the decisions that were written in full and not
acknowledged, if no line is written behind what is left of another. -/
theorem crash_recovers (h : (crashSystem cfg).ReachableVia OnWholeLines s) {n : Nat}
    (hn : s.MayKeep n) {now : Time} (hfits : Fits cfg (pendingOf (s.survivors n)) now) :
    (reopen cfg (s.wal.cut n) now).2 = none ∧
      (reopen cfg (s.wal.cut n) now).1.queue.records = pendingOf (s.survivors n) := by
  have hinv := inv_of_reachableVia h
  obtain ⟨ls, r, m, hreads⟩ := hinv.reads n hn
  rw [Reads.reopen_eq (w := s.wal.cut n) hreads hinv.hasPath hfits]
  exact ⟨rfl, (Wal.records_reloaded _ ls).trans (hreads.replays.pending.trans hreads.same.pending.symm)⟩

def appendAllow :
    CrashAction := .append { action := "allow", fingerprint := "f", score := 1, decidedAt := 0 } 0 0

def appended : CrashRun :=
  next (LogRun.sized 1000)
    { wal := (newDecisionWAL (LogRun.sized 1000) 0 [] none 0).1, written := [.next 1] }
    appendAllow

theorem reachable_appended : (crashSystem (LogRun.sized 1000)).ReachableVia OnWholeLines appended := by
  refine System.ReachableVia.next appendAllow (.init ⟨rfl, 0, 0, rfl⟩) ?_
    ⟨⟨⟨by decide, by decide⟩, ?_⟩, rfl⟩
  · change List.getLast? _ = _
    decide +kernel
  · decide +kernel

theorem crash_recovers_appended :
    (reopen (LogRun.sized 1000) (appended.wal.cut 185) 0).2 = none ∧
      (reopen (LogRun.sized 1000) (appended.wal.cut 185) 0).1.queue.records =
        pendingOf (appended.survivors 185) :=
  crash_recovers reachable_appended (by unfold MayKeep; decide +kernel)
    ⟨LogRun.unexpired_sized 1000 _, by decide +kernel⟩

/-- Of the only decision 19 bytes are left, and another one is appended to them. -/
def glued : CrashRun := next (LogRun.sized 1000)
    (next (LogRun.sized 1000) appended (.crash 100 0)) appendAllow

theorem reachable_glued : (crashSystem (LogRun.sized 1000)).Reachable glued := by
  have hcrash : appended.Enabled (LogRun.sized 1000) (.crash 100 0) :=
    ⟨by unfold MayKeep; decide +kernel, ⟨LogRun.unexpired_sized 1000 _, by decide +kernel⟩, by decide +kernel⟩
  refine (reachable_appended.reachable.next _ ⟨hcrash, rfl⟩).next appendAllow
    ⟨⟨⟨by decide, by decide⟩, ?_⟩, rfl⟩
  decide +kernel

/-- The decision that was appended after the recovery is not read back, and once one more is
appended the log does not open. -/
theorem recovered_log_loses_decision :
    (crashSystem (LogRun.sized 1000)).Reachable glued ∧
    (pendingOf glued.written).map Decision.walSeq = [1] ∧
      Fits (LogRun.sized 1000) (pendingOf glued.written) 0 ∧
      (reopen (LogRun.sized 1000) glued.wal 0).1.queue.records = [] ∧
      (crashSystem (LogRun.sized 1000)).Reachable (glued.next (LogRun.sized 1000) appendAllow) ∧
      (reopen (LogRun.sized 1000) (glued.next (LogRun.sized 1000) appendAllow).wal 0).2 =
        some (.other "wal load line") := by
  refine ⟨reachable_glued, by decide +kernel, ⟨LogRun.unexpired_sized 1000 _, by decide +kernel⟩, by decide +kernel, ?_,
    by decide +kernel⟩
  refine reachable_glued.next appendAllow ⟨⟨⟨by decide, by decide⟩, ?_⟩, rfl⟩
  decide +kernel

end CrashRun

end Verilink.Edge

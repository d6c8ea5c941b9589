import Verilink.Edge.AppendFailure
import Verilink.Edge.Forwarding

/-!
# The audit record of a forwarded request

`recordDecision` logs an error of `Append` and forgets it, and the request is forwarded all the
same. Here it is said exactly when `Append` queues its decision.
-/

namespace Verilink.Edge

open Verilink.Framework Prog

/-- What is in the file decides about no answer. -/
theorem Disk.accepts_acked {d : Disk} (content content' : Bytes) :
    Disk.Accepts { Disk.acked { d with content := content } with content := content' } ↔
      d.acked.Accepts := by
  obtain ⟨hasPath, -, -, -, -, -⟩ := d
  cases hasPath <;> rfl

namespace Wal

variable {w : Wal} {d : Decision} {clock now : Time} {data : Bytes}

/-- The decision stands behind what is left of the entries before it. -/
def Pending (w : Wal) (d : Decision) (clock : Time) (w' : Wal) : Prop :=
  ∃ k size, w'.queue.entries = w.queue.entries.drop k ++ [⟨w.stamped d clock, size⟩] ∧
    w'.queue.dropped = w.queue.dropped + k

/-- More decisions were counted as dropped than entries have left the queue. -/
def Counted (w w' : Wal) : Prop :=
  w.queue.entries.length + w.queue.dropped < w'.queue.entries.length + w'.queue.dropped

/-- The line can be written, there is room for it, if need be after an eviction, and every write on
the way is accepted. -/
structure Stores (w : Wal) (d : Decision) (clock now : Time) (data : Bytes) : Prop where
  encoded : (decLine (w.stamped d clock)).data = .ok data
  pruning : w.queue.pruned now = 0 ∨ w.disk.Accepts
  room : (entrySizes (w.queue.entries.drop (w.queue.pruned now)) + data.length ≤ w.queue.maxBytes ∧
      (w.prunedDisk now).Accepts) ∨
    (w.MustEvict now data.length ∧ data.length ≤ w.queue.maxBytes ∧ (w.prunedDisk now).Accepts ∧
      (w.prunedDisk now).acked.Accepts)

theorem pending_or_counted_iff : w.Pending d clock (w.append d clock now).1 ∨
    w.Counted (w.append d clock now).1 ↔
    (w.append d clock now).1.queue.nextSeq = w.queue.nextSeq + 1 := by
  obtain ⟨k, new, hle, hentries, hdropped, hnext, hnew⟩ := w.append_spec d clock now
  have hlen := congrArg List.length hentries
  rw [List.length_append, List.length_drop] at hlen
  rcases hnew with ⟨rfl, -⟩ | ⟨size, rfl⟩
  · refine iff_of_false ?_ (by simp [hnext])
    rintro (⟨k', size, hentries', hdropped'⟩ | hcounted)
    · have := congrArg List.length hentries'
      rw [List.length_append, List.length_drop] at this
      simp only [List.length_nil, List.length_singleton] at hlen this
      omega
    · unfold Counted at hcounted
      simp only [List.length_nil] at hlen
      omega
  · exact iff_of_true (.inl ⟨k, size, hentries, hdropped⟩) (by simp [hnext])

theorem nextSeq_appendEntry :
    (w.appendEntry d data).1.queue.nextSeq = w.queue.nextSeq + 1 ↔ w.disk.Accepts := by
  have hwrite : (w.disk.writeBytesLocked data false).2 = none ↔ w.disk.Accepts :=
    Disk.writeBytesLocked_none_iff
  rw [← hwrite, appendEntry]
  rcases Outcome.andThen_cases (w.onDisk (w.disk.writeBytesLocked data false)) _ with
    ⟨hnone, h⟩ | ⟨e, hsome, h⟩
  · rw [h]
    obtain ⟨stale, hqueue⟩ := queue_maybeCompactLocked _
    rw [hqueue]
    exact iff_of_true rfl hnone
  · rw [h]
    refine iff_of_false (by simp [onDisk]) ?_
    intro hnone
    exact Option.some_ne_none e (hsome.symm.trans hnone)

theorem capacity_full {need : Int} (hover : w.queue.overfull need = true)
    (hkept : ¬ (w.queue.noDrop = false ∧ w.queue.entries ≠ [])) :
    (w.dropForCapacityLocked need).2 ≠ none := by
  unfold dropForCapacityLocked
  by_cases hnil : w.queue.entries = []
  · have hself : w.queue.removeWhile (Queue.overfull need) w.queue.entries.length = w.queue := by
      rw [hnil]
      rfl
    rw [if_neg (by simp [hnil]), hself, ackDropped_self, Outcome.andThen_none, if_pos hover]
    simp
  · have hdrop : w.queue.noDrop = true := by simpa [hnil] using hkept
    simp [hover, hnil, hdrop]

theorem nextSeq_append_iff (hq : w.queue.Accounted)
    (haction : d.action ∈ ["allow", "deny", "passthrough"]) :
    (w.append d clock now).1.queue.nextSeq = w.queue.nextSeq + 1 ↔
      ∃ data, w.Stores d clock now data := by
  obtain ⟨hprune, hdisk⟩ := prune_disk hq now
  have hremoved := prune_removed hq now
  have hnext := hremoved.nextSeq
  by_cases hnone : (w.pruneExpiredLocked now).2 = none
  swap
  · refine iff_of_false ?_ fun ⟨data, h⟩ => hnone (hprune.mpr h.pruning)
    rw [append, if_neg (not_not_intro haction)]
    rcases Outcome.andThen_cases (w.pruneExpiredLocked now) _ with ⟨h, -⟩ | ⟨e, -, h⟩
    · exact absurd h hnone
    · rw [h, hnext]
      omega
  obtain ⟨content, hcontent⟩ := hdisk hnone
  have haccepts : (w.pruneExpiredLocked now).1.disk.Accepts ↔ (w.prunedDisk now).Accepts := by
    rw [hcontent]
    rfl
  cases hdata : (decLine (w.stamped d clock)).data with
  | error err =>
    refine iff_of_false ?_ fun ⟨data, h⟩ => by cases hdata.symm.trans h.encoded
    rw [append, if_neg (not_not_intro haction), Outcome.andThen_of_none hnone, stamped_congr hnext,
      hdata, hnext]
    omega
  | ok data =>
    have hstores : (∃ data, w.Stores d clock now data) ↔ w.Stores d clock now data := by
      refine ⟨fun ⟨data', h⟩ => ?_, fun h => ⟨data, h⟩⟩
      cases hdata.symm.trans h.encoded
      exact h
    have hover : (w.pruneExpiredLocked now).1.queue.overfull data.length = true ↔
        ¬ entrySizes (w.queue.entries.drop (w.queue.pruned now)) + data.length ≤ w.queue.maxBytes := by
      rw [Queue.overfull, hremoved.maxBytes, (hremoved.accounted hq).bytes, hremoved.entries,
        decide_eq_true_iff, not_le]
    rw [hstores, append_of_pruned haction hnone hdata]
    by_cases hfits : entrySizes (w.queue.entries.drop (w.queue.pruned now)) + data.length ≤
      w.queue.maxBytes
    · rw [dropForCapacityLocked_fits
        (by simpa [hfits] using hover), Outcome.andThen_none, ← hnext, nextSeq_appendEntry,
        haccepts]
      constructor
      · intro h
        exact ⟨hdata, hprune.mp hnone, .inl ⟨hfits, h⟩⟩
      · rintro ⟨-, -, ⟨-, h⟩ | ⟨-, -, h, -⟩⟩
        · exact h
        · exact h
    · obtain ⟨k, hdropped⟩ := (w.pruneExpiredLocked now).1.dropForCapacityLocked_dropped data.length
      have hcapNext := hdropped.nextSeq.trans hnext
      have hevicted : w.MustEvict now data.length ↔ _ := mustEvict_iff hq
      have hroom : w.Stores d clock now data ↔ w.MustEvict now data.length ∧
          data.length ≤ w.queue.maxBytes ∧
          (w.prunedDisk now).Accepts ∧ (w.prunedDisk now).acked.Accepts := by
        constructor
        · rintro ⟨-, -, ⟨h, -⟩ | h⟩
          · exact absurd h hfits
          · exact h
        · intro h
          exact ⟨hdata, hprune.mp hnone, .inr h⟩
      rw [hroom]
      by_cases hevict : w.MustEvict now data.length
      · obtain ⟨hmay, hne, -⟩ := hevicted.mp hevict
        obtain ⟨-, hcap, hacked⟩ := capacity_evicts (hremoved.accounted hq) hmay hne (hover.mpr hfits)
        rw [hremoved.maxBytes, haccepts] at hcap
        rcases Outcome.andThen_cases ((w.pruneExpiredLocked now).1.dropForCapacityLocked data.length)
          (fun w' => w'.appendEntry (w'.stamped d clock) data) with ⟨hok, h⟩ | ⟨e, hfail, h⟩ <;> rw [h]
        · obtain ⟨hlarge, hfirst⟩ := hcap.mp hok
          obtain ⟨content', hcontent'⟩ := hacked (haccepts.mpr hfirst)
          have hsecond :
              ((w.pruneExpiredLocked now).1.dropForCapacityLocked data.length).1.disk.Accepts ↔
              (w.prunedDisk now).acked.Accepts := by
            rw [hcontent', hcontent]
            exact Disk.accepts_acked content content'
          rw [← hcapNext, nextSeq_appendEntry, hsecond]
          exact ⟨fun h => ⟨hevict, hlarge, hfirst, h⟩, fun h => h.2.2.2⟩
        · refine iff_of_false (by rw [hcapNext]; omega) ?_
          rintro ⟨-, hlarge, hfirst, -⟩
          exact Option.some_ne_none e (hfail.symm.trans (hcap.mpr ⟨hlarge, hfirst⟩))
      · have hfail := capacity_full (hover.mpr hfits) fun h =>
            hevict (hevicted.mpr ⟨h.1, h.2, hover.mpr hfits⟩)
        refine iff_of_false ?_ fun h => hevict h.1
        rcases Outcome.andThen_cases ((w.pruneExpiredLocked now).1.dropForCapacityLocked data.length)
          (fun w' => w'.appendEntry (w'.stamped d clock) data) with ⟨hok, h⟩ | ⟨e, -, h⟩
        · exact absurd hok hfail
        · rw [h, hcapNext]
          omega

end Wal

namespace EdgeProxy

variable {p : EdgeProxy} {sha : Sha256} {scheme : SignatureScheme} {r : Request} {s : Shared}

/-- What `recordDecision` fills in. -/
def completed (p : EdgeProxy) (sha : Sha256) (r : Request) (clock : Time) (d : Decision) : Decision :=
  let d := if d.fingerprint = "" then { d with fingerprint := requestFingerprint p.lower sha r } else d
  if d.decidedAt = zeroTime then { d with decidedAt := clock } else d

variable (p sha r s) in
/-- The decision of the answer has gone through `Append`. -/
def Recorded (x : Response × Shared) : Prop :=
  ∀ d, x.1.recorded = some d → d.action ∈ ["allow", "deny", "passthrough"] ∧
    x.2.wal = (s.wal.append (p.completed sha r s.clock d) s.clock s.clock).1

theorem recorded_answer (hwal : p.hasWal = true) {t : Shared} (hlog : t.wal = s.wal)
    (hclock : t.clock = s.clock)
    (headers : List (String × String)) (error : Option (Nat × String)) (d : Decision)
    (evidence : Option Evidence) (haction : d.action ∈ ["allow", "deny", "passthrough"]) :
    Recorded p sha r s ((p.answer sha r headers error d evidence).run t) := by
  intro d' hd'
  rw [run_answer_fst] at hd'
  cases hd'
  refine ⟨haction, ?_⟩
  simp only [answer, recordDecision, hwal, if_true, run_bind, now, run_read, run_update, run_pure,
    hlog, hclock]
  rfl

variable (p sha scheme r s) in
theorem wal_authenticate : ((p.authenticate sha scheme r).run s).2.wal = s.wal := by
  rw [authenticate]
  split
  · rfl
  · rfl
  · next body si hbody hsi =>
    obtain ⟨res, hrun, -⟩ := run_verifySignatureInput p sha scheme s hsi body
    rw [run_bind, hrun]
    cases res with
    | error err => rfl
    | ok key =>
      dsimp only
      split_ifs
      · rfl
      · rw [run_bind]
        have hnonce : ((checkAndConsume si.nonce si.keyID).run s).2.wal = s.wal := by
          unfold checkAndConsume now
          simp
        split <;> exact hnonce

theorem run_annotateTrust_snd (keyid : String) : ((p.annotateTrust sha r keyid).run s).2 = s := by
  rw [annotateTrust, run_bind, run_hasSnapshot]
  cases p.loaded s with
  | false => cases p.trustStore <;> rfl
  | true =>
    simp only [if_true, run_bind, now, run_read]
    cases s.store.lookupKey keyid s.clock <;> rfl

variable (sha scheme r s) in
theorem recorded_serveHTTP (hwal : p.hasWal = true) :
    Recorded p sha r s ((p.serveHTTP sha scheme r).run s) := by
  rw [serveHTTP, run_bind, run_currentMode]
  dsimp only
  generalize (if p.modeIn s ≠ .ok then [("X-Verilink-Mode", (p.modeIn s).text)] else []) = headers
  split_ifs
  · intro d hd
    cases hd
  · obtain ⟨res, t, hrun, -, hclock, -⟩ := run_authenticate p sha scheme r s
    have hlog : t.wal = s.wal := by simpa [hrun] using wal_authenticate p sha scheme r s
    rw [serveSigned, run_bind, hrun]
    rcases res with (_ | _ | _) | ⟨si, key⟩
    · intro d hd
      cases hd
    · exact recorded_answer hwal hlog hclock _ _ _ _ (by decide)
    · exact recorded_answer hwal hlog hclock _ _ _ _ (by decide)
    · dsimp only
      rw [run_bind, run_annotateTrust_snd]
      split_ifs <;> exact recorded_answer hwal hlog hclock _ _ _ _ (by simp [outcome])
  · rw [serveUnsigned, run_bind, run_requireSig]
    dsimp only
    split_ifs
    · exact recorded_answer hwal rfl rfl _ _ _ _ (by decide)
    · exact recorded_answer hwal rfl rfl _ _ _ _ (by decide)

theorem forwarded_audited_iff (hwal : p.hasWal = true) (hq : s.wal.queue.Accounted)
    {resp : Response} {t : Shared} (hrun : (p.serveHTTP sha scheme r).run s = (resp, t)) :
    (∀ d, resp.recorded = some d → resp.error = none →
        s.wal.Pending (p.completed sha r s.clock d) s.clock t.wal ∨ s.wal.Counted t.wal) ↔
      ∀ d, resp.recorded = some d → resp.error = none →
        ∃ data, s.wal.Stores (p.completed sha r s.clock d) s.clock s.clock data := by
  refine forall_congr' fun d => forall_congr' fun hd => forall_congr' fun _ => ?_
  have hrecorded := recorded_serveHTTP sha scheme r s hwal
  rw [hrun] at hrecorded
  obtain ⟨haction, hlog⟩ := hrecorded d hd
  rw [hlog, Wal.pending_or_counted_iff, Wal.nextSeq_append_iff hq]
  dsimp only [completed]
  split_ifs <;> exact haction

def logging : EdgeProxy := { small with hasWal := true }

def loggedRun (wal : Wal) : Response × Shared :=
  (logging.serveHTTP zeroSha openScheme plainRequest).run { smallShared goodSnapshot with wal := wal }

theorem forwarded_audited_iff_small : (smallShared goodSnapshot).wal.queue.Accounted ∧
    ((∀ d, (loggedRun (smallShared goodSnapshot).wal).1.recorded = some d →
        (loggedRun (smallShared goodSnapshot).wal).1.error = none →
        (smallShared goodSnapshot).wal.Pending (logging.completed zeroSha plainRequest
        (100 * second) d) (100 * second)
          (loggedRun (smallShared goodSnapshot).wal).2.wal ∨
        (smallShared goodSnapshot).wal.Counted (loggedRun (smallShared goodSnapshot).wal).2.wal) ↔
      ∀ d, (loggedRun (smallShared goodSnapshot).wal).1.recorded = some d →
        (loggedRun (smallShared goodSnapshot).wal).1.error = none →
        ∃ data, (smallShared goodSnapshot).wal.Stores
          (logging.completed zeroSha plainRequest (100 * second) d) (100 * second)
          (100 * second) data) := by
  have hq : (smallShared goodSnapshot).wal.queue.Accounted :=
    ⟨by decide, by simp [smallShared], rfl, by simp [smallShared]⟩
  have hrun : (logging.serveHTTP zeroSha openScheme plainRequest).run (smallShared goodSnapshot) =
      loggedRun (smallShared goodSnapshot).wal := rfl
  exact ⟨hq, forwarded_audited_iff rfl hq hrun⟩

def fullLog : WalLife := WalLife.nearlyFull.next (.setNoDrop true)

/-- A request is forwarded although its decision is neither pending nor counted. -/
theorem forwarded_without_record : ∃ d, walSystem.Reachable fullLog ∧
    (loggedRun fullLog.wal).1.error = none ∧
    (loggedRun fullLog.wal).1.recorded = some d ∧
    ¬ (fullLog.wal.Pending (logging.completed zeroSha plainRequest (100 * second) d) (100 * second)
      (loggedRun fullLog.wal).2.wal ∨
      fullLog.wal.Counted (loggedRun fullLog.wal).2.wal) := by
  refine ⟨outcome "passthrough" "unsigned" "" 0 false,
    WalLife.reachable_nearlyFull.next (.setNoDrop true) ⟨trivial, rfl⟩, rfl, rfl, ?_⟩
  have hrecorded := recorded_serveHTTP zeroSha openScheme plainRequest
      { smallShared goodSnapshot with wal := fullLog.wal }
    (p := logging) rfl
  have hlog : (loggedRun fullLog.wal).2.wal =
      (fullLog.wal.append (logging.completed zeroSha plainRequest (100 * second)
      (outcome "passthrough" "unsigned" "" 0 false)) (100 * second) (100 *
        second)).1 := (hrecorded _ rfl).2
  rw [hlog, Wal.pending_or_counted_iff]
  decide +kernel

end EdgeProxy

end Verilink.Edge

import Verilink.Edge.StoreMemory
import Verilink.Framework.LogWindow
import Verilink.Framework.Runs

/-!
# Deliveries of the event log

What reaches an edge is made of segments of the visible events.
-/

namespace Verilink.Edge

open Verilink.Framework

structure LogEvent where
  version : Int
  visible : Bool
  eventType : String
  payload : Bytes
  deriving DecidableEq

def LogEvent.change (e : LogEvent) : Option SyncChange :=
  (parseChangeRaw e.eventType e.payload).toOption

structure EventLog where
  events : List LogEvent
  ascending : Ascending LogEvent.version events
  positive : ∀ e ∈ events, 0 < e.version

namespace EventLog

def visibleEvents (log : EventLog) : List LogEvent := log.events.filter LogEvent.visible

abbrev between (log : EventLog) (v w : Int) : List LogEvent :=
  window LogEvent.version LogEvent.visible log.events v w

def replay (log : EventLog) (v : Int) : Snapshot :=
  ((log.between 0 v).filterMap LogEvent.change).foldl SyncChange.apply {}

end EventLog

def Snapshot.contents (snap : Snapshot) : Snapshot := { snap with highWaterVersion := 0 }

theorem contents_apply (c : SyncChange) (snap : Snapshot) :
    (c.apply snap).contents = c.apply snap.contents := by
  cases c <;> rfl

/-- The edge, the rest of the segment that is being delivered, and the events handed to
`ApplyEvent` so far. -/
structure Delivery where
  store : MemoryStore := {}
  segment : List LogEvent := []
  delivered : List LogEvent := []

inductive DeliveryLabel
  | segment
  | event (now : Time)
  | cursor (now : Time) (v : Int)

namespace Delivery

variable (log : EventLog)

def apply (s : Delivery) (now : Time) (e : LogEvent) (rest : List LogEvent) : Delivery :=
  let result := s.store.applyEvent now e.version e.eventType e.payload
  { store := result.1
    segment := if result.2 = none then rest else []
    delivered := s.delivered ++ [e] }

inductive Step (s : Delivery) : DeliveryLabel → Delivery → Prop
  | segment {pre segment post : List LogEvent}
      (h : log.visibleEvents = pre ++ segment ++ post)
      (hstart : ∀ e ∈ pre, e.version ≤ s.store.hw) :
      Step s .segment { s with segment := segment }
  | event {now : Time} {e : LogEvent} {rest : List LogEvent} (h : s.segment = e :: rest) :
      Step s (.event now) (s.apply now e rest)
  | cursor {now : Time} {v : Int}
      (h : ∀ e ∈ log.visibleEvents, e.version ≤ v → e ∈ s.delivered) :
      Step s (.cursor now v) { s with store := s.store.advanceCursor now v }

def system : System Delivery DeliveryLabel where
  init s := s = {}
  step := Step log

/-- The store follows the log, the segment has no gap before it, and an event above the mark that
was delivered all the same is malformed. -/
structure Follows (s : Delivery) : Prop where
  nonneg : 0 ≤ s.store.hw
  contents : (cloneSnapshot s.store.view.snapshot).contents = log.replay s.store.hw
  segment : ∃ pre post, log.visibleEvents = pre ++ s.segment ++ post ∧
    ∀ e ∈ pre, e.version ≤ s.store.hw
  delivered : ∀ e ∈ s.delivered, e.version ≤ s.store.hw ∨ e.change = none

variable {log} {v w : Int} {s t : Delivery} {label : DeliveryLabel}

theorem replay_split (hv : 0 ≤ v) (hvw : v ≤ w) :
    log.replay w = ((log.between v w).filterMap LogEvent.change).foldl SyncChange.apply
      (log.replay v) := by
  unfold EventLog.replay EventLog.between
  rw [window_split log.ascending hv hvw, List.filterMap_append, List.foldl_append]

/-- A cursor only passes events that changed nothing. -/
theorem replay_of_malformed (hv : 0 ≤ v) (hvw : v ≤ w) (h : ∀ e ∈ log.between v w, e.change = none) :
    log.replay w = log.replay v := by
  rw [replay_split hv hvw, List.filterMap_eq_nil_iff.mpr h]
  rfl

theorem Follows.apply (h : Follows log s) (now : Time) {e : LogEvent} {rest : List LogEvent}
    (hsegment : s.segment = e :: rest) : Follows log (s.apply now e rest) := by
  obtain ⟨pre, post, hsplit, hpre⟩ := h.segment
  rw [hsegment] at hsplit
  have hnext : log.visibleEvents = (pre ++ [e]) ++ rest ++ post := by
    rw [hsplit]
    simp
  have hpos : 0 < e.version := by
    have hmem : e ∈ log.visibleEvents := by simp [hsplit]
    exact log.positive e (List.mem_of_mem_filter hmem)
  unfold Delivery.apply
  rcases s.store.applyEvent_cases now e.version e.eventType e.payload with
    ⟨hle, -⟩ | ⟨-, hskip, hcall⟩ | ⟨-, hlt, err, hchange, hcall⟩ | ⟨-, hlt, change, hchange, hcall⟩
  · exact absurd hpos (not_lt.mpr hle)
  · -- The event was applied before.
    rw [hcall]
    refine ⟨h.nonneg, h.contents, ⟨pre ++ [e], post, hnext, ?_⟩, ?_⟩
    · exact List.forall_mem_append.mpr ⟨hpre, List.forall_mem_singleton.mpr hskip⟩
    · exact List.forall_mem_append.mpr ⟨h.delivered, List.forall_mem_singleton.mpr (.inl hskip)⟩
  · -- It fails; the clone is all that is left of it.
    rw [hcall]
    have hmalformed : e.change = none := by
      rw [LogEvent.change, hchange]
      rfl
    refine ⟨h.nonneg, ?_, ⟨[], log.visibleEvents, rfl, by simp⟩, ?_⟩
    · rw [MemoryStore.view_clone]
      exact h.contents
    · exact List.forall_mem_append.mpr ⟨h.delivered, List.forall_mem_singleton.mpr (.inr hmalformed)⟩
  · -- It is the first event after the mark.
    rw [hcall]
    have hmade : e.change = some change := by
      rw [LogEvent.change, hchange]
      rfl
    have hwindow : log.between s.store.hw e.version = [e] :=
      window_of_split log.ascending (hsplit.trans (List.append_assoc _ _ _)) hpre hlt
    refine ⟨hpos.le, ?_, ⟨pre ++ [e], post, hnext, ?_⟩, ?_⟩
    · rw [MemoryStore.view_publish]
      change (change.apply (cloneSnapshot s.store.view.snapshot)).contents = log.replay e.version
      rw [contents_apply, h.contents, replay_split h.nonneg hlt.le, hwindow]
      simp [hmade]
    · exact List.forall_mem_append.mpr ⟨fun x hx => (hpre x hx).trans hlt.le,
        List.forall_mem_singleton.mpr le_rfl⟩
    · exact List.forall_mem_append.mpr
        ⟨fun x hx => (h.delivered x hx).imp_left fun hle => hle.trans hlt.le,
          List.forall_mem_singleton.mpr (.inl le_rfl)⟩

theorem Follows.cursor (h : Follows log s) (now : Time)
    (hv : ∀ e ∈ log.visibleEvents, e.version ≤ v → e ∈ s.delivered) :
    Follows log { s with store := s.store.advanceCursor now v } := by
  unfold MemoryStore.advanceCursor
  split_ifs with hold
  · exact ⟨h.nonneg, h.contents, h.segment, h.delivered⟩
  · obtain ⟨-, hlt⟩ := not_or.mp hold
    have hle : s.store.hw ≤ v := (not_le.mp hlt).le
    obtain ⟨pre, post, hsplit, hpre⟩ := h.segment
    refine ⟨h.nonneg.trans hle, ?_, ⟨pre, post, hsplit, ?_⟩, ?_⟩
    · refine h.contents.trans (replay_of_malformed h.nonneg hle ?_).symm
      intro e he
      obtain ⟨hlog, habove, hbelow, hvisible⟩ := mem_window.mp he
      have hdelivered := hv e (List.mem_filter.mpr ⟨hlog, hvisible⟩) hbelow
      exact (h.delivered e hdelivered).resolve_left (not_le.mpr habove)
    · intro e he
      exact (hpre e he).trans hle
    · intro e he
      exact (h.delivered e he).imp_left fun hmark => hmark.trans hle

theorem Follows.step (h : Follows log s) (hst : Step log s label t) : Follows log t := by
  cases hst with
  | segment hsplit hstart => exact ⟨h.nonneg, h.contents, ⟨_, _, hsplit, hstart⟩, h.delivered⟩
  | event hsegment => exact h.apply _ hsegment
  | cursor hv => exact h.cursor _ hv

theorem highWater_le_step (hst : Step log s label t) :
    s.store.hw ≤ t.store.hw := by
  cases hst with
  | segment _ _ => exact le_rfl
  | event _ => exact (s.store.grows_applyEvent _ _ _ _).mark
  | cursor _ => exact (s.store.grows_advanceCursor _ _).mark

/-- The store is the log up to its mark, the mark only rises, and an error changes nothing. -/
theorem delivery_follows_log (log : EventLog) (s : Delivery) (h : (system log).Reachable s) :
    (cloneSnapshot s.store.view.snapshot).contents = log.replay s.store.hw ∧
      (∀ t, (system log).Leads s t → s.store.hw ≤ t.store.hw) ∧
      ∀ now v eventType payload, (s.store.applyEvent now v eventType payload).2 ≠ none →
        (s.store.applyEvent now v eventType payload).1.view = s.store.view := by
  have hfollows : Follows log s := by
    apply h.invariant
    · intro s hinit
      obtain rfl : s = {} := hinit
      exact ⟨le_rfl, by rw [EventLog.replay, EventLog.between, window_self]; rfl,
        ⟨[], log.visibleEvents, rfl, by simp⟩, by simp⟩
    · intro s label t hs hst
      exact hs.step hst
  refine ⟨hfollows.contents, ?_, ?_⟩
  · intro t hleads
    induction hleads with
    | refl => exact le_rfl
    | tail _ hlast ih =>
      obtain ⟨label, -, hst⟩ := hlast
      exact ih.trans (highWater_le_step hst)
  · intro now v eventType payload
    exact (s.store.refines now hfollows.nonneg v eventType payload).2

def scoreEvent : LogEvent :=
  ⟨1, true, "score.upsert", utf8 "\x7b\"principal_id\":\"a\",\"score\":80\x7d"⟩

def cutEvent : LogEvent := ⟨2, true, "score.upsert", utf8 "\x7b"⟩

def twoEvents : EventLog where
  events := [scoreEvent, cutEvent]
  ascending := by decide
  positive := by decide

def twoEventsStarted : Delivery := { segment := [scoreEvent, cutEvent] }

def firstApplied : Delivery := twoEventsStarted.apply 0 scoreEvent [cutEvent]

def secondFailed : Delivery := firstApplied.apply 0 cutEvent []

def startedAgain : Delivery := { secondFailed with segment := [scoreEvent, cutEvent] }

/-- The second event fails, and the segment is to be delivered again. -/
theorem delivery_follows_log_retried :
    ∃ s, (system twoEvents).Reachable s ∧ s.store.hw = 1 ∧ s.delivered = [scoreEvent, cutEvent] ∧
      s.segment = [scoreEvent, cutEvent] ∧
      (cloneSnapshot s.store.view.snapshot).contents = twoEvents.replay s.store.hw := by
  have hsplit : twoEvents.visibleEvents = [] ++ [scoreEvent, cutEvent] ++ [] := by decide
  have h₀ : (system twoEvents).Reachable {} := .start rfl
  have h₁ : (system twoEvents).Reachable twoEventsStarted :=
    h₀.next DeliveryLabel.segment (Step.segment hsplit (by simp))
  have hfirst : twoEventsStarted.segment = scoreEvent :: [cutEvent] := rfl
  have h₂ : (system twoEvents).Reachable firstApplied :=
    h₁.next (DeliveryLabel.event 0) (Step.event hfirst)
  have hsecond : firstApplied.segment = cutEvent :: [] := by decide +kernel
  have h₃ : (system twoEvents).Reachable secondFailed :=
    h₂.next (DeliveryLabel.event 0) (Step.event hsecond)
  have h₄ : (system twoEvents).Reachable startedAgain :=
    h₃.next DeliveryLabel.segment (Step.segment hsplit (by simp))
  have hmark : startedAgain.store.hw = 1 := by decide +kernel
  have hdelivered : startedAgain.delivered = [scoreEvent, cutEvent] := rfl
  have hfollows := (delivery_follows_log twoEvents startedAgain h₄).1
  exact ⟨startedAgain, h₄, hmark, hdelivered, rfl, hfollows⟩

end Delivery

end Verilink.Edge

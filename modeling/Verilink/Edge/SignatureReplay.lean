import Verilink.Edge.KeyBinding
import Verilink.Framework.Runs

/-!
# Replayed signatures

Whoever has seen a signature can send it again, with any text in `Signature-Input`.
-/

namespace Verilink.Edge

open Verilink.Framework Relation Prog

def Request.signatureBytes (r : Request) : Option Bytes := Base64.decode .url false r.signature.toList

structure ReplayRun where
  shared : Shared
  forwarded : List Request

/-- Requests one after the other within one time to live from `start`, while the sync loop goes on.
-/
def replaySystem (p : EdgeProxy) (sha : Sha256) (scheme : SignatureScheme) (start : Time) :
    System ReplayRun Request where
  init s := s.shared.clock = start ∧ s.shared.Remembers ∧ s.forwarded = []
  step s r s' :=
    ∃ resp, Runs (Shared.Env Store.Swap) (p.serveHTTP sha scheme r) s.shared resp s'.shared ∧
    s'.shared.clock < start + s.shared.nonces.ttl ∧
    s'.forwarded =
      if resp.error = none ∧ r.signatureInput ≠ "" then s.forwarded ++ [r] else s.forwarded

namespace ReplayRun

open EdgeProxy

/-- Requests with the same signature bytes name the same nonce: `name` says which. -/
def Unaltered (name : Option Bytes → String) (_ : ReplayRun) (r : Request) : Prop :=
  ∀ si, parseSignatureInput r.signatureInput = .ok si →
    nonceKey (si.keyID, si.nonce) = name r.signatureBytes

variable {p : EdgeProxy} {sha : Sha256} {scheme : SignatureScheme} {start : Time} {s s' : ReplayRun}
  {name : Option Bytes → String}

structure Inv (name : Option Bytes → String) (start : Time) (s : ReplayRun) : Prop where
  clock : start ≤ s.shared.clock
  remembers : s.shared.Remembers
  used : ∀ r ∈ s.forwarded, ∃ id time, (id, time) ∈ s.shared.consumed ∧
    nonceKey id = name r.signatureBytes ∧ start ≤ time
  nodup : (s.forwarded.map Request.signatureBytes).Nodup

/-- A request that is forwarded as signed used a nonce that was not used since `start`. -/
theorem fresh_of_forwarded {r : Request} {resp : Response} {s t : Shared} (hmem : s.Remembers)
    (h : Runs (Shared.Env Store.Swap) (p.serveHTTP sha scheme r) s resp t) (hforward : resp.error = none)
    (hsigned : r.signatureInput ≠ "") (hclock : t.clock < start + s.nonces.ttl) :
    ∃ si time, parseSignatureInput r.signatureInput = .ok si ∧
      ((si.keyID, si.nonce), time) ∈ t.consumed ∧
      s.clock ≤ time ∧ ∀ id used, (id, used) ∈ s.consumed →
        nonceKey id = nonceKey (si.keyID, si.nonce) → used < start := by
  obtain ⟨mode, n, headers, hmode, -, ⟨-, hserve⟩ | ⟨hnone, -⟩⟩ := runs_serveHTTP hforward h
  · obtain ⟨si, key, a, ⟨⟨m, m₁, m₂, m₃, m₄, n', hauth, n'', hjudged, l, w, hl, ht⟩, -⟩, -⟩ :=
      runs_serveSigned hforward hserve
    have hm₂ : Shared.Before s m₂ := (calm_currentMode _ _ _ _ hmode).trans
      (Shared.before_of_env ((hauth.before.trans hauth.read).trans hauth.found.path))
    obtain ⟨hfresh, hafter, hconsume⟩ := hauth.nonce.fresh (hm₂.remembers hmem)
    have hm₃ := hm₂.trans (Shared.before_of_env hauth.nonce.before)
    have hm₄ := hm₃.trans (Shared.before_of_env hauth.nonce.read)
    have hend : Shared.Before (m₄.consuming m₃.clock (si.keyID, si.nonce)) t :=
      (((hafter.trans hjudged.before).trans (Shared.before_of_env hl)).trans
        (Shared.before_log l w)).trans
        (Shared.before_of_env ht)
    refine ⟨si, m₃.clock, hauth.parsed, ?_, hm₃.clock, fun id used hused hkey => ?_⟩
    · exact hend.consumed.subset (List.mem_append_right _ List.mem_cons_self)
    · have hover := hfresh id used (hm₄.consumed.subset hused) hkey
      have hlast := (hconsume.trans hend).clock
      rw [hm₂.ttl] at hover
      exact lt_of_add_lt_add_right ((hover.trans hlast).trans_lt hclock)
  · exact absurd hnone hsigned

theorem Inv.step {r : Request} (h : Inv name start s) (hname : Unaltered name s r)
    (hstep : (replaySystem p sha scheme start).step s r s') : Inv name start s' := by
  obtain ⟨resp, hrun, hclock, hforwarded⟩ := hstep
  have hbefore := calm_serveHTTP _ _ _ _ hrun
  have hused : ∀ r ∈ s.forwarded, ∃ id time, (id, time) ∈ s'.shared.consumed ∧
      nonceKey id = name r.signatureBytes ∧ start ≤ time := by
    intro q hq
    obtain ⟨id, time, hmem, hrest⟩ := h.used q hq
    exact ⟨id, time, hbefore.consumed.subset hmem, hrest⟩
  refine ⟨h.clock.trans hbefore.clock, hbefore.remembers h.remembers, ?_, ?_⟩
  all_goals
    rw [hforwarded]
    split_ifs with hpass
  · obtain ⟨si, time, hsi, hmem, htime, -⟩ := fresh_of_forwarded h.remembers hrun hpass.1 hpass.2 hclock
    intro q hq
    rcases List.mem_append.mp hq with hold | hnew
    · exact hused q hold
    · obtain rfl : q = r := List.mem_singleton.mp hnew
      exact ⟨_, time, hmem, hname si hsi, h.clock.trans htime⟩
  · exact hused
  · obtain ⟨si, time, hsi, -, -, hfresh⟩ := fresh_of_forwarded h.remembers hrun hpass.1 hpass.2 hclock
    rw [List.map_append, List.map_singleton, ← List.concat_eq_append, List.nodup_concat]
    refine ⟨?_, h.nodup⟩
    -- A request with the same signature would have used the nonce since the start.
    intro hmem
    obtain ⟨q, hq, hsig⟩ := List.mem_map.mp hmem
    obtain ⟨id, used, hin, hkey, hle⟩ := h.used q hq
    rw [hsig, ← hname si hsi] at hkey
    exact absurd (hfresh id used hin hkey) (not_lt.mpr hle)
  · exact h.nodup

/-- Each signature is forwarded at most once, if a replay never changes the name of the nonce. -/
theorem forwarded_once (h : (replaySystem p sha scheme start).ReachableVia (Unaltered name) s) :
    (s.forwarded.map Request.signatureBytes).Nodup := by
  have hinit : ∀ s, (replaySystem p sha scheme start).init s → Inv name start s := by
    rintro s ⟨hclock, hmem, hnil⟩
    exact ⟨hclock.ge, hmem, by simp [hnil], by simp [hnil]⟩
  have hstep : ∀ s r s', Inv name start s → Unaltered name s r →
      (replaySystem p sha scheme start).step s r s' → Inv name start s' :=
    fun _ _ _ hs hname hst => hs.step hname hst
  exact (h.invariant hinit hstep).nodup

/-! ## Two nonces for one signature -/

def smallStart : ReplayRun := ⟨smallShared goodSnapshot, []⟩

def after (s : ReplayRun) (nonce : String) : ReplayRun where
  shared := ((small.serveHTTP zeroSha openScheme (smallRequest nonce)).run s.shared).2
  forwarded :=
    if ((small.serveHTTP zeroSha openScheme (smallRequest nonce)).run s.shared).1.error = none ∧
      (smallRequest nonce).signatureInput ≠ "" then s.forwarded ++ [smallRequest nonce] else s.forwarded

theorem start_small : (replaySystem small zeroSha openScheme (100 * second)).init smallStart :=
  ⟨rfl, ReplayCache.remembers_nil _ _ _, rfl⟩

theorem shared_after (s : ReplayRun) (nonce : String) : (after s nonce).shared =
    ((small.serveHTTP zeroSha openScheme (smallRequest nonce)).run s.shared).2 :=
  rfl

theorem step_after {s : ReplayRun} {nonce : String}
    (hclock : (after s nonce).shared.clock < start + s.shared.nonces.ttl) :
    (replaySystem small zeroSha openScheme start).step s (smallRequest nonce) (after s nonce) :=
  ⟨_, runs_run _ _, hclock, rfl⟩

theorem forwarded_after {s : ReplayRun} {nonce : String}
    (h : ((small.serveHTTP zeroSha openScheme (smallRequest nonce)).run s.shared).1.error = none) :
    (after s nonce).forwarded = s.forwarded ++ [smallRequest nonce] :=
  if_pos ⟨h, signatureInput_smallRequest nonce⟩

theorem first_passes : (after smallStart "n").forwarded = [smallRequest "n"] ∧
    (after smallStart "n").shared.clock < 100 * second + smallStart.shared.nonces.ttl := by
  have hstart : smallStart.shared = smallShared goodSnapshot := rfl
  have hrun := smallRun_passes
  rw [smallRun, ← hstart] at hrun
  constructor
  · rw [forwarded_after hrun.1]
    rfl
  · rw [shared_after, hrun.2]
    decide

/-- The request and its replay: the second of them is refused. -/
theorem forwarded_once_small :
    (after (after smallStart "n") "n").forwarded = [smallRequest "n"] ∧
      ((after (after smallStart "n") "n").forwarded.map Request.signatureBytes).Nodup := by
  have hname : ∀ s, Unaltered (fun _ => "k:n") s (smallRequest "n") := by
    intro s si hsi
    obtain rfl := Except.ok.inj (parse_smallRequest.symm.trans hsi)
    decide
  have hreplay : ((small.serveHTTP zeroSha openScheme (smallRequest "n")).run
        (after smallStart "n").shared).1.error ≠ none ∧
      (after (after smallStart "n") "n").shared.clock <
        100 * second + (after smallStart "n").shared.nonces.ttl := by
    decide +kernel
  have hreach : (replaySystem small zeroSha openScheme (100 * second)).ReachableVia
      (Unaltered fun _ => "k:n") (after (after smallStart "n") "n") :=
    ((System.ReachableVia.init start_small).next _ (hname _) (step_after first_passes.2)).next _
      (hname _)
      (step_after hreplay.2)
  refine ⟨?_, forwarded_once hreach⟩
  rw [after, if_neg fun h => hreplay.1 h.1, first_passes.1]

/-- The same signature with another nonce is forwarded again. -/
theorem forwarded_twice :
    (replaySystem small zeroSha openScheme (100 * second)).Reachable (after (after smallStart "n") "m") ∧
      ¬ ((after (after smallStart "n") "m").forwarded.map Request.signatureBytes).Nodup := by
  have hsecond : ((small.serveHTTP zeroSha openScheme (smallRequest "m")).run
        (after smallStart "n").shared).1.error = none ∧
      (after (after smallStart "n") "m").shared.clock <
        100 * second + (after smallStart "n").shared.nonces.ttl := by
    decide +kernel
  constructor
  · exact ((System.Reachable.start start_small).next _ (step_after first_passes.2)).next _
      (step_after hsecond.2)
  · rw [forwarded_after hsecond.1, first_passes.1]
    -- the signature does not depend on the nonce
    have hsame : (smallRequest "n").signatureBytes = (smallRequest "m").signatureBytes := by
      rw [Request.signatureBytes, Request.signatureBytes, smallRequest, smallRequest]
    simp [hsame]

end ReplayRun

end Verilink.Edge

import Verilink.Edge.SignatureWindow
import Verilink.Framework.Runs

/-!
# The nonce cache

Calls of `CheckAndConsume` and sweeps take the lock one after the other, each with a reading of the
clock that was made before.
-/

namespace Verilink.Edge

open Verilink.Framework

structure NonceCall where
  id : String × String
  time : Time
  result : Bool
  deriving DecidableEq

/-- The cache, the clock, the latest reading with which the lock was taken, and the calls so far. -/
structure NonceRun where
  cache : ReplayCache String
  clock : Time
  last : Time
  calls : List NonceCall := []

inductive NonceAction
  | tick (clock : Time)
  | call (keyid nonce : String) (now : Time)
  | sweep (now : Time)

namespace NonceRun

open EdgeProxy (nonceKey)

def next (s : NonceRun) : NonceAction → NonceRun
  | .tick clock => { s with clock := clock }
  | .call keyid nonce now =>
    let r := s.cache.checkAndConsume now (nonceKey (keyid, nonce))
    { s with
      cache := r.2
      last := max s.last now
      calls := s.calls ++ [⟨(keyid, nonce), now, r.1⟩] }
  | .sweep now => { s with cache := s.cache.sweep now, last := max s.last now }

/-- The clock does not go back, and what was read of it is over. -/
def Enabled (s : NonceRun) : NonceAction → Prop
  | .tick clock => s.clock ≤ clock
  | .call _ _ now => now ≤ s.clock
  | .sweep now => now ≤ s.clock

/-- Readings take the lock in order, and no other pair with the same text is in use. -/
def Separate (s : NonceRun) : NonceAction → Prop
  | .tick _ => True
  | .call keyid nonce now => s.last ≤ now ∧ ∀ c ∈ s.calls, c.result = true →
      now < c.time + s.cache.ttl → nonceKey c.id = nonceKey (keyid, nonce) → c.id = (keyid, nonce)
  | .sweep now => s.last ≤ now

end NonceRun

def nonceSystem (ttl : Int) : System NonceRun NonceAction where
  init s := ∃ start, s = { cache := ⟨ttl, fun _ => none⟩, clock := start, last := start }
  step s a t := s.Enabled a ∧ t = s.next a

namespace NonceRun

open EdgeProxy (nonceKey)

variable {ttl : Int} {s s' : NonceRun} {a : NonceAction}

def granted (calls : List NonceCall) : List ((String × String) × Time) :=
  (calls.filter NonceCall.result).map fun c => (c.id, c.time)

theorem mem_granted {calls : List NonceCall} {id : String × String} {t : Time} :
    (id, t) ∈ granted calls ↔ ∃ c ∈ calls, c.result = true ∧ c.id = id ∧ c.time = t := by
  simp [granted, and_assoc]

theorem granted_concat (calls : List NonceCall) (c : NonceCall) :
    granted (calls ++ [c]) = granted calls ++ if c.result then [(c.id, c.time)] else [] := by
  cases hc : c.result <;> simp [granted, hc]

/-- What `CheckAndConsume` is to return after the calls `before`. -/
def Fresh (ttl : Int) (before : List NonceCall) (id : String × String) (now : Time) : Prop :=
  ∀ c ∈ before, c.id = id → c.result = true → c.time + ttl ≤ now

def Sound (ttl : Int) (calls : List NonceCall) : Prop :=
  ∀ before c after, calls = before ++ c :: after → (c.result = true ↔ Fresh ttl before c.id c.time)

theorem Sound.concat {calls : List NonceCall} (h : Sound ttl calls) {c : NonceCall}
    (hc : c.result = true ↔ Fresh ttl calls c.id c.time) : Sound ttl (calls ++ [c]) := by
  intro before d after heq
  rcases List.eq_nil_or_concat after with rfl | ⟨after, e, rfl⟩
  · obtain ⟨rfl, hcd⟩ := List.append_inj' heq rfl
    cases hcd
    exact hc
  · have hsplit : calls ++ [c] = (before ++ d :: after) ++ [e] := by simpa using heq
    obtain ⟨rfl, -⟩ := List.append_inj' hsplit rfl
    exact h before d after rfl

structure Inv (ttl : Int) (s : NonceRun) : Prop where
  ttl_eq : s.cache.ttl = ttl
  exact : s.cache.Exact nonceKey (granted s.calls) s.last
  sound : Sound ttl s.calls

theorem Inv.check_iff (h : Inv ttl s) {keyid nonce : String} {now : Time}
    (hsep : s.Separate (.call keyid nonce now)) :
    (s.cache.checkAndConsume now (nonceKey (keyid, nonce))).1 = true ↔
      Fresh ttl s.calls (keyid, nonce) now := by
  obtain ⟨hlast, hother⟩ := hsep
  rw [h.exact.check_iff hlast, h.ttl_eq]
  constructor
  · intro hover c hc hid hresult
    exact hover c.id c.time (mem_granted.mpr ⟨c, hc, hresult, rfl, rfl⟩) (congrArg nonceKey hid)
  · intro hfresh id t hmem hkey
    obtain ⟨c, hc, hresult, rfl, rfl⟩ := mem_granted.mp hmem
    by_contra hlt
    have hid : c.id = (keyid, nonce) := hother c hc hresult (h.ttl_eq.symm ▸ not_le.mp hlt) hkey
    exact hlt (hfresh c hc hid hresult)

theorem Inv.call (h : Inv ttl s) {keyid nonce : String} {now : Time}
    (hsep : s.Separate (.call keyid nonce now)) : Inv ttl (s.next (.call keyid nonce now)) where
  ttl_eq := (ReplayCache.ttl_checkAndConsume _ _ _).trans h.ttl_eq
  exact := by
    have hlast : max s.last now = now := max_eq_right hsep.1
    change (s.cache.checkAndConsume now (nonceKey (keyid, nonce))).2.Exact nonceKey
      (granted (s.calls ++ [⟨(keyid, nonce), now, _⟩])) (max s.last now)
    rw [hlast, granted_concat]
    cases hnew : (s.cache.checkAndConsume now (nonceKey (keyid, nonce))).1 with
    | false =>
      rw [if_neg (by simp), List.append_nil]
      exact h.exact.reject hsep.1 hnew
    | true => exact h.exact.consume hsep.1 hnew
  sound := h.sound.concat (h.check_iff hsep)

theorem Inv.next (h : Inv ttl s) (hsep : s.Separate a) : Inv ttl (s.next a) := by
  cases a with
  | tick clock => exact ⟨h.ttl_eq, h.exact, h.sound⟩
  | call keyid nonce now => exact h.call hsep
  | sweep now =>
    have hlast : max s.last now = now := max_eq_right hsep
    refine ⟨h.ttl_eq, ?_, h.sound⟩
    change (s.cache.sweep now).Exact nonceKey (granted s.calls) (max s.last now)
    rw [hlast]
    exact h.exact.sweep hsep

/-- A call returns true exactly when no earlier call with the same pair returned true less than the
time to live before. -/
theorem checkAndConsume_exact (h : (nonceSystem ttl).ReachableVia Separate s) :
    ∀ before c after, s.calls = before ++ c :: after →
      (c.result = true ↔ ∀ d ∈ before, d.id = c.id → d.result = true → d.time + ttl ≤ c.time) := by
  have hinit : ∀ s, (nonceSystem ttl).init s → Inv ttl s := by
    rintro s ⟨start, rfl⟩
    refine ⟨rfl, ReplayCache.exact_new _ _ _, ?_⟩
    intro before c after heq
    exact absurd heq.symm (by simp)
  have hstep : ∀ s a t, Inv ttl s → Separate s a → (nonceSystem ttl).step s a t → Inv ttl t := by
    rintro s a t hs hsep ⟨-, rfl⟩
    exact hs.next hsep
  exact (h.invariant hinit hstep).sound

def newCache (ttl : Int) (start : Time) : NonceRun :=
  { cache := ⟨ttl, fun _ => none⟩, clock := start, last := start }

def twice (p q : String × String) : NonceRun :=
  ((newCache 10 0).next (.call p.1 p.2 0)).next (.call q.1 q.2 0)

theorem checkAndConsume_exact_twice :
    (twice ("k", "n") ("k", "n")).calls.map NonceCall.result = [true, false] ∧
      ∀ before c after, (twice ("k", "n") ("k", "n")).calls = before ++ c :: after →
        (c.result = true ↔ ∀ d ∈ before, d.id = c.id → d.result = true → d.time + 10 ≤ c.time) := by
  have hstart : (nonceSystem 10).ReachableVia Separate (newCache 10 0) := .init ⟨0, rfl⟩
  have hfirst : Separate (newCache 10 0) (.call "k" "n" 0) := ⟨le_rfl, List.forall_mem_nil _⟩
  have hsecond : Separate ((newCache 10 0).next (.call "k" "n" 0)) (.call "k" "n" 0) :=
    ⟨by decide, by decide⟩
  exact ⟨by decide,
    checkAndConsume_exact ((hstart.next _ hfirst ⟨le_rfl, rfl⟩).next _ hsecond ⟨le_rfl, rfl⟩)⟩

/-- The pair `("a", "b:c")` is rejected although it was never used: `("a:b", "c")` has its text. -/
theorem other_pair_rejected :
    (nonceSystem 10).Reachable (twice ("a:b", "c") ("a", "b:c")) ∧
      (twice ("a:b", "c") ("a", "b:c")).calls =
        [⟨("a:b", "c"), 0, true⟩, ⟨("a", "b:c"), 0, false⟩] := by
  have hstart : (nonceSystem 10).Reachable (newCache 10 0) := .init ⟨0, rfl⟩
  exact ⟨(hstart.next (.call "a:b" "c" 0) ⟨le_rfl, rfl⟩).next (.call "a" "b:c" 0) ⟨le_rfl, rfl⟩,
    by decide⟩

end NonceRun

/-! ## Replays of a whole header -/

def nonceTTL : Int := 300 * second

namespace NonceRun

open EdgeProxy (nonceKey)

variable {ttl : Int} {s s' : NonceRun}

def Holds (s : NonceRun) (k : String) (exp : Time) : Prop :=
  s.clock < exp → ∃ e ∈ s.cache.seen k, exp ≤ e

theorem Holds.next {k : String} {exp : Time} {a : NonceAction} (h : s.Holds k exp) (hen : s.Enabled a) :
    (s.next a).Holds k exp := by
  cases a with
  | tick clock => exact fun hlt => h (lt_of_le_of_lt hen hlt)
  | call keyid nonce now =>
    intro hlt
    obtain ⟨e, he, hle⟩ := h hlt
    have hnow : now < e := lt_of_le_of_lt hen (lt_of_lt_of_le hlt hle)
    change ∃ e ∈ (s.cache.checkAndConsume now (nonceKey (keyid, nonce))).2.seen k, exp ≤ e
    rw [ReplayCache.checkAndConsume]
    split_ifs with hused
    · exact ⟨e, he, hle⟩
    · have hne : k ≠ nonceKey (keyid, nonce) := fun hk => hused ⟨e, hk ▸ he, hnow⟩
      exact ⟨e, by simpa [Function.update_of_ne hne] using he, hle⟩
  | sweep now =>
    intro hlt
    obtain ⟨e, he, hle⟩ := h hlt
    have hnow : now ≤ e := (le_trans hen hlt.le).trans hle
    exact ⟨e, Option.mem_filter_iff.mpr ⟨he, by simpa using hnow⟩, hle⟩

theorem Holds.leads {k : String} {exp : Time} (h : s.Holds k exp)
    (hleads : (nonceSystem ttl).Leads s s') :
    s'.Holds k exp := by
  induction hleads with
  | refl => exact h
  | tail _ hstep ih =>
    obtain ⟨a, -, hen, rfl⟩ := hstep
    exact ih.next hen

theorem ttl_of_reachable (h : (nonceSystem ttl).Reachable s) : s.cache.ttl = ttl := by
  have hinit : ∀ s, (nonceSystem ttl).init s → s.cache.ttl = ttl := by
    rintro s ⟨start, rfl⟩
    rfl
  apply h.invariant hinit
  rintro s a t hs ⟨-, rfl⟩
  cases a with
  | tick clock => exact hs
  | call keyid nonce now => exact (ReplayCache.ttl_checkAndConsume _ _ _).trans hs
  | sweep now => exact hs

/-- The call at the present time, when it returns true, makes an entry for one time to live. -/
theorem seen_of_new {keyid nonce : String}
    (hnew : (s.cache.checkAndConsume s.clock (nonceKey (keyid, nonce))).1 = true) :
    (s.next (.call keyid nonce s.clock)).cache.seen (nonceKey (keyid, nonce)) =
      some (s.clock + s.cache.ttl) := by
  change (s.cache.checkAndConsume s.clock (nonceKey (keyid, nonce))).2.seen _ = _
  rw [ReplayCache.checkAndConsume] at hnew ⊢
  split_ifs at hnew ⊢
  exact Function.update_self _ _ _

/-- As long as the header passes the checks of the times its nonce is in the cache, exactly if the
signature was accepted late enough. -/
theorem replay_rejected_iff (h : (nonceSystem nonceTTL).Reachable s) {header : String}
    {si : SignatureInput} (hparse : parseSignatureInput header = .ok si) (hcreated : 0 < si.created)
    (hexpires : 0 < si.expires) (hwindow : si.checkWindow (s.clock / second) = .ok ())
    (hnew : (s.cache.checkAndConsume s.clock (nonceKey (si.keyID, si.nonce))).1 = true) :
    (∀ s', (nonceSystem nonceTTL).Leads (s.next (.call si.keyID si.nonce s.clock)) s' →
        si.checkWindow (s'.clock / second) = .ok () →
        (∃ exp ∈ s'.cache.seen (nonceKey (si.keyID, si.nonce)), s'.clock < exp) ∧
          (s'.cache.checkAndConsume s'.clock (nonceKey (si.keyID, si.nonce))).1 = false) ↔
      (si.expires + 31) * second ≤ s.clock + nonceTTL := by
  have hint := SignatureInput.int64Times_of_parse hparse
  have hnonce : si.nonce ≠ "" := EdgeProxy.checkWindow_nonce hwindow
  have hseen := seen_of_new hnew
  rw [ttl_of_reachable h] at hseen
  obtain ⟨hcreation, hexpiry, hspan⟩ := (SignatureInput.checkWindow_eq_ok hint hnonce).mp hwindow
  have hsecond : second = 1000000000 := rfl
  have hlife : nonceTTL = 300000000000 := rfl
  -- A sum that overflows would have rejected the signature already.
  have hwrap : wrap64 (si.expires + 30) = si.expires + 30 := by
    have hnow := (hcreation hcreated).trans (hexpiry hexpires)
    have hrange := hint.expires
    unfold wrap64 at hnow ⊢
    rw [Int.bmod_def] at hnow ⊢
    split_ifs at hnow ⊢ <;> omega
  constructor
  · intro hall
    by_contra hlate
    -- The same header at the moment at which its entry is over.
    let s' : NonceRun := (s.next (.call si.keyID si.nonce s.clock)).next (.tick (s.clock + nonceTTL))
    have hleads : (nonceSystem nonceTTL).Leads (s.next (.call si.keyID si.nonce s.clock)) s' :=
      .single ⟨.tick (s.clock + nonceTTL), trivial, le_add_of_nonneg_right (by decide), rfl⟩
    have hpasses : si.checkWindow (s'.clock / second) = .ok () := by
      rw [SignatureInput.checkWindow_eq_ok hint hnonce, hwrap]
      rw [hsecond] at hcreation hlate ⊢
      rw [hlife] at hlate
      have hclock : (s'.clock : Int) = (s.clock : Int) + 300000000000 := rfl
      rw [hclock]
      refine ⟨fun hpos => ?_, fun _ => ?_, hspan⟩
      · have := hcreation hpos
        omega
      · omega
    obtain ⟨⟨exp, hexp, hlt⟩, -⟩ := hall s' hleads hpasses
    have hover : exp = s.clock + nonceTTL :=
      Option.some_inj.mp ((Option.mem_def.mp hexp).symm.trans hseen)
    exact absurd hlt (not_lt.mpr hover.le)
  · intro hearly s' hleads hpasses
    obtain ⟨-, hexpiry', -⟩ := (SignatureInput.checkWindow_eq_ok hint hnonce).mp hpasses
    have hend := hexpiry' hexpires
    rw [hwrap] at hend
    have hclock : s'.clock < s.clock + nonceTTL := by
      rw [hsecond] at hend hearly
      rw [hlife] at hearly ⊢
      have hbefore : ∀ t u e : Int, t / 1000000000 ≤ e + 30 → (e + 31) * 1000000000 ≤ u → t < u := by
        intro t u e hle hend
        omega
      exact hbefore _ _ _ hend hearly
    have hholds : (s.next (.call si.keyID si.nonce s.clock)).Holds (nonceKey (si.keyID, si.nonce))
        (s.clock + nonceTTL) := fun _ => ⟨_, hseen, le_rfl⟩
    obtain ⟨exp, hexp, hle⟩ := hholds.leads hleads hclock
    have hused : ∃ exp ∈ s'.cache.seen (nonceKey (si.keyID, si.nonce)), s'.clock < exp :=
      ⟨exp, hexp, hclock.trans_le hle⟩
    refine ⟨hused, ?_⟩
    rw [ReplayCache.checkAndConsume, if_pos hused]

theorem replay_rejected_iff_lastSecond :
    (EdgeProxy.smallInput "n").checkWindow (400 * second / second) = .ok () ∧
      ∀ s', (nonceSystem nonceTTL).Leads
          ((newCache nonceTTL (400 * second)).next (.call "k" "n" (400 * second))) s' →
        (EdgeProxy.smallInput "n").checkWindow (s'.clock / second) = .ok () →
        (∃ exp ∈ s'.cache.seen (nonceKey ("k", "n")), s'.clock < exp) ∧
          (s'.cache.checkAndConsume s'.clock (nonceKey ("k", "n"))).1 = false := by
  have hwindow : (EdgeProxy.smallInput "n").checkWindow (400 * second / second) = .ok () := by decide
  refine ⟨hwindow, ?_⟩
  exact (replay_rejected_iff (s := newCache nonceTTL (400 * second)) (.init ⟨_, rfl⟩)
    EdgeProxy.parse_smallRequest
    (by decide) (by decide) hwindow (by decide)).mpr (by decide)

def earlyShared : Shared :=
  { EdgeProxy.smallShared EdgeProxy.goodSnapshot with
    clock := 70 * second
    nonces := ⟨nonceTTL, fun _ => none⟩ }

/-- The signature is accepted 30 s before it is valid and again, unchanged, five minutes later. -/
theorem replay_accepted :
    let first := (EdgeProxy.small.serveHTTP zeroSha EdgeProxy.openScheme
        (EdgeProxy.smallRequest "n")).run earlyShared
    let again := (EdgeProxy.small.serveHTTP zeroSha EdgeProxy.openScheme
        (EdgeProxy.smallRequest "n")).run
      { first.2 with clock := 370 * second }
    first.1.error = none ∧ first.2.consumed = [(("k", "n"), 70 * second)] ∧ again.1.error = none := by
  decide +kernel

end NonceRun

end Verilink.Edge

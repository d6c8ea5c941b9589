import Verilink.Edge.ProxyRuns

/-!
# The gate

What a request must have to reach the backend while the store stays as it is.
-/

namespace Verilink.Edge

open Verilink.Framework Relation Prog

/-! ## What others cannot do -/

namespace Shared

variable {change : Store → Store → Prop} {s t u : Shared}

def Remembers (s : Shared) : Prop := s.nonces.Remembers EdgeProxy.nonceKey s.consumed s.clock

structure Before (s t : Shared) : Prop where
  clock : s.clock ≤ t.clock
  ttl : t.nonces.ttl = s.nonces.ttl
  consumed : s.consumed <+: t.consumed
  remembers : s.Remembers → t.Remembers

theorem Before.refl (s : Shared) : Before s s := ⟨le_rfl, rfl, List.prefix_rfl, id⟩

theorem Before.trans (h : Before s t) (h' : Before t u) : Before s u :=
  ⟨h.clock.trans h'.clock, h'.ttl.trans h.ttl, h.consumed.trans h'.consumed, h'.remembers ∘ h.remembers⟩

theorem before_consuming {now : Time} {id : String × String} (hle : now ≤ s.clock)
    (hnew : (s.nonces.checkAndConsume now (EdgeProxy.nonceKey id)).1 = true) :
    Before s (s.consuming now id) where
  clock := le_rfl
  ttl := ReplayCache.ttl_checkAndConsume _ _ _
  consumed := List.prefix_append _ _
  remembers h := ReplayCache.Remembers.consume h hle hnew

theorem Env.before (h : Env change s t) : Before s t := by
  cases h with
  | tick clock hle => exact ⟨hle, rfl, List.prefix_rfl, fun h => ReplayCache.Remembers.later h hle⟩
  | sync | reach | log => exact ⟨le_rfl, rfl, List.prefix_rfl, id⟩
  | consume now id hle hnew => exact before_consuming hle hnew
  | sweep now hle => exact ⟨le_rfl, rfl, List.prefix_rfl, fun h => ReplayCache.Remembers.sweep h hle⟩

theorem before_of_env (h : ReflTransGen (Env change) s t) : Before s t := by
  induction h with
  | refl => exact .refl s
  | tail _ hstep ih => exact ih.trans hstep.before

theorem before_log (s : Shared) (w : Wal) : Before s { s with wal := w } :=
  ⟨le_rfl, rfl, List.prefix_rfl, id⟩

abbrev Steady : Shared → Shared → Prop := Env fun _ _ => False

theorem store_of_steady (h : ReflTransGen Steady s t) : t.store = s.store := by
  induction h with
  | refl => rfl
  | tail _ hstep ih =>
    cases hstep with
    | sync _ hfalse => exact hfalse.elim
    | tick | reach | consume | sweep | log => exact ih

end Shared

def KeyEntry.ValidAt (e : KeyEntry) (now : Time) : Prop :=
  e.validFrom ≤ now ∧ ∀ u ∈ e.validUntil, now < u

variable {now : Time} {pol : Option Policy}

theorem Store.lookupKey_eq_some {s : Store} {keyId : String} {e : KeyEntry}
    (h : s.lookupKey keyId now = some e) :
    (s.snapshot.bind fun snap => snap.keys.lookup keyId) = some e ∧ e.ValidAt now := by
  rw [Store.lookupKey] at h
  split at h
  · cases h
  · split_ifs at h with hfrom huntil
    cases h
    refine ⟨‹_›, not_lt.mp hfrom, fun u hu => ?_⟩
    by_contra hle
    exact huntil ⟨u, hu, not_lt.mp hle⟩

theorem allowByScore_allow {entry : Option ScoreEntry} : (allowByScore pol entry).allow = true ↔
      entry.elim false ScoreEntry.blacklisted = false ∧
        (activeThreshold pol ≤ entry.elim 0 ScoreEntry.score ∨ activeBelow pol = "allow") := by
  unfold allowByScore
  dsimp only
  split_ifs with hblack hscore hbelow
  · simp [hblack]
  · simp [hblack, hscore]
  · simp [hblack, hbelow]
  · simp [hscore, hbelow]

/-- Whether the control plane can be reached makes no difference for this mode. -/
theorem evaluateMode_stale {last : Option Time} {reachable : Bool}
    (h : evaluateMode pol last reachable now ≠ .stale) (reachable' : Bool) :
    evaluateMode pol last reachable' now ≠ .stale := by
  unfold evaluateMode at h ⊢
  dsimp only at h ⊢
  split_ifs at h ⊢ <;> simp_all

namespace EdgeProxy

variable {p : EdgeProxy} {sha : Sha256} {scheme : SignatureScheme} {r : Request} {s t : Shared}
  {snap : Snapshot} {resp : Response}

structure SignedGate (p : EdgeProxy) (sha : Sha256) (scheme : SignatureScheme) (r : Request)
    (snap : Snapshot) (s t : Shared) (si : SignatureInput) (key : KeyEntry) : Prop where
  parsed : parseSignatureInput r.signatureInput = .ok si
  known : snap.keys.lookup si.keyID = some key
  valid : ∃ now, s.clock ≤ now ∧ now ≤ t.clock ∧ key.ValidAt now
  verified : ∃ body, r.body = some body ∧
    verify scheme (buildSignatureBase sha r.method (p.buildTargetURI r) si.created si.expires body)
      r.signature key.publicKeyRaw = .ok ()
  /-- The nonce is in the history, and what was used before under its name is over. -/
  fresh : ∃ before now later at', t.consumed = before ++ ((si.keyID, si.nonce), at') :: later ∧
    s.consumed <+: before ∧ s.clock ≤ now ∧ now ≤ t.clock ∧
    ∀ used, ((si.keyID, si.nonce), used) ∈ before → used + s.nonces.ttl ≤ now
  notBlacklisted : (snap.scores.lookup key.principalId).elim false ScoreEntry.blacklisted = false
  score : activeThreshold snap.policy ≤ (snap.scores.lookup key.principalId).elim 0 ScoreEntry.score ∨
    activeBelow snap.policy = "allow"

def NotStale (snap : Snapshot) (s t : Shared) : Prop :=
  ∃ now, s.clock ≤ now ∧ now ≤ t.clock ∧
    ∀ reachable, evaluateMode snap.policy s.store.lastBytes reachable now ≠ .stale

variable {n u : Shared} {change : Store → Store → Prop} {keyID keyid : String} {si : SignatureInput}

theorem notStale_of_mode (hsynced : p.synced = true) (hsnap : s.store.snapshot = some snap)
    {mode : SyncMode} (h : Runs Shared.Steady p.currentMode s mode n) (hmode : mode ≠ .stale) :
    NotStale snap s n := by
  obtain ⟨m₀, m, m₁, m₂, hm₀, hm, hm₁, hm₂, hn, heq⟩ := runs_currentMode h
  have hstore₁ := Shared.store_of_steady ((hm₀.trans hm).trans hm₁)
  have hstore₂ := Shared.store_of_steady (((hm₀.trans hm).trans hm₁).trans hm₂)
  rw [hsynced, if_pos rfl, hstore₁, hstore₂, Store.activePolicy, hsnap] at heq
  exact ⟨m.clock, (Shared.before_of_env (hm₀.trans hm)).clock,
    (Shared.before_of_env ((hm₁.trans hm₂).trans hn)).clock, evaluateMode_stale (heq ▸ hmode)⟩

theorem NotStale.later (h : NotStale snap s t) (hu : Shared.Before t u) : NotStale snap s u := by
  obtain ⟨now, hlo, hhi, hmode⟩ := h
  exact ⟨now, hlo, hhi.trans hu.clock, hmode⟩

/-- A nonce that was taken as new was not used within its time to live. -/
theorem NonceFresh.fresh {id : String × String} {m : Shared}
    (h : NonceFresh (Shared.Env change) id s t m n) (hmem : s.Remembers) :
    (∀ id' used, (id', used) ∈ n.consumed → nonceKey id' = nonceKey id → used + s.nonces.ttl ≤ n.clock) ∧
      Shared.Before (n.consuming m.clock id) t ∧ Shared.Before n (n.consuming m.clock id) := by
  have hsm := Shared.before_of_env h.before
  have hmn := Shared.before_of_env h.read
  have hn := (hsm.trans hmn).remembers hmem
  refine ⟨fun id' used hused hkey => ?_, Shared.before_of_env h.after,
    Shared.before_consuming hmn.clock h.new⟩
  rw [← (hsm.trans hmn).ttl]
  exact ReplayCache.Remembers.fresh hn hmn.clock h.new hused hkey

variable {a : Annotation} {key : FoundKey}

theorem Judged.before (h : Judged (Shared.Env change) p keyID a s t) : Shared.Before s t := by
  cases h with
  | owner _ _ _ _ _ _ hb hr _ hp hsc _ _ _ ha =>
    exact Shared.before_of_env ((((hb.trans hr).trans hp).trans hsc).trans ha)
  | nobody _ hb _ _ ha => exact Shared.before_of_env (hb.trans ha)

theorem KeyFound.path {env : Shared → Shared → Prop} (h : KeyFound env p keyid key s t) :
    ReflTransGen env s t := by
  cases h with
  | snapshot _ _ _ hb hr _ _ ha => exact (hb.trans hr).trans ha
  | registry _ hb _ _ ha => exact hb.trans ha

theorem KeyFound.of_steady (hsynced : p.synced = true) (hsnap : s.store.snapshot = some snap)
    (h : KeyFound Shared.Steady p keyid key s t) :
    ∃ e now, s.clock ≤ now ∧ now ≤ t.clock ∧ snap.keys.lookup keyid = some e ∧ e.ValidAt now ∧
      key = ⟨e.publicKeyRaw, some e⟩ := by
  cases h with
  | snapshot m n e hb hr hlookup heq ha =>
    obtain ⟨hkey, hvalid⟩ := Store.lookupKey_eq_some hlookup
    rw [Shared.store_of_steady (hb.trans hr), hsnap] at hkey
    exact ⟨e, m.clock, (Shared.before_of_env hb).clock, (Shared.before_of_env (hr.trans ha)).clock,
      hkey, hvalid, heq⟩
  | registry m hb hnone heq ha =>
    rw [Shared.store_of_steady hb, hsnap, hsynced] at hnone
    cases hnone

theorem Judged.of_steady (hsynced : p.synced = true) (hsnap : s.store.snapshot = some snap)
    (hallowed : a.denied = false) (h : Judged Shared.Steady p keyID a s t) :
    ∃ e, snap.keys.lookup keyID = some e ∧
      (allowByScore snap.policy (snap.scores.lookup e.principalId)).allow = true := by
  cases h with
  | owner m m₁ m₂ m₃ e _ hb hr hlookup hp hsc hallow hprincipal _ ha =>
    have hstore₁ := Shared.store_of_steady (hb.trans hr)
    have hstore₂ := Shared.store_of_steady ((hb.trans hr).trans hp)
    have hstore₃ := Shared.store_of_steady (((hb.trans hr).trans hp).trans hsc)
    obtain ⟨hkey, -⟩ := Store.lookupKey_eq_some hlookup
    rw [hstore₁, hsnap] at hkey
    rw [hstore₂, hstore₃, hallowed, Store.activePolicy, Store.lookupScore, hsnap] at hallow
    exact ⟨e, hkey, hallow⟩
  | nobody m hb hnone _ ha =>
    rw [Shared.store_of_steady hb, hsnap, hsynced] at hnone
    cases hnone

theorem signedGate (hsynced : p.synced = true) (hsnap : s.store.snapshot = some snap)
    (hmem : s.Remembers) (h : Forwarded Shared.Steady p sha scheme r si key a s t) :
    ∃ e, SignedGate p sha scheme r snap s t si e := by
  obtain ⟨⟨m, m₁, m₂, m₃, m₄, n, hauth, n', hjudged, l, w, hl, ht⟩, hallowed⟩ := h
  have hm₁ := hauth.before.trans hauth.read
  have hm₂ := hm₁.trans hauth.found.path
  have hm₄ := (hm₂.trans hauth.nonce.before).trans hauth.nonce.read
  have hsnap₁ : m₁.store.snapshot = some snap := by rw [Shared.store_of_steady hm₁, hsnap]
  have hsnapn : n.store.snapshot = some snap := by
    have hused : (m₄.consuming m₃.clock (si.keyID, si.nonce)).store = m₄.store := rfl
    rw [Shared.store_of_steady hauth.nonce.after, hused, Shared.store_of_steady hm₄, hsnap]
  have hlast : Shared.Before n t := ((hjudged.before.trans (Shared.before_of_env hl)).trans
    (Shared.before_log l w)).trans (Shared.before_of_env ht)
  obtain ⟨e, now, hlo, hhi, hknown, hvalid, hkey⟩ := hauth.found.of_steady hsynced hsnap₁
  obtain ⟨e', hknown', hallow⟩ := hjudged.of_steady hsynced hsnapn hallowed
  obtain rfl : e = e' := Option.some_inj.mp (hknown.symm.trans hknown')
  obtain ⟨hblack, hscore⟩ := allowByScore_allow.mp hallow
  obtain ⟨hfresh, hafter, hconsume⟩ := hauth.nonce.fresh ((Shared.before_of_env hm₂).remembers hmem)
  have hbefore₂ := Shared.before_of_env hm₂
  have hbefore₄ := Shared.before_of_env hm₄
  have hend : Shared.Before m₂ t :=
    (((Shared.before_of_env (hauth.nonce.before.trans hauth.nonce.read)).trans hconsume).trans
      hafter).trans hlast
  obtain ⟨body, hbody, -, hverify⟩ := hauth.verified
  have hhist := (hafter.trans hlast).consumed
  obtain ⟨later, hlater⟩ := hhist
  refine ⟨e, hauth.parsed, hknown, ⟨now, (Shared.before_of_env hm₁).clock.trans hlo,
    hhi.trans hend.clock,
    hvalid⟩, ⟨body, hbody, ?_⟩, ⟨m₄.consumed, m₄.clock, later, m₃.clock, ?_, hbefore₄.consumed,
    hbefore₄.clock, (hconsume.trans (hafter.trans hlast)).clock, ?_⟩, hblack, hscore⟩
  · rw [hkey] at hverify
    exact hverify
  · rw [← hlater, Shared.consuming, List.append_assoc]
    rfl
  · rw [← hbefore₂.ttl]
    exact fun used hused => hfresh _ used hused rfl

theorem unsignedGate (hsynced : p.synced = true) (hsnap : s.store.snapshot = some snap)
    {headers : List (String × String)} (hforward : resp.error = none)
    (h : Runs Shared.Steady (p.serveUnsigned sha r headers) s resp t) :
    p.requireSignatures = false ∧ requireSignaturesFromPolicy snap.policy = false := by
  obtain ⟨require, n, hrequire, h⟩ := runs_bind.mp h
  cases require with
  | true =>
    rw [if_pos rfl] at h
    rw [(runs_answer h).1] at hforward
    cases hforward
  | false =>
    rw [requireSig] at hrequire
    cases hflag : p.requireSignatures with
    | true =>
      rw [hflag, if_pos rfl] at hrequire
      cases (runs_pure.mp hrequire).1
    | false =>
      rw [hflag, if_neg (by simp), hsynced, if_pos rfl] at hrequire
      obtain ⟨m, hm, hpolicy, -⟩ := runs_read.mp hrequire
      rw [Shared.store_of_steady hm, Store.activePolicy, hsnap] at hpolicy
      exact ⟨rfl, hpolicy.symm⟩

/-! ## Every step moves on -/

def Calm {α : Type} (q : Prog Shared α) : Prop :=
  ∀ change s a t, Runs (Shared.Env change) q s a t → Shared.Before s t

variable {α : Type}

theorem calm_pure (a : α) : Calm (pure a) := fun _ _ _ _ h => Shared.before_of_env (runs_pure.mp h).2

theorem calm_read (f : Shared → α) : Calm (.read f) := by
  intro change s a t h
  obtain ⟨m, hm, -, ht⟩ := runs_read.mp h
  exact Shared.before_of_env (hm.trans ht)

theorem Calm.bind {β : Type} {q : Prog Shared α} {k : α → Prog Shared β} (hq : Calm q)
    (hk : ∀ a, Calm (k a)) :
    Calm (q >>= k) := by
  intro change s b t h
  obtain ⟨a, m, hm, ht⟩ := runs_bind.mp h
  exact (hq _ _ _ _ hm).trans (hk a _ _ _ _ ht)

theorem calm_checkAndConsume (nonce keyid : String) : Calm (checkAndConsume nonce keyid) := by
  intro change s b t h
  obtain ⟨now, m, hnow, h⟩ := runs_bind.mp h
  obtain ⟨m', hm', rfl, hm⟩ := runs_now hnow
  obtain ⟨n, hn, -, hrest⟩ := runs_update.mp h
  have hread := Shared.before_of_env (hm.trans hn)
  have hbefore := (Shared.before_of_env hm').trans hread
  refine hbefore.trans (Shared.Before.trans ?_ (Shared.before_of_env hrest))
  dsimp only
  cases hnew : (n.nonces.checkAndConsume m'.clock (nonceKey (keyid, nonce))).1 with
  | true => exact Shared.before_consuming hread.clock hnew
  | false =>
    rw [ReplayCache.checkAndConsume_of_used hnew, if_neg (by simp)]
    exact .refl n

theorem calm_hasSnapshot : Calm p.hasSnapshot := by
  rw [hasSnapshot]
  split
  · exact calm_read _
  · exact calm_pure _

theorem calm_lookupPublicKey (keyid : String) : Calm (p.lookupPublicKey keyid) := by
  refine calm_hasSnapshot.bind fun b => ?_
  split
  · refine (calm_read _).bind fun now => (calm_read _).bind fun e => ?_
    split
    · exact calm_pure _
    · split
      · exact calm_pure _
      · exact calm_pure _
  · exact calm_pure _

theorem calm_authenticate : Calm (p.authenticate sha scheme r) := by
  rw [authenticate]
  split
  · exact calm_pure _
  · exact calm_pure _
  · rename_i body si _ hsi
    refine Calm.bind ?_ fun res => ?_
    · rw [verifySignatureInput, hsi]
      refine ((calm_read _).bind fun n => calm_pure _).bind fun now => ?_
      split
      · exact calm_pure _
      · refine (calm_lookupPublicKey _).bind fun key => ?_
        split
        · exact calm_pure _
        · exact calm_pure _
    · split
      · exact calm_pure _
      · split
        · exact calm_pure _
        · refine (calm_checkAndConsume _ _).bind fun new => ?_
          split
          · exact calm_pure _
          · exact calm_pure _

theorem calm_annotateTrust (keyID : String) : Calm (p.annotateTrust sha r keyID) := by
  refine calm_hasSnapshot.bind fun b => ?_
  split
  · refine (calm_read _).bind fun now => (calm_read _).bind fun e => ?_
    split
    · exact calm_pure _
    · exact (calm_read _).bind fun pol => (calm_read _).bind fun entry => calm_pure _
  · split
    · exact calm_pure _
    · exact calm_pure _

theorem calm_answer (headers : List (String × String)) (error : Option (Nat × String)) (d : Decision)
    (evidence : Option Evidence) : Calm (p.answer sha r headers error d evidence) := by
  intro change s resp t h
  obtain ⟨-, m, w, hm, hw⟩ := runs_answer h
  exact ((Shared.before_of_env hm).trans (Shared.before_log m w)).trans (Shared.before_of_env hw)

theorem calm_serveSigned (headers : List (String × String)) :
    Calm (p.serveSigned sha scheme r headers) := by
  refine calm_authenticate.bind fun res => ?_
  rcases res with (_ | _ | _) | ⟨si, key⟩
  · exact calm_pure _
  · exact calm_answer _ _ _ _
  · exact calm_answer _ _ _ _
  · refine (calm_annotateTrust _).bind fun a => ?_
    split
    · exact calm_answer _ _ _ _
    · exact calm_answer _ _ _ _

theorem calm_serveUnsigned (headers : List (String × String)) :
    Calm (p.serveUnsigned sha r headers) := by
  refine Calm.bind ?_ fun require => ?_
  · rw [requireSig]
    split
    · exact calm_pure _
    · split
      · exact calm_read _
      · exact calm_pure _
  · split
    · exact calm_answer _ _ _ _
    · exact calm_answer _ _ _ _

theorem calm_currentMode : Calm p.currentMode := by
  refine (calm_read _).bind fun reachable => (calm_read _).bind fun now => ?_
  split
  · exact (calm_read _).bind fun pol => (calm_read _).bind fun last => calm_pure _
  · exact calm_pure _

theorem calm_serveHTTP : Calm (p.serveHTTP sha scheme r) := by
  refine calm_currentMode.bind fun mode => ?_
  by_cases hstale : mode = .stale
  · rw [if_pos hstale]
    exact calm_pure _
  · rw [if_neg hstale]
    split
    · exact calm_serveSigned _
    · exact calm_serveUnsigned _

/-! ## The gate -/

theorem SignedGate.earlier {key : KeyEntry} (h : SignedGate p sha scheme r snap s t si key)
    (hu : Shared.Before u s) :
    SignedGate p sha scheme r snap u t si key := by
  obtain ⟨now, hlo, hhi, hvalid⟩ := h.valid
  obtain ⟨before, now', later, at', hhist, hbefore, hlo', hhi', hfresh⟩ := h.fresh
  refine ⟨h.parsed, h.known, ⟨now, hu.clock.trans hlo, hhi, hvalid⟩, h.verified, ?_,
    h.notBlacklisted, h.score⟩
  rw [hu.ttl] at hfresh
  exact ⟨before, now', later, at', hhist, hu.consumed.trans hbefore, hu.clock.trans hlo', hhi', hfresh⟩

/-- What reaches the backend while the store stays as it is, and what is recorded about it. -/
theorem serveHTTP_gate (hsynced : p.synced = true) (hsnap : s.store.snapshot = some snap)
    (hmem : s.Remembers) (h : Runs Shared.Steady (p.serveHTTP sha scheme r) s resp t) :
    (resp.error = none → r.signatureInput ≠ "" →
        NotStale snap s t ∧ ∃ si key, SignedGate p sha scheme r snap s t si key) ∧
      (resp.error = none → r.signatureInput = "" → NotStale snap s t ∧
        p.requireSignatures = false ∧ requireSignaturesFromPolicy snap.policy = false) ∧
      ∀ d, resp.recorded = some d → (d.action = "deny" ↔ resp.error ≠ none) := by
  have hpath : ∀ {mode n}, Runs Shared.Steady p.currentMode s mode n →
      ReflTransGen Shared.Steady s n := by
    intro mode n hmode
    obtain ⟨m₀, m, m₁, m₂, hm₀, hm, hm₁, hm₂, hn, -⟩ := runs_currentMode hmode
    exact (((hm₀.trans hm).trans hm₁).trans hm₂).trans hn
  refine ⟨fun hforward hsigned => ?_, fun hforward hunsigned => ?_, h.ensures ensures_serveHTTP⟩
  · obtain ⟨mode, n, headers, hmode, hstale, ⟨-, h⟩ | ⟨hnone, -⟩⟩ := runs_serveHTTP hforward h
    · have hn := hpath hmode
      have hsnapn : n.store.snapshot = some snap := by rw [Shared.store_of_steady hn, hsnap]
      obtain ⟨si, key, a, hfwd, -⟩ := runs_serveSigned hforward h
      obtain ⟨e, hgate⟩ := signedGate hsynced hsnapn ((Shared.before_of_env hn).remembers hmem) hfwd
      exact ⟨(notStale_of_mode hsynced hsnap hmode hstale).later (calm_serveSigned _ _ _ _ _ h), si, e,
        hgate.earlier (Shared.before_of_env hn)⟩
    · exact absurd hnone hsigned
  · obtain ⟨mode, n, headers, hmode, hstale, ⟨hsome, -⟩ | ⟨-, h⟩⟩ := runs_serveHTTP hforward h
    · exact absurd hunsigned hsome
    · have hsnapn : n.store.snapshot = some snap := by rw [Shared.store_of_steady (hpath hmode), hsnap]
      exact ⟨(notStale_of_mode hsynced hsnap hmode hstale).later (calm_serveUnsigned _ _ _ _ _ h),
        unsignedGate hsynced hsnapn hforward h⟩

/-! ## A small edge -/

def openScheme : SignatureScheme where
  publicKey _ := List.replicate 32 0
  sign _ message := utf8 message
  verify _ message sig := sig = utf8 message
  length_publicKey _ := List.length_replicate
  verify_sign _ _ := decide_eq_true rfl

def small : EdgeProxy :=
  { synced := true, hasWal := false, requireSignatures := false, externalBaseURL := "https://a",
    registry := fun _ => none, trustStore := none }

def smallKey (principal : String) (raw : Bytes) : KeyEntry := ⟨principal, "k", raw, 0, none⟩

def smallSnapshot (principal : String) (raw : Bytes) : Snapshot :=
  { scores := (∅ : Finmap _).insert "good" { principalId := "good", score := 90 }
    keys := (∅ : Finmap _).insert "k" (smallKey principal raw) }

def smallShared (snap : Snapshot) : Shared where
  clock := 100 * second
  store := { snapshot := some snap, lastBytes := some (100 * second) }
  reachable := true
  nonces := ⟨600 * second, fun _ => none⟩
  consumed := []
  wal := ⟨⟨1000, -1, false, false, 0, 1, [], 0, 0⟩, ⟨false, .closed, [], 0, [], .done⟩⟩

def smallRequest (nonce : String) : Request :=
  { method := "GET", host := "a", requestURI := "/"
    signatureInput := signatureInputText (coveredComponents []) "\"k\"" 100 400 nonce
    signature := String.ofList (Base64.encodeRawURL
      (utf8 (buildSignatureBase zeroSha "GET" "https://a/" 100 400 []))) }

def smallRun (snap : Snapshot) : Response × Shared :=
  (small.serveHTTP zeroSha openScheme (smallRequest "n")).run (smallShared snap)

def goodSnapshot : Snapshot := smallSnapshot "good" (List.replicate 32 0)

theorem smallRun_passes : (smallRun goodSnapshot).1.error = none ∧
    (smallRun goodSnapshot).2.clock = 100 * second := by
  decide +kernel

def smallInput (nonce : String) : SignatureInput :=
  { keyID := "k", created := 100, expires := 400, nonce := nonce
    components := ["@method", "@target-uri", "@created", "@expires"] }

theorem parse_smallRequest :
    parseSignatureInput (smallRequest "n").signatureInput = .ok (smallInput "n") := by
  decide +kernel

theorem signatureInput_smallRequest (nonce : String) : (smallRequest nonce).signatureInput ≠ "" := by
  intro h
  have hlist := congrArg String.toList h
  rw [smallRequest, toList_signatureInputText] at hlist
  simp at hlist

theorem serveHTTP_gate_small :
    (smallRun goodSnapshot).1.error = none ∧
      NotStale goodSnapshot (smallShared goodSnapshot) (smallRun goodSnapshot).2 ∧
      ∃ si key, SignedGate small zeroSha openScheme (smallRequest "n") goodSnapshot
        (smallShared goodSnapshot) (smallRun goodSnapshot).2 si key := by
  have hforward := smallRun_passes.1
  have hempty : (smallShared goodSnapshot).Remembers := ReplayCache.remembers_nil _ _ _
  refine ⟨hforward, ?_⟩
  unfold smallRun at hforward ⊢
  exact (serveHTTP_gate (p := small) rfl rfl hempty (runs_run _ _)).1 hforward
    (signatureInput_smallRequest "n")

end EdgeProxy

end Verilink.Edge

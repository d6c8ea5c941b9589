import Verilink.Edge.Proxy

/-!
# What a forwarded request has seen

The runs of `ServeHTTP` among the steps `env` of everything else, taken apart: for a request that is
forwarded, the states in which its key, its nonce, its owner and its policy were looked up.
-/

namespace Verilink.Edge

open Verilink.Framework Relation Prog

variable {σ : Type} {env : σ → σ → Prop} {s t : σ}

theorem runs_verifySignatureInput {sha : Sha256} {scheme : SignatureScheme} {now : Prog σ Int}
    {lookupKey : String → Prog σ (Except String FoundKey)} {sigInput sig method uri : String}
    {body : Bytes} {key : FoundKey}
    (h : Runs env (verifySignatureInput sha scheme now lookupKey sigInput sig method uri body) s
    (.ok key) t) {si : SignatureInput} (hsi : parseSignatureInput sigInput = .ok si) :
    ∃ n m m', Runs env now s n m ∧ si.checkWindow n = .ok () ∧
      Runs env (lookupKey si.keyID) m (.ok key) m' ∧ ReflTransGen env m' t ∧
      verify scheme (buildSignatureBase sha method uri si.created si.expires body) sig key.raw =
        .ok () := by
  rw [verifySignatureInput, hsi] at h
  obtain ⟨n, m, hnow, h⟩ := runs_bind.mp h
  dsimp only at h
  split at h
  · cases (runs_pure.mp h).1
  · rename_i hwindow
    obtain ⟨res, m', hkey, h⟩ := runs_bind.mp h
    cases res with
    | error err => cases (runs_pure.mp h).1
    | ok key' =>
      obtain ⟨hverify, hrest⟩ := runs_pure.mp h
      obtain ⟨u, hok, heq⟩ := map_eq_ok.mp hverify.symm
      cases heq
      exact ⟨n, m, m', hnow, hwindow, hkey, hrest, hok⟩

namespace EdgeProxy

variable {p : EdgeProxy} {sha : Sha256} {scheme : SignatureScheme} {env : Shared → Shared → Prop}
  {s t : Shared} {r : Request}

theorem runs_now {n : Time} (h : Runs env now s n t) : ∃ m, ReflTransGen env s m ∧ n = m.clock ∧
    ReflTransGen env m t :=
  runs_read.mp h

theorem runs_hasSnapshot {b : Bool} (h : Runs env p.hasSnapshot s b t) :
    ∃ m, ReflTransGen env s m ∧ b = (p.synced && m.store.snapshot.isSome) ∧ ReflTransGen env m t := by
  rw [hasSnapshot] at h
  cases hsynced : p.synced with
  | true =>
    rw [hsynced, if_pos rfl] at h
    simpa using runs_read.mp h
  | false =>
    rw [hsynced, if_neg (by simp)] at h
    obtain ⟨hb, hrest⟩ := runs_pure.mp h
    exact ⟨s, .refl, hb, hrest⟩

inductive KeyFound (env : Shared → Shared → Prop) (p : EdgeProxy) (keyid : String) (key : FoundKey)
    (s t : Shared) : Prop
  /-- The clock is read in `m` and the snapshot in `n`. -/
  | snapshot (m n : Shared) (e : KeyEntry) (before : ReflTransGen env s m) (read : ReflTransGen env m n)
      (lookup : n.store.lookupKey keyid m.clock = some e) (eq : key = ⟨e.publicKeyRaw, some e⟩)
      (after : ReflTransGen env n t)
  | registry (m : Shared) (before : ReflTransGen env s m)
      (unsynced : (p.synced && m.store.snapshot.isSome) = false) (eq : p.registryKey keyid = .ok key)
      (after : ReflTransGen env m t)

variable {keyid : String} {key : FoundKey}

theorem runs_lookupPublicKey (h : Runs env (p.lookupPublicKey keyid) s (.ok key) t) :
    KeyFound env p keyid key s t := by
  obtain ⟨b, m, hsnap, h⟩ := runs_bind.mp h
  obtain ⟨m', hm', hb, hm⟩ := runs_hasSnapshot hsnap
  cases b with
  | false =>
    obtain ⟨hkey, hrest⟩ := runs_pure.mp h
    exact .registry m' hm' hb.symm hkey.symm (hm.trans hrest)
  | true =>
    obtain ⟨n, m₁, hnow, h⟩ := runs_bind.mp (show Runs env (publicKey keyid) m (.ok key) t from h)
    obtain ⟨m₂, hm₂, rfl, hm₁⟩ := runs_now hnow
    obtain ⟨e, m₃, hread, h⟩ := runs_bind.mp h
    obtain ⟨m₄, hm₄, he, hm₃⟩ := runs_read.mp hread
    cases e with
    | none => cases (runs_pure.mp h).1
    | some e =>
      dsimp only at h
      split at h
      · cases (runs_pure.mp h).1
      · obtain ⟨hkey, hrest⟩ := runs_pure.mp h
        cases hkey
        exact .snapshot m₂ m₄ e ((hm'.trans hm).trans hm₂) (hm₁.trans hm₄) he.symm rfl (hm₃.trans hrest)

/-- A nonce that was taken as new, in `n`, by a clock that was read before, in `m`. -/
structure NonceFresh (env : Shared → Shared → Prop) (id : String × String) (s t m n : Shared) :
    Prop where
  before : ReflTransGen env s m
  read : ReflTransGen env m n
  new : (n.nonces.checkAndConsume m.clock (nonceKey id)).1 = true
  after : ReflTransGen env (n.consuming m.clock id) t

theorem runs_checkAndConsume {nonce : String} (h : Runs env (checkAndConsume nonce keyid) s true t) :
    ∃ m n, NonceFresh env (keyid, nonce) s t m n := by
  obtain ⟨now, m, hnow, h⟩ := runs_bind.mp h
  obtain ⟨m', hm', rfl, hm⟩ := runs_now hnow
  obtain ⟨n, hn, hnew, hrest⟩ := runs_update.mp h
  dsimp only at hnew hrest
  rw [← hnew, if_pos rfl] at hrest
  exact ⟨m', n, hm', hm.trans hn, hnew.symm, hrest⟩

/-- A request that passed the checks of its signature. The clock of the window is read in `m`, the
key found between `m₁` and `m₂`, the nonce used after that. -/
structure Authenticated (env : Shared → Shared → Prop) (p : EdgeProxy) (sha : Sha256)
    (scheme : SignatureScheme) (r : Request) (si : SignatureInput) (key : FoundKey)
    (s t m m₁ m₂ m₃ m₄ : Shared) : Prop where
  parsed : parseSignatureInput r.signatureInput = .ok si
  before : ReflTransGen env s m
  window : si.checkWindow (m.clock / second) = .ok ()
  read : ReflTransGen env m m₁
  found : KeyFound env p si.keyID key m₁ m₂
  verified : ∃ body, r.body = some body ∧ body.length ≤ maxSignedBodyBytes ∧
    verify scheme (buildSignatureBase sha r.method (p.buildTargetURI r) si.created si.expires body)
      r.signature key.raw = .ok ()
  nonce : NonceFresh env (si.keyID, si.nonce) m₂ t m₃ m₄

variable {si : SignatureInput}

theorem checkWindow_nonce {now : Int} (h : si.checkWindow now = .ok ()) :
    si.nonce ≠ "" := by
  intro hnonce
  rw [SignatureInput.checkWindow] at h
  split_ifs at h

theorem runs_authenticate (h : Runs env (p.authenticate sha scheme r) s (.ok (si, key)) t) :
    ∃ m m₁ m₂ m₃ m₄, Authenticated env p sha scheme r si key s t m m₁ m₂ m₃ m₄ := by
  rw [authenticate] at h
  split at h
  · cases (runs_pure.mp h).1
  · cases (runs_pure.mp h).1
  · rename_i body si' hbody hsi
    obtain ⟨hr, hlen⟩ : r.body = some body ∧ body.length ≤ maxSignedBodyBytes := by
      simpa [Option.filter_eq_some_iff] using hbody
    obtain ⟨res, m, hverify, h⟩ := runs_bind.mp h
    cases res with
    | error err => cases (runs_pure.mp h).1
    | ok key' =>
      obtain ⟨n, m₁, m₂, hnow, hwindow, hkey, hm, hv⟩ := runs_verifySignatureInput hverify hsi
      obtain ⟨c, m₀, hnow, hn⟩ := runs_bind.mp hnow
      obtain ⟨hn, hm₁⟩ := runs_pure.mp hn
      obtain ⟨m', hm', rfl, hm₀⟩ := runs_now hnow
      subst hn
      dsimp only at h
      rw [if_neg (checkWindow_nonce hwindow)] at h
      obtain ⟨b, m₃, hconsume, h⟩ := runs_bind.mp h
      cases b with
      | false => cases (runs_pure.mp h).1
      | true =>
        obtain ⟨hok, hrest⟩ := runs_pure.mp h
        cases hok
        obtain ⟨k, l, hfresh⟩ := runs_checkAndConsume hconsume
        exact ⟨m', m₁, m₂, k, l, hsi, hm', hwindow, hm₀.trans hm₁, runs_lookupPublicKey hkey,
          ⟨body, hr, hlen, hv⟩, hm.trans hfresh.before, hfresh.read, hfresh.new,
          hfresh.after.trans hrest⟩

inductive Judged (env : Shared → Shared → Prop) (p : EdgeProxy) (keyID : String) (a : Annotation)
    (s t : Shared) : Prop
  /-- The clock is read in `m`, the key in `m₁`, the policy in `m₂` and the score in `m₃`. -/
  | owner (m m₁ m₂ m₃ : Shared) (e : KeyEntry) (synced : p.synced = true)
    (before : ReflTransGen env s m) (read : ReflTransGen env m m₁)
      (lookup : m₁.store.lookupKey keyID m.clock = some e) (policy : ReflTransGen env m₁ m₂)
      (score : ReflTransGen env m₂ m₃)
      (allow : (allowByScore m₂.store.activePolicy (m₃.store.lookupScore e.principalId)).allow =
        !a.denied)
      (principal : a.principalID = e.principalId) (key : a.key = some e) (after : ReflTransGen env m₃ t)
  | nobody (m : Shared) (before : ReflTransGen env s m)
      (unsynced : (p.synced && m.store.snapshot.isSome) = false) (key : a.key = none)
      (after : ReflTransGen env m t)

theorem runs_annotateTrust {keyID : String} {a : Annotation} (hallow : a.denied = false)
    (h : Runs env (p.annotateTrust sha r keyID) s a t) : Judged env p keyID a s t := by
  obtain ⟨b, m, hsnap, h⟩ := runs_bind.mp h
  obtain ⟨m', hm', hb, hm⟩ := runs_hasSnapshot hsnap
  cases b with
  | false =>
    rw [if_neg (by simp)] at h
    split at h
    · obtain ⟨rfl, hrest⟩ := runs_pure.mp h
      exact .nobody m' hm' hb.symm rfl (hm.trans hrest)
    · obtain ⟨rfl, hrest⟩ := runs_pure.mp h
      exact .nobody m' hm' hb.symm rfl (hm.trans hrest)
  | true =>
    rw [if_pos rfl] at h
    have hsynced : p.synced = true := (Bool.and_eq_true_iff.mp hb.symm).1
    obtain ⟨n, m₁, hnow, h⟩ := runs_bind.mp h
    obtain ⟨m₂, hm₂, rfl, hm₁⟩ := runs_now hnow
    obtain ⟨e, m₃, hread, h⟩ := runs_bind.mp h
    obtain ⟨m₄, hm₄, he, hm₃⟩ := runs_read.mp hread
    cases e with
    | none =>
      obtain ⟨rfl, -⟩ := runs_pure.mp h
      cases hallow
    | some e =>
      obtain ⟨pol, m₅, hpol, h⟩ := runs_bind.mp h
      obtain ⟨m₆, hm₆, rfl, hm₅⟩ := runs_read.mp hpol
      obtain ⟨entry, m₇, hentry, h⟩ := runs_bind.mp h
      obtain ⟨m₈, hm₈, rfl, hm₇⟩ := runs_read.mp hentry
      obtain ⟨rfl, hrest⟩ := runs_pure.mp h
      exact .owner m₂ m₄ m₆ m₈ e hsynced ((hm'.trans hm).trans hm₂) (hm₁.trans hm₄) he.symm
        (hm₃.trans hm₆) (hm₅.trans hm₈) (Bool.not_not _).symm rfl rfl (hm₇.trans hrest)

variable {d : Decision} {headers : List (String × String)} {resp : Response}

theorem runs_recordDecision (h : Runs env (p.recordDecision sha r d) s () t) :
    ∃ m w, ReflTransGen env s m ∧ ReflTransGen env { m with wal := w } t := by
  rw [recordDecision] at h
  split at h
  · obtain ⟨n, m, hnow, h⟩ := runs_bind.mp h
    obtain ⟨m', hm', -, hm⟩ := runs_now hnow
    obtain ⟨m'', hm'', -, hrest⟩ := runs_update.mp h
    exact ⟨m'', _, (hm'.trans hm).trans hm'', hrest⟩
  · obtain ⟨-, hrest⟩ := runs_pure.mp h
    exact ⟨s, s.wal, .refl, hrest⟩

variable {error : Option (Nat × String)} {evidence : Option Evidence}

theorem runs_answer (h : Runs env (p.answer sha r headers error d evidence) s resp t) :
    resp = ⟨headers, error, some d, evidence⟩ ∧
      ∃ m w, ReflTransGen env s m ∧ ReflTransGen env { m with wal := w } t := by
  obtain ⟨u, m, hrecord, h⟩ := runs_bind.mp h
  obtain ⟨m', w, hm', hm⟩ := runs_recordDecision hrecord
  obtain ⟨hresp, hrest⟩ := runs_pure.mp h
  exact ⟨hresp, m', w, hm', hm.trans hrest⟩

structure Forwarded (env : Shared → Shared → Prop) (p : EdgeProxy) (sha : Sha256)
    (scheme : SignatureScheme) (r : Request) (si : SignatureInput) (key : FoundKey) (a : Annotation)
    (s t : Shared) : Prop where
  authenticated : ∃ m m₁ m₂ m₃ m₄ n, Authenticated env p sha scheme r si key s n m m₁ m₂ m₃ m₄ ∧
    ∃ n', Judged env p si.keyID a n n' ∧ ∃ l w, ReflTransGen env n' l ∧
      ReflTransGen env { l with wal := w } t
  allowed : a.denied = false

theorem runs_serveSigned (hforward : resp.error = none)
    (h : Runs env (p.serveSigned sha scheme r headers) s resp t) :
    ∃ si key a, Forwarded env p sha scheme r si key a s t ∧
      resp.recorded = some (outcome "allow" a.reason a.principalID a.score a.blacklisted) ∧
      resp.evidence = some ⟨key, a.key⟩ := by
  obtain ⟨res, n, hauth, h⟩ := runs_bind.mp h
  rcases res with (_ | _ | _) | ⟨si, key⟩
  · rw [(runs_pure.mp h).1] at hforward
    cases hforward
  · rw [(runs_answer h).1] at hforward
    cases hforward
  · rw [(runs_answer h).1] at hforward
    cases hforward
  · obtain ⟨a, n', hjudge, h⟩ := runs_bind.mp h
    cases hdenied : a.denied with
    | true =>
      rw [hdenied, if_pos rfl] at h
      rw [(runs_answer h).1] at hforward
      cases hforward
    | false =>
      rw [hdenied, if_neg (by simp)] at h
      obtain ⟨rfl, hrest⟩ := runs_answer h
      obtain ⟨m, m₁, m₂, m₃, m₄, hauth⟩ := runs_authenticate hauth
      exact ⟨si, key, a, ⟨⟨m, m₁, m₂, m₃, m₄, n, hauth, n', runs_annotateTrust hdenied hjudge, hrest⟩,
        hdenied⟩, rfl, rfl⟩

/-- The mode is evaluated from a clock, a policy and a time of the last bytes that were read one
after the other. -/
theorem runs_currentMode {mode : SyncMode} (h : Runs env p.currentMode s mode t) :
    ∃ m₀ m m₁ m₂, ReflTransGen env s m₀ ∧ ReflTransGen env m₀ m ∧ ReflTransGen env m m₁ ∧
      ReflTransGen env m₁ m₂ ∧ ReflTransGen env m₂ t ∧
      mode = if p.synced then
          evaluateMode m₁.store.activePolicy m₂.store.lastBytes m₀.reachable m.clock
        else .ok := by
  obtain ⟨reachable, n, hreach, h⟩ := runs_bind.mp h
  obtain ⟨m₀, hm₀, rfl, hn⟩ := runs_read.mp hreach
  obtain ⟨now, n', hnow, h⟩ := runs_bind.mp h
  obtain ⟨m, hm, rfl, hn'⟩ := runs_now hnow
  cases hsynced : p.synced with
  | true =>
    rw [hsynced, if_pos rfl] at h
    obtain ⟨pol, n₁, hpol, h⟩ := runs_bind.mp h
    obtain ⟨m₁, hm₁, rfl, hn₁⟩ := runs_read.mp hpol
    obtain ⟨last, n₂, hlast, h⟩ := runs_bind.mp h
    obtain ⟨m₂, hm₂, rfl, hn₂⟩ := runs_read.mp hlast
    obtain ⟨rfl, hrest⟩ := runs_pure.mp h
    exact ⟨m₀, m, m₁, m₂, hm₀, hn.trans hm, hn'.trans hm₁, hn₁.trans hm₂, hn₂.trans hrest, rfl⟩
  | false =>
    rw [hsynced, if_neg (by simp)] at h
    obtain ⟨rfl, hrest⟩ := runs_pure.mp h
    exact ⟨m₀, m, m, m, hm₀, hn.trans hm, .refl, .refl, hn'.trans hrest, rfl⟩

theorem runs_serveHTTP (hforward : resp.error = none)
    (h : Runs env (p.serveHTTP sha scheme r) s resp t) :
    ∃ mode n headers, Runs env p.currentMode s mode n ∧ mode ≠ .stale ∧
      (r.signatureInput ≠ "" ∧ Runs env (p.serveSigned sha scheme r headers) n resp t ∨
        r.signatureInput = "" ∧ Runs env (p.serveUnsigned sha r headers) n resp t) := by
  obtain ⟨mode, n, hmode, h⟩ := runs_bind.mp h
  dsimp only at h
  by_cases hstale : mode = .stale
  · rw [if_pos hstale] at h
    rw [(runs_pure.mp h).1] at hforward
    cases hforward
  · rw [if_neg hstale] at h
    refine ⟨mode, n, if mode ≠ .ok then [("X-Verilink-Mode", mode.text)] else [], hmode, hstale, ?_⟩
    by_cases hsigned : r.signatureInput = ""
    · rw [if_neg (not_not.mpr hsigned)] at h
      exact .inr ⟨hsigned, h⟩
    · rw [if_pos hsigned] at h
      exact .inl ⟨hsigned, h⟩

def Audited (resp : Response) : Prop :=
  ∀ d, resp.recorded = some d → (d.action = "deny" ↔ resp.error ≠ none)

theorem ensures_answer (h : d.action = "deny" ↔ error ≠ none) :
    Ensures Audited (p.answer sha r headers error d evidence) := by
  refine .bind _ fun _ => .ret ?_
  rintro _ ⟨⟩
  exact h

theorem ensures_serveHTTP : Ensures Audited (p.serveHTTP sha scheme r) := by
  have hsigned : ∀ headers, Ensures Audited (p.serveSigned sha scheme r headers) := by
    intro headers
    refine .bind _ fun res => ?_
    rcases res with (_ | _ | _) | ⟨si, key⟩
    · exact .ret nofun
    · exact ensures_answer (by simp [outcome])
    · exact ensures_answer (by simp [outcome])
    · refine .bind _ fun a => ?_
      split
      · exact ensures_answer (by simp [outcome])
      · exact ensures_answer (by simp [outcome])
  have hunsigned : ∀ headers, Ensures Audited (p.serveUnsigned sha r headers) := by
    intro headers
    refine .bind _ fun require => ?_
    split
    · exact ensures_answer (by simp [outcome])
    · exact ensures_answer (by simp [outcome])
  refine .bind _ fun mode => ?_
  by_cases hstale : mode = .stale
  · rw [if_pos hstale]
    exact .ret nofun
  · rw [if_neg hstale]
    split
    · exact hsigned _
    · exact hunsigned _

end EdgeProxy

end Verilink.Edge

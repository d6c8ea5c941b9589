import Verilink.Edge.Gate

/-!
# Which requests are forwarded

A request that runs alone finds one store, one time and one nonce cache.
-/

namespace Verilink.Edge

open Verilink.Framework Prog

namespace EdgeProxy

section Alone

variable (p : EdgeProxy) (sha : Sha256) (scheme : SignatureScheme) (r : Request) (s : Shared)

def modeIn : SyncMode :=
  if p.synced then evaluateMode s.store.activePolicy s.store.lastBytes s.reachable s.clock else .ok

def loaded : Bool := p.synced && s.store.snapshot.isSome

def signaturesRequired : Bool :=
  p.requireSignatures || (p.synced && requireSignaturesFromPolicy s.store.activePolicy)

/-- The signature of a request is accepted: its header can be read, its time has come and is not
over, its key is known and verifies it, and its nonce was not used. -/
structure Accepts (si : SignatureInput) (key : FoundKey) : Prop where
  parsed : parseSignatureInput r.signatureInput = .ok si
  window : si.checkWindow (s.clock / second) = .ok ()
  found : ((p.lookupPublicKey si.keyID).run s).1 = .ok key
  verified : ∃ body, r.body = some body ∧ body.length ≤ maxSignedBodyBytes ∧
    verify scheme (buildSignatureBase sha r.method (p.buildTargetURI r) si.created si.expires body)
      r.signature key.raw = .ok ()
  fresh : (s.nonces.checkAndConsume s.clock (nonceKey (si.keyID, si.nonce))).1 = true

/-- The owner of the key has a score with which the policy lets requests pass. Without a snapshot
nobody is refused. -/
def OwnerPasses (keyid : String) : Prop :=
  p.loaded s = true → ∃ e, s.store.lookupKey keyid s.clock = some e ∧
    (allowByScore s.store.activePolicy (s.store.lookupScore e.principalId)).allow = true

/-- What a request needs to be forwarded. -/
def Passes : Prop :=
  p.modeIn s ≠ .stale ∧
    if r.signatureInput = "" then p.signaturesRequired s = false
    else ∃ si key, Accepts p sha scheme r s si key ∧ p.OwnerPasses s si.keyID

@[simp]
theorem run_currentMode : p.currentMode.run s = (p.modeIn s, s) := by
  unfold currentMode modeIn now
  cases p.synced <;> rfl

@[simp]
theorem run_hasSnapshot : p.hasSnapshot.run s = (p.loaded s, s) := by
  unfold hasSnapshot loaded
  cases p.synced <;> rfl

@[simp]
theorem run_requireSig : p.requireSig.run s = (p.signaturesRequired s, s) := by
  unfold requireSig signaturesRequired
  cases p.requireSignatures <;> cases p.synced <;> rfl

@[simp]
theorem run_answer_fst (headers : List (String × String)) (error : Option (Nat × String)) (d : Decision)
    (evidence : Option Evidence) :
    ((p.answer sha r headers error d evidence).run s).1 =
      { headers := headers, error := error, recorded := some d, evidence := evidence } := by
  rw [answer, run_bind, run_pure]

theorem run_lookupPublicKey_snd (keyid : String) : ((p.lookupPublicKey keyid).run s).2 = s := by
  have hpublic : ((publicKey keyid).run s).2 = s := by
    rw [publicKey, now]
    simp only [run_bind, run_read]
    cases s.store.lookupKey keyid s.clock with
    | none => rfl
    | some e => dsimp only; split <;> rfl
  rw [lookupPublicKey, run_bind, run_hasSnapshot]
  cases p.loaded s with
  | true => exact hpublic
  | false => rfl

end Alone

variable {p : EdgeProxy} {sha : Sha256} {scheme : SignatureScheme} {r : Request} {s : Shared}

/-! ## The signature -/

variable (p sha scheme s) in
theorem run_verifySignatureInput {si : SignatureInput}
    (hsi : parseSignatureInput r.signatureInput = .ok si) (body : Bytes) :
    ∃ res, (verifySignatureInput sha scheme (do return (← now) / second) p.lookupPublicKey
        r.signatureInput r.signature r.method (p.buildTargetURI r) body).run s = (res, s) ∧
      ∀ key, res = .ok key ↔ si.checkWindow (s.clock / second) = .ok () ∧
        ((p.lookupPublicKey si.keyID).run s).1 = .ok key ∧
        verify scheme (buildSignatureBase sha r.method (p.buildTargetURI r) si.created si.expires body)
          r.signature key.raw = .ok () := by
  rw [verifySignatureInput, hsi]
  simp only [run_bind, now, run_read, run_pure]
  cases hwindow : si.checkWindow (s.clock / second) with
  | error err => exact ⟨_, rfl, by simp⟩
  | ok u =>
    simp only [run_bind, run_lookupPublicKey_snd]
    cases ((p.lookupPublicKey si.keyID).run s).1 with
    | error err => exact ⟨_, rfl, by simp⟩
    | ok key =>
      refine ⟨_, rfl, fun key' => ?_⟩
      rw [map_eq_ok]
      constructor
      · rintro ⟨u, hverify, rfl⟩
        exact ⟨trivial, rfl, hverify⟩
      · rintro ⟨-, hkey, hverify⟩
        obtain rfl := Except.ok.inj hkey
        exact ⟨(), hverify, rfl⟩

theorem run_checkAndConsume (nonce keyid : String) : ((checkAndConsume nonce keyid).run s).1 =
        (s.nonces.checkAndConsume s.clock (nonceKey (keyid, nonce))).1 ∧
      ((checkAndConsume nonce keyid).run s).2.store = s.store ∧
      ((checkAndConsume nonce keyid).run s).2.clock = s.clock := by
  unfold checkAndConsume now
  simp

variable (p sha scheme r s) in
/-- A signature is accepted exactly if nothing is wrong with it, and only its nonce leaves a trace.
-/
theorem run_authenticate : ∃ res t, (p.authenticate sha scheme r).run s = (res, t) ∧
    t.store = s.store ∧ t.clock = s.clock ∧
    ∀ si key, res = .ok (si, key) ↔ Accepts p sha scheme r s si key := by
  rw [authenticate]
  cases hbody : r.body.filter (·.length ≤ maxSignedBodyBytes) with
  | none =>
    refine ⟨_, s, rfl, rfl, rfl, fun si key => iff_of_false (by simp) ?_⟩
    intro h
    obtain ⟨body, hread, hshort, -⟩ := h.verified
    rw [hread, Option.filter_some, if_pos (by simpa using hshort)] at hbody
    cases hbody
  | some body =>
    have hread : r.body = some body ∧ body.length ≤ maxSignedBodyBytes := by
      simpa [Option.filter_eq_some_iff] using hbody
    cases hsi : parseSignatureInput r.signatureInput with
    | error err =>
      refine ⟨_, s, rfl, rfl, rfl, fun si key => iff_of_false (by simp) ?_⟩
      intro h
      rw [h.parsed] at hsi
      cases hsi
    | ok si =>
      have hchecks : ∀ {si' key}, Accepts p sha scheme r s si' key → si' = si ∧
          si.checkWindow (s.clock / second) = .ok () ∧
          ((p.lookupPublicKey si.keyID).run s).1 = .ok key ∧
          verify scheme (buildSignatureBase sha r.method (p.buildTargetURI r) si.created si.expires body)
            r.signature key.raw = .ok () ∧
          (s.nonces.checkAndConsume s.clock (nonceKey (si.keyID, si.nonce))).1 = true := by
        intro si' key h
        obtain rfl : si = si' := Except.ok.inj (hsi.symm.trans h.parsed)
        obtain ⟨body', hread', -, hverify⟩ := h.verified
        obtain rfl : body = body' := Option.some_inj.mp (hread.1.symm.trans hread')
        exact ⟨rfl, h.window, h.found, hverify, h.fresh⟩
      obtain ⟨res, hrun, hres⟩ := run_verifySignatureInput p sha scheme s hsi body
      dsimp only
      rw [run_bind, hrun]
      cases res with
      | error err =>
        refine ⟨_, s, rfl, rfl, rfl, fun si' key => iff_of_false (by simp) ?_⟩
        intro h
        obtain ⟨-, hwindow, hfound, hverify, -⟩ := hchecks h
        cases (hres key).mpr ⟨hwindow, hfound, hverify⟩
      | ok key =>
        obtain ⟨hwindow, hfound, hverify⟩ := (hres key).mp rfl
        obtain ⟨hnonce, hstore, hclock⟩ := run_checkAndConsume (s := s) si.nonce si.keyID
        dsimp only
        rw [if_neg (checkWindow_nonce hwindow), run_bind, hnonce]
        cases hfresh : (s.nonces.checkAndConsume s.clock (nonceKey (si.keyID, si.nonce))).1 with
        | false =>
          refine ⟨_, _, rfl, hstore, hclock, fun si' key' => iff_of_false (by simp) ?_⟩
          intro h
          obtain ⟨-, -, -, -, hnew⟩ := hchecks h
          rw [hfresh] at hnew
          cases hnew
        | true =>
          refine ⟨_, _, rfl, hstore, hclock, fun si' key' => ⟨?_, ?_⟩⟩
          · intro h
            cases h
            exact ⟨hsi, hwindow, hfound, ⟨body, hread.1, hread.2, hverify⟩, hfresh⟩
          · intro h
            obtain ⟨rfl, -, hfound', -⟩ := hchecks h
            rw [Except.ok.inj (hfound.symm.trans hfound')]

/-! ## The owner of the key -/

variable (sha r) in
theorem denied_annotateTrust (keyid : String) :
    ((p.annotateTrust sha r keyid).run s).1.denied = false ↔ p.OwnerPasses s keyid := by
  rw [annotateTrust, run_bind, run_hasSnapshot, OwnerPasses]
  cases p.loaded s with
  | false =>
    cases p.trustStore <;> simp
  | true =>
    simp only [if_true, run_bind, now, run_read, forall_const]
    cases s.store.lookupKey keyid s.clock with
    | none => simp
    | some e => simp

theorem error_serveSigned (headers : List (String × String)) :
    ((p.serveSigned sha scheme r headers).run s).1.error = none ↔
      ∃ si key, Accepts p sha scheme r s si key ∧ p.OwnerPasses s si.keyID := by
  obtain ⟨res, t, hrun, hstore, hclock, hres⟩ := run_authenticate p sha scheme r s
  have howner : ∀ keyid, p.OwnerPasses t keyid ↔ p.OwnerPasses s keyid := by
    intro keyid
    simp only [OwnerPasses, loaded, hstore, hclock]
  rw [serveSigned, run_bind, hrun]
  rcases res with (_ | _ | _) | ⟨si, key⟩
  · simp [← hres]
  · simp [← hres]
  · simp [← hres]
  · dsimp only
    rw [run_bind]
    cases hdenied : ((p.annotateTrust sha r si.keyID).run t).1.denied with
    | true =>
      have hrefused : ¬ p.OwnerPasses s si.keyID := by
        rw [← howner, ← denied_annotateTrust sha r, hdenied]
        exact nofun
      simp [← hres, hrefused]
    | false =>
      have hpasses : p.OwnerPasses s si.keyID := by
        rw [← howner, ← denied_annotateTrust sha r, hdenied]
      simp [← hres, hpasses]

/-- Which requests are forwarded. -/
theorem forwarded_iff_passes :
    ((p.serveHTTP sha scheme r).run s).1.error = none ↔ Passes p sha scheme r s := by
  rw [serveHTTP, run_bind, run_currentMode, Passes]
  by_cases hstale : p.modeIn s = .stale
  · simp [hstale]
  · by_cases hunsigned : r.signatureInput = ""
    · cases hrequired : p.signaturesRequired s <;> simp [hstale, hunsigned, serveUnsigned, hrequired]
    · simp only [hstale, hunsigned, ne_eq, not_false_eq_true, if_true, if_false, true_and]
      exact error_serveSigned _

end EdgeProxy

/-! ## Field lines -/

abbrev Header : Type := List (String × String)

def Header.get (h : Header) (name : String) : String := (h.lookup name).getD ""

structure WireRequest where
  method : String
  host : String
  requestURI : String
  proto : String := "HTTP/1.1"
  tls : Bool := false
  header : Header
  body : Option Bytes := some []

namespace WireRequest

def read (w : WireRequest) : Request where
  method := w.method
  host := w.host
  requestURI := w.requestURI
  proto := w.proto
  tls := w.tls
  signatureInput := w.header.get "Signature-Input"
  signature := w.header.get "Signature"
  ja4 := w.header.get "X-Ja4-Fingerprint"
  userAgent := w.header.get "User-Agent"
  forwardedProto := w.header.get "X-Forwarded-Proto"
  forwardedHost := w.header.get "X-Forwarded-Host"
  body := w.body

/-- One of the two fields of a signature occurs, with whatever value. -/
def Attempts (w : WireRequest) : Prop :=
  ∃ line ∈ w.header, line.1 = "Signature" ∨ line.1 = "Signature-Input"

end WireRequest

namespace EdgeProxy

def SignatureVerified (p : EdgeProxy) (sha : Sha256) (scheme : SignatureScheme) (r : Request) : Prop :=
  ∃ si body key, parseSignatureInput r.signatureInput = .ok si ∧ r.body = some body ∧
    verify scheme (buildSignatureBase sha r.method (p.buildTargetURI r) si.created si.expires body)
      r.signature key = .ok ()

theorem not_signatureVerified {p : EdgeProxy} {sha : Sha256} {scheme : SignatureScheme} {r : Request}
    (h : r.signatureInput = "") : ¬ p.SignatureVerified sha scheme r := by
  rintro ⟨si, body, key, hparsed, -⟩
  rw [h] at hparsed
  cases hparsed

/-- What looks like a signed request is forwarded only after a verification exactly if the first
line of `Signature-Input` has a value, or unsigned requests do not pass anyway. -/
theorem attempt_verified_iff (p : EdgeProxy) (sha : Sha256) (scheme : SignatureScheme) (w : WireRequest)
    (s : Shared) :
    (w.Attempts → ((p.serveHTTP sha scheme w.read).run s).1.error = none →
        p.SignatureVerified sha scheme w.read) ↔
      (w.Attempts → w.header.get "Signature-Input" ≠ "" ∨ p.signaturesRequired s = true ∨
        p.modeIn s = .stale) := by
  refine forall_congr' fun _ => ?_
  rw [forwarded_iff_passes, Passes]
  by_cases hunsigned : w.read.signatureInput = ""
  · have hget : w.header.get "Signature-Input" = "" := hunsigned
    simp only [hunsigned, if_true, not_signatureVerified hunsigned, hget, ne_eq, not_true_eq_false,
      false_or]
    cases p.signaturesRequired s <;> simp
  · refine iff_of_true ?_ (.inl hunsigned)
    rintro ⟨-, hsigned⟩
    rw [if_neg hunsigned] at hsigned
    obtain ⟨si, key, haccepts, -⟩ := hsigned
    obtain ⟨body, hbody, -, hverify⟩ := haccepts.verified
    exact ⟨si, body, key.raw, haccepts.parsed, hbody, hverify⟩

theorem forwarded_of_no_input {r : Request} (h : r.signatureInput = "") {snap : Snapshot}
    (hmode : small.modeIn (smallShared snap) ≠ .stale)
    (hfree : small.signaturesRequired (smallShared snap) = false) :
    ((small.serveHTTP zeroSha openScheme r).run (smallShared snap)).1.error = none := by
  rw [forwarded_iff_passes, Passes, if_pos h]
  exact ⟨hmode, hfree⟩

def getWith (header : Header) : WireRequest :=
  { method := "GET", host := "a", requestURI := "/", header := header }

/-- A signature without its input, or with an empty first line of it, passes as unsigned. -/
theorem incomplete_signature_forwarded :
    let alone := getWith [("Signature", "s")]
    let blank := getWith [("Signature-Input", ""), ("Signature-Input", "i"), ("Signature", "s")]
    (alone.Attempts ∧ ¬ small.SignatureVerified zeroSha openScheme alone.read ∧
        ((small.serveHTTP zeroSha openScheme alone.read).run (smallShared goodSnapshot)).1.error =
          none) ∧
      blank.Attempts ∧ ¬ small.SignatureVerified zeroSha openScheme blank.read ∧
        ((small.serveHTTP zeroSha openScheme blank.read).run (smallShared goodSnapshot)).1.error =
          none := by
  have hmode : small.modeIn (smallShared goodSnapshot) ≠ .stale := by decide
  refine ⟨⟨⟨_, List.mem_cons_self, .inl rfl⟩, ?_, ?_⟩, ⟨_, List.mem_cons_self, .inr rfl⟩, ?_, ?_⟩
  · exact not_signatureVerified rfl
  · exact forwarded_of_no_input rfl hmode rfl
  · exact not_signatureVerified rfl
  · exact forwarded_of_no_input rfl hmode rfl

/-! ## The deny list -/

def DenyListed (p : EdgeProxy) (sha : Sha256) (r : Request) (s : Shared) : Prop :=
  p.synced = true ∧ ∃ pol, s.store.activePolicy = some pol ∧
    requestFingerprint p.lower sha r ∈ pol.denyFingerprints

/-- A listed fingerprint is refused exactly if the request is refused without the list: the store is
stale, a signature is missing that is required, or it is not accepted, or its owner does not pass.
-/
theorem denyListed_refused_iff (p : EdgeProxy) (sha : Sha256) (scheme : SignatureScheme) (r : Request)
    (s : Shared) :
    (p.DenyListed sha r s → ((p.serveHTTP sha scheme r).run s).1.error ≠ none) ↔
      (p.DenyListed sha r s → p.modeIn s = .stale ∨
        (r.signatureInput = "" ∧ p.signaturesRequired s = true) ∨
        (r.signatureInput ≠ "" ∧
          ∀ si key, Accepts p sha scheme r s si key → ¬ p.OwnerPasses s si.keyID)) := by
  refine forall_congr' fun _ => ?_
  rw [ne_eq, forwarded_iff_passes, Passes]
  by_cases hstale : p.modeIn s = .stale
  · simp [hstale]
  · by_cases hunsigned : r.signatureInput = ""
    · simp [hstale, hunsigned]
    · simp [hstale, hunsigned]

def plainRequest : Request := { method := "GET", host := "a", requestURI := "/" }

def denyingSnapshot (fingerprint : String) : Snapshot :=
  { policy := some { denyFingerprints := [fingerprint] } }

theorem modeIn_denying (fingerprint : String) :
    small.modeIn (smallShared (denyingSnapshot fingerprint)) = .ok :=
  rfl

/-- The fingerprint is on the deny list and the request is forwarded. -/
theorem denyListed_forwarded :
    small.DenyListed zeroSha plainRequest
      (smallShared (denyingSnapshot (requestFingerprint Char.toLower zeroSha plainRequest))) ∧
      ((small.serveHTTP zeroSha openScheme plainRequest).run
        (smallShared (denyingSnapshot (requestFingerprint Char.toLower zeroSha plainRequest)))).1.error = none := by
  constructor
  · exact ⟨rfl, _, rfl, List.mem_singleton.mpr rfl⟩
  · apply forwarded_of_no_input rfl
    · rw [modeIn_denying]
      exact nofun
    · rfl

end EdgeProxy

end Verilink.Edge

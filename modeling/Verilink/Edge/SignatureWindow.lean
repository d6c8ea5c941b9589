import Verilink.Edge.Gate

/-!
# The window of a signature

`VerifySignatureInput` compares the times of a header with the clock, but only times that are
positive: a missing, zero or negative time switches its checks off.
-/

namespace Verilink.Edge

open Verilink.Framework

namespace SignatureInput

variable {si si' : SignatureInput} {now : Int}

structure Int64Times (si : SignatureInput) : Prop where
  created : -2 ^ 63 ≤ si.created ∧ si.created < 2 ^ 63
  expires : -2 ^ 63 ≤ si.expires ∧ si.expires < 2 ^ 63

theorem Int64Times.param (h : si.Int64Times) {part : List Char} (hparam : si.param part = .ok si') :
    si'.Int64Times := by
  rw [SignatureInput.param] at hparam
  split at hparam
  · cases hparam
    exact h
  · dsimp only at hparam
    split_ifs at hparam
    · cases hparam
      exact ⟨h.created, h.expires⟩
    · split at hparam
      · cases hparam
      · rename_i v hv
        cases hparam
        exact ⟨Chars.parseInt64_range hv, h.expires⟩
    · split at hparam
      · cases hparam
      · rename_i v hv
        cases hparam
        exact ⟨h.created, Chars.parseInt64_range hv⟩
    all_goals
      cases hparam
      exact ⟨h.created, h.expires⟩

theorem int64Times_of_parse {header : String} (h : parseSignatureInput header = .ok si) :
    si.Int64Times := by
  rw [parseSignatureInput] at h
  dsimp only at h
  split_ifs at h
  split at h
  · cases h
  · rename_i params _
    obtain ⟨si', hsi', hok⟩ := bind_eq_ok.mp h
    split_ifs at hok
    cases hok
    refine foldlM_ok_of_mem SignatureInput.param Int64Times _ ?_ _ _ ?_ hsi'
    · intro si part si' _ hsi hparam
      exact hsi.param hparam
    · exact ⟨by simp, by simp⟩

def InWindow (si : SignatureInput) (now : Int) : Prop :=
  si.created - 30 ≤ now ∧ now ≤ si.expires + 30 ∧ si.expires - si.created ≤ 300

theorem wrap64_le {n : Int} (h : -2 ^ 63 ≤ n) : wrap64 n ≤ n := by
  unfold wrap64
  rcases lt_or_ge n (2 ^ 63) with hlt | hge
  · rw [Int.bmod_eq_of_le (by omega) (by omega)]
  · have : n.bmod (2 ^ 64) < 2 ^ 63 := by
      have := @Int.bmod_lt n (2 ^ 64) (by decide)
      omega
    omega

/-- The times are positive, or the checks that are skipped would not have rejected the header. -/
structure TimesBounded (si : SignatureInput) (now : Int) : Prop where
  noExpiry : 0 < si.created → si.expires ≤ 0 → now < si.created - 30 ∨ now ≤ si.expires + 30
  noCreation : si.created ≤ 0 → 0 < si.expires → wrap64 (si.expires + 30) < now ∨
    (si.created - 30 ≤ now ∧ si.expires - si.created ≤ 300)
  noTimes : si.created ≤ 0 → si.expires ≤ 0 →
    si.created - 30 ≤ now ∧ now ≤ si.expires + 30 ∧ si.expires - si.created ≤ 300

theorem checkWindow_eq_ok (h : si.Int64Times) (hnonce : si.nonce ≠ "") :
    si.checkWindow now = .ok () ↔ (0 < si.created → si.created - 30 ≤ now) ∧
      (0 < si.expires → now ≤ wrap64 (si.expires + 30)) ∧
      (0 < si.created → 0 < si.expires → si.expires - si.created ≤ 300) := by
  have hskew : 0 < si.created → wrap64 (si.created - 30) = si.created - 30 := fun hpos => by
    have := h.created
    exact wrap64_of_range (by omega)
  have hspan : 0 < si.created → 0 < si.expires → wrap64 (si.expires - si.created) =
      si.expires - si.created :=
    fun hpos hpos' => by
      have := h.created
      have := h.expires
      exact wrap64_of_range (by omega)
  rw [checkWindow, maxSkewSeconds, maxValidityWindow]
  split_ifs with h₁ h₂ h₃
  · rw [hskew h₁.1] at h₁
    simp only [false_iff]
    exact fun hall => absurd (hall.1 h₁.1) (not_le.mpr h₁.2)
  · simp only [false_iff]
    exact fun hall => absurd (hall.2.1 h₂.1) (not_le.mpr h₂.2)
  · rw [hspan h₃.1 h₃.2.1] at h₃
    simp only [false_iff]
    exact fun hall => absurd (hall.2.2 h₃.1 h₃.2.1) (not_le.mpr h₃.2.2)
  · simp only [true_iff]
    refine ⟨fun hpos => ?_, fun hpos => ?_, fun hpos hpos' => ?_⟩
    · rw [hskew hpos] at h₁
      exact not_lt.mp fun hlt => h₁ ⟨hpos, hlt⟩
    · exact not_lt.mp fun hlt => h₂ ⟨hpos, hlt⟩
    · rw [hspan hpos hpos'] at h₃
      exact not_lt.mp fun hlt => h₃ ⟨hpos, hpos', hlt⟩

theorem inWindow_of_checkWindow_iff (h : si.Int64Times) (hnonce : si.nonce ≠ "") :
    (si.checkWindow now = .ok () → si.InWindow now) ↔ si.TimesBounded now := by
  have hwrap : wrap64 (si.expires + 30) ≤ si.expires + 30 := wrap64_le (by have := h.expires; omega)
  rw [checkWindow_eq_ok h hnonce, InWindow]
  constructor
  · intro hin
    refine ⟨fun hc he => ?_, fun hc he => ?_, fun hc he => ?_⟩
    · by_contra hnot
      have := hin ⟨fun _ => by omega, fun hpos => by omega, fun _ hpos => by omega⟩
      omega
    · by_contra hnot
      have := hin ⟨fun hpos => by omega, fun _ => by omega, fun hpos => by omega⟩
      omega
    · exact hin ⟨fun hpos => by omega, fun hpos => by omega, fun hpos => by omega⟩
  · rintro ⟨hexpiry, hcreation, hnone⟩ ⟨hfirst, hsecond, hthird⟩
    rcases lt_or_ge 0 si.created with hc | hc <;> rcases lt_or_ge 0 si.expires with he | he
    · exact ⟨hfirst hc, (hsecond he).trans hwrap, hthird hc he⟩
    · have := hexpiry hc he
      have := hfirst hc
      omega
    · have := hcreation hc he
      have := hsecond he
      omega
    · exact hnone hc he

end SignatureInput

section Accepted

variable (sha : Sha256) (scheme : SignatureScheme)

def verifyAt (now : Int) (keys : String → Except String FoundKey)
    (sigInputHeader sigHeader method targetURI : String) (body : Bytes) : Except String FoundKey :=
  ((verifySignatureInput sha scheme (pure now) (fun keyid => pure (keys keyid)) sigInputHeader sigHeader
    method targetURI body).run ()).1

variable {sha scheme} {now : Int} {keys : String → Except String FoundKey}
  {header sigHeader method targetURI : String} {body : Bytes} {key : FoundKey} {si : SignatureInput}

theorem verifyAt_eq_ok (hparse : parseSignatureInput header = .ok si) :
    verifyAt sha scheme now keys header sigHeader method targetURI body = .ok key ↔
      si.checkWindow now = .ok () ∧ keys si.keyID = .ok key ∧
        verify scheme (buildSignatureBase sha method targetURI si.created si.expires body) sigHeader
          key.raw =
          .ok () := by
  rw [verifyAt, verifySignatureInput, hparse]
  simp only [Prog.run_bind, Prog.run_pure]
  cases hwindow : si.checkWindow now with
  | error err => simp
  | ok u =>
    cases hkey : keys si.keyID with
    | error err => simp
    | ok found =>
      simp only [Prog.run_bind, Prog.run_pure]
      cases hverify : verify scheme (buildSignatureBase sha method targetURI si.created si.expires body)
        sigHeader found.raw with
      | error err =>
        simp only [Except.map, reduceCtorEq, Except.ok.injEq, true_and, false_iff, not_and]
        rintro rfl
        rw [hverify]
        simp
      | ok u =>
        simp only [Except.map, Except.ok.injEq, true_and]
        constructor
        · rintro rfl
          exact ⟨rfl, hverify⟩
        · exact fun h => h.1

theorem verify_signed (privateKey : Bytes) (message : String) :
    verify scheme message (String.ofList (Base64.encodeRawURL (scheme.sign privateKey message)))
      (scheme.publicKey privateKey) = .ok () := by
  rw [verify, if_neg
    (by simp [scheme.length_publicKey]), String.toList_ofList, Base64.decode_encodeRawURL]
  simp [scheme.verify_sign]

variable (sha scheme)

/-- All signatures that are accepted with a header at a time are in the window, exactly if its times
are bounded. -/
theorem accepted_in_window_iff (header : String) (now : Int) :
    (∀ keys sigHeader method targetURI body key si, parseSignatureInput header = .ok si →
        verifyAt sha scheme now keys header sigHeader method targetURI body = .ok key →
        si.created - 30 ≤ now ∧ now ≤ si.expires + 30 ∧ si.expires - si.created ≤ 300) ↔
      ∀ si, parseSignatureInput header = .ok si → si.nonce ≠ "" → si.TimesBounded now := by
  constructor
  · intro hall si hparse hnonce
    rw [← SignatureInput.inWindow_of_checkWindow_iff (SignatureInput.int64Times_of_parse hparse) hnonce]
    intro hwindow
    -- Whoever has a key can make a signature that is accepted.
    refine hall (fun _ => .ok ⟨scheme.publicKey [], none⟩) _ "" "" [] ⟨scheme.publicKey [], none⟩
      si hparse
      ((verifyAt_eq_ok hparse).mpr ⟨hwindow, rfl, verify_signed [] _⟩)
  · intro hbounded keys sigHeader method targetURI body key si hparse haccepted
    obtain ⟨hwindow, -, -⟩ := (verifyAt_eq_ok hparse).mp haccepted
    have hnonce : si.nonce ≠ "" := EdgeProxy.checkWindow_nonce hwindow
    exact (SignatureInput.inWindow_of_checkWindow_iff (SignatureInput.int64Times_of_parse hparse)
      hnonce).mpr
      (hbounded si hparse hnonce) hwindow

/-- Without times a signature is accepted at any time. -/
theorem timeless_accepted :
    (parseSignatureInput "\"@method\";keyid=\"k\";nonce=n").map
    (fun si => (si.created, si.expires)) = .ok (0, 0) ∧
      (verifyAt zeroSha EdgeProxy.openScheme 1000000000 (fun _ => .ok ⟨List.replicate 32 0, none⟩)
        "\"@method\";keyid=\"k\";nonce=n"
        (String.ofList
        (Base64.encodeRawURL (utf8 (buildSignatureBase zeroSha "GET" "https://a/" 0 0 []))))
        "GET" "https://a/" []).isOk = true ∧
      ¬ (1000000000 : Int) ≤ 0 + 30 := by
  decide +kernel

end Accepted

end Verilink.Edge

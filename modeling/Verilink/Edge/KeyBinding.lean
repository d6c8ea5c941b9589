import Verilink.Edge.Gate

/-!
# Whose key and whose score

A request looks its key up twice: to verify the signature, and to find the principal whose score
decides. The sync loop may swap the snapshot in between.
-/

namespace Verilink.Edge

open Verilink.Framework Relation Prog

inductive Store.Swap (s : Store) : Store → Prop
  | event (now : Time) (version : Int) (eventType : String) (payload : Json) (s' : Store)
      (h : applyEvent s now version eventType payload = .ok s') : Swap s s'
  | snapshot (now : Time) (snap : Snapshot) : Swap s (applySnapshot s now snap)
  | cursor (now : Time) (highWater : Int) : Swap s (advanceCursor s now highWater)

def Store.binding (s : Store) (keyid : String) : Option KeyEntry :=
  s.snapshot.bind fun snap => snap.keys.lookup keyid

def Store.Binds (s : Store) (keyid : String) (B : KeyEntry → Prop) : Prop :=
  ∀ e ∈ s.binding keyid, B e

/-- The owner of the key that verified a signature is the principal whose score decided: at one of
the two lookups the key was bound to that principal. -/
def Evidence.Owned (ev : Evidence) : Prop :=
  ∀ e ∈ ev.authorisedBy, e.publicKeyRaw = ev.verifiedBy.raw ∨
    ∃ e' ∈ ev.verifiedBy.entry, e'.principalId = e.principalId

theorem Store.Swap.isSome {s s' : Store} (h : s.Swap s') (hs : s.snapshot.isSome = true) :
    s'.snapshot.isSome = true := by
  cases h with
  | event now version eventType payload s' h =>
    by_cases hpos : version ≤ 0
    · rw [applyEvent, if_pos hpos] at h
      cases h
    · by_cases hle : version ≤ s.highWater
      · rw [applyEvent_of_le _ _ _ _ _ (not_le.mp hpos) hle] at h
        cases h
        exact hs
      · rw [applyEvent_of_lt _ _ _ _ _ (not_le.mp hpos) (not_le.mp hle)] at h
        obtain ⟨next, -, rfl⟩ := map_eq_ok.mp h
        rfl
  | snapshot now snap => rfl
  | cursor now highWater =>
    change (s.advanceHighWater highWater).snapshot.isSome = true
    rw [Store.advanceHighWater]
    split
    · exact hs
    · exact hs

theorem Shared.store_of_env {change : Store → Store → Prop} {P : Store → Prop} {s t : Shared}
    (hchange : ∀ a b, change a b → P a → P b) (h : ReflTransGen (Shared.Env change) s t)
    (hs : P s.store) : P t.store := by
  induction h with
  | refl => exact hs
  | tail _ hstep ih =>
    cases hstep with
    | sync _ hsync => exact hchange _ _ hsync ih
    | tick | reach | consume | sweep | log => exact ih

namespace EdgeProxy

variable {p : EdgeProxy} {sha : Sha256} {scheme : SignatureScheme} {r : Request} {s t : Shared}
  {resp : Response} {si : SignatureInput} {B : KeyEntry → Prop}

abbrev Rebinding (keyid : String) (B : KeyEntry → Prop) : Shared → Shared → Prop :=
  Shared.Env fun a b => a.Swap b ∧ b.Binds keyid B

/-- The store while a request runs: there is a snapshot if there was one, and the key id is bound
as `B` says. -/
structure Bound (keyid : String) (B : KeyEntry → Prop) (loaded : Bool) (s : Store) : Prop where
  binds : s.Binds keyid B
  loaded : loaded = true → s.snapshot.isSome = true

theorem Bound.of_env {keyid : String} {loaded : Bool} (hs : Bound keyid B loaded s.store)
    (h : ReflTransGen (Rebinding keyid B) s t) : Bound keyid B loaded t.store :=
  Shared.store_of_env (P := Bound keyid B loaded)
    (fun _ _ hchange ha => ⟨hchange.2, fun hloaded => hchange.1.isSome (ha.loaded hloaded)⟩) h hs

theorem Bound.lookupKey {store : Store} {keyid : String} {loaded : Bool} {now : Time} {e : KeyEntry}
    (hs : Bound keyid B loaded store) (h : store.lookupKey keyid now = some e) : B e :=
  hs.binds e (Store.lookupKey_eq_some h).1

theorem ensures_serveUnsigned {headers : List (String × String)} :
    Ensures (fun resp => resp.evidence = none) (p.serveUnsigned sha r headers) := by
  refine .bind _ fun require => ?_
  split
  · exact .bind _ fun _ => .ret rfl
  · exact .bind _ fun _ => .ret rfl

theorem Forwarded.owned {key : FoundKey} {a : Annotation} {loaded : Bool}
    (hB : ∀ e e', B e → B e' → e.principalId = e'.principalId ∨ e.publicKeyRaw = e'.publicKeyRaw)
    (hstart : Bound si.keyID B loaded s.store)
    (hfirst : loaded = false → ∀ e, B e → ∀ key, p.registryKey si.keyID = .ok key → e.publicKeyRaw =
      key.raw)
    (h : Forwarded (Rebinding si.keyID B) p sha scheme r si key a s t) :
    Evidence.Owned ⟨key, a.key⟩ := by
  obtain ⟨⟨m, m₁, m₂, m₃, m₄, n, hauth, n', hjudged, -⟩, -⟩ := h
  have hm₁ := hstart.of_env (hauth.before.trans hauth.read)
  have hm₄ := hm₁.of_env ((hauth.found.path.trans hauth.nonce.before).trans hauth.nonce.read)
  have hused : Bound si.keyID B loaded (m₄.consuming m₃.clock (si.keyID, si.nonce)).store := hm₄
  have hn := hused.of_env hauth.nonce.after
  intro e he
  cases hjudged with
  | nobody _ _ _ hnone _ =>
    rw [hnone] at he
    cases he
  | owner _ _ _ _ e' hsynced hb hr hlookup _ _ _ _ hkey _ =>
    obtain rfl : e' = e := Option.some_inj.mp (hkey.symm.trans he)
    have he' : B e' := (hn.of_env (hb.trans hr)).lookupKey hlookup
    cases hauth.found with
    | snapshot _ _ e₁ hb₁ hr₁ hlookup₁ heq _ =>
      have he₁ : B e₁ := (hm₁.of_env (hb₁.trans hr₁)).lookupKey hlookup₁
      subst heq
      rcases hB e₁ e' he₁ he' with howner | hraw
      · exact .inr ⟨e₁, rfl, howner⟩
      · exact .inl hraw.symm
    | registry m₀ hb₀ hunsynced heq _ =>
      rw [hsynced, Bool.true_and] at hunsynced
      have hloaded : loaded = false := by
        rw [← Bool.not_eq_true]
        intro hloaded
        rw [(hm₁.of_env hb₀).loaded hloaded] at hunsynced
        cases hunsynced
      exact .inl (hfirst hloaded e' he' key heq)

/-- The owner of the key decides, if what the key id is bound to during the request agrees in the
principal or in the key, and with the registry as long as there is no snapshot. -/
theorem forwarded_by_owner
    (hB : ∀ e e', B e → B e' → e.principalId = e'.principalId ∨ e.publicKeyRaw = e'.publicKeyRaw)
    (hsi : parseSignatureInput r.signatureInput = .ok si) (hstart : s.store.Binds si.keyID B)
    (hfirst : s.store.snapshot = none → ∀ e, B e →
      ∀ key, p.registryKey si.keyID = .ok key → e.publicKeyRaw = key.raw)
    (h : Runs (Rebinding si.keyID B) (p.serveHTTP sha scheme r) s resp t)
    (hforward : resp.error = none) :
    ∀ ev ∈ resp.evidence, ev.Owned := by
  obtain ⟨mode, n, headers, hmode, -, hserve⟩ := runs_serveHTTP hforward h
  obtain ⟨m₀, m, m₁, m₂, hm₀, hm, hm₁, hm₂, hn, -⟩ := runs_currentMode hmode
  have hbound : Bound si.keyID B s.store.snapshot.isSome s.store := ⟨hstart, id⟩
  have hboundn := hbound.of_env ((((hm₀.trans hm).trans hm₁).trans hm₂).trans hn)
  rcases hserve with ⟨-, h⟩ | ⟨-, h⟩
  · obtain ⟨si', key, a, hfwd, -, hev⟩ := runs_serveSigned hforward h
    have hparsed : parseSignatureInput r.signatureInput = .ok si' := by
      obtain ⟨⟨_, _, _, _, _, _, hauth, -⟩, -⟩ := hfwd
      exact hauth.parsed
    obtain rfl : si = si' := Except.ok.inj (hsi.symm.trans hparsed)
    intro ev hmem
    obtain rfl : ⟨key, a.key⟩ = ev := Option.some_inj.mp (hev.symm.trans hmem)
    exact hfwd.owned hB hboundn fun hnone => hfirst (by simpa using hnone)
  · intro ev hmem
    rw [h.ensures ensures_serveUnsigned] at hmem
    cases hmem

/-! ## A key id that changes hands -/

def zeroKey : Bytes := List.replicate 32 0

def otherKey : Bytes := List.replicate 32 1

theorem forwarded_by_owner_small :
    (smallRun goodSnapshot).1.error = none ∧ ∀ ev ∈ (smallRun goodSnapshot).1.evidence, ev.Owned := by
  have hforward := smallRun_passes.1
  have hstart : (smallShared goodSnapshot).store.Binds "k" fun e => e.principalId = "good" := by
    intro e he
    have hkey : (smallShared goodSnapshot).store.binding "k" = some (smallKey "good" zeroKey) :=
      Finmap.lookup_insert _
    obtain rfl : smallKey "good" zeroKey = e := Option.some_inj.mp (hkey.symm.trans he)
    rfl
  refine ⟨hforward, ?_⟩
  unfold smallRun at hforward ⊢
  exact forwarded_by_owner (p := small) (fun _ _ he he' => .inl (he.trans he'.symm))
    parse_smallRequest hstart nofun
    (runs_run _ _) hforward

def swapped (s : Shared) : Shared :=
  { s with store := applySnapshot s.store s.clock (smallSnapshot "good" otherKey) }

def swappedRun : Response × Shared :=
  (small.serveHTTP zeroSha openScheme (smallRequest "n")).runAt swapped 10
    (smallShared (smallSnapshot "bad" zeroKey))

/-- The key of one principal verifies the signature and the score of another lets it pass. -/
theorem forwarded_by_stranger :
    Runs (Shared.Env Store.Swap) (small.serveHTTP zeroSha openScheme (smallRequest "n"))
        (smallShared (smallSnapshot "bad" zeroKey)) swappedRun.1 swappedRun.2 ∧
      swappedRun.1.error = none ∧ ∃ ev ∈ swappedRun.1.evidence, ¬ ev.Owned := by
  have hrun : swappedRun.1.error = none ∧ swappedRun.1.evidence =
      some ⟨⟨zeroKey, some (smallKey "bad" zeroKey)⟩, some (smallKey "good" otherKey)⟩ := by
    decide +kernel
  refine ⟨runs_runAt (fun s => .sync s _ (.snapshot _ _)) 10 _ _, hrun.1, _, hrun.2, ?_⟩
  intro howned
  rcases howned _ rfl with hraw | ⟨e', he', howner⟩
  · exact absurd hraw (by decide)
  · cases he'
    exact absurd howner (by decide)

end EdgeProxy

end Verilink.Edge

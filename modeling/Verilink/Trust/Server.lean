import Verilink.Trust.Blacklist

/-!
# The trust engine server

`RunVeriRank` consumes a stream of chunks: a header first, then attestations, principals and roots
in any order.
-/

namespace Verilink.Trust

open Verilink.Framework

/-- `trust.EntityKind(s)` restricted to the kinds the server admits. -/
def EntityKind.ofText (s : String) : Option EntityKind :=
  if s = "agent" then some .agent
  else if s = "issuer" then some .issuer
  else if s = "both" then some .both
  else none

structure WireAttestation where
  issuerId : String
  subjectId : String
  trustDelta : Int
  issuedAtUnix : Int
  deriving DecidableEq, Repr

structure WirePrincipal (K : Type) where
  id : String
  entityKind : String
  trustWeight : K
  isBootstrap : Bool

/-- One message of the client stream; `empty` is a chunk without payload. -/
inductive RunChunk (K : Type)
  | empty
  | header (evaluationTimeUnix : Int)
  | attestation (a : WireAttestation)
  | principal (p : WirePrincipal K)
  | root (r : Root K)

/-- The reasons for which the server answers `InvalidArgument`. -/
inductive InvalidArgument
  | nilChunkPayload
  | duplicateRunHeader
  | evaluationTimeRequired
  | headerMustBeFirstChunk
  | attestationIdsRequired
  | attestationIssuedAtRequired
  | principalIdRequired
  | duplicatePrincipal (id : String)
  | invalidEntityKind (id kind : String)
  | trustWeightOutOfRange (id : String)
  | rootIdRequired
  | duplicateRoot (id : String)
  | rootWeightOutOfRange (id : String)
  | missingRunHeader
  | rootHasNoPrincipal (id : String)
  | issuerHasNoPrincipal (id : String)
  | issuerKindNotIssuer (id : String)
  | subjectHasNoPrincipal (id : String)
  | rootNotBootstrap (id : String)
  | rootTrustWeightNotOne (id : String)
  deriving DecidableEq, Repr

/-- What the receive loop has collected; `evalTime` is set by the header. -/
structure StreamState (K : Type) where
  evalTime : Option Time := none
  claims : List AttestationClaims := []
  principals : List (Principal K) := []
  roots : List (Root K) := []

def protoAttestationToClaims (a : WireAttestation) : AttestationClaims where
  issuer := a.issuerId
  subject := a.subjectId
  issuedAt := some (a.issuedAtUnix * 1000000000)
  trustLevelDelta := a.trustDelta

section Server

variable {K : Type} [Field K] [LinearOrder K]

def recvChunk (st : StreamState K) : RunChunk K → Except InvalidArgument (StreamState K)
  | .empty => .error .nilChunkPayload
  | .header unix =>
    if st.evalTime.isSome then .error .duplicateRunHeader
    else if unix = 0 then .error .evaluationTimeRequired
    else .ok { st with evalTime := some (unix * 1000000000) }
  | .attestation a =>
    if st.evalTime.isNone then .error .headerMustBeFirstChunk
    else if a.issuerId = "" ∨ a.subjectId = "" then .error .attestationIdsRequired
    else if a.issuedAtUnix = 0 then .error .attestationIssuedAtRequired
    else .ok { st with claims := st.claims ++ [protoAttestationToClaims a] }
  | .principal p =>
    if st.evalTime.isNone then .error .headerMustBeFirstChunk
    else if p.id = "" then .error .principalIdRequired
    else if p.id ∈ st.principals.map Principal.id then .error (.duplicatePrincipal p.id)
    else
      match EntityKind.ofText p.entityKind with
      | none => .error (.invalidEntityKind p.id p.entityKind)
      | some kind =>
        if p.trustWeight < 0 ∨ 1 < p.trustWeight then .error (.trustWeightOutOfRange p.id)
        else .ok { st with
          principals := st.principals ++ [⟨p.id, kind, p.trustWeight, p.isBootstrap⟩] }
  | .root r =>
    if st.evalTime.isNone then .error .headerMustBeFirstChunk
    else if r.id = "" then .error .rootIdRequired
    else if r.id ∈ st.roots.map Root.id then .error (.duplicateRoot r.id)
    else if r.weight < 0 ∨ 1 < r.weight then .error (.rootWeightOutOfRange r.id)
    else .ok { st with roots := st.roots ++ [r] }

def checkRootStreamed (principals : List (Principal K)) (r : Root K) :
    Except InvalidArgument Unit :=
  if r.id ∈ principals.map Principal.id then .ok () else .error (.rootHasNoPrincipal r.id)

def checkClaim (principals : List (Principal K)) (c : AttestationClaims) :
    Except InvalidArgument Unit :=
  if c.issuer ∉ principals.map Principal.id then .error (.issuerHasNoPrincipal c.issuer)
  else
    let kind := ((kindByDID principals).lookup c.issuer).getD .unset
    if kind ≠ .issuer ∧ kind ≠ .both then .error (.issuerKindNotIssuer c.issuer)
    else if c.subject ∉ principals.map Principal.id then .error (.subjectHasNoPrincipal c.subject)
    else .ok ()

def checkRootBootstrap (principals : List (Principal K)) (r : Root K) :
    Except InvalidArgument Unit :=
  match principals.find? fun p => p.id = r.id with
  | none => .ok ()
  | some p =>
    if !p.isBootstrap then .error (.rootNotBootstrap r.id)
    else if p.trustWeight ≠ 1 then .error (.rootTrustWeightNotOne r.id)
    else .ok ()

/-- The completeness checks after the stream has ended, in the order of the source. -/
def checkComplete (st : StreamState K) : Except InvalidArgument Unit := do
  st.roots.forM (checkRootStreamed st.principals)
  st.claims.forM (checkClaim st.principals)
  st.roots.forM (checkRootBootstrap st.principals)

variable [FloorRing K]

def stampRow (principals : List (Principal K)) (row : ScoreRow) : ScoreRow :=
  { row with
    entityKind :=
      if row.entityKind = .unset then
        ((kindByDID principals).lookup row.principalId).getD .unset
      else row.entityKind }

def serveRunVeriRank (decayAt : Time → Time → K) (chunks : List (RunChunk K)) :
    Except InvalidArgument ScoreTable := do
  let st ← chunks.foldlM recvChunk {}
  match st.evalTime with
  | none => .error .missingRunHeader
  | some evalTime =>
    checkComplete st
    let table := runVeriRank decayAt (st.claims.map some) st.principals st.roots evalTime
    .ok { table with rows := table.rows.map (stampRow st.principals) }

end Server

section Spec

variable {K : Type} [Field K] [LinearOrder K]

theorem claimEdge_subject (evaluationTime : Time) (c : AttestationClaims) (e : Edge)
    (h : claimEdge evaluationTime (some c) = some e) : e.subject = c.subject := by
  cases hissued : c.issuedAt with
  | none => simp [claimEdge, hissued] at h
  | some issuedAt =>
    simp only [claimEdge, hissued] at h
    by_cases hskew : evaluationTime + maxClockSkew < issuedAt
    · simp [hskew] at h
    · rw [if_neg hskew] at h
      cases h
      rfl

def principalIds (chunks : List (RunChunk K)) : List String :=
  chunks.filterMap fun
    | .principal p => some p.id
    | _ => none

theorem recvChunk_principals (st st' : StreamState K) (chunk : RunChunk K)
    (h : recvChunk st chunk = .ok st') :
    st'.principals.map Principal.id = st.principals.map Principal.id ++ principalIds [chunk] := by
  cases chunk with
  | empty => cases h
  | header unix =>
    simp only [recvChunk] at h
    split_ifs at h
    cases h
    simp [principalIds]
  | attestation a =>
    simp only [recvChunk] at h
    split_ifs at h
    cases h
    simp [principalIds]
  | principal p =>
    cases hkind : EntityKind.ofText p.entityKind with
    | none =>
      simp only [recvChunk, hkind] at h
      split_ifs at h
    | some kind =>
      simp only [recvChunk, hkind] at h
      split_ifs at h
      cases h
      simp [principalIds]
  | root r =>
    simp only [recvChunk] at h
    split_ifs at h
    cases h
    simp [principalIds]

theorem recvChunks_principals (chunks : List (RunChunk K)) (st : StreamState K)
    (h : chunks.foldlM recvChunk {} = .ok st) :
    st.principals.map Principal.id = principalIds chunks := by
  refine foldlM_ok_of_step recvChunk
    (fun s seen => s.principals.map Principal.id = principalIds seen) ?_ chunks {} st rfl h
  intro s seen chunk s' hs hchunk
  rw [recvChunk_principals s s' chunk hchunk, hs]
  simp [principalIds]

variable (principals : List (Principal K))

omit [Field K] [LinearOrder K] in
theorem checkRootStreamed_eq_ok (r : Root K) :
    checkRootStreamed principals r = .ok () ↔ r.id ∈ principals.map Principal.id := by
  unfold checkRootStreamed
  split_ifs with hin <;> simp [hin]

omit [Field K] [LinearOrder K] in
theorem checkClaim_eq_ok (c : AttestationClaims) : checkClaim principals c = .ok () ↔
      c.issuer ∈ principals.map Principal.id ∧
        (((kindByDID principals).lookup c.issuer).getD .unset = .issuer ∨
          ((kindByDID principals).lookup c.issuer).getD .unset = .both) ∧
        c.subject ∈ principals.map Principal.id := by
  unfold checkClaim
  by_cases hissuer : c.issuer ∈ principals.map Principal.id
  · rw [if_neg (not_not.mpr hissuer)]
    by_cases hkind : ((kindByDID principals).lookup c.issuer).getD .unset = .issuer ∨
        ((kindByDID principals).lookup c.issuer).getD .unset = .both
    · simp only
      rw [if_neg (fun hne => hkind.elim hne.1 hne.2)]
      by_cases hsubject : c.subject ∈ principals.map Principal.id
      · rw [if_neg (not_not.mpr hsubject)]
        exact ⟨fun _ => ⟨hissuer, hkind, hsubject⟩, fun _ => rfl⟩
      · rw [if_pos hsubject]
        exact ⟨fun h => (nomatch h), fun h => absurd h.2.2 hsubject⟩
    · simp only
      rw [if_pos (not_or.mp hkind)]
      exact ⟨fun h => (nomatch h), fun h => absurd h.2.1 hkind⟩
  · rw [if_pos hissuer]
    exact ⟨fun h => (nomatch h), fun h => absurd h.1 hissuer⟩

theorem checkRootBootstrap_eq_ok (r : Root K) :
    checkRootBootstrap principals r = .ok () ↔ ∀ p, principals.find? (fun p => p.id = r.id) = some p →
        p.isBootstrap = true ∧ p.trustWeight = 1 := by
  unfold checkRootBootstrap
  cases principals.find? fun p => p.id = r.id with
  | none => simp
  | some p => by_cases hb : p.isBootstrap <;> by_cases hw : p.trustWeight = 1 <;> simp [hb, hw]

theorem checkComplete_eq_ok (st : StreamState K) : checkComplete st = .ok () ↔
      (∀ r ∈ st.roots, checkRootStreamed st.principals r = .ok ()) ∧
        (∀ c ∈ st.claims, checkClaim st.principals c = .ok ()) ∧
        ∀ r ∈ st.roots, checkRootBootstrap st.principals r = .ok () := by
  unfold checkComplete
  rw [seq_eq_ok, seq_eq_ok, forM_eq_ok, forM_eq_ok, forM_eq_ok]

variable [FloorRing K]

theorem serveRunVeriRank_eq_ok (decayAt : Time → Time → K) (chunks : List (RunChunk K))
    (table : ScoreTable) :
    serveRunVeriRank decayAt chunks = .ok table ↔
      ∃ st evalTime, chunks.foldlM recvChunk {} = .ok st ∧ st.evalTime = some evalTime ∧
        checkComplete st = .ok () ∧
        table = { runVeriRank decayAt (st.claims.map some) st.principals st.roots evalTime with
          rows := (runVeriRank decayAt (st.claims.map some) st.principals st.roots
            evalTime).rows.map (stampRow st.principals) } := by
  unfold serveRunVeriRank
  rw [bind_eq_ok]
  constructor
  · intro h
    obtain ⟨st, hst, hrun⟩ := h
    cases htime : st.evalTime with
    | none =>
      rw [htime] at hrun
      cases hrun
    | some evalTime =>
      rw [htime] at hrun
      obtain ⟨_, hcheck, htable⟩ := bind_eq_ok.mp hrun
      exact ⟨st, evalTime, hst, htime, hcheck, (Except.ok.inj htable).symm⟩
  · intro h
    obtain ⟨st, evalTime, hst, htime, hcheck, htable⟩ := h
    refine ⟨st, hst, ?_⟩
    rw [htime]
    exact bind_eq_ok.mpr ⟨(), hcheck, congrArg Except.ok htable.symm⟩

theorem serveRunVeriRank_row_streamed (decayAt : Time → Time → K) (chunks : List (RunChunk K))
    (table : ScoreTable) (h : serveRunVeriRank decayAt chunks = .ok table) (row : ScoreRow)
    (hrow : row ∈ table.rows) : row.principalId ∈ principalIds chunks := by
  obtain ⟨st, evalTime, hst, -, hcheck, rfl⟩ := (serveRunVeriRank_eq_ok _ _ _).mp h
  obtain ⟨hroots, hclaims, -⟩ := (checkComplete_eq_ok st).mp hcheck
  rw [← recvChunks_principals chunks st hst]
  obtain ⟨engineRow, hmem, rfl⟩ := List.mem_map.mp hrow
  rcases propagate_row_cases _ _ _ _ _ engineRow hmem with hroot | hsubject
  · obtain ⟨r, hr, hid⟩ := List.mem_map.mp hroot
    exact hid ▸ (checkRootStreamed_eq_ok _ r).mp (hroots r hr)
  · obtain ⟨e, he, hid⟩ := List.mem_map.mp hsubject
    obtain ⟨_, hsome, hedge⟩ := List.mem_filterMap.mp he
    obtain ⟨c, hc, rfl⟩ := List.mem_map.mp hsome
    change engineRow.principalId ∈ _
    rw [← hid, claimEdge_subject evalTime c e hedge]
    exact ((checkClaim_eq_ok _ c).mp (hclaims c hc)).2.2

end Spec

section Accept

variable {K : Type} [Field K] [LinearOrder K]

def WirePrincipal.collected (p : WirePrincipal K) : Principal K :=
  ⟨p.id, (EntityKind.ofText p.entityKind).getD .unset, p.trustWeight, p.isBootstrap⟩

def WirePrincipal.Admissible (p : WirePrincipal K) : Prop :=
  p.id ≠ "" ∧ (EntityKind.ofText p.entityKind).isSome ∧ 0 ≤ p.trustWeight ∧ p.trustWeight ≤ 1

def Root.Admissible (r : Root K) : Prop := r.id ≠ "" ∧ 0 ≤ r.weight ∧ r.weight ≤ 1

def WireAttestation.Admissible (a : WireAttestation) : Prop :=
  a.issuerId ≠ "" ∧ a.subjectId ≠ "" ∧ a.issuedAtUnix ≠ 0

theorem foldlM_recv_principals (ps : List (WirePrincipal K)) (st : StreamState K)
    (htime : st.evalTime.isSome) (hadm : ∀ p ∈ ps, p.Admissible)
    (hnodup : (st.principals.map Principal.id ++ ps.map WirePrincipal.id).Nodup) :
    (ps.map RunChunk.principal).foldlM recvChunk st =
      .ok { st with principals := st.principals ++ ps.map WirePrincipal.collected } := by
  induction ps generalizing st with
  | nil => simp [pure, Except.pure]
  | cons p ps ih =>
    obtain ⟨hid, hkind, hlow, hhigh⟩ := hadm p List.mem_cons_self
    obtain ⟨kind, hkind⟩ := Option.isSome_iff_exists.mp hkind
    have hfresh : p.id ∉ st.principals.map Principal.id := by
      intro hmem
      exact (List.nodup_append.mp hnodup).2.2 _ hmem p.id List.mem_cons_self rfl
    have hstep : recvChunk st (.principal p) =
        .ok { st with principals := st.principals ++ [p.collected] } := by
      simp [recvChunk, WirePrincipal.collected, Option.isNone_iff_eq_none,
        Option.isSome_iff_ne_none.mp htime, hid, hfresh, hkind, not_lt.mpr hlow,
        not_lt.mpr hhigh]
    rw [List.map_cons, List.foldlM_cons, hstep]
    refine (ih { st with principals := st.principals ++ [p.collected] } htime
      (fun q hq => hadm q (List.mem_cons_of_mem _ hq)) ?_).trans ?_
    · simpa [WirePrincipal.collected] using hnodup
    · simp

theorem foldlM_recv_roots (rs : List (Root K)) (st : StreamState K)
    (htime : st.evalTime.isSome) (hadm : ∀ r ∈ rs, r.Admissible)
    (hnodup : (st.roots.map Root.id ++ rs.map Root.id).Nodup) :
    (rs.map RunChunk.root).foldlM recvChunk st = .ok { st with roots := st.roots ++ rs } := by
  induction rs generalizing st with
  | nil => simp [pure, Except.pure]
  | cons r rs ih =>
    obtain ⟨hid, hlow, hhigh⟩ := hadm r List.mem_cons_self
    have hfresh : r.id ∉ st.roots.map Root.id := by
      intro hmem
      exact (List.nodup_append.mp hnodup).2.2 _ hmem r.id List.mem_cons_self rfl
    have hstep : recvChunk st (.root r) = .ok { st with roots := st.roots ++ [r] } := by
      simp [recvChunk, Option.isNone_iff_eq_none, Option.isSome_iff_ne_none.mp htime, hid,
        hfresh, not_lt.mpr hlow, not_lt.mpr hhigh]
    rw [List.map_cons, List.foldlM_cons, hstep]
    refine (ih { st with roots := st.roots ++ [r] } htime
      (fun q hq => hadm q (List.mem_cons_of_mem _ hq)) ?_).trans ?_
    · simpa using hnodup
    · simp

theorem foldlM_recv_attestations (as : List WireAttestation) (st : StreamState K)
    (htime : st.evalTime.isSome) (hadm : ∀ a ∈ as, a.Admissible) :
    (as.map RunChunk.attestation).foldlM recvChunk st =
      .ok { st with claims := st.claims ++ as.map protoAttestationToClaims } := by
  induction as generalizing st with
  | nil => simp [pure, Except.pure]
  | cons a as ih =>
    obtain ⟨hissuer, hsubject, hissued⟩ := hadm a List.mem_cons_self
    have hstep : recvChunk st (.attestation a) =
        .ok { st with claims := st.claims ++ [protoAttestationToClaims a] } := by
      simp [recvChunk, Option.isNone_iff_eq_none, Option.isSome_iff_ne_none.mp htime, hissuer,
        hsubject, hissued]
    rw [List.map_cons, List.foldlM_cons, hstep]
    refine (ih { st with claims := st.claims ++ [protoAttestationToClaims a] } htime
      fun q hq => hadm q (List.mem_cons_of_mem _ hq)).trans ?_
    simp

end Accept

end Verilink.Trust

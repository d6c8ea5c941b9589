import Verilink.Trust.Compare
import Verilink.Trust.Server

/-!
# The order of the chunks

After its header a stream is accepted or refused for what it contains, whatever the order: each
chunk must be admissible by itself and no id may come twice.
-/

namespace Verilink.Trust

open Verilink.Framework

section Collect

variable {K : Type}

def claimsOf (chunks : List (RunChunk K)) : List AttestationClaims :=
  chunks.filterMap fun
    | .attestation a => some (protoAttestationToClaims a)
    | _ => none

def principalsOf (chunks : List (RunChunk K)) : List (Principal K) :=
  chunks.filterMap fun
    | .principal p => some p.collected
    | _ => none

def rootsOf (chunks : List (RunChunk K)) : List (Root K) :=
  chunks.filterMap fun
    | .root r => some r
    | _ => none

def StreamState.collect (st : StreamState K) (chunks : List (RunChunk K)) : StreamState K :=
  { st with
    claims := st.claims ++ claimsOf chunks
    principals := st.principals ++ principalsOf chunks
    roots := st.roots ++ rootsOf chunks }

structure StreamState.Distinct (st : StreamState K) : Prop where
  principals : (st.principals.map Principal.id).Nodup
  roots : (st.roots.map Root.id).Nodup

theorem StreamState.collect_nil (st : StreamState K) : st.collect [] = st := by
  simp [StreamState.collect, claimsOf, principalsOf, rootsOf]

theorem StreamState.collect_cons (st : StreamState K) (c : RunChunk K)
    (cs : List (RunChunk K)) : st.collect (c :: cs) = (st.collect [c]).collect cs := by
  cases c <;> simp [StreamState.collect, claimsOf, principalsOf, rootsOf]

theorem StreamState.Distinct.of_collect {st : StreamState K} {chunks : List (RunChunk K)}
    (h : (st.collect chunks).Distinct) : st.Distinct := by
  constructor
  · exact List.Nodup.sublist ((List.sublist_append_left _ _).map _) h.principals
  · exact List.Nodup.sublist ((List.sublist_append_left _ _).map _) h.roots

theorem StreamState.distinct_collect_attestation (st : StreamState K) (a : WireAttestation) :
    (st.collect [.attestation a]).Distinct ↔ st.Distinct := by
  constructor
  · exact StreamState.Distinct.of_collect
  · intro h
    exact ⟨by simpa [StreamState.collect, principalsOf] using h.principals,
      by simpa [StreamState.collect, rootsOf] using h.roots⟩

theorem StreamState.distinct_collect_principal {st : StreamState K} (h : st.Distinct)
    (p : WirePrincipal K) :
    (st.collect [.principal p]).Distinct ↔ p.id ∉ st.principals.map Principal.id := by
  have hids : (st.collect [.principal p]).principals.map Principal.id =
      (st.principals.map Principal.id).concat p.id := by
    simp [StreamState.collect, principalsOf, WirePrincipal.collected]
  have hroots : (st.collect [.principal p]).roots = st.roots := by
    simp [StreamState.collect, rootsOf]
  constructor
  · intro hd
    have hnodup := hd.principals
    rw [hids, List.nodup_concat] at hnodup
    exact hnodup.1
  · intro hfresh
    refine ⟨?_, hroots.symm ▸ h.roots⟩
    rw [hids, List.nodup_concat]
    exact ⟨hfresh, h.principals⟩

theorem StreamState.distinct_collect_root {st : StreamState K} (h : st.Distinct) (r : Root K) :
    (st.collect [.root r]).Distinct ↔ r.id ∉ st.roots.map Root.id := by
  have hids : (st.collect [.root r]).roots.map Root.id = (st.roots.map Root.id).concat r.id := by
    simp [StreamState.collect, rootsOf]
  have hprincipals : (st.collect [.root r]).principals = st.principals := by
    simp [StreamState.collect, principalsOf]
  constructor
  · intro hd
    have hnodup := hd.roots
    rw [hids, List.nodup_concat] at hnodup
    exact hnodup.1
  · intro hfresh
    refine ⟨hprincipals.symm ▸ h.principals, ?_⟩
    rw [hids, List.nodup_concat]
    exact ⟨hfresh, h.roots⟩

end Collect

section Accept

variable {K : Type} [Field K] [LinearOrder K]

/-- What a chunk after the header is checked for by itself. -/
def RunChunk.Admissible : RunChunk K → Prop
  | .attestation a => a.Admissible
  | .principal p => p.Admissible
  | .root r => r.Admissible
  | .empty => False
  | .header _ => False

theorem recvChunk_eq_ok (st st' : StreamState K) (c : RunChunk K) (htime : st.evalTime.isSome)
    (hst : st.Distinct) :
    recvChunk st c = .ok st' ↔
      c.Admissible ∧ (st.collect [c]).Distinct ∧ st' = st.collect [c] := by
  have hnone : ¬ st.evalTime.isNone = true := by
    simpa [Option.isSome_iff_ne_none] using htime
  cases c with
  | empty => simp [recvChunk, RunChunk.Admissible]
  | header unix => simp [recvChunk, RunChunk.Admissible, htime]
  | attestation a =>
    have hcollect : st.collect [.attestation a] =
        { st with claims := st.claims ++ [protoAttestationToClaims a] } := by
      simp [StreamState.collect, claimsOf, principalsOf, rootsOf]
    rw [st.distinct_collect_attestation, hcollect]
    simp only [recvChunk, if_neg hnone, RunChunk.Admissible, WireAttestation.Admissible]
    split_ifs with hids hissued
    · simp only [false_iff]
      tauto
    · simp [hissued]
    · rw [Except.ok.injEq]
      tauto
  | principal p =>
    rw [StreamState.distinct_collect_principal hst]
    cases hkind : EntityKind.ofText p.entityKind with
    | none =>
      simp only [recvChunk, if_neg hnone, hkind]
      split_ifs <;> simp [RunChunk.Admissible, WirePrincipal.Admissible, hkind]
    | some kind =>
      have hcollect : st.collect [.principal p] = { st with
          principals := st.principals ++ [⟨p.id, kind, p.trustWeight, p.isBootstrap⟩] } := by
        simp [StreamState.collect, claimsOf, principalsOf, rootsOf, WirePrincipal.collected, hkind]
      rw [hcollect]
      simp only [recvChunk, if_neg hnone, hkind, RunChunk.Admissible, WirePrincipal.Admissible,
        Option.isSome_some]
      split_ifs with hid hdup hweight
      · simp [hid]
      · simp [hdup]
      · simp only [false_iff]
        rintro ⟨⟨-, -, hlow, hhigh⟩, -⟩
        exact hweight.elim (not_lt.mpr hlow) (not_lt.mpr hhigh)
      · simp only [not_or, not_lt] at hweight
        rw [Except.ok.injEq]
        tauto
  | root r =>
    have hcollect : st.collect [.root r] = { st with roots := st.roots ++ [r] } := by
      simp [StreamState.collect, claimsOf, principalsOf, rootsOf]
    rw [StreamState.distinct_collect_root hst, hcollect]
    simp only [recvChunk, if_neg hnone, RunChunk.Admissible, Root.Admissible]
    split_ifs with hid hdup hweight
    · simp [hid]
    · simp [hdup]
    · simp only [false_iff]
      rintro ⟨⟨-, hlow, hhigh⟩, -⟩
      exact hweight.elim (not_lt.mpr hlow) (not_lt.mpr hhigh)
    · simp only [not_or, not_lt] at hweight
      rw [Except.ok.injEq]
      tauto

theorem foldlM_recvChunk_eq_ok (chunks : List (RunChunk K)) (st st' : StreamState K)
    (htime : st.evalTime.isSome) (hst : st.Distinct) :
    chunks.foldlM recvChunk st = .ok st' ↔
      (∀ c ∈ chunks, c.Admissible) ∧ (st.collect chunks).Distinct ∧ st' = st.collect chunks := by
  induction chunks generalizing st with
  | nil =>
    rw [st.collect_nil]
    simp [hst, pure, Except.pure, eq_comm]
  | cons c cs ih =>
    rw [List.foldlM_cons, bind_eq_ok, List.forall_mem_cons, st.collect_cons c cs]
    constructor
    · intro ⟨t, hc, hcs⟩
      obtain ⟨hadm, hdist, rfl⟩ := (recvChunk_eq_ok st t c htime hst).mp hc
      obtain ⟨hadms, hdists, hst'⟩ := (ih (st.collect [c]) htime hdist).mp hcs
      exact ⟨⟨hadm, hadms⟩, hdists, hst'⟩
    · intro ⟨⟨hadm, hadms⟩, hdists, hst'⟩
      have hdist := hdists.of_collect
      refine ⟨st.collect [c], (recvChunk_eq_ok st _ c htime hst).mpr ⟨hadm, hdist, rfl⟩, ?_⟩
      exact (ih (st.collect [c]) htime hdist).mpr ⟨hadms, hdists, hst'⟩

end Accept

section Engine

variable {K : Type} [Field K] [LinearOrder K]

theorem Graph.actsAlike_of_perm (g : Graph K) {edges' : List Edge} (h : g.edges.Perm edges')
    (st : HopState K) : g.ActsAlike { g with edges := edges' } st := by
  have hblack : ∀ v, v ∈ g.blacklistedThisHop st.scores ↔
      v ∈ Graph.blacklistedThisHop { g with edges := edges' } st.scores := by
    intro v
    rw [Graph.mem_blacklistedThisHop, Graph.mem_blacklistedThisHop]
    simp only [h.mem_iff]
  refine ⟨hblack, ?_⟩
  intro v _ c _
  have hlends : ∀ e, g.lends st e = Graph.lends { g with edges := edges' } st e := by
    intro e
    unfold Graph.lends Graph.contribution
    simp only [hblack]
    rfl
  unfold Graph.Offers
  simp only [h.mem_iff, hlends]

theorem checkComplete_perm {st st' : StreamState K} (hclaims : st.claims.Perm st'.claims)
    (hprincipals : st.principals.Perm st'.principals) (hroots : st.roots.Perm st'.roots)
    (hids : (st.principals.map Principal.id).Nodup) :
    checkComplete st = .ok () ↔ checkComplete st' = .ok () := by
  have hkinds : kindByDID st.principals = kindByDID st'.principals :=
    foldl_insert_perm Principal.id Principal.entityKind hprincipals hids
  have hmem : ∀ id, id ∈ st.principals.map Principal.id ↔ id ∈ st'.principals.map Principal.id :=
    fun id => (hprincipals.map Principal.id).mem_iff
  have hfind : ∀ id, st.principals.find? (fun p => p.id = id) =
      st'.principals.find? fun p => p.id = id :=
    fun id => find?_key_perm Principal.id hprincipals hids id
  simp only [checkComplete_eq_ok, checkRootStreamed_eq_ok, checkClaim_eq_ok,
    checkRootBootstrap_eq_ok, hclaims.mem_iff, hroots.mem_iff, hkinds, hmem, hfind]

variable [FloorRing K]

/-- The engine reads its three lists as sets, as long as no id comes twice. -/
theorem runVeriRank_perm (decayAt : Time → Time → K) {claims claims' : List (Option AttestationClaims)}
    {principals principals' : List (Principal K)} {roots roots' : List (Root K)}
    (hclaims : claims.Perm claims') (hprincipals : principals.Perm principals')
    (hroots : roots.Perm roots') (hids : (principals.map Principal.id).Nodup)
    (hrootIds : (roots.map Root.id).Nodup) (evaluationTime : Time) :
    runVeriRank decayAt claims principals roots evaluationTime =
      runVeriRank decayAt claims' principals' roots' evaluationTime := by
  have hweights : weightByDID principals = weightByDID principals' :=
    foldl_insert_perm Principal.id Principal.trustWeight hprincipals hids
  have hkinds : kindByDID principals = kindByDID principals' :=
    foldl_insert_perm Principal.id Principal.entityKind hprincipals hids
  have hinit : initialScores roots = initialScores roots' :=
    foldl_insert_perm Root.id Root.initialScore hroots hrootIds
  apply propagate_eq_of_agree evaluationTime hkinds
  rw [propagateScores_eq_stateAt, propagateScores_eq_stateAt]
  apply Graph.agree_stateAt hinit
  intro k _
  unfold propagateGraph
  rw [← hweights]
  exact Graph.actsAlike_of_perm _ (hclaims.filterMap _) _

end Engine

section Main

variable {K : Type} [Field K] [LinearOrder K] [FloorRing K]

omit [Field K] [LinearOrder K] [FloorRing K] in
theorem stampRow_congr {principals principals' : List (Principal K)}
    (h : kindByDID principals = kindByDID principals') :
    stampRow principals = stampRow principals' := by
  funext row
  simp only [stampRow, h]

def servedTable (decayAt : Time → Time → K) (st : StreamState K) (evalTime : Time) : ScoreTable :=
  let table := runVeriRank decayAt (st.claims.map some) st.principals st.roots evalTime
  { table with rows := table.rows.map (stampRow st.principals) }

variable (decayAt : Time → Time → K)

theorem servedTable_perm {st st' : StreamState K}
    (hclaims : st.claims.Perm st'.claims) (hprincipals : st.principals.Perm st'.principals)
    (hroots : st.roots.Perm st'.roots) (hst : st.Distinct) (evalTime : Time) :
    servedTable decayAt st evalTime = servedTable decayAt st' evalTime := by
  have hkinds : kindByDID st.principals = kindByDID st'.principals :=
    foldl_insert_perm Principal.id Principal.entityKind hprincipals hst.principals
  unfold servedTable
  rw [runVeriRank_perm decayAt (hclaims.map some) hprincipals hroots hst.principals hst.roots,
    stampRow_congr hkinds]

def headerState (t : Int) : StreamState K := { evalTime := some (t * 1000000000) }

omit [Field K] [LinearOrder K] [FloorRing K] in
theorem headerState_distinct (t : Int) : (headerState t : StreamState K).Distinct :=
  ⟨List.nodup_nil, List.nodup_nil⟩

theorem serveRunVeriRank_header_eq_ok (t : Int) (rest : List (RunChunk K)) (table : ScoreTable) :
    serveRunVeriRank decayAt (.header t :: rest) = .ok table ↔
      t ≠ 0 ∧ (∀ c ∈ rest, c.Admissible) ∧ ((headerState t).collect rest).Distinct ∧
        checkComplete ((headerState t).collect rest) = .ok () ∧
        table = servedTable decayAt ((headerState t).collect rest) (t * 1000000000) := by
  rw [serveRunVeriRank_eq_ok]
  by_cases ht : t = 0
  · subst ht
    simp [recvChunk, bind, Except.bind]
  · have hheader : recvChunk ({} : StreamState K) (.header t) = .ok (headerState t) := by
      simp [recvChunk, ht, headerState]
    simp only [foldlM_cons_of_ok rest hheader,
      foldlM_recvChunk_eq_ok rest (headerState t) _ rfl (headerState_distinct t)]
    constructor
    · rintro ⟨st, evalTime, ⟨hadm, hdist, rfl⟩, htime, hcheck, htable⟩
      cases htime
      exact ⟨ht, hadm, hdist, hcheck, htable⟩
    · rintro ⟨-, hadm, hdist, hcheck, htable⟩
      exact ⟨_, _, ⟨hadm, hdist, rfl⟩, rfl, hcheck, htable⟩

theorem serveRunVeriRank_ok_of_perm (t : Int)
    {rest rest' : List (RunChunk K)} (h : rest.Perm rest') {table : ScoreTable}
    (hok : serveRunVeriRank decayAt (.header t :: rest) = .ok table) :
    serveRunVeriRank decayAt (.header t :: rest') = .ok table := by
  rw [serveRunVeriRank_header_eq_ok] at hok ⊢
  obtain ⟨ht, hadm, hdist, hcheck, rfl⟩ := hok
  have hclaims : (claimsOf rest).Perm (claimsOf rest') := h.filterMap _
  have hprincipals : (principalsOf rest).Perm (principalsOf rest') := h.filterMap _
  have hroots : (rootsOf rest).Perm (rootsOf rest') := h.filterMap _
  have hdist' : ((headerState t).collect rest').Distinct :=
    ⟨(hprincipals.map _).nodup hdist.principals, (hroots.map _).nodup hdist.roots⟩
  refine ⟨ht, fun c hc => hadm c (h.mem_iff.mpr hc), hdist', ?_, ?_⟩
  · exact (checkComplete_perm hclaims hprincipals hroots hdist.principals).mp hcheck
  · exact servedTable_perm decayAt hclaims hprincipals hroots hdist _

/-- Permuting the chunks after the header changes neither the verdict nor the table. -/
theorem serveRunVeriRank_perm (decayAt : Time → Time → K) (t : Int)
    (rest rest' : List (RunChunk K)) (h : rest.Perm rest') :
    (serveRunVeriRank decayAt (.header t :: rest)).toOption =
      (serveRunVeriRank decayAt (.header t :: rest')).toOption := by
  apply Option.ext
  intro table
  have hok : ∀ chunks, (serveRunVeriRank decayAt chunks).toOption = some table ↔
      serveRunVeriRank decayAt chunks = .ok table := by
    intro chunks
    cases serveRunVeriRank decayAt chunks <;> simp [Except.toOption]
  rw [hok, hok]
  exact ⟨serveRunVeriRank_ok_of_perm decayAt t h, serveRunVeriRank_ok_of_perm decayAt t h.symm⟩

def oneAgentChunks : List (RunChunk ℚ) :=
  [.root ⟨"r", 1⟩, .principal ⟨"r", "issuer", 1, true⟩, .principal ⟨"a", "agent", 1, false⟩,
    .attestation ⟨"r", "a", 100, 1⟩]

theorem serveRunVeriRank_perm_oneAgent :
    (serveRunVeriRank (fun _ _ => 1) (.header 1 :: oneAgentChunks)).toOption =
      (serveRunVeriRank (fun _ _ => 1) (.header 1 :: oneAgentChunks.reverse)).toOption :=
  serveRunVeriRank_perm _ 1 oneAgentChunks _ (List.reverse_perm _).symm

example : (serveRunVeriRank (fun _ _ => 1) (.header 1 :: oneAgentChunks)).toOption.isSome = true := by
  decide

end Main

end Verilink.Trust

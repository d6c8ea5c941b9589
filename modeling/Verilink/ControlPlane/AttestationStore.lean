import Verilink.ControlPlane.ObservationGroups
import Verilink.ControlPlane.Submission
import Verilink.Framework.GuardedInsert

/-!
# Storing attestations

The transaction of `submitAttestation`, in all interleavings: a token is stored once, and what is
paired by an observation agrees.
-/

namespace Verilink.ControlPlane

open Verilink.Framework

/-- A row of `attestations` with its token. The column of the delta holds integers. -/
structure StoredAttestation where
  id : Uuid
  new : NewAttestation
  trustDelta : Int
  deriving DecidableEq

namespace StoredAttestation

/-- The columns that scoring reads. An empty observation id is stored as `NULL`. -/
def row (a : StoredAttestation) : AttestationRow where
  id := a.id
  issuerId := a.new.issuerId
  subjectId := a.new.subjectId
  trustDelta := a.trustDelta
  issuedAt := a.new.issuedAt
  expiresAt := a.new.expiresAt
  attestationType := a.new.attestationType
  observationId := if a.new.observationId = "" then none else some a.new.observationId
  visibility := a.new.visibility
  supersededBy := none
  bootstrapOrigin := false

/-- What a submission can come to store: its checks have passed, and the columns can hold it. -/
def Admissible (node : Node) (a : StoredAttestation) : Prop :=
  (∃ view, prepareAttestation node view a.new.jwsToken = .ok a.new) ∧ a.new.trustDelta = a.trustDelta ∧
    storable a.new.issuerId = true ∧ storable a.new.subjectId = true ∧
      storable a.new.observationId = true

end StoredAttestation

/-- `findObservationPeer` locks by a hash of the three ids, and only for a token with an
observation; `hashToLockKey` is a parameter. -/
def attestationGuard (hashToLockKey : String → Int × Int) :
    Guard StoredAttestation String (String × String × String) (Int × Int) (String × ℚ) where
  unique a := a.new.tokenDigest
  group a :=
    if a.new.observationId =
      "" then none else some (a.new.issuerId, a.new.subjectId, a.new.observationId)
  lock k := hashToLockKey (k.1 ++ ":" ++ k.2.1 ++ ":" ++ k.2.2)
  value a := (a.new.attestationType, a.new.trustDelta)

/-- All interleavings of submissions. -/
def submissions (node : Node) (hashToLockKey : String → Int × Int) :
    System (Inserts Nat StoredAttestation) (Nat × InsertOp StoredAttestation) :=
  Inserts.system Nat (attestationGuard hashToLockKey) (StoredAttestation.Admissible node)

/-! ## Observations -/

theorem toList_ne_nul {s : String} (h : storable s = true) : '\x00' ∉ s.toList := by
  intro hmem
  have := List.all_eq_true.mp h _ hmem
  simp at this

theorem groupKey_inj {a b : AttestationRow} (ha : storable a.issuerId = true)
    (ha' : storable a.subjectId = true)
    (hb : storable b.issuerId = true) (hb' : storable b.subjectId = true) (h : groupKey a = groupKey b) :
    a.issuerId = b.issuerId ∧ a.subjectId = b.subjectId ∧ observationKey a = observationKey b := by
  have hid := (groupKey_eq_iff ⟨toList_ne_nul ha, toList_ne_nul ha'⟩ ⟨toList_ne_nul hb,
      toList_ne_nul hb'⟩).mp h
  simpa only [observationIdentity, Prod.mk.injEq] using hid

theorem observationKey_row (a : StoredAttestation) :
    observationKey a.row = jsTrim a.new.observationId := by
  rw [observationKey, StoredAttestation.row]
  split_ifs with h
  · rw [h]
    rfl
  · rfl

def SpelledAlike (a b : StoredAttestation) : Prop :=
  a.new.issuerId = b.new.issuerId → a.new.subjectId = b.new.subjectId →
    jsTrim a.new.observationId = jsTrim b.new.observationId → jsTrim a.new.observationId ≠ "" →
      a.new.observationId = b.new.observationId

/-- A submission spells its observation as those that are stored or under way. -/
def OneSpelling (s : Inserts Nat StoredAttestation) : Nat × InsertOp StoredAttestation → Prop
  | (_, .begin a) => ∀ r, s.Known r → SpelledAlike r a
  | _ => True

variable {node : Node} {hashToLockKey : String → Int × Int} {s : Inserts Nat StoredAttestation}

variable {ok : Inserts Nat StoredAttestation → Nat × InsertOp StoredAttestation → Prop}
  {a : StoredAttestation}
  {p : TokenParts} {view : SubmissionView}

theorem agreeing_of_reachable (h : (submissions node hashToLockKey).ReachableVia ok s) :
    s.Agreeing (attestationGuard hashToLockKey) := by
  have hinit : ∀ s, (submissions node hashToLockKey).init s →
      s.Agreeing (attestationGuard hashToLockKey) := by
    intro s hs
    rw [show s = {} from hs]
    exact .init
  exact h.invariant hinit fun _ _ _ hs _ hstep => hs.step hstep

theorem admissible_of_mem (h : (submissions node hashToLockKey).ReachableVia ok s)
    (ha : a ∈ s.committed) :
    a.Admissible node :=
  Inserts.known_all (fun _ _ _ _ ha => ha) h a (.inl ha)

/-- The rows of a group of scoring agree on what they say. -/
theorem observation_group_agrees (h : (submissions node hashToLockKey).ReachableVia OneSpelling s)
    {rows : List AttestationRow} (hrows : ∀ r ∈ rows, r ∈ s.committed.map StoredAttestation.row)
    {g : String × List AttestationRow} (hg : g ∈ observationGroups rows) :
    ∀ r ∈ g.2, ∀ r' ∈ g.2, r.attestationType = r'.attestationType ∧ r.trustDelta = r'.trustDelta := by
  intro r hr r' hr'
  obtain ⟨hmem, hobs, hkey⟩ := mem_observationGroups hg hr
  obtain ⟨hmem', hobs', hkey'⟩ := mem_observationGroups hg hr'
  obtain ⟨a, ha, rfl⟩ := List.mem_map.mp (hrows r hmem)
  obtain ⟨b, hb, rfl⟩ := List.mem_map.mp (hrows r' hmem')
  obtain ⟨-, hdeltaA, hissuerA, hsubjectA, -⟩ := admissible_of_mem h ha
  obtain ⟨-, hdeltaB, hissuerB, hsubjectB, -⟩ := admissible_of_mem h hb
  obtain ⟨hissuer, hsubject, htrim⟩ :=
    groupKey_inj (a := a.row) (b := b.row) hissuerA hsubjectA hissuerB hsubjectB (hkey.trans hkey'.symm)
  rw [observationKey_row] at hobs
  rw [observationKey_row, observationKey_row] at htrim
  have hspelled : SpelledAlike a b := by
    have hsymm : ∀ a b, SpelledAlike a b → SpelledAlike b a := fun a b h h₁ h₂ h₃ h₄ =>
      (h h₁.symm h₂.symm h₃.symm (h₃ ▸ h₄)).symm
    exact Inserts.known_related hsymm (fun _ _ _ _ _ => rfl) (fun _ _ _ hok => hok) h a b (.inl ha)
      (.inl hb)
  have hid := hspelled hissuer hsubject htrim hobs
  have hne : a.new.observationId ≠ "" := by
    intro hempty
    rw [hempty] at hobs
    exact hobs rfl
  have hvalue : (a.new.attestationType, a.new.trustDelta) =
      (b.new.attestationType, b.new.trustDelta) := by
    refine (agreeing_of_reachable h).agree a ha b hb ?_ ?_
    · simp [attestationGuard, hne]
    · have hissuer : a.new.issuerId = b.new.issuerId := hissuer
      have hsubject : a.new.subjectId = b.new.subjectId := hsubject
      simp [attestationGuard, ← hid, hne, hissuer, hsubject]
  obtain ⟨htype, hdelta⟩ := Prod.mk.inj hvalue
  rw [hdeltaA, hdeltaB] at hdelta
  exact ⟨htype, Int.cast_injective hdelta⟩

/-! ## Tokens -/

theorem toList_of_splitToken {token : String} (h : splitToken token = some p) :
    token.toList = p.signedInput ++ '.' :: p.signatureB64 := by
  rw [splitToken] at h
  split at h
  · next header payload signature hsplit =>
      cases h
      have hjoin : ['.'].intercalate (token.toList.splitOn '.') = token.toList :=
        List.intercalate_splitOn '.'
      rw [← hjoin, hsplit]
      simp [TokenParts.signedInput, List.intercalate]
  · cases h

theorem acceptVerified_token {token : String} {kid : Option String} {result : VerifyResult}
    {new : NewAttestation} (h : acceptVerified node view token kid result = .ok new) :
    new.jwsToken = token ∧ new.tokenDigest = node.sha256hex token := by
  rw [acceptVerified] at h
  obtain ⟨version, -, h⟩ := bind_eq_ok.mp h
  obtain ⟨-, -, h⟩ := bind_eq_ok.mp h
  obtain ⟨-, -, h⟩ := bind_eq_ok.mp h
  obtain ⟨-, -, h⟩ := bind_eq_ok.mp h
  obtain ⟨visibility, -, h⟩ := bind_eq_ok.mp h
  obtain ⟨hash, -, h⟩ := bind_eq_ok.mp h
  obtain ⟨subjectId, -, h⟩ := bind_eq_ok.mp h
  cases h
  exact ⟨rfl, rfl⟩

theorem prepareAttestation_token {token : String} {new : NewAttestation}
    (h : prepareAttestation node view token = .ok new) :
    new.jwsToken = token ∧ new.tokenDigest = node.sha256hex token := by
  rw [prepareAttestation] at h
  obtain ⟨pre, -, h⟩ := bind_eq_ok.mp h
  obtain ⟨iss, -, h⟩ := bind_eq_ok.mp h
  obtain ⟨iat, -, h⟩ := bind_eq_ok.mp h
  obtain ⟨-, -, h⟩ := bind_eq_ok.mp h
  obtain ⟨-, -, h⟩ := bind_eq_ok.mp h
  obtain ⟨seconds, -, h⟩ := bind_eq_ok.mp h
  obtain ⟨keys, -, h⟩ := bind_eq_ok.mp h
  obtain ⟨-, -, h⟩ := bind_eq_ok.mp h
  obtain ⟨result, -, h⟩ := bind_eq_ok.mp h
  exact acceptVerified_token h

def CanonicalSignature (a : StoredAttestation) : Prop :=
  ∀ p, splitToken a.new.jwsToken = some p → p.signatureB64 = Base64.encodeRawURL p.signature

/-- Two tokens with one signed input have one signature. -/
def SignedAlike (a b : StoredAttestation) : Prop :=
  ∀ p q, splitToken a.new.jwsToken = some p → splitToken b.new.jwsToken = some q →
    p.signedInput = q.signedInput → p.signature = q.signature

/-- A submission writes its signature as encoders do, and a statement that is stored or under way
comes with the signature it has there. -/
def OneSignature (s : Inserts Nat StoredAttestation) : Nat × InsertOp StoredAttestation → Prop
  | (_, .begin a) => CanonicalSignature a ∧ ∀ r, s.Known r → SignedAlike r a
  | _ => True

/-- The signed inputs of two tokens are different. -/
def SignedApart (a b : StoredAttestation) : Prop :=
  ∀ p q, splitToken a.new.jwsToken = some p → splitToken b.new.jwsToken = some q →
    p.signedInput ≠ q.signedInput

theorem unique_of_reachable (h : (submissions node hashToLockKey).ReachableVia ok s) :
    s.Unique (attestationGuard hashToLockKey) := by
  have hinit : ∀ s, (submissions node hashToLockKey).init s →
      s.Unique (attestationGuard hashToLockKey) := by
    intro s hs
    rw [show s = {} from hs]
    exact .init
  exact h.invariant hinit fun _ _ _ hs _ hstep => hs.step hstep

/-- A signed statement is stored once. -/
theorem signed_input_once (h : (submissions node hashToLockKey).ReachableVia OneSignature s) :
    s.committed.Pairwise SignedApart := by
  refine (unique_of_reachable h).committed.imp_of_mem ?_
  intro a b ha hb hdigest p q hp hq hinput
  have hcanonical : ∀ r, s.Known r → CanonicalSignature r :=
    Inserts.known_all (fun _ _ _ hok _ => hok.1) h
  have hsignature : p.signature = q.signature := by
    have hsymm : ∀ a b, SignedAlike a b → SignedAlike b a := fun a b h p q hp hq heq =>
      (h q p hq hp heq.symm).symm
    have hself : ∀ a, SignedAlike a a := by
      intro a p q hp hq _
      rw [hp] at hq
      cases hq
      rfl
    exact Inserts.known_related hsymm hself (fun _ _ _ hok => hok.2) h a b (.inl ha)
      (.inl hb) p q hp hq hinput
  have htext : p.signatureB64 = q.signatureB64 := by
    rw [hcanonical a (.inl ha) p hp, hcanonical b (.inl hb) q hq, hsignature]
  -- One signed input and one text of the signature make one token, which has one digest.
  have htoken : a.new.jwsToken = b.new.jwsToken := by
    apply String.toList_inj.mp
    rw [toList_of_splitToken hp, toList_of_splitToken hq, hinput, htext]
  obtain ⟨⟨viewA, hviewA⟩, -⟩ := admissible_of_mem h ha
  obtain ⟨⟨viewB, hviewB⟩, -⟩ := admissible_of_mem h hb
  apply hdigest
  change a.new.tokenDigest = b.new.tokenDigest
  rw [(prepareAttestation_token hviewA).2, (prepareAttestation_token hviewB).2, htoken]

/-! ## A small intake -/

/-- A runtime with a scheme in which 64 zero bytes sign everything. -/
def zeroNode : Node where
  stringOf _ := ""
  numberOf _ := none
  verify _ _ signature := signature = List.replicate 64 0
  sha256hex := id
  computeFactsHash _ := .ok ""
  fracText := Json.noFracs

/-- One issuer with one key. -/
def oneIssuer : SubmissionView where
  db :=
    { Database.empty with
      principals := ⟨[⟨"i", .issuer, none, none, .active⟩], List.pairwise_singleton _ _⟩
      principalKeys :=
        ⟨[⟨"i", "k1", List.replicate 32 0, "h", 0, none, none⟩], List.pairwise_singleton _ _⟩
      issuers := ⟨[⟨"i", 1, none⟩], List.pairwise_singleton _ _⟩ }
  now := 0
  legacy := ⟨[], true⟩
  findOrCreateByLegacyDID := id

def smallSubject : String := "vrl:p:00000000-0000-0000-0000-000000000000"

def smallHeader : Json := .obj [("alg", .str "EdDSA"), ("kid", .str "k1")]

/-- What a small token says. -/
structure Statement where
  type : String
  facts : Facts
  delta : Int
  observationId : String

namespace Statement

def payload (st : Statement) : Json :=
  .obj [("iss", .str "i"), ("sub", .str smallSubject), ("iat", .int 1),
    ("vli", .obj [("type", .str st.type), ("facts", .obj st.facts), ("trust_level_delta", .int st.delta),
      ("schema_version", .str "1"), ("visibility", .str "public"),
        ("observation_id", .str st.observationId)])]

def token (st : Statement) (signatureB64 : List Char) :
    String := compactToken smallHeader st.payload signatureB64

def new (st : Statement) (signatureB64 : List Char) : NewAttestation where
  issuerId := "i"
  subjectId := smallSubject
  jwsToken := st.token signatureB64
  tokenDigest := st.token signatureB64
  visibility := .isPublic
  trustDelta := st.delta
  attestationType := st.type
  observationId := st.observationId
  issuedAt := 1000
  expiresAt := none
  verifiedKeyId := "k1"

def stored (st : Statement) (id : Uuid) (signatureB64 : List Char) : StoredAttestation :=
  ⟨id, st.new signatureB64, st.delta⟩

structure Fits (st : Statement) : Prop where
  payload : Json.fracFree st.payload = true ∧ Json.lastMembers st.payload = st.payload
  schema : validateSchema Json.noFracs oneIssuer.legacy st.type "1" (.obj st.facts) "i" = .ok ()
  delta : checkDelta st.type st.delta = .ok ()
  observationId : storable st.observationId = true

end Statement

def zeroSignature : List Char := Base64.encodeRawURL (List.replicate 64 0)

/-- The last character has four bits that belong to no byte. -/
def looseSignature : List Char := List.replicate 85 'A' ++ ['B']

theorem smallHeader_plain : Json.fracFree smallHeader = true ∧
    Json.lastMembers smallHeader = smallHeader := ⟨by decide, rfl⟩

variable {st : Statement} {signatureB64 : List Char}

theorem verify_small (hfits : st.Fits) (hdot : '.' ∉ signatureB64)
    (hzero : Base64.nodeDecode signatureB64 = List.replicate 64 0) :
    verifyAttestation zeroNode 0 (st.token signatureB64) [⟨"k1", List.replicate 32 0⟩] =
      .ok ⟨"k1", "i", smallSubject,
        ⟨st.type, .obj st.facts, some st.delta, 1, 0, "", "1", some "public", st.observationId⟩⟩ := by
  rw [verifyAttestation, Statement.token, parseJws_compactToken hdot smallHeader_plain hfits.payload]
  refine bind_eq_ok.mpr ⟨(), if_pos ?_, bind_eq_ok.mpr ⟨(), rfl, bind_eq_ok.mpr ⟨_, rfl, ?_⟩⟩⟩
  · exact compactToken_ne_empty hdot smallHeader_plain hfits.payload
  rw [verifyDecoded]
  refine bind_eq_ok.mpr ⟨_, rfl, bind_eq_ok.mpr ⟨(), if_pos (.inl rfl), bind_eq_ok.mpr ⟨_, rfl, ?_⟩⟩⟩
  have hissuer : ("i" : String) ≠ "" := by decide
  have hsubject : smallSubject ≠ "" := by decide
  refine bind_eq_ok.mpr ⟨(), if_pos hissuer, bind_eq_ok.mpr ⟨(), if_pos hsubject, ?_⟩⟩
  refine bind_eq_ok.mpr ⟨⟨"k1", List.replicate 32 0⟩, ?_, bind_eq_ok.mpr ⟨_, rfl, ?_⟩⟩
  · rw [List.find?_cons_of_pos]
    · rfl
    · simp [KeyCandidate.verifies, TokenParts.signature, zeroNode, hzero]
  · rfl

theorem prepare_small (hfits : st.Fits) (hdot : '.' ∉ signatureB64)
    (hzero : Base64.nodeDecode signatureB64 = List.replicate 64 0) :
    prepareAttestation zeroNode oneIssuer (st.token signatureB64) = .ok (st.new signatureB64) := by
  have hpre : preParseJWS (st.token signatureB64) = .ok ⟨smallHeader, st.payload⟩ :=
    preParseJWS_compactToken hdot smallHeader_plain hfits.payload ⟨rfl, rfl⟩
      (show (prop smallHeader "alg").bind jsString = some "EdDSA" from rfl) (by decide)
  rw [prepareAttestation, hpre]
  refine bind_eq_ok.mpr ⟨_, rfl, bind_eq_ok.mpr ⟨.str "i", rfl, bind_eq_ok.mpr ⟨.int 1, rfl, ?_⟩⟩⟩
  refine bind_eq_ok.mpr ⟨(), by decide, bind_eq_ok.mpr ⟨(), by decide, bind_eq_ok.mpr ⟨1, rfl, ?_⟩⟩⟩
  have hkeys : candidateKeys oneIssuer "i" (some "k1") (dateOfUnix 1) =
      .ok oneIssuer.db.principalKeys.rows := by
    decide +kernel
  refine bind_eq_ok.mpr ⟨_, hkeys, bind_eq_ok.mpr ⟨(), by decide, ?_⟩⟩
  refine bind_eq_ok.mpr ⟨_, congrArg _ (verify_small hfits hdot hzero), ?_⟩
  rw [acceptVerified]
  have hversion : schemaVersionOf oneIssuer "i" "1" = .ok "1" := by decide
  refine bind_eq_ok.mpr ⟨"1", hversion, bind_eq_ok.mpr ⟨(), rfl, ?_⟩⟩
  refine bind_eq_ok.mpr ⟨(), congrArg _ hfits.schema, bind_eq_ok.mpr ⟨(), hfits.delta, ?_⟩⟩
  have hsubject : subjectOf oneIssuer (oneIssuer.legacy.isV0AllowedForIssuer "i" && decide ("1" = "0"))
      smallSubject = .ok smallSubject := by decide
  refine bind_eq_ok.mpr ⟨.isPublic, rfl, bind_eq_ok.mpr ⟨"", rfl, bind_eq_ok.mpr ⟨_, hsubject, ?_⟩⟩⟩
  have hdate : dateOfUnix 1 = 1000 := by decide +kernel
  simp [Statement.new, hdate, zeroNode]
  rfl

theorem admissible_small (id : Uuid) (hfits : st.Fits) (hdot : '.' ∉ signatureB64)
    (hzero : Base64.nodeDecode signatureB64 = List.replicate 64 0) :
    (st.stored id signatureB64).Admissible zeroNode := by
  have hissuer : storable "i" = true := by decide
  have hsubject : storable smallSubject = true := by decide
  exact ⟨⟨oneIssuer, prepare_small hfits hdot hzero⟩, rfl, hissuer, hsubject, hfits.observationId⟩

theorem digest_small_ne {st' : Statement} {signatureB64' : List Char} (hfits : st.Fits)
    (hfits' : st'.Fits) (hdot : '.' ∉ signatureB64) (hdot' : '.' ∉ signatureB64')
    (hne : st.payload ≠ st'.payload ∨ signatureB64 ≠ signatureB64') :
    (st.new signatureB64).tokenDigest ≠ (st'.new signatureB64').tokenDigest := by
  intro heq
  obtain ⟨hpayload, hsignature⟩ :=
    compactToken_inj hdot smallHeader_plain hfits.payload hdot' smallHeader_plain hfits'.payload heq
  rcases hne with hne | hne
  · exact hne hpayload
  · exact hne hsignature

def vouchFor (observationId : String) : Statement :=
  ⟨"behavioral", [("observation_ts", .str "t")], 50, observationId⟩

def incidentFor (observationId : String) : Statement :=
  ⟨"negative_incident", [("category", .str "c"), ("severity", .str "s"),
    ("occurrence_timestamp", .str "t"), ("evidence_digest", .str "d")], -50, observationId⟩

theorem fits_vouchFor (observationId : String) (h : storable observationId = true) :
    (vouchFor observationId).Fits := by
  have hschema : validateSchema Json.noFracs oneIssuer.legacy "behavioral" "1"
      (.obj [("observation_ts", .str "t")]) "i" = .ok () := by decide
  have hdelta : checkDelta "behavioral" (50 : Int) = .ok () := by decide
  exact ⟨⟨rfl, rfl⟩, hschema, hdelta, h⟩

theorem fits_incidentFor (observationId : String) (h : storable observationId = true) :
    (incidentFor observationId).Fits := by
  have hschema : validateSchema Json.noFracs oneIssuer.legacy "negative_incident" "1"
      (.obj [("category", .str "c"), ("severity", .str "s"), ("occurrence_timestamp", .str "t"),
        ("evidence_digest", .str "d")]) "i" = .ok () := by decide
  have hdelta : checkDelta "negative_incident" (-50 : Int) = .ok () := by decide
  exact ⟨⟨rfl, rfl⟩, hschema, hdelta, h⟩

theorem zeroSignature_spec :
    '.' ∉ zeroSignature ∧ Base64.nodeDecode zeroSignature = List.replicate 64 0 :=
  ⟨dot_notMem_encodeRawURL _, Base64.nodeDecode_encodeRawURL _⟩

theorem looseSignature_spec :
    '.' ∉ looseSignature ∧ Base64.nodeDecode looseSignature = List.replicate 64 0 :=
  ⟨by decide, by decide⟩

def noLockKey : String → Int × Int := fun _ => (0, 0)

theorem exists_two_stored (ok : Inserts Nat StoredAttestation → Nat × InsertOp StoredAttestation → Prop)
    {b : StoredAttestation} (ha : a.Admissible zeroNode) (hb : b.Admissible zeroNode)
    (hdigest : a.new.tokenDigest ≠ b.new.tokenDigest)
    (hpeer : (attestationGuard noLockKey).group a = (attestationGuard noLockKey).group b →
      (attestationGuard noLockKey).value a = (attestationGuard noLockKey).value b)
    (hfirst : ∀ s : Inserts Nat StoredAttestation, (∀ r, ¬ s.Known r) → ok s (0, .begin a))
    (hsecond : ∀ s : Inserts Nat StoredAttestation, (∀ r, s.Known r → r = a) → ok s (0, .begin b))
    (hok : ∀ s op, (∀ c, op ≠ .begin c) → ok s (0, op)) :
    ∃ s, (submissions zeroNode noLockKey).ReachableVia ok s ∧ s.committed = [a, b] := by
  have hempty : (submissions zeroNode noLockKey).ReachableVia ok {} := .init rfl
  have hnone : ∀ r, ¬ ({} : Inserts Nat StoredAttestation).Known r := by
    rintro r (h | ⟨_, _, h, _⟩)
    · cases h
    · cases h
  have hgroup : ∀ c : StoredAttestation, (attestationGuard noLockKey).group c = none ∨
      (attestationGuard noLockKey).group c =
        some (c.new.issuerId, c.new.subjectId, c.new.observationId) := by
    intro c
    by_cases hc : c.new.observationId = "" <;> simp [attestationGuard, hc]
  obtain ⟨s₁, h₁, hcommitted₁, hidle₁⟩ :=
    Inserts.exists_committed (t := 0) hempty (fun _ => rfl) ha (by simp)
    ((hgroup a).imp_right fun h => ⟨h, .inl (by simp)⟩) (hfirst _ hnone) hok
  have hcommitted₁ : s₁.committed = [a] := hcommitted₁
  have hknown : ∀ r, s₁.Known r → r = a := by
    rintro r (hr | ⟨u, x, hu, -⟩)
    · simpa [hcommitted₁] using hr
    · rw [hidle₁ u] at hu
      cases hu
  have hnew : ∀ r ∈ s₁.committed,
      (attestationGuard noLockKey).unique r ≠ (attestationGuard noLockKey).unique b := by
    intro r hr
    rw [hknown r (.inl hr)]
    exact hdigest
  have hpeers : (∀ r ∈ s₁.committed, (attestationGuard noLockKey).group r ≠
      (attestationGuard noLockKey).group b) ∨
      ∃ r ∈ s₁.committed, (attestationGuard noLockKey).group r = (attestationGuard noLockKey).group b ∧
        (attestationGuard noLockKey).value r = (attestationGuard noLockKey).value b := by
    by_cases hsame : (attestationGuard noLockKey).group a = (attestationGuard noLockKey).group b
    · exact .inr ⟨a, by simp [hcommitted₁], hsame, hpeer hsame⟩
    · refine .inl fun r hr => ?_
      rw [hknown r (.inl hr)]
      exact hsame
  obtain ⟨s₂, h₂, hcommitted₂, -⟩ := Inserts.exists_committed (t := 0) h₁ hidle₁ hb hnew
    ((hgroup b).imp_right fun h => ⟨h, hpeers⟩) (hsecond s₁ hknown) hok
  exact ⟨s₂, h₂, by rw [hcommitted₂, hcommitted₁]; rfl⟩

def firstId : Uuid := .short '1'

def secondId : Uuid := .short '2'

theorem oneSpelling_other (s : Inserts Nat StoredAttestation) (op : InsertOp StoredAttestation)
    (h : ∀ c, op ≠ .begin c) : OneSpelling s (0, op) := by
  cases op with
  | begin a => exact absurd rfl (h a)
  | _ => trivial

theorem oneSignature_other (s : Inserts Nat StoredAttestation) (op : InsertOp StoredAttestation)
    (h : ∀ c, op ≠ .begin c) : OneSignature s (0, op) := by
  cases op with
  | begin a => exact absurd rfl (h a)
  | _ => trivial

/-- Two tokens for one observation that say the same. -/
theorem observation_group_agrees_small :
    ∃ s, (submissions zeroNode noLockKey).ReachableVia OneSpelling s ∧
      ∃ g ∈ observationGroups (s.committed.map StoredAttestation.row), g.2.length = 2 ∧
        ∀ r ∈ g.2, ∀ r' ∈ g.2, r.attestationType = r'.attestationType ∧
          r.trustDelta = r'.trustDelta := by
  have hfits := fits_vouchFor "o" (by decide)
  obtain ⟨s, hs, hcommitted⟩ := exists_two_stored OneSpelling
    (admissible_small firstId hfits zeroSignature_spec.1 zeroSignature_spec.2)
    (admissible_small secondId hfits looseSignature_spec.1 looseSignature_spec.2)
    (digest_small_ne hfits hfits zeroSignature_spec.1 looseSignature_spec.1 (.inr (by decide)))
    (fun _ => rfl) (fun _ hnone r hr => absurd hr (hnone r))
    (fun _ hknown r hr _ _ _ _ => congrArg (fun r => r.new.observationId) (hknown r hr))
      oneSpelling_other
  have hgroups : observationGroups (s.committed.map StoredAttestation.row) =
      [(groupKey ((vouchFor "o").stored firstId zeroSignature).row,
        [((vouchFor "o").stored firstId zeroSignature).row,
          ((vouchFor "o").stored secondId looseSignature).row])] := by
    rw [hcommitted]
    decide
  refine ⟨s, hs, _, by rw [hgroups]; exact List.mem_singleton_self _, rfl, ?_⟩
  exact observation_group_agrees hs (fun _ hr => hr) (by rw [hgroups]; exact List.mem_singleton_self _)

/-- A vouch and an incident whose observations differ in a blank are one group of scoring, and the
incident is dropped. -/
theorem incident_hidden :
    ∃ s, (submissions zeroNode noLockKey).Reachable s ∧
      ∃ g ∈ observationGroups (s.committed.map StoredAttestation.row), ∃ r ∈ g.2, ∃ r' ∈ g.2,
        r.attestationType = "behavioral" ∧ r.trustDelta = 50 ∧
        r'.attestationType = "negative_incident" ∧ r'.trustDelta = -50 ∧
        groupAttestationsForScoring (s.committed.map StoredAttestation.row) = [r] := by
  have hvouch := fits_vouchFor "o" (by decide)
  have hincident := fits_incidentFor "o " (by decide)
  obtain ⟨s, hs, hcommitted⟩ := exists_two_stored (fun _ _ => True)
    (admissible_small firstId hvouch zeroSignature_spec.1 zeroSignature_spec.2)
    (admissible_small secondId hincident zeroSignature_spec.1 zeroSignature_spec.2)
    (digest_small_ne hvouch hincident zeroSignature_spec.1 zeroSignature_spec.1 (.inl (by
      simp [Statement.payload, vouchFor, incidentFor])))
    (fun h => absurd h (by decide)) (fun _ _ => trivial) (fun _ _ => trivial) (fun _ _ _ => trivial)
  refine ⟨s, hs, (groupKey ((vouchFor "o").stored firstId zeroSignature).row,
    [((vouchFor "o").stored firstId zeroSignature).row,
      ((incidentFor "o ").stored secondId zeroSignature).row]), ?_, _, List.mem_cons_self, _,
    List.mem_cons_of_mem _ List.mem_cons_self, rfl, rfl, rfl, rfl, ?_⟩
  · rw [hcommitted]
    decide
  · rw [hcommitted]
    decide

theorem splitToken_small (hdot : '.' ∉ signatureB64) (h : splitToken (st.token signatureB64) = some p) :
    p.signatureB64 = signatureB64 := by
  rw [Statement.token, splitToken_compactToken smallHeader st.payload hdot] at h
  cases h
  rfl

theorem canonical_zeroSignature (st : Statement) (id : Uuid) :
    CanonicalSignature (st.stored id zeroSignature) := by
  intro p hp
  rw [TokenParts.signature, splitToken_small zeroSignature_spec.1 hp, zeroSignature_spec.2]
  rfl

theorem signedAlike_zeroSignature (st st' : Statement) (id id' : Uuid) :
    SignedAlike (st.stored id zeroSignature) (st'.stored id' zeroSignature) := by
  intro p q hp hq _
  rw [TokenParts.signature, TokenParts.signature, splitToken_small zeroSignature_spec.1 hp,
    splitToken_small zeroSignature_spec.1 hq]

/-- Two statements, each with the signature as encoders write it. -/
theorem signed_input_once_small :
    ∃ s, (submissions zeroNode noLockKey).ReachableVia OneSignature s ∧ s.committed.length = 2 ∧
      s.committed.Pairwise SignedApart := by
  have hvouch := fits_vouchFor "o" (by decide)
  have hincident := fits_incidentFor "" (by decide)
  obtain ⟨s, hs, hcommitted⟩ := exists_two_stored OneSignature
    (admissible_small firstId hvouch zeroSignature_spec.1 zeroSignature_spec.2)
    (admissible_small secondId hincident zeroSignature_spec.1 zeroSignature_spec.2)
    (digest_small_ne hvouch hincident zeroSignature_spec.1 zeroSignature_spec.1 (.inl (by
      simp [Statement.payload, vouchFor, incidentFor])))
    (fun h => absurd h (by decide))
    (fun _ hnone => ⟨canonical_zeroSignature _ _, fun r hr => absurd hr (hnone r)⟩)
    (fun _ hknown => ⟨canonical_zeroSignature _ _,
      fun r hr => hknown r hr ▸ signedAlike_zeroSignature _ _ _ _⟩)
    oneSignature_other
  exact ⟨s, hs, by rw [hcommitted]; rfl, signed_input_once hs⟩

/-- The signature of a stored token is written with other unused bits: the statement is stored
again, and scoring counts it twice. -/
theorem signed_input_twice :
    ∃ s, (submissions zeroNode noLockKey).Reachable s ∧ ∃ a b p q, s.committed = [a, b] ∧
      splitToken a.new.jwsToken = some p ∧ splitToken b.new.jwsToken = some q ∧
        p.signedInput = q.signedInput ∧
      groupAttestationsForScoring (s.committed.map StoredAttestation.row) = [a.row, b.row] := by
  have hfits := fits_vouchFor "" (by decide)
  obtain ⟨s, hs, hcommitted⟩ := exists_two_stored (fun _ _ => True)
    (admissible_small firstId hfits zeroSignature_spec.1 zeroSignature_spec.2)
    (admissible_small secondId hfits looseSignature_spec.1 looseSignature_spec.2)
    (digest_small_ne hfits hfits zeroSignature_spec.1 looseSignature_spec.1 (.inr (by decide)))
    (fun _ => rfl) (fun _ _ => trivial) (fun _ _ => trivial) (fun _ _ _ => trivial)
  refine ⟨s, hs, _, _, _, _, hcommitted, splitToken_compactToken _ _ zeroSignature_spec.1,
    splitToken_compactToken _ _ looseSignature_spec.1, rfl, ?_⟩
  rw [hcommitted]
  decide

end Verilink.ControlPlane

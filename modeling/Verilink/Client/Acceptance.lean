import Verilink.Client.Signing
import Verilink.Edge.Forwarding

/-!
# Whether the edge accepts what a client signs

A call of a client, the request as it arrives, and the two headers taken apart again.
-/

namespace Verilink.Client

open Verilink.Framework Verilink.Edge

inductive ClientRequest
  | go (req : GoRequest)
  | node (req : NodeRequest)

/-- A call of `SignRequest`, or of `SignRequestWithIdempotencyKey` if there is such a key. -/
structure Call where
  request : ClientRequest
  issuerDID : String
  keyLabel : String
  privateKey : Bytes
  now : Int
  random : Bytes
  length_random : random.length = 16
  idempotencyKey : Option String

namespace Call

variable (P : Chars.Printable) (sha : Sha256) (scheme : SignatureScheme) (c : Call)

def headers : SignatureHeaders :=
  match c.request, c.idempotencyKey with
  | .go req, none => req.signRequest P sha scheme c.issuerDID c.keyLabel c.privateKey c.now c.random
  | .go req, some key =>
    req.signRequestWithIdempotencyKey P sha scheme c.issuerDID c.keyLabel c.privateKey c.now c.random key
  | .node req, none => req.signRequest sha scheme c.issuerDID c.keyLabel c.privateKey c.now c.random []
  | .node req, some key =>
    req.signRequestWithIdempotencyKey sha scheme c.issuerDID c.keyLabel c.privateKey c.now c.random key

def keyID : String := Client.keyID c.issuerDID c.keyLabel

def method : String :=
  match c.request with
  | .go req => req.method
  | .node req => req.signedMethod

def targetURI : String :=
  match c.request with
  | .go req => req.targetURI
  | .node req => req.url

def body : Bytes :=
  match c.request with
  | .go req => req.body
  | .node req => req.body

def created : Int :=
  match c.request with
  | .go _ => c.now
  | .node req => req.signedCreated c.now

def expires : Int :=
  match c.request with
  | .go _ => c.now + 300
  | .node req => req.signedExpires c.now

def nonce : String :=
  match c.request with
  | .go _ => nonceText c.random
  | .node _ => String.ofList (hexText c.random)

def quotedKeyID : String :=
  match c.request with
  | .go _ => quote P c.keyID
  | .node _ => "\"" ++ c.keyID ++ "\""

/-- The times of the signature are in order, at most five minutes apart, and fit into 64 bits, the
second one with the skew that the edge adds. -/
structure ValidWindow : Prop where
  ordered : c.created ≤ c.expires
  short : c.expires - c.created ≤ maxValidityWindow
  int64 : (-2 ^ 63 ≤ c.created ∧ c.created < 2 ^ 63) ∧ -2 ^ 63 ≤ c.expires ∧
    c.expires + maxSkewSeconds < 2 ^ 63

theorem ValidWindow.times {c : Call} (h : c.ValidWindow) :
    (-2 ^ 63 ≤ c.created ∧ c.created < 2 ^ 63) ∧ -2 ^ 63 ≤ c.expires ∧ c.expires < 2 ^ 63 := by
  have hskew : 0 ≤ maxSkewSeconds := by decide
  have hint := h.int64
  omega

/-- The request `r` is what the client sent, and it arrives in time at an edge that knows the key
and has not seen the nonce. -/
structure Received (p : EdgeProxy) (r : Request) (s : Shared) : Prop where
  method : r.method = c.method
  targetURI : p.buildTargetURI r = c.targetURI
  body : r.body = some c.body
  sigInput : r.signatureInput = (c.headers P sha scheme).sigInput
  signature : r.signature = (c.headers P sha scheme).signature
  known : ∃ key, ((p.lookupPublicKey c.keyID).run s).1 = .ok key ∧
    key.raw = scheme.publicKey c.privateKey
  valid : c.ValidWindow
  window : c.created ≤ s.clock / second ∧ s.clock / second ≤ c.expires
  fresh : (s.nonces.checkAndConsume s.clock (EdgeProxy.nonceKey (c.keyID, c.nonce))).1 = true

def Accepted (p : EdgeProxy) (r : Request) (s : Shared) : Prop :=
  ∃ found, ((p.authenticate sha scheme r).run s).1 = .ok found

/-- The key id can be read back from the quotes of the client. -/
def KeyIDReadable : Prop :=
  match c.request with
  | .go _ => ∀ ch ∈ c.keyID.toList, Chars.Plain P ch
  | .node _ => c.keyID.toList.getLast? ≠ some '"'

structure Acceptable : Prop where
  noIdempotencyKey : c.idempotencyKey = none
  shortBody : c.body.length ≤ maxSignedBodyBytes
  noSemicolon : ';' ∉ c.keyID.toList
  readable : c.KeyIDReadable P

/-! ## The headers of a call -/

def extra : List ExtraComponent := c.idempotencyKey.toList.map idempotency

def componentsText (body : Bytes) (extra : List ExtraComponent) : String :=
  coveredComponents body ++ String.join (extra.map fun e => " " ++ ("\"" ++ e.name ++ "\""))

def components : String := componentsText c.body c.extra

def extraText : String :=
  String.join (c.extra.map fun e => "\"" ++ e.name ++ "\": " ++ e.value ++ "\n")

theorem quote_idempotency : quote P "idempotency-key" = "\"" ++ "idempotency-key" ++ "\"" := by
  have hascii : ("idempotency-key".toList.all fun ch =>
      ch ≠ '"' ∧ ch ≠ '\\' ∧ ch.toNat < 128 ∧ 0x20 ≤ ch.toNat ∧ ch.toNat < 0x7F) = true := by decide
  have hplain : ∀ ch ∈ "idempotency-key".toList, Chars.Plain P ch := by
    intro ch hch
    have h := of_decide_eq_true (List.all_eq_true.mp hascii ch hch)
    refine ⟨h.1, h.2.1, ?_⟩
    rw [P.ascii ch h.2.2.1]
    exact decide_eq_true h.2.2.2
  rw [quote, Chars.escape_plain hplain, String.ofList_toList]

theorem coveredComponents_eq (body : Bytes) : coveredComponents body =
    " ".intercalate ["\"@method\"", "\"@target-uri\"", "\"@created\"", "\"@expires\""] ++
      String.join ((if 0 < body.length then ["\"content-digest\""] else []).map (" " ++ ·)) := by
  have hfour : "\"@method\" \"@target-uri\" \"@created\" \"@expires\"" =
      " ".intercalate ["\"@method\"", "\"@target-uri\"", "\"@created\"", "\"@expires\""] := by simp
  have hdigest : (if body ≠ [] then " \"content-digest\"" else "") =
      String.join ((if 0 < body.length then ["\"content-digest\""] else []).map (" " ++ ·)) := by
    cases body with
    | nil => simp
    | cons b bs => simp
  rw [← hdigest, ← hfour]
  rfl

theorem node_components (body : Bytes) (extra : List ExtraComponent) :
    " ".intercalate (["\"@method\"", "\"@target-uri\"", "\"@created\"", "\"@expires\""] ++
        (if 0 < body.length then ["\"content-digest\""] else []) ++
        extra.map fun e => "\"" ++ e.name ++ "\"") =
      componentsText body extra := by
  have hfour : ∀ (a b c d : String) (ls : List String), " ".intercalate ([a, b, c, d] ++ ls) =
      " ".intercalate [a, b, c, d] ++ String.join (ls.map (" " ++ ·)) := by
    intro a b c d ls
    simp only [List.cons_append, Chars.intercalate_cons, List.nil_append, List.map_cons, List.map_nil,
      String.join_cons, String.join_nil, String.append_assoc, String.append_empty]
  rw [List.append_assoc, hfour, componentsText, coveredComponents_eq, List.map_append,
    String.join_append, List.map_map, String.append_assoc]
  rfl

theorem node_buildSignatureBase (method targetURI : String) (created expires : Int) (body : Bytes)
    (extra : List ExtraComponent) :
    NodeRequest.buildSignatureBase sha method targetURI created expires body extra =
      Edge.buildSignatureBase sha method.toUpper targetURI created expires body ++
        String.join (extra.map fun e => "\"" ++ e.name ++ "\": " ++ e.value ++ "\n") := by
  have hlines : ∀ (a b c d : String) (ls : List String), "\n".intercalate ([a, b, c, d] ++ ls) ++ "\n" =
      a ++ "\n" ++ (b ++ "\n") ++ (c ++ "\n") ++ (d ++ "\n") ++ String.join (ls.map (· ++ "\n")) := by
    intro a b c d ls
    rw [List.cons_append, Chars.intercalate_lines]
    simp only [List.cons_append, List.nil_append, List.map_cons, String.join_cons, String.append_assoc]
  unfold NodeRequest.buildSignatureBase Edge.buildSignatureBase
  rw [List.append_assoc, hlines]
  cases body with
  | nil =>
    rw [if_neg (by simp), if_neg (by simp), List.nil_append, List.map_map]
    simp only [String.append_assoc, String.append_empty, Function.comp_def]
  | cons b bs =>
    rw [if_pos (by simp), if_pos (by simp), List.cons_append, List.nil_append, List.map_cons, List.map_map,
      String.join_cons]
    simp only [String.append_assoc, Function.comp_def]

theorem node_signedMethod (req : NodeRequest) : req.signedMethod.toUpper = req.signedMethod :=
  Chars.toUpper_toUpper _

theorem sigInput_headers : (c.headers P sha scheme).sigInput =
      signatureInputText c.components (c.quotedKeyID P) c.created c.expires c.nonce := by
  obtain ⟨request, issuerDID, keyLabel, privateKey, now, random, hlen, idem⟩ := c
  cases request with
  | go req =>
    cases idem with
    | none =>
      change signatureInputText (coveredComponents req.body) _ _ _ _ =
        signatureInputText (_ ++ "") _ _ _ _
      rw [String.append_empty]
      rfl
    | some key =>
      change signatureInputText (coveredComponents req.body ++
        String.join [" " ++ quote P "idempotency-key"]) _ _ _ _ = _
      rw [quote_idempotency]
      rfl
  | node req =>
    cases idem with
    | none => exact congrArg (signatureInputText · _ _ _ _) (node_components req.body [])
    | some key =>
      exact congrArg (signatureInputText · _ _ _ _) (node_components req.body [idempotency key])

theorem signature_headers :
    (c.headers P sha scheme).signature = String.ofList (Base64.encodeRawURL (scheme.sign c.privateKey
      (Edge.buildSignatureBase sha c.method c.targetURI c.created c.expires c.body ++
        c.extraText))) := by
  obtain ⟨request, issuerDID, keyLabel, privateKey, now, random, hlen, idem⟩ := c
  cases request with
  | go req =>
    cases idem with
    | none =>
      change _ = String.ofList (Base64.encodeRawURL (scheme.sign privateKey (_ ++ "")))
      rw [String.append_empty]
      rfl
    | some key =>
      have hcolon : ∀ x : String, x ++ "\"" ++ ": " = x ++ "\": " := by
        intro x
        rw [String.append_assoc]
        rfl
      change String.ofList (Base64.encodeRawURL (scheme.sign privateKey
        (_ ++ String.join [quote P "idempotency-key" ++ ": " ++ key ++ "\n"]))) = _
      rw [quote_idempotency, hcolon]
      rfl
  | node req =>
    have hbase := node_buildSignatureBase sha req.signedMethod req.url (req.signedCreated now)
      (req.signedExpires now) req.body
    rw [node_signedMethod] at hbase
    cases idem with
    | none => exact congrArg (fun m => String.ofList (Base64.encodeRawURL (scheme.sign _ m))) (hbase [])
    | some key =>
      exact congrArg (fun m => String.ofList (Base64.encodeRawURL (scheme.sign _ m)))
        (hbase [idempotency key])

/-! ## The check of the proxy, run alone -/

variable {si : SignatureInput} {p : EdgeProxy} {r : Request} {s : Shared} {key : FoundKey}

theorem accepted_of {b : Bytes} (hbody : r.body = some b) (hshort : b.length ≤ maxSignedBodyBytes)
    (hparsed : parseSignatureInput r.signatureInput = .ok si)
    (hwindow : si.checkWindow (s.clock / second) = .ok ())
    (hfound : ((p.lookupPublicKey si.keyID).run s).1 = .ok key)
    (hverified : verify scheme
    (Edge.buildSignatureBase sha r.method (p.buildTargetURI r) si.created si.expires b)
      r.signature key.raw = .ok ())
    (hfresh : (s.nonces.checkAndConsume s.clock (EdgeProxy.nonceKey (si.keyID, si.nonce))).1 = true) :
    Accepted sha scheme p r s := by
  obtain ⟨res, t, hrun, -, -, hres⟩ := EdgeProxy.run_authenticate p sha scheme r s
  refine ⟨(si, key), ?_⟩
  rw [hrun]
  exact (hres si key).mpr ⟨hparsed, hwindow, hfound, ⟨b, hbody, hshort, hverified⟩, hfresh⟩

/-! ## Reading the headers back -/

theorem isWord_hexText (bytes : Bytes) : IsWord (hexText bytes) := by
  have hdigits : ((List.range 16).all fun n =>
      Nat.digitChar n ≠ ';' ∧ Nat.digitChar n ≠ '"' ∧ Chars.isSpace (Nat.digitChar n) =
        false) = true := by
    decide
  have hdigit : ∀ n < 16, Nat.digitChar n ≠ ';' ∧ Nat.digitChar n ≠ '"' ∧
      Chars.isSpace (Nat.digitChar n) = false := fun n hn => by
    simpa using List.all_eq_true.mp hdigits n (List.mem_range.mpr hn)
  intro ch hch
  obtain ⟨b, -, hb⟩ := List.mem_flatMap.mp hch
  have hlt := b.toNat_lt
  simp only [List.mem_cons, List.not_mem_nil, or_false] at hb
  rcases hb with rfl | rfl
  · exact hdigit _ (by omega)
  · exact hdigit _ (by omega)

theorem isWord_nonce : IsWord c.nonce.toList := by
  rw [nonce]
  split
  · rw [nonceText, String.toList_ofList]
    exact isWord_encodeRawURL _
  · rw [String.toList_ofList]
    exact isWord_hexText _

theorem nonce_ne_empty : c.nonce ≠ "" := by
  have hrandom : c.random ≠ [] := by
    intro h
    have hlen := c.length_random
    simp [h] at hlen
  intro h
  rw [nonce] at h
  split at h
  · rw [nonceText, ← String.toList_inj, String.toList_ofList] at h
    exact Base64.encodeRawURL_ne_nil _ hrandom h
  · rw [← String.toList_inj, String.toList_ofList] at h
    have hmem : ∀ b, b ∉ c.random := by simpa [hexText] using h
    exact hrandom (List.eq_nil_iff_forall_not_mem.mpr hmem)

theorem keyID_cons : ∃ cs, c.keyID.toList = 'v' :: cs :=
  ⟨"rl:agent:".toList ++ (c.issuerDID ++ "|" ++ c.keyLabel).toList, by simp [keyID, Client.keyID]⟩

theorem plain_v : Chars.Plain P 'v' := ⟨by decide, by decide, by rw [P.ascii _ (by decide)]; decide⟩

def escapedKeyID : List Char :=
  match c.request with
  | .go _ => Chars.escape P c.keyID.toList
  | .node _ => c.keyID.toList

theorem toList_quotedKeyID : (c.quotedKeyID P).toList = '"' :: c.escapedKeyID P ++ ['"'] := by
  rw [quotedKeyID, escapedKeyID]
  split <;> simp [quote]

theorem escapedKeyID_cons : ∃ cs, c.escapedKeyID P = 'v' :: cs := by
  obtain ⟨cs, hcs⟩ := c.keyID_cons
  rw [escapedKeyID, hcs]
  split
  · rw [Chars.escape, List.flatMap_cons, Chars.quoteChar_plain (plain_v P)]
    exact ⟨_, rfl⟩
  · exact ⟨cs, rfl⟩

/-- The quotes go and, with them, every quote at the end of the key id. -/
theorem trim_quotedKeyID :
    Chars.trim '"' (c.quotedKeyID P).toList = (c.escapedKeyID P).rdropWhile (· = '"') := by
  obtain ⟨cs, hcs⟩ := c.escapedKeyID_cons P
  rw [toList_quotedKeyID, hcs, Chars.trim_quoted (by decide), Chars.rdropWhile_cons_of_neg (by decide)]

theorem trim_quotedKeyID_ne_nil : Chars.trim '"' (c.quotedKeyID P).toList ≠ [] := by
  obtain ⟨cs, hcs⟩ := c.escapedKeyID_cons P
  rw [trim_quotedKeyID, hcs, Chars.rdropWhile_cons_of_neg (by decide)]
  exact List.cons_ne_nil _ _

theorem trim_quotedKeyID_iff :
    String.ofList (Chars.trim '"' (c.quotedKeyID P).toList) = c.keyID ↔ c.KeyIDReadable P := by
  rw [← String.toList_inj, String.toList_ofList, trim_quotedKeyID, escapedKeyID, KeyIDReadable]
  cases c.request with
  | go req => exact Chars.trimmed_escape_iff
  | node req =>
    obtain ⟨cs, hcs⟩ := c.keyID_cons
    dsimp only
    rw [List.rdropWhile_eq_self_iff, hcs]
    simp [List.getLast?_eq_some_getLast]

theorem quotedKeyID_last : ∀ ch ∈ (c.quotedKeyID P).toList.getLast?, Chars.isSpace ch = false := by
  intro ch hch
  rw [toList_quotedKeyID, List.getLast?_concat] at hch
  obtain rfl : '"' = ch := by simpa using hch
  decide

theorem semicolon_quotedKeyID (h : ';' ∉ c.keyID.toList) : ';' ∉ (c.quotedKeyID P).toList := by
  rw [quotedKeyID]
  split <;> simpa [quote, Chars.semicolon_mem_escape] using h

theorem components_cases :
    ∃ b ∈ ([[], [0]] : List Bytes), ∃ e ∈ [[], [idempotency ""]], c.components = componentsText b e := by
  have hbody : ∃ b ∈ ([[], [0]] : List Bytes), coveredComponents c.body = coveredComponents b := by
    cases c.body with
    | nil => exact ⟨[], List.mem_cons_self, rfl⟩
    | cons b bs => exact ⟨[0], by simp, rfl⟩
  obtain ⟨b, hb, hcovered⟩ := hbody
  rw [components, componentsText, hcovered, extra]
  cases c.idempotencyKey with
  | none => exact ⟨b, hb, [], List.mem_cons_self, rfl⟩
  | some key => exact ⟨b, hb, [idempotency ""], by simp, rfl⟩

theorem semicolon_components : ';' ∉ c.components.toList := by
  have hall : ∀ b ∈ ([[], [0]] : List Bytes), ∀ e ∈ [[], [idempotency ""]],
      ';' ∉ (componentsText b e).toList := by decide
  obtain ⟨b, hb, e, he, heq⟩ := c.components_cases
  rw [heq]
  exact hall b hb e he

theorem components_ne_nil : Chars.trimSpace c.components.toList ≠ [] := by
  have hall : ∀ b ∈ ([[], [0]] : List Bytes), ∀ e ∈ [[], [idempotency ""]],
      Chars.trimSpace (componentsText b e).toList ≠ [] := by decide
  obtain ⟨b, hb, e, he, heq⟩ := c.components_cases
  rw [heq]
  exact hall b hb e he

theorem parse_sigInput (h : ';' ∉ c.keyID.toList) :
    parseSignatureInput (c.headers P sha scheme).sigInput = .ok si ↔
      ((-2 ^ 63 ≤ c.created ∧ c.created < 2 ^ 63) ∧ -2 ^ 63 ≤ c.expires ∧ c.expires < 2 ^ 63) ∧
        si = { keyID := String.ofList (Chars.trim '"' (c.quotedKeyID P).toList)
               created := c.created
               expires := c.expires
               nonce := c.nonce
               components := parseComponentList (Chars.trimSpace c.components.toList) } := by
  rw [sigInput_headers]
  exact parse_signatureInputText c.semicolon_components c.components_ne_nil (c.semicolon_quotedKeyID P h)
    (c.quotedKeyID_last P) c.isWord_nonce (c.trim_quotedKeyID_ne_nil P)

/-! ## Accepted calls -/

theorem checkWindow_of_valid {now : Int} (hvalid : c.ValidWindow) (hcreated : si.created = c.created)
    (hexpires : si.expires = c.expires) (hnonce : si.nonce ≠ "")
    (hnow : c.created ≤ now ∧ now ≤ c.expires) :
    si.checkWindow now = .ok () := by
  have hshort := hvalid.short
  have hint := hvalid.int64
  simp only [maxSkewSeconds, maxValidityWindow] at hshort hint
  have hfirst : ¬ (0 < c.created ∧ now < wrap64 (c.created - maxSkewSeconds)) := by
    rintro ⟨hpos, hlt⟩
    rw [maxSkewSeconds, wrap64_of_range (by omega)] at hlt
    omega
  have hsecond : ¬ (0 < c.expires ∧ wrap64 (c.expires + maxSkewSeconds) < now) := by
    rintro ⟨hpos, hlt⟩
    rw [maxSkewSeconds, wrap64_of_range (by omega)] at hlt
    omega
  have hthird : ¬ (0 < c.created ∧ 0 < c.expires ∧
      maxValidityWindow < wrap64 (c.expires - c.created)) := by
    rintro ⟨hpos, hpos', hlt⟩
    rw [maxValidityWindow, wrap64_of_range (by omega)] at hlt
    omega
  rw [SignatureInput.checkWindow, hcreated, hexpires, if_neg hfirst, if_neg hsecond, if_neg hthird,
    if_neg hnonce]

theorem accepted_of_acceptable (h : c.Acceptable P) (hr : c.Received P sha scheme p r s) :
    Accepted sha scheme p r s := by
  obtain ⟨key, hfound, hraw⟩ := hr.known
  have hkeyID := (c.trim_quotedKeyID_iff P).mpr h.readable
  have hparse := (c.parse_sigInput P sha scheme h.noSemicolon).mpr ⟨hr.valid.times, rfl⟩
  rw [← hr.sigInput, hkeyID] at hparse
  have hextra : c.extraText = "" := by simp [extraText, extra, h.noIdempotencyKey]
  have hsignature := c.signature_headers P sha scheme
  rw [hextra, String.append_empty] at hsignature
  refine accepted_of sha scheme hr.body h.shortBody hparse ?_ hfound ?_ hr.fresh
  · exact c.checkWindow_of_valid hr.valid rfl rfl c.nonce_ne_empty hr.window
  · rw [hr.method, hr.targetURI, hr.signature, hsignature, verify, hraw,
      if_neg (by simp [scheme.length_publicKey]), String.toList_ofList, Base64.decode_encodeRawURL]
    simp [scheme.verify_sign]

/-! ## Calls that some edge rejects -/

def onlyEdge : EdgeProxy :=
  { synced := false, hasWal := false, requireSignatures := false, externalBaseURL := c.targetURI,
    registry := fun keyid =>
      if keyid = c.keyID then some (String.ofList (Base64.encodeRawURL (scheme.publicKey c.privateKey)))
      else none
    trustStore := none }

def onlyRequest : Request :=
  { method := c.method, host := "", requestURI := "",
    signatureInput := (c.headers P sha scheme).sigInput,
    signature := (c.headers P sha scheme).signature, body := some c.body }

def onlyShared : Shared :=
  { EdgeProxy.smallShared EdgeProxy.goodSnapshot with clock := c.created * second, store := {} }

theorem registryKey_onlyEdge {keyid : String} (h : (c.onlyEdge scheme).registryKey keyid = .ok key) :
    keyid = c.keyID ∧ key.raw = scheme.publicKey c.privateKey := by
  by_cases hkey : keyid = c.keyID
  · rw [EdgeProxy.registryKey, onlyEdge] at h
    simp only [hkey, if_true, String.toList_ofList, Base64.decode_encodeRawURL] at h
    rw [if_neg (by simp [scheme.length_publicKey])] at h
    cases h
    exact ⟨hkey, rfl⟩
  · rw [EdgeProxy.registryKey, onlyEdge] at h
    simp [hkey] at h

theorem received_only (hvalid : c.ValidWindow) (huri : c.targetURI ≠ "") :
    c.Received P sha scheme (c.onlyEdge scheme) (c.onlyRequest P sha scheme) c.onlyShared where
  method := rfl
  targetURI := by
    rw [EdgeProxy.buildTargetURI, onlyEdge, onlyRequest]
    simp [huri]
  body := rfl
  sigInput := rfl
  signature := rfl
  known := by
    refine ⟨⟨scheme.publicKey c.privateKey, none⟩, ?_, rfl⟩
    change (c.onlyEdge scheme).registryKey c.keyID = _
    rw [EdgeProxy.registryKey, onlyEdge]
    simp [Base64.decode_encodeRawURL, scheme.length_publicKey]
  valid := hvalid
  window := by
    have hclock : c.onlyShared.clock / second = c.created := Int.mul_ediv_cancel _ (by decide)
    rw [hclock]
    exact ⟨le_rfl, hvalid.ordered⟩
  fresh := rfl

theorem acceptable_of_accepted
    (hsound : ∀ key m m', scheme.verify (scheme.publicKey key) m' (scheme.sign key m) = true → m' = m)
    (hvalid : c.ValidWindow) (huri : c.targetURI ≠ "")
    (h : Accepted sha scheme (c.onlyEdge scheme) (c.onlyRequest P sha scheme) c.onlyShared) :
    c.Acceptable P := by
  obtain ⟨⟨si, key⟩, hok⟩ := h
  have hrun : Prog.Runs (fun _ _ => False)
      ((c.onlyEdge scheme).authenticate sha scheme (c.onlyRequest P sha scheme)) c.onlyShared
        (.ok (si, key)) _ :=
    hok ▸ Prog.runs_run _ _
  obtain ⟨m, m₁, m₂, m₃, m₄, hauth⟩ := EdgeProxy.runs_authenticate hrun
  have hkey : si.keyID = c.keyID ∧ key.raw = scheme.publicKey c.privateKey := by
    cases hauth.found with
    | snapshot n n' e before read lookup eq after =>
      have hpath := hauth.before.trans (hauth.read.trans (before.trans read))
      obtain rfl := (Relation.reflTransGen_iff_eq fun _ h => h).mp hpath
      cases lookup
    | registry n before unsynced eq after => exact c.registryKey_onlyEdge scheme eq
  have hsemi : ';' ∉ c.keyID.toList := hkey.1 ▸ parse_keyID_no_semicolon hauth.parsed
  obtain ⟨-, hsi⟩ := (c.parse_sigInput P sha scheme hsemi).mp hauth.parsed
  have hreadable : c.KeyIDReadable P := by
    rw [← trim_quotedKeyID_iff, ← hkey.1, hsi]
  obtain ⟨body, hbody, hshort, hverified⟩ := hauth.verified
  cases hbody
  have hbase : Edge.buildSignatureBase sha c.method c.targetURI c.created c.expires c.body =
      Edge.buildSignatureBase sha c.method c.targetURI c.created c.expires c.body ++ c.extraText := by
    apply hsound c.privateKey
    rw [(c.received_only P sha scheme hvalid huri).targetURI, hkey.2, hsi, verify,
      if_neg (by simp [scheme.length_publicKey])] at hverified
    have hsig : (c.onlyRequest P sha scheme).signature = _ := c.signature_headers P sha scheme
    rw [hsig, String.toList_ofList, Base64.decode_encodeRawURL] at hverified
    change (if scheme.verify _ (Edge.buildSignatureBase sha c.method _ _ _ _) _ = true then _ else _) = _
      at hverified
    by_contra hnot
    rw [if_neg hnot] at hverified
    cases hverified
  refine ⟨?_, hshort, hsemi, hreadable⟩
  cases hidem : c.idempotencyKey with
  | none => rfl
  | some k =>
    have hlen := congrArg String.length hbase
    simp [extraText, extra, hidem, idempotency] at hlen

/-- Every edge that receives a call as it was sent accepts it, exactly if the call is acceptable. -/
theorem accepted_iff_acceptable
    (hsound : ∀ key m m', scheme.verify (scheme.publicKey key) m' (scheme.sign key m) = true → m' = m) :
    (∀ p r s, c.Received P sha scheme p r s → Accepted sha scheme p r s) ↔
      (c.ValidWindow → c.targetURI ≠ "" → c.Acceptable P) := by
  constructor
  · intro h hvalid huri
    exact c.acceptable_of_accepted P sha scheme hsound hvalid huri
      (h _ _ _ (c.received_only P sha scheme hvalid huri))
  · intro h p r s hr
    -- The proxy builds no empty target URI, so a call with one is never received.
    have huri : c.targetURI ≠ "" := by
      rw [← hr.targetURI, EdgeProxy.buildTargetURI]
      by_cases hbase : p.externalBaseURL = "" <;> simp [hbase]
    exact c.accepted_of_acceptable P sha scheme (h hr.valid huri) hr

def smallCall (idempotencyKey : Option String) : Call where
  request := .go { method := "GET", scheme := "https", url := "https://a/", host := "a",
                   requestURI := "/", body := [] }
  issuerDID := "d"
  keyLabel := "l"
  privateKey := []
  now := 100
  random := List.replicate 16 0
  length_random := rfl
  idempotencyKey := idempotencyKey

theorem validWindow_smallCall (key : Option String) : (smallCall key).ValidWindow where
  ordered := show (100 : Int) ≤ 100 + 300 by decide
  short := show (100 : Int) + 300 - 100 ≤ maxValidityWindow by decide
  int64 := show (-2 ^ 63 ≤ (100 : Int) ∧ (100 : Int) < 2 ^ 63) ∧ -2 ^ 63 ≤ (100 : Int) + 300 ∧
      (100 : Int) + 300 + maxSkewSeconds < 2 ^ 63 by decide

theorem openScheme_sound (key : Bytes) (m m' : String)
    (h : EdgeProxy.openScheme.verify (EdgeProxy.openScheme.publicKey key) m'
      (EdgeProxy.openScheme.sign key m) = true) : m' = m :=
  (Json.utf8_inj (of_decide_eq_true h)).symm

theorem accepted_iff_acceptable_small :
    (∃ p r s, (smallCall none).Received Chars.asciiOnly zeroSha EdgeProxy.openScheme p r s) ∧
      ∀ p r s, (smallCall none).Received Chars.asciiOnly zeroSha EdgeProxy.openScheme p r s →
        Accepted zeroSha EdgeProxy.openScheme p r s := by
  have hreadable : ((smallCall none).keyID.toList.all fun ch => Chars.Plain Chars.asciiOnly ch) =
      true := by
    decide
  have hok : (smallCall none).Acceptable Chars.asciiOnly :=
    { noIdempotencyKey := rfl
      shortBody := by decide
      noSemicolon := by decide
      readable := fun ch hch => of_decide_eq_true (List.all_eq_true.mp hreadable ch hch) }
  refine ⟨⟨_, _, _, received_only _ _ _ _ (validWindow_smallCall none) (by decide)⟩, ?_⟩
  exact (accepted_iff_acceptable Chars.asciiOnly zeroSha EdgeProxy.openScheme (smallCall none)
    openScheme_sound).mpr fun _ _ => hok

/-- The signature covers the idempotency key, and the proxy checks it without. -/
theorem rejected_with_idempotencyKey :
    ∃ p r s, (smallCall (some "k")).Received Chars.asciiOnly zeroSha EdgeProxy.openScheme p r s ∧
      ¬ Accepted zeroSha EdgeProxy.openScheme p r s := by
  have hvalid := validWindow_smallCall (some "k")
  have huri : (smallCall (some "k")).targetURI ≠ "" := by decide
  refine ⟨_, _, _, (smallCall (some "k")).received_only Chars.asciiOnly zeroSha EdgeProxy.openScheme
    hvalid huri, ?_⟩
  intro haccepted
  have hok := (smallCall (some "k")).acceptable_of_accepted Chars.asciiOnly zeroSha EdgeProxy.openScheme
    openScheme_sound hvalid huri haccepted
  cases hok.noIdempotencyKey

end Call

end Verilink.Client

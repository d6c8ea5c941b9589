import Verilink.Client.Signing

/-!
# The signed URL and the received request

The Go client signs the text of the URL, the edge rebuilds the URL from the request line and the
`Host` header.
-/

namespace Verilink.Client

open Verilink.Framework Verilink.Edge

/-! ## Hosts -/

def isHostChar (c : Char) : Bool := c.isAlphanum || c ∈ "!$&'()*+,;=:[]-_.~".toList

def isPrintedHostChar (c : Char) : Bool := isHostChar c || c ∈ "<>\"".toList

def upperHexDigit (n : UInt8) : Char := "0123456789ABCDEF".toList.getD n.toNat '0'

def percentEncode (b : UInt8) : List Char := ['%', upperHexDigit (b / 16), upperHexDigit (b % 16)]

def escapeHostChar (c : Char) : List Char :=
  if isPrintedHostChar c then [c] else (String.utf8EncodeChar c).flatMap percentEncode

def escapeHost (host : String) : String := String.ofList (host.toList.flatMap escapeHostChar)

def isHostHeaderChar (c : Char) : Bool := isHostChar c || c = '%'

/-- `idna.ToASCII`, of which only this is assumed: a percent sign of the result was one of the
host. -/
structure Idna where
  toASCII : String → Option String
  percent : ∀ host ascii, toASCII host = some ascii → ascii.toList.count '%' ≤ host.toList.count '%'

def punycodeHostPort (idna : Idna) (host : String) : Option String :=
  if host.toList.all (fun c => c.toNat < 128) then some host else idna.toASCII host

def removeZone (host : List Char) : List Char :=
  if host.head? = some '[' then
    match Chars.cutLast ']' host with
    | none => host
    | some (before, after) =>
      match Chars.cutLast '%' before with
      | none => host
      | some (address, _) => address ++ ']' :: after
  else host

/-- The `Host` header that `Request.write` sends for a host; one that would not be valid is sent
empty. -/
def hostHeader (idna : Idna) (host : String) : Option String :=
  (punycodeHostPort idna host).map fun h =>
    if h.toList.all isHostHeaderChar then String.ofList (removeZone h.toList) else ""

/-! ## URLs -/

/-- An absolute http or https URL with a host. The user information, the path and the fragment are
the texts that `Userinfo.String`, `EscapedPath` and `EscapedFragment` give. -/
structure AbsURL where
  scheme : String
  user : Option String
  host : String
  path : String
  forceQuery : Bool
  rawQuery : String
  fragment : String
  http : scheme = "http" ∨ scheme = "https"
  userText : ∀ text, user = some text → ∀ c ∈ text.toList, c ∉ ['/', '?', '#']
  named : host ≠ ""
  rooted : path = "" ∨ path.toList.head? = some '/'

namespace AbsURL

variable (u : AbsURL)

def query : String := if u.forceQuery ∨ u.rawQuery ≠ "" then "?" ++ u.rawQuery else ""

def requestURI : String := (if u.path = "" then "/" else u.path) ++ u.query

def text : String :=
  u.scheme ++ ":" ++ "//" ++ u.user.elim "" (· ++ "@") ++ escapeHost u.host ++ u.path ++ u.query ++
    (if u.fragment ≠ "" then "#" ++ u.fragment else "")

def request (method : String) (body : Bytes) : GoRequest where
  method := method
  scheme := u.scheme
  url := u.text
  host := u.host
  requestURI := u.requestURI
  body := body

/-- The request for a URL as the proxy received it: there are no forwarding headers, or the external
base URL is the one of the request. -/
structure Received (host : String) (p : EdgeProxy) (r : Request) : Prop where
  target : r.requestURI = u.requestURI
  header : r.host = host
  base : (p.externalBaseURL = "" ∧ r.tls = decide (u.scheme = "https") ∧ r.forwardedProto = "" ∧
      r.forwardedHost = "") ∨ p.externalBaseURL = u.scheme ++ "://" ++ host

end AbsURL

/-! ## How hosts are spelled -/

theorem isHostChar_ascii {c : Char} (h : isHostChar c = true) :
    c.toNat < 128 ∧ c ∉ ['/', '?', '#', '@', '%'] := by
  rw [isHostChar, Bool.or_eq_true] at h
  rcases h with h | h
  · constructor
    · simp only [Char.isAlphanum, Char.isAlpha, Char.isUpper, Char.isLower, Char.isDigit,
        Bool.or_eq_true, Bool.and_eq_true, decide_eq_true_eq, UInt32.le_iff_toNat_le, ge_iff_le] at h
      have : c.toNat = c.val.toNat := rfl
      have : 'Z'.val.toNat = 90 := rfl
      have : 'z'.val.toNat = 122 := rfl
      have : '9'.val.toNat = 57 := rfl
      omega
    · intro hmem
      fin_cases hmem <;> revert h <;> decide
  · have hmarks : "!$&'()*+,;=:[]-_.~".toList.all
        (fun c => c.toNat < 128 ∧ c ∉ ['/', '?', '#', '@', '%']) = true := by decide
    exact of_decide_eq_true (List.all_eq_true.mp hmarks c (of_decide_eq_true h))

theorem isPrintedHostChar_ascii {c : Char} (h : isPrintedHostChar c = true) :
    c.toNat < 128 ∧ c ∉ ['/', '?', '#', '@', '%'] := by
  rw [isPrintedHostChar, Bool.or_eq_true] at h
  rcases h with h | h
  · exact isHostChar_ascii h
  · have hmarks : "<>\"".toList.all
        (fun c => c.toNat < 128 ∧ c ∉ ['/', '?', '#', '@', '%']) = true := by decide
    exact of_decide_eq_true (List.all_eq_true.mp hmarks c (of_decide_eq_true h))

theorem isHostHeaderChar_not_mark {c : Char} (h : isHostHeaderChar c = true) :
    c ∉ ['/', '?', '#', '@'] := by
  rw [isHostHeaderChar, Bool.or_eq_true] at h
  rcases h with h | h
  · exact fun hmem => (isHostChar_ascii h).2 (List.mem_append_left ['%'] hmem)
  · rw [of_decide_eq_true h]
    decide

theorem upperHexDigit_mem (n : UInt8) : upperHexDigit n ∈ "0123456789ABCDEF".toList := by
  revert n
  decide +kernel

theorem percentEncode_chars (b : UInt8) : ∀ c ∈ percentEncode b, c = '%' ∨
    isPrintedHostChar c = true := by
  have hhex := List.all_eq_true.mp (show "0123456789ABCDEF".toList.all isPrintedHostChar =
      true by decide)
  intro c hc
  simp only [percentEncode, List.mem_cons, List.not_mem_nil, or_false] at hc
  rcases hc with rfl | rfl | rfl
  · exact .inl rfl
  · exact .inr (hhex _ (upperHexDigit_mem _))
  · exact .inr (hhex _ (upperHexDigit_mem _))

theorem count_percentEncode (b : UInt8) : (percentEncode b).count '%' = 1 := by
  have hhex : ∀ n, upperHexDigit n ≠ '%' := by
    intro n h
    have hmem := upperHexDigit_mem n
    rw [h] at hmem
    revert hmem
    decide
  simp [percentEncode, hhex]

theorem escapeHostChar_of_not_printed {c : Char} (h : isPrintedHostChar c = false) :
    1 ≤ (escapeHostChar c).count '%' ∧ 3 ≤ (escapeHostChar c).length := by
  rw [escapeHostChar, h, if_neg (by simp)]
  obtain ⟨b, bs, hbytes⟩ := List.exists_cons_of_ne_nil (String.utf8EncodeChar_ne_nil (c := c))
  rw [hbytes, List.flatMap_cons, List.count_append, List.length_append, count_percentEncode,
    show (percentEncode b).length = 3 from rfl]
  exact ⟨Nat.le_add_right _ _, Nat.le_add_right _ _⟩

theorem count_escapeHost (host : List Char) :
    host.count '%' + host.countP (fun c => !isPrintedHostChar c && c != '%') ≤
      (host.flatMap escapeHostChar).count '%' := by
  induction host with
  | nil => exact le_rfl
  | cons c host ih =>
    have hc : (if c == '%' then 1 else 0) +
        (if (!isPrintedHostChar c && c != '%') = true then 1 else 0) ≤
        (escapeHostChar c).count '%' := by
      by_cases hper : c = '%'
      · subst hper
        exact (escapeHostChar_of_not_printed (by decide)).1
      · cases hprinted : isPrintedHostChar c with
        | true => simp [hper]
        | false => simpa [hper] using (escapeHostChar_of_not_printed hprinted).1
    rw [List.flatMap_cons, List.count_append, List.count_cons, List.countP_cons]
    omega

theorem length_escapeHost (host : List Char) :
    host.length + 2 * host.countP (fun c => !isPrintedHostChar c) ≤
      (host.flatMap escapeHostChar).length := by
  induction host with
  | nil => exact le_rfl
  | cons c host ih =>
    have hc : 1 + 2 * (if (!isPrintedHostChar c) = true then 1 else 0) ≤
        (escapeHostChar c).length := by
      cases hprinted : isPrintedHostChar c with
      | true => simp [escapeHostChar, hprinted]
      | false => simpa using (escapeHostChar_of_not_printed hprinted).2
    rw [List.flatMap_cons, List.length_append, List.length_cons, List.countP_cons]
    omega

theorem escapeHost_of_printed {host : List Char} (h : ∀ c ∈ host, isPrintedHostChar c = true) :
    host.flatMap escapeHostChar = host := by
  induction host with
  | nil => rfl
  | cons c host ih =>
    rw [List.forall_mem_cons] at h
    rw [List.flatMap_cons, ih h.2, escapeHostChar, if_pos h.1, List.singleton_append]

theorem escapeHost_chars (host : List Char) :
    ∀ c ∈ host.flatMap escapeHostChar, c ∉ ['/', '?', '#', '@'] := by
  have hmark : ∀ c, c = '%' ∨ isPrintedHostChar c = true → c ∉ ['/', '?', '#', '@'] := by
    rintro c (rfl | hc)
    · decide
    · exact fun hmem => (isPrintedHostChar_ascii hc).2 (List.mem_append_left ['%'] hmem)
  intro c hc
  obtain ⟨d, -, hd⟩ := List.mem_flatMap.mp hc
  rw [escapeHostChar] at hd
  split_ifs at hd with hprinted
  · rw [List.mem_singleton.mp hd]
    exact hmark d (.inr hprinted)
  · obtain ⟨b, -, hb⟩ := List.mem_flatMap.mp hd
    exact hmark c (percentEncode_chars b c hb)

theorem sublist_removeZone (host : List Char) : (removeZone host).Sublist host := by
  rw [removeZone]
  split_ifs
  · split
    · exact List.Sublist.refl host
    · rename_i before after hcut
      split
      · exact List.Sublist.refl host
      · rename_i address zone hzone
        rw [(Chars.cutLast_eq_some_iff.mp hcut).1, (Chars.cutLast_eq_some_iff.mp hzone).1]
        exact (List.sublist_append_left address _).append (List.Sublist.refl _)
  · exact List.Sublist.refl host

theorem removeZone_of_not_mem {host : List Char} (h : '%' ∉ host) : removeZone host = host := by
  rw [removeZone]
  split_ifs
  · split
    · rfl
    · rename_i before after hcut
      have hbefore : '%' ∉ before := by
        intro hmem
        rw [(Chars.cutLast_eq_some_iff.mp hcut).1] at h
        exact h (List.mem_append_left _ hmem)
      rw [Chars.cutLast_eq_none_iff.mpr hbefore]
  · rfl

theorem escapeHost_eq_hostHeader_iff {idna : Idna} {host header : String} (hne : host ≠ "")
    (hsent : hostHeader idna host = some header) :
    escapeHost host = header ↔ ∀ c ∈ host.toList, isHostChar c = true := by
  obtain ⟨ascii, hascii, hheader⟩ := Option.map_eq_some_iff.mp hsent
  constructor
  · intro heq
    rw [escapeHost, ← String.toList_inj, String.toList_ofList] at heq
    have hlen := length_escapeHost host.toList
    have hcount := count_escapeHost host.toList
    have hpos : 0 < host.toList.length := List.length_pos_iff.mpr (by simpa using hne)
    rw [heq] at hlen hcount
    split_ifs at hheader with hvalid
    · rw [← hheader, String.toList_ofList] at hlen hcount
      have hzone := sublist_removeZone ascii.toList
      have hpercent : ascii.toList.count '%' ≤ host.toList.count '%' := by
        rw [punycodeHostPort] at hascii
        split_ifs at hascii
        · cases hascii
          exact le_rfl
        · exact idna.percent host ascii hascii
      have hprintable : host.toList.countP (fun c => !isPrintedHostChar c && c != '%') = 0 := by
        have := hzone.count_le '%'
        omega
      -- So the host is ASCII and was not converted, and the lengths leave no room for an escape.
      have hsame : ascii = host := by
        rw [punycodeHostPort, if_pos, Option.some.injEq] at hascii
        · exact hascii.symm
        · rw [List.all_eq_true]
          intro c hc
          have hprint := List.countP_eq_zero.mp hprintable c hc
          by_cases hper : c = '%'
          · simp [hper]
          · have hprinted : isPrintedHostChar c = true := by simpa [hper] using hprint
            exact decide_eq_true (isPrintedHostChar_ascii hprinted).1
      subst hsame
      have hall : ascii.toList.countP (fun c => !isPrintedHostChar c) = 0 := by
        have := hzone.length_le
        omega
      intro c hc
      have hprint := List.countP_eq_zero.mp hall c hc
      have hhead := List.all_eq_true.mp hvalid c hc
      rw [isHostHeaderChar, Bool.or_eq_true] at hhead
      rcases hhead with hhead | hhead
      · exact hhead
      · rw [of_decide_eq_true hhead] at hprint
        exact absurd (by decide) hprint
    · rw [← hheader, String.toList_empty, List.length_nil] at hlen
      omega
  · intro hall
    have hpercent : '%' ∉ host.toList := fun hmem => (isHostChar_ascii (hall _ hmem)).2 (by simp)
    rw [punycodeHostPort, if_pos, Option.some.injEq] at hascii
    · subst hascii
      rw [if_pos, removeZone_of_not_mem hpercent, String.ofList_toList] at hheader
      · rw [escapeHost, escapeHost_of_printed, String.ofList_toList, hheader]
        intro c hc
        simp [isPrintedHostChar, hall c hc]
      · rw [List.all_eq_true]
        intro c hc
        simp [isHostHeaderChar, hall c hc]
    · rw [List.all_eq_true]
      intro c hc
      exact decide_eq_true (isHostChar_ascii (hall c hc)).1

/-! ## The signed text and the rebuilt one -/

/-- A text is cut in one way before its first stop. -/
theorem append_inj_of_stop {stop : Char → Bool} {a a' b b' : List Char}
    (ha : ∀ c ∈ a, stop c = false) (ha' : ∀ c ∈ a', stop c = false)
    (hb : ∀ c ∈ b.head?, stop c = true) (hb' : ∀ c ∈ b'.head?, stop c = true)
    (h : a ++ b = a' ++ b') : a = a' ∧ b = b' := by
  have htake : ∀ {l t : List Char}, (∀ c ∈ l, stop c = false) → (∀ c ∈ t.head?, stop c = true) →
      (l ++ t).takeWhile (fun c => !stop c) = l := by
    intro l t hl ht
    rw [List.takeWhile_append_of_pos fun c hc => by simp [hl c hc]]
    cases t with
    | nil => simp
    | cons c t => simp [ht c rfl]
  have heq : a = a' := by rw [← htake ha hb, h, htake ha' hb']
  subst heq
  exact ⟨rfl, List.append_cancel_left h⟩

namespace AbsURL

variable {u : AbsURL} {idna : Idna} {header : String} {p : EdgeProxy} {r : Request}

theorem buildTargetURI_received (h : u.Received header p r) :
    p.buildTargetURI r = u.scheme ++ "://" ++ header ++ u.requestURI := by
  rw [EdgeProxy.buildTargetURI, h.target, h.header]
  rcases h.base with ⟨hbase, htls, hproto, hhost⟩ | hbase
  · rw [hbase, htls, hproto, hhost]
    rcases u.http with hscheme | hscheme
    · simp [hscheme]
    · simp [hscheme]
  · have hne : p.externalBaseURL ≠ "" := by
      rw [hbase]
      rcases u.http with hscheme | hscheme
      · simp [hscheme]
      · simp [hscheme]
    rw [if_pos hne, hbase]

theorem targetURI_request (method : String) (body : Bytes) :
    (u.request method body).targetURI = u.text := by
  have hne : u.scheme ≠ "" := by
    rcases u.http with hscheme | hscheme
    · rw [hscheme]
      decide
    · rw [hscheme]
      decide
  exact if_pos hne

def authority (u : AbsURL) :
    List Char := (u.user.elim "" (· ++ "@")).toList ++ (escapeHost u.host).toList

def suffix (u : AbsURL) : List Char :=
  (u.path ++ u.query ++ (if u.fragment ≠ "" then "#" ++ u.fragment else "")).toList

def isStop (c : Char) : Bool := c ∈ ['/', '?', '#']

theorem authority_chars : ∀ c ∈ u.authority, isStop c = false := by
  intro c hc
  rw [authority, List.mem_append] at hc
  rcases hc with hc | hc
  · cases huser : u.user with
    | none => simp [huser] at hc
    | some text =>
      simp only [huser, Option.elim_some, String.toList_append, List.mem_append] at hc
      rcases hc with hc | hc
      · exact decide_eq_false (u.userText text huser c hc)
      · rw [List.mem_singleton.mp hc]
        decide
  · rw [escapeHost, String.toList_ofList] at hc
    have hmark := escapeHost_chars u.host.toList c hc
    exact decide_eq_false fun hmem => hmark (List.mem_append_left ['@'] hmem)

theorem header_chars (hsent : hostHeader idna u.host = some header) :
    ∀ c ∈ header.toList, c ∉ ['/', '?', '#', '@'] := by
  obtain ⟨ascii, -, rfl⟩ := Option.map_eq_some_iff.mp hsent
  intro c hc
  split_ifs at hc with hvalid
  · rw [String.toList_ofList] at hc
    exact isHostHeaderChar_not_mark (List.all_eq_true.mp hvalid c ((sublist_removeZone _).subset hc))
  · simp at hc

theorem afterPath_head :
    ∀ c ∈ (u.query ++ (if u.fragment ≠ "" then "#" ++ u.fragment else "")).toList.head?,
    c = '?' ∨ c = '#' := by
  rw [query]
  split_ifs <;> simp

theorem toList_requestURI :
    u.requestURI.toList = (if u.path = "" then ['/'] else u.path.toList) ++ u.query.toList := by
  rw [requestURI, String.toList_append]
  split_ifs <;> rfl

theorem path_head (h : u.path ≠ "") : ∃ rest, u.path.toList = '/' :: rest := by
  have hhead := u.rooted.resolve_left h
  cases hpath : u.path.toList with
  | nil => exact absurd (String.toList_eq_nil_iff.mp hpath) h
  | cons c rest =>
    rw [hpath] at hhead
    cases hhead
    exact ⟨rest, rfl⟩

theorem suffix_head (h : u.path = "") : ∀ c ∈ u.suffix.head?, c = '?' ∨ c = '#' := by
  rw [suffix, h, String.empty_append]
  exact afterPath_head

theorem suffix_stop : ∀ c ∈ u.suffix.head?, isStop c = true := by
  by_cases h : u.path = ""
  · intro c hc
    rcases suffix_head h c hc with rfl | rfl
    · decide
    · decide
  · obtain ⟨rest, hrest⟩ := path_head h
    rw [suffix]
    simp [hrest, isStop]

theorem requestURI_head : ∃ rest, u.requestURI.toList = '/' :: rest := by
  rw [toList_requestURI]
  split_ifs with h
  · exact ⟨_, rfl⟩
  · obtain ⟨rest, hrest⟩ := path_head h
    exact ⟨rest ++ u.query.toList, by rw [hrest, List.cons_append]⟩

theorem requestURI_eq_suffix_iff :
    u.requestURI.toList = u.suffix ↔ u.path ≠ "" ∧ u.fragment = "" := by
  by_cases h : u.path = ""
  · obtain ⟨rest, hrest⟩ := requestURI_head (u := u)
    simp only [h, ne_eq, not_true_eq_false, false_and, iff_false]
    intro heq
    have hhead := suffix_head h '/' (by rw [← heq, hrest]; rfl)
    revert hhead
    decide
  · rw [toList_requestURI, if_neg h, suffix]
    by_cases hfragment : u.fragment = ""
    · simp [h, hfragment]
    · simp [h, hfragment]

theorem authority_eq_header_iff (hsent : hostHeader idna u.host = some header) :
    u.authority = header.toList ↔ u.user = none ∧ ∀ c ∈ u.host.toList, isHostChar c = true := by
  rw [← escapeHost_eq_hostHeader_iff u.named hsent]
  cases huser : u.user with
  | none => simp [authority, huser, String.toList_inj]
  | some text =>
    simp only [reduceCtorEq, false_and, iff_false]
    intro heq
    have hmem : '@' ∈ u.authority := by simp [authority, huser]
    rw [heq] at hmem
    exact header_chars hsent '@' hmem (by decide)

/-- The signed URL is the rebuilt one if and only if it has no user information and no fragment, a
path, and a host that is spelled in one way. -/
theorem targetURI_rebuilt_iff (hsent : hostHeader idna u.host = some header)
    (hrec : u.Received header p r) (method : String) (body : Bytes) :
    (u.request method body).targetURI = p.buildTargetURI r ↔
      u.user = none ∧ u.fragment = "" ∧ u.path ≠ "" ∧ ∀ c ∈ u.host.toList, isHostChar c = true := by
  have hsplit : u.text = p.buildTargetURI r ↔
      u.authority ++ u.suffix = header.toList ++ u.requestURI.toList := by
    rw [buildTargetURI_received hrec, text, ← String.toList_inj, authority, suffix]
    simp [List.append_assoc]
  have hparts : u.authority ++ u.suffix = header.toList ++ u.requestURI.toList ↔
      u.authority = header.toList ∧ u.requestURI.toList = u.suffix := by
    constructor
    · intro heq
      obtain ⟨rest, hrest⟩ := requestURI_head (u := u)
      have hheader : ∀ c ∈ header.toList, isStop c = false := fun c hc =>
        decide_eq_false fun hmem => header_chars hsent c hc (List.mem_append_left ['@'] hmem)
      have hcut := append_inj_of_stop authority_chars hheader suffix_stop
        (by simp [hrest, isStop]) heq
      exact ⟨hcut.1, hcut.2.symm⟩
    · rintro ⟨hauthority, hsuffix⟩
      rw [hauthority, hsuffix]
  rw [targetURI_request, hsplit, hparts, authority_eq_header_iff hsent, requestURI_eq_suffix_iff]
  tauto

def apiURL (path : String) (h : path = "" ∨ path.toList.head? = some '/') : AbsURL where
  scheme := "https"
  user := none
  host := "api.example"
  path := path
  forceQuery := false
  rawQuery := ""
  fragment := ""
  http := .inr rfl
  userText := by simp
  named := by decide
  rooted := h

def plainProxy : EdgeProxy where
  synced := false
  hasWal := false
  requireSignatures := true
  externalBaseURL := ""
  registry := fun _ => none
  trustStore := none

theorem targetURI_rebuilt_iff_score :
    ((apiURL "/v1/score" (by decide)).request "GET" []).targetURI =
      plainProxy.buildTargetURI
        { method := "GET", host := "api.example", requestURI := "/v1/score", tls := true } :=
  (targetURI_rebuilt_iff (show hostHeader ⟨fun _ => none, by simp⟩ "api.example" = some "api.example" by
      decide)
    ⟨by decide, rfl, .inl ⟨rfl, by decide, rfl, rfl⟩⟩ "GET" []).mpr
    ⟨rfl, rfl, by decide, List.all_eq_true.mp (by decide)⟩

/-- A URL without a path is signed without the slash that the request line has. -/
theorem emptyPath_not_rebuilt :
    (apiURL "" (by decide)).Received "api.example" plainProxy
        { method := "GET", host := "api.example", requestURI := "/", tls := true } ∧
      ((apiURL "" (by decide)).request "GET" []).targetURI = "https://api.example" ∧
      plainProxy.buildTargetURI
        { method := "GET", host := "api.example", requestURI := "/", tls := true } =
        "https://api.example/" :=
  ⟨⟨by decide, rfl, .inl ⟨rfl, by decide, rfl, rfl⟩⟩, by decide, by decide⟩

end AbsURL

end Verilink.Client

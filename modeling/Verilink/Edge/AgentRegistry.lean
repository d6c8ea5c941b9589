import Verilink.Edge.SnapshotDisk
import Verilink.Framework.CharText
import Verilink.Framework.JsonIndent

/-!
# The agent registry

`AgentRegistry` keeps every registered key under the text of its key id and in the list of its DID,
and its file keeps one entry for each DID and label joined with a colon.
-/

namespace Verilink.Edge

open Verilink.Framework

structure AgentEntry where
  did : String := ""
  keyLabel : String := ""
  publicKeyB64 : String := ""
  allowedURIs : List String := []
  deriving DecidableEq

def agentScheme : String := "vrl:agent:"

def agentKeyID (did label : String) : String := agentScheme ++ did ++ "|" ++ label

def AgentEntry.keyID (e : AgentEntry) : String := agentKeyID e.did e.keyLabel

structure AgentRegistry where
  byKey : Finmap fun _ : String => AgentEntry
  byDID : Finmap fun _ : String => List AgentEntry

namespace AgentRegistry

def new : AgentRegistry := ⟨∅, ∅⟩

def register (r : AgentRegistry) (entry : AgentEntry) : Except String AgentRegistry :=
  if entry.did = "" ∨ entry.keyLabel = "" then .error "did and key_label are required"
  else .ok
    { byKey := r.byKey.insert entry.keyID entry
      byDID := r.byDID.insert entry.did (upsert AgentEntry.keyLabel (fun _ => entry) entry
        ((r.byDID.lookup entry.did).getD [])) }

def lookup (r : AgentRegistry) (keyid : String) : Except String AgentEntry :=
  match r.byKey.lookup keyid with
  | none => .error ("key not found: " ++ keyid)
  | some entry => .ok entry

def lookupByDID (r : AgentRegistry) (did : String) : Except String (List AgentEntry) :=
  match r.byDID.lookup did with
  | none => .error ("no entries found for DID: " ++ did)
  | some [] => .error ("no entries found for DID: " ++ did)
  | some entries => .ok entries

end AgentRegistry

def parseKeyID (keyid : String) : Option (String × String) :=
  if agentScheme.toList.isPrefixOf keyid.toList then
    match Chars.cutLast '|' (keyid.toList.drop agentScheme.toList.length) with
    | none => none
    | some (did, label) =>
      if did = [] ∨ label = [] then none else some (String.ofList did, String.ofList label)
  else none

/-! ## Key ids -/

theorem toList_agentKeyID (did label : String) :
    (agentKeyID did label).toList = agentScheme.toList ++ (did.toList ++ '|' :: label.toList) := by
  simp [agentKeyID]

theorem parseKeyID_agentKeyID (did label : String) : parseKeyID (agentKeyID did label) =
      match Chars.cutLast '|' (did.toList ++ '|' :: label.toList) with
      | none => none
      | some (d, l) => if d = [] ∨ l = [] then none else some (String.ofList d, String.ofList l) := by
  rw [parseKeyID, toList_agentKeyID, List.drop_left, if_pos]
  exact List.isPrefixOf_iff_prefix.mpr (List.prefix_append _ _)

theorem parseKeyID_eq_self_iff {did label : String} (hdid : did ≠ "") (hlabel : label ≠ "") :
    parseKeyID (agentKeyID did label) = some (did, label) ↔ '|' ∉ label.toList := by
  rw [parseKeyID_agentKeyID]
  constructor
  · intro h
    split at h
    · cases h
    · rename_i d l hcut
      split_ifs at h
      simp only [Option.some.injEq, Prod.mk.injEq] at h
      rw [← h.2, String.toList_ofList]
      exact (Chars.cutLast_eq_some_iff.mp hcut).2
  · intro h
    rw [Chars.cutLast_eq_some_iff.mpr ⟨rfl, h⟩]
    simp [hdid, hlabel]

/-! ## Histories of registrations -/

namespace AgentRegistry

variable {r r' : AgentRegistry} {es : List AgentEntry}

def registerAll (r : AgentRegistry) (es : List AgentEntry) : Except String AgentRegistry :=
  es.foldlM register r

def lastEntry (p : AgentEntry → Bool) (es : List AgentEntry) : Option AgentEntry := es.reverse.find? p

def lastRegistered (did label : String) (es : List AgentEntry) : Option AgentEntry :=
  lastEntry (fun e => e.did = did ∧ e.keyLabel = label) es

theorem lastEntry_concat (p : AgentEntry → Bool) (es : List AgentEntry) (e : AgentEntry) :
    lastEntry p (es ++ [e]) = if p e then some e else lastEntry p es := by
  rw [lastEntry, List.reverse_append, List.reverse_singleton, List.singleton_append, List.find?_cons]
  cases p e <;> rfl

variable {e : AgentEntry} {p : AgentEntry → Bool}

theorem exists_lastEntry (he : e ∈ es) (hp : p e = true) :
    ∃ f ∈ es, p f = true ∧ lastEntry p es = some f := by
  cases hlast : lastEntry p es with
  | none => exact absurd hp (List.find?_eq_none.mp hlast e (List.mem_reverse.mpr he))
  | some f =>
    exact ⟨f, List.mem_reverse.mp (List.mem_of_find?_eq_some hlast), List.find?_some hlast, rfl⟩

theorem lastEntry_congr {q : AgentEntry → Bool} (h : ∀ e ∈ es, p e = q e) :
    lastEntry p es = lastEntry q es :=
  List.find?_congr fun e he => h e (List.mem_reverse.mp he)

theorem register_eq_ok : r.register e = .ok r' ↔ (e.did ≠ "" ∧ e.keyLabel ≠ "") ∧
      r' = { byKey := r.byKey.insert e.keyID e
             byDID := r.byDID.insert e.did (upsert AgentEntry.keyLabel (fun _ => e) e
               ((r.byDID.lookup e.did).getD [])) } := by
  rw [register]
  split_ifs with h
  · simp only [false_iff, not_and]
    exact fun hne => absurd h (by simp [hne])
  · rw [not_or] at h
    simp [h, eq_comm]

structure Indexed (r : AgentRegistry) (es : List AgentEntry) : Prop where
  named : ∀ e ∈ es, e.did ≠ "" ∧ e.keyLabel ≠ ""
  byKey : ∀ keyid, r.byKey.lookup keyid = lastEntry (fun e => e.keyID = keyid) es
  byDID : ∀ did label, ((r.byDID.lookup did).getD []).filter (fun e => e.keyLabel = label) =
    (lastRegistered did label es).toList

theorem indexed_new : new.Indexed [] where
  named := by simp
  byKey := fun _ => Finmap.lookup_empty _
  byDID := fun did label => by simp [new, lastRegistered, lastEntry]

theorem Indexed.register (h : r.Indexed es) (hreg : r.register e = .ok r') :
    r'.Indexed (es ++ [e]) := by
  obtain ⟨hne, rfl⟩ := register_eq_ok.mp hreg
  constructor
  · intro f hf
    rcases List.mem_append.mp hf with hf | hf
    · exact h.named f hf
    · rw [List.mem_singleton.mp hf]
      exact hne
  · intro keyid
    rw [lastEntry_concat]
    by_cases hkey : e.keyID = keyid
    · subst hkey
      simp [Finmap.lookup_insert]
    · simp [hkey, Finmap.lookup_insert_of_ne _ (Ne.symm hkey), h.byKey]
  · intro did label
    rw [lastRegistered, lastEntry_concat]
    by_cases hdid : e.did = did
    · subst hdid
      have hold := h.byDID e.did label
      rw [Finmap.lookup_insert, Option.getD_some, filter_upsert_const, hold]
      by_cases hlabel : e.keyLabel = label
      · -- The list held at most one entry with this label, and the new one takes its place.
        simp only [hlabel, if_true, and_self, decide_true, Option.toList_some]
        cases lastRegistered e.did label es <;> rfl
      · simp [hlabel, lastRegistered]
    · rw [Finmap.lookup_insert_of_ne _ (Ne.symm hdid), h.byDID]
      simp [hdid, lastRegistered]

theorem indexed_registerAll (h : new.registerAll es = .ok r) : r.Indexed es := by
  have hfrom : ∀ (before after : List AgentEntry) (r₀ : AgentRegistry), r₀.Indexed before →
      r₀.registerAll after = .ok r → r.Indexed (before ++ after) := by
    intro before after
    induction after generalizing before with
    | nil =>
      intro r₀ h₀ hrun
      cases hrun
      rw [List.append_nil]
      exact h₀
    | cons e after ih =>
      intro r₀ h₀ hrun
      obtain ⟨r₁, hreg, hrest⟩ := foldlM_cons_eq_ok.mp hrun
      rw [List.append_cons]
      exact ih _ r₁ (h₀.register hreg) hrest
  exact hfrom [] es new indexed_new h

/-- A registered pair as a caller expects to find it: under its key id and in the list of its DID
stands the last entry registered for it, and its key id is parsed back. -/
structure Found (r : AgentRegistry) (es : List AgentEntry) (did label : String) : Prop where
  lookup : ∃ e, lastRegistered did label es = some e ∧ r.lookup (agentKeyID did label) = .ok e ∧
    ∃ l, r.lookupByDID did = .ok l ∧ l.filter (fun f => f.keyLabel = label) = [e]
  parsed : parseKeyID (agentKeyID did label) = some (did, label)

theorem lookupByDID_of_filter {did : String} (h : ((r.byDID.lookup did).getD []).filter p = [e]) :
    ∃ l, r.lookupByDID did = .ok l ∧ l.filter p = [e] := by
  rw [lookupByDID]
  cases hlist : r.byDID.lookup did with
  | none => simp [hlist] at h
  | some l =>
    rw [hlist, Option.getD_some] at h
    cases l with
    | nil => cases h
    | cons f l => exact ⟨_, rfl, h⟩

/-- After any history of registrations every registered pair is found if and only if no registered
label contains a bar. -/
theorem registered_pairs_found_iff (h : new.registerAll es = .ok r) :
    (∀ e ∈ es, r.Found es e.did e.keyLabel) ↔ ∀ e ∈ es, '|' ∉ e.keyLabel.toList := by
  have hix := indexed_registerAll h
  constructor
  · intro hfound e he
    obtain ⟨hdid, hlabel⟩ := hix.named e he
    exact (parseKeyID_eq_self_iff hdid hlabel).mp (hfound e he).parsed
  · intro hbar e he
    have hparsed : ∀ f ∈ es, parseKeyID f.keyID = some (f.did, f.keyLabel) := by
      intro f hf
      obtain ⟨hdid, hlabel⟩ := hix.named f hf
      exact (parseKeyID_eq_self_iff hdid hlabel).mpr (hbar f hf)
    -- Key ids that are parsed back are equal for equal pairs only.
    have hsame : ∀ f ∈ es, decide (f.keyID = e.keyID) =
        decide (f.did = e.did ∧ f.keyLabel = e.keyLabel) := by
      intro f hf
      rw [decide_eq_decide]
      constructor
      · intro heq
        have hpair := hparsed f hf
        rw [heq, hparsed e he] at hpair
        simp only [Option.some.injEq, Prod.mk.injEq] at hpair
        exact ⟨hpair.1.symm, hpair.2.symm⟩
      · rintro ⟨hd, hl⟩
        rw [AgentEntry.keyID, hd, hl, AgentEntry.keyID]
    obtain ⟨last, -, -, hlast⟩ :=
      exists_lastEntry (p := fun f => f.did = e.did ∧ f.keyLabel = e.keyLabel) he (by simp)
    have hlist := hix.byDID e.did e.keyLabel
    rw [lastRegistered, hlast] at hlist
    constructor
    · refine ⟨last, hlast, ?_, lookupByDID_of_filter hlist⟩
      have hkey := hix.byKey e.keyID
      rw [lastEntry_congr hsame, hlast] at hkey
      rw [AgentRegistry.lookup, ← AgentEntry.keyID, hkey]
    · exact hparsed e he

def agentKeys (did : String) : List AgentEntry := [⟨did, "k1", "AA", []⟩, ⟨did, "k2", "BB", ["/v1"]⟩]

theorem registered_pairs_found_iff_twoKeys :
    ∃ r, new.registerAll (agentKeys "did:web:a") = .ok r ∧
      ∀ e ∈ agentKeys "did:web:a", r.Found (agentKeys "did:web:a") e.did e.keyLabel :=
  ⟨_, rfl, (registered_pairs_found_iff rfl).mpr (by decide)⟩

/-- Two pairs with one key id: the second registration hides the first pair's entry. -/
theorem other_pair_found :
    ∃ r, new.registerAll [⟨"a|b", "c", "AA", []⟩, ⟨"a", "b|c", "BB", []⟩] = .ok r ∧
      r.lookup (agentKeyID "a|b" "c") = .ok ⟨"a", "b|c", "BB", []⟩ ∧
      parseKeyID (agentKeyID "a" "b|c") = some ("a|b", "c") := by
  refine ⟨_, rfl, ?_, ?_⟩
  · decide
  · decide

/-! ## The registry file -/

end AgentRegistry

def AgentEntry.savedName (e : AgentEntry) : String := e.did ++ ":" ++ e.keyLabel

/-- The loop of `SaveToJSON`; `seen` holds the texts of the entries appended so far. -/
def savedEntries (seen : List String) : List AgentEntry → List AgentEntry
  | [] => []
  | e :: es =>
    if e.savedName ∈ seen then savedEntries seen es
    else e :: savedEntries (e.savedName :: seen) es

def agentEntryJson (e : AgentEntry) : Json :=
  .obj ([("did", .str e.did), ("key_label", .str e.keyLabel), ("public_key", .str e.publicKeyB64)] ++
    if e.allowedURIs = [] then [] else [("allowed_uris", .arr (e.allowedURIs.map .str))])

def agentEntryFields : List (Json.Field AgentEntry) :=
  [⟨"did", fun e v => do .ok { e with did := ← Json.decodeString e.did v }⟩,
   ⟨"key_label", fun e v => do .ok { e with keyLabel := ← Json.decodeString e.keyLabel v }⟩,
   ⟨"public_key", fun e v => do .ok { e with publicKeyB64 := ← Json.decodeString e.publicKeyB64 v }⟩,
   ⟨"allowed_uris", fun e v => do .ok { e with allowedURIs := ← Json.decodeStringSlice v }⟩]

namespace AgentRegistry

/-- `SaveToJSON` where the file is written; `order` is the order in which Go visits the map. -/
def saveToJSON (r : AgentRegistry) (order : Listing r.byKey) (path : String) (files : Files) : Files :=
  files.insert path
    (Json.marshalIndent (appendedJson ((savedEntries [] order.values).map agentEntryJson)))

/-- The loop of `LoadFromJSON`: the entries before the one that is refused stay registered. -/
def registerEntries (r : AgentRegistry) (i : Nat) : List AgentEntry → AgentRegistry × Option String
  | [] => (r, none)
  | e :: es =>
    match r.register e with
    | .error err => (r, some ("failed to register entry " ++ toString i ++ ": " ++ err))
    | .ok r' => registerEntries r' (i + 1) es

/-- The registry after `LoadFromJSON`, and the error it returns. -/
def loadFromJSON (r : AgentRegistry) (path : String) (files : Files) : AgentRegistry × Option String :=
  match files.lookup path with
  | none =>
    (r, some ("failed to read registry file: open " ++ path ++ ": no such file or directory"))
  | some data =>
    match Json.parse data with
    | none => (r, some "failed to parse registry JSON: invalid JSON")
    | some v =>
      match Json.decodeSlice (Json.decodeStruct agentEntryFields {}) v with
      | .error err => (r, some ("failed to parse registry JSON: " ++ err))
      | .ok entries => r.registerEntries 0 entries

end AgentRegistry

theorem sublist_savedEntries (seen : List String) (es : List AgentEntry) :
    (savedEntries seen es).Sublist es := by
  induction es generalizing seen with
  | nil => exact List.Sublist.refl []
  | cons e es ih =>
    rw [savedEntries]
    split_ifs
    · exact (ih seen).cons e
    · exact (ih _).cons_cons e

theorem savedNames_apart (seen : List String) (es : List AgentEntry) :
    ((savedEntries seen es).map AgentEntry.savedName).Nodup ∧
      ∀ e ∈ savedEntries seen es, e.savedName ∉ seen := by
  induction es generalizing seen with
  | nil => simp [savedEntries]
  | cons e es ih =>
    rw [savedEntries]
    split_ifs with hseen
    · exact ih seen
    · obtain ⟨hnodup, hfresh⟩ := ih (e.savedName :: seen)
      constructor
      · rw [List.map_cons, List.nodup_cons]
        refine ⟨fun hmem => ?_, hnodup⟩
        obtain ⟨f, hf, hname⟩ := List.mem_map.mp hmem
        exact hfresh f hf (hname ▸ List.mem_cons_self)
      · rw [List.forall_mem_cons]
        exact ⟨hseen, fun f hf hmem => hfresh f hf (List.mem_cons_of_mem _ hmem)⟩

theorem savedEntries_of_nodup {seen : List String} {es : List AgentEntry}
    (hnodup : (es.map AgentEntry.savedName).Nodup) (hseen : ∀ e ∈ es, e.savedName ∉ seen) :
    savedEntries seen es = es := by
  induction es generalizing seen with
  | nil => rfl
  | cons e es ih =>
    rw [List.map_cons, List.nodup_cons] at hnodup
    rw [List.forall_mem_cons] at hseen
    rw [savedEntries, if_neg hseen.1, ih hnodup.2]
    intro f hf hmem
    rcases List.mem_cons.mp hmem with heq | hmem
    · exact hnodup.1 (heq ▸ List.mem_map_of_mem hf)
    · exact hseen.2 f hf hmem

theorem decodeStruct_agentEntryJson (e : AgentEntry) :
    Json.decodeStruct agentEntryFields {} (agentEntryJson e) = .ok e := by
  obtain ⟨did, label, key, uris⟩ := e
  rw [agentEntryJson]
  split_ifs with huris
  · cases huris
    rfl
  · have hslice : Json.decodeStringSlice (.arr (uris.map .str)) = .ok (uris.map id) :=
      Json.decodeSlice_map _ _ _ uris fun _ _ => rfl
    rw [List.map_id] at hslice
    show (Json.decodeStringSlice (.arr (uris.map .str)) >>= _) >>= _ = _
    rw [hslice]
    rfl

theorem fracFree_agentEntryJson (e : AgentEntry) : Json.fracFree (agentEntryJson e) = true := by
  rw [agentEntryJson]
  split_ifs
  · simp [Json.fracFree, Json.fracFreeMembers]
  · simp [Json.fracFree, Json.fracFreeMembers, Json.fracFreeElems_iff]

theorem fracFree_agentEntries (es : List AgentEntry) :
    Json.fracFree (appendedJson (es.map agentEntryJson)) = true := by
  cases es with
  | nil => rfl
  | cons e es =>
    refine (Json.fracFreeElems_iff _).mpr fun v hv => ?_
    obtain ⟨f, -, rfl⟩ := List.mem_map.mp hv
    exact fracFree_agentEntryJson f

namespace AgentRegistry

variable {r r' : AgentRegistry} {es : List AgentEntry}

theorem registerEntries_of_named (r : AgentRegistry) (i : Nat) {es : List AgentEntry}
    (h : ∀ e ∈ es, e.did ≠ "" ∧ e.keyLabel ≠ "") :
    ∃ r', r.registerEntries i es = (r', none) ∧ r.registerAll es = .ok r' := by
  induction es generalizing r i with
  | nil => exact ⟨r, rfl, rfl⟩
  | cons e es ih =>
    rw [List.forall_mem_cons] at h
    have hreg := (register_eq_ok (r := r)).mpr ⟨h.1, rfl⟩
    obtain ⟨r', hload, hall⟩ := ih _ (i + 1) h.2
    refine ⟨r', ?_, foldlM_cons_eq_ok.mpr ⟨_, hreg, hall⟩⟩
    rw [registerEntries, hreg]
    exact hload

theorem lookup_eq_iff (keyid : String) :
    r'.lookup keyid = r.lookup keyid ↔ r'.byKey.lookup keyid = r.byKey.lookup keyid := by
  rw [lookup, lookup]
  cases r'.byKey.lookup keyid <;> cases r.byKey.lookup keyid <;> simp

theorem Indexed.entry (h : r.Indexed es) {keyid : String} {e : AgentEntry}
    (he : r.byKey.lookup keyid = some e) : e ∈ es ∧ e.keyID = keyid := by
  rw [h.byKey] at he
  have hkey := List.find?_some he
  exact ⟨List.mem_reverse.mp (List.mem_of_find?_eq_some he), of_decide_eq_true hkey⟩

theorem load_saved (h : r.Indexed es) (order : Listing r.byKey) (path : String) (files : Files) :
    ∃ r', new.loadFromJSON path (r.saveToJSON order path files) = (r', none) ∧
      r'.Indexed (savedEntries [] order.values) := by
  have hnamed : ∀ e ∈ savedEntries [] order.values, e.did ≠ "" ∧ e.keyLabel ≠ "" := by
    intro e he
    obtain ⟨keyid, hkey⟩ := order.mem_values.mp ((sublist_savedEntries _ _).subset he)
    exact h.named e (h.entry hkey).1
  obtain ⟨r', hload, hall⟩ := registerEntries_of_named new 0 hnamed
  refine ⟨r', ?_, indexed_registerAll hall⟩
  have hslice : Json.decodeSlice (Json.decodeStruct agentEntryFields {})
      (appendedJson ((savedEntries [] order.values).map agentEntryJson)) =
      .ok ((savedEntries [] order.values).map id) :=
    decodeSlice_appendedJson fun e _ => decodeStruct_agentEntryJson e
  rw [List.map_id] at hslice
  rw [loadFromJSON, saveToJSON, Finmap.lookup_insert]
  simp only [Json.parse_marshalIndent (fracFree_agentEntries _), hslice]
  exact hload

theorem Indexed.lookup_iff (h : r.Indexed es) (hnodup : (es.map AgentEntry.keyID).Nodup)
    {keyid : String} {e : AgentEntry} :
    r.byKey.lookup keyid = some e ↔ e ∈ es ∧ e.keyID = keyid := by
  have hrev : (es.reverse.map AgentEntry.keyID).Nodup := by
    rw [List.map_reverse]
    exact List.nodup_reverse.mpr hnodup
  rw [h.byKey, lastEntry, find?_key_eq_some_iff AgentEntry.keyID _ hrev, List.mem_reverse]

/-- No two entries for different pairs have the same DID and label joined with a colon. -/
def NamesApart (r : AgentRegistry) : Prop :=
  ∀ keyid e keyid' e', r.byKey.lookup keyid = some e → r.byKey.lookup keyid' = some e' →
    e.savedName = e'.savedName → e.did = e'.did ∧ e.keyLabel = e'.keyLabel

/-- Whatever the order in which the map was visited, the loaded registry answers like the saved one
if and only if no two entries for different pairs are joined to the same text. -/
theorem load_saved_lookup_iff (h : new.registerAll es = .ok r) (order : Listing r.byKey)
    (path : String) (files : Files) :
    ((new.loadFromJSON path (r.saveToJSON order path files)).2 = none ∧
      ∀ keyid, (new.loadFromJSON path (r.saveToJSON order path files)).1.lookup keyid =
        r.lookup keyid) ↔ r.NamesApart := by
  have hix := indexed_registerAll h
  obtain ⟨r', hload, hix'⟩ := load_saved hix order path files
  have hkeys : (order.values.map AgentEntry.keyID).Nodup :=
    order.nodup_values fun k e he => (hix.entry he).2
  have hsub := sublist_savedEntries [] order.values
  have hlookup : ∀ {keyid e}, r'.byKey.lookup keyid = some e ↔
      e ∈ savedEntries [] order.values ∧ e.keyID = keyid :=
    hix'.lookup_iff (hkeys.sublist (hsub.map _))
  simp only [hload, true_and, lookup_eq_iff]
  constructor
  · intro hsame
    have hkept : ∀ {keyid e}, r.byKey.lookup keyid = some e → e ∈ savedEntries [] order.values := by
      intro keyid e he
      rw [← hsame] at he
      exact (hlookup.mp he).1
    intro keyid e keyid' e' he he' hname
    have hnames := (savedNames_apart [] order.values).1
    rw [List.inj_on_of_nodup_map hnames (hkept he) (hkept he') hname]
    exact ⟨rfl, rfl⟩
  · intro hapart keyid
    have hnames : (order.values.map AgentEntry.savedName).Nodup := by
      rw [List.nodup_map_iff_inj_on hkeys.of_map]
      intro e he e' he' hname
      obtain ⟨k, hk⟩ := order.mem_values.mp he
      obtain ⟨k', hk'⟩ := order.mem_values.mp he'
      obtain ⟨hdid, hlabel⟩ := hapart k e k' e' hk hk' hname
      have hkey : e.keyID = e'.keyID := by rw [AgentEntry.keyID, hdid, hlabel, AgentEntry.keyID]
      exact List.inj_on_of_nodup_map hkeys he he' hkey
    have hall : savedEntries [] order.values = order.values :=
      savedEntries_of_nodup hnames (by simp)
    apply Option.ext
    intro e
    rw [hlookup, hall, order.mem_values]
    constructor
    · rintro ⟨⟨k, hk⟩, rfl⟩
      rw [(hix.entry hk).2]
      exact hk
    · intro he
      exact ⟨⟨keyid, he⟩, (hix.entry he).2⟩

def twoEntries (e f : AgentEntry) (h : f.keyID ≠ e.keyID) :
    Listing ((new.byKey.insert e.keyID e).insert f.keyID f) where
  entries := [⟨f.keyID, f⟩, ⟨e.keyID, e⟩]
  nodup := by simp [List.NodupKeys, List.keys, h]
  complete := by
    rw [Finmap.toFinmap_cons, Finmap.toFinmap_cons, Finmap.toFinmap_nil]
    rfl

theorem load_saved_lookup_iff_twoKeys :
    ∃ r, ∃ order : Listing r.byKey, new.registerAll (agentKeys "did:web:a") = .ok r ∧
      (((new.loadFromJSON "agents.json" (r.saveToJSON order "agents.json" ∅)).2 = none ∧
        ∀ keyid, (new.loadFromJSON "agents.json" (r.saveToJSON order "agents.json" ∅)).1.lookup keyid =
          r.lookup keyid) ↔ r.NamesApart) :=
  ⟨_, twoEntries ⟨"did:web:a", "k1", "AA", []⟩ ⟨"did:web:a", "k2", "BB", ["/v1"]⟩ (by decide), rfl,
    load_saved_lookup_iff (show new.registerAll (agentKeys "did:web:a") = _ from rfl) _ "agents.json" ∅⟩

/-- Two entries whose DID and label are joined to the same text: only one of them is saved. -/
theorem joined_entry_lost :
    ∃ r, ∃ order : Listing r.byKey,
      new.registerAll [⟨"a:b", "c", "AA", []⟩, ⟨"a", "b:c", "BB", []⟩] = .ok r ∧
      r.lookup (agentKeyID "a:b" "c") = .ok ⟨"a:b", "c", "AA", []⟩ ∧
      (new.loadFromJSON "agents.json" (r.saveToJSON order "agents.json" ∅)).1.lookup
        (agentKeyID "a:b" "c") = .error "key not found: vrl:agent:a:b|c" := by
  refine ⟨_, twoEntries ⟨"a:b", "c", "AA", []⟩ ⟨"a", "b:c", "BB", []⟩ (by decide), rfl, ?_, ?_⟩
  · decide
  · decide

end AgentRegistry

end Verilink.Edge

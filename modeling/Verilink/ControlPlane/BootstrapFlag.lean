import Verilink.ControlPlane.Counterfactual
import Verilink.Framework.DerivedColumn

/-!
# The derived flag under concurrent transactions

`issuers.is_bootstrap` is derived from `bootstrap_issuers` by the seed, for every issuer, and by a
staff update, for one.
-/

namespace Verilink.ControlPlane

open Verilink.Framework

def isRoot (b : BootstrapIssuerRow) : Bool :=
  b.removedFromRegistryAt.isNone && decide (0 < b.currentWeight)

def seedWrites (now : Timestamp) : List (SourceWrite String BootstrapIssuerRow) :=
  SEED_ISSUERS.flatMap fun entry =>
    [.addFlag entry.id, .addSource entry.id ⟨entry.id, entry.name, 1, now, none⟩]

inductive BootstrapJob : List (SourceWrite String BootstrapIssuerRow) → Option String → Prop
  | seedBootstrapRegistry (now : Timestamp) : BootstrapJob (seedWrites now) none
  | updateBootstrapIssuer (principalId : String) (update : BootstrapUpdate) (now : Timestamp)
      (hweight : ¬ ∃ w ∈ update.currentWeight, toHundredths w < 0 ∨ 1 < toHundredths w) :
      BootstrapJob [.patch principalId (Database.updatedRegistryRow principalId update now)]
        (some principalId)

theorem BootstrapJob.covers {writes : List (SourceWrite String BootstrapIssuerRow)}
    {target : Option String} (h : BootstrapJob writes target) :
    ∀ w ∈ writes, DeriveTxn.Covers target w.key := by
  cases h with
  | seedBootstrapRegistry now =>
    intro w _ only honly
    cases honly
  | updateBootstrapIssuer principalId update now hweight =>
    intro w hw only honly
    cases honly
    rw [List.mem_singleton.mp hw]
    rfl

variable (τ : Type) [DecidableEq τ]

def bootstrapTransactions :
    System (DerivedTables τ String BootstrapIssuerRow) (τ × DeriveOp String BootstrapIssuerRow) :=
  DerivedTables.system isRoot BootstrapJob

variable {τ}

/-- In every run in which no transaction commits a registry row that makes or unmakes a root while
another derivation still has to write that issuer, the flags are those of the registry. -/
theorem isBootstrap_of_registry {s : DerivedTables τ String BootstrapIssuerRow}
    (h : (bootstrapTransactions τ).ReachableVia (DerivedTables.CommitsClear isRoot) s)
    (principalId : String) (isBootstrap : Bool)
    (hissuer : s.tables.flag principalId = some isBootstrap) :
    isBootstrap = true ↔ ∃ b, s.tables.source principalId = some b ∧
      b.removedFromRegistryAt = none ∧ 0 < b.currentWeight := by
  have hagrees := DerivedTables.agrees_of_reachableVia
    (fun _ _ hjob => BootstrapJob.covers hjob) h principalId isBootstrap hissuer
  rw [hagrees, Option.any_eq_true]
  simp [isRoot]

/-! ## A transaction alone -/

omit [DecidableEq τ] in
theorem commitsClear_of_idle {s : DerivedTables τ String BootstrapIssuerRow} {t : τ}
    {op : DeriveOp String BootstrapIssuerRow}
    (hidle : ∀ u, u ≠ t → ∀ y, s.txn u = some y → ∀ view todo, y.stage ≠ .running view todo) :
    DerivedTables.CommitsClear isRoot s (t, op) := by
  intro _ x _ k row _ _ u y view todo hu hy hrunning
  exact absurd hrunning (hidle u hu y hy view todo)

def Database.bootstrapTables (db : Database) : SourceTables String BootstrapIssuerRow where
  source id := db.bootstrapIssuers.rows.find? fun b => b.principalId = id
  flag id := (db.issuers.rows.find? fun i => i.principalId = id).map fun i =>
    decide (i.isBootstrap = some true)

theorem isRegistryRoot_eq (db : Database) (id : String) :
    db.isRegistryRoot id = (db.bootstrapTables.source id).any isRoot := by
  have hnodup : (db.bootstrapIssuers.rows.map BootstrapIssuerRow.principalId).Nodup :=
    db.bootstrapIssuers.nodup_map _ fun _ _ h => h
  rw [Bool.eq_iff_iff, Option.any_eq_true, Database.isRegistryRoot, List.any_eq_true]
  apply exists_congr
  intro b
  have hfind : db.bootstrapTables.source id = some b ↔ b ∈ db.bootstrapIssuers.rows ∧
      b.principalId = id :=
    find?_key_eq_some_iff BootstrapIssuerRow.principalId _ hnodup id b
  rw [hfind]
  simp [isRoot, and_assoc]

variable {principalId : String} {update : BootstrapUpdate} {now : Timestamp} {b : BootstrapIssuerRow}

theorem updatedRegistryRow_of_ne (h : b.principalId ≠ principalId) :
    Database.updatedRegistryRow principalId update now b = b := by
  simp [Database.updatedRegistryRow, h]

def Database.updateRegistry (db : Database) (principalId : String) (update : BootstrapUpdate)
    (now : Timestamp) : Database :=
  let updated := db.bootstrapIssuers.mapRows (updatedRegistryRow principalId update now)
    fun _ _ h => h
  { db with bootstrapIssuers := updated }

variable {db : Database}

theorem source_updateRegistry (hb : db.bootstrapTables.source principalId = some b)
    (update : BootstrapUpdate) (now : Timestamp) :
    (db.updateRegistry principalId update now).bootstrapTables.source =
      Function.update db.bootstrapTables.source principalId
        (some (Database.updatedRegistryRow principalId update now b)) := by
  funext id
  have hfind : (db.updateRegistry principalId update now).bootstrapTables.source id =
      (db.bootstrapTables.source id).map (Database.updatedRegistryRow principalId update now) := by
    simp only [Database.bootstrapTables, Database.updateRegistry, Table.mapRows, List.find?_map]
    rfl
  rw [hfind]
  by_cases hid : id = principalId
  · rw [hid, hb, Function.update_self, Option.map_some]
  · rw [Function.update_of_ne hid]
    cases hrow : db.bootstrapTables.source id with
    | none => rfl
    | some row =>
      have hrowId : row.principalId = id := by simpa using List.find?_some hrow
      rw [Option.map_some, updatedRegistryRow_of_ne (by rw [hrowId]; exact hid)]

theorem flag_deriveIsBootstrapForIssuer (db : Database) (principalId : String)
    (hissuer : db.bootstrapTables.flag principalId ≠ none) :
    (db.deriveIsBootstrapForIssuer principalId).bootstrapTables.flag =
      Function.update db.bootstrapTables.flag principalId
        (some (db.isRegistryRoot principalId)) := by
  funext id
  have hfind : (db.deriveIsBootstrapForIssuer principalId).bootstrapTables.flag id =
      (db.issuers.rows.find? fun i => i.principalId = id).map fun i =>
        decide ((if i.principalId = principalId then some (db.isRegistryRoot i.principalId)
          else i.isBootstrap) = some true) := by
    simp only [Database.bootstrapTables, Database.deriveIsBootstrapForIssuer, Table.mapRows,
      List.find?_map, Option.map_map]
    rfl
  rw [hfind]
  have hflag : db.bootstrapTables.flag id =
      (db.issuers.rows.find? fun i => i.principalId = id).map fun i =>
        decide (i.isBootstrap = some true) := rfl
  cases hrow : db.issuers.rows.find? fun i => i.principalId = id with
  | none =>
    have hne : id ≠ principalId := by
      rintro rfl
      exact hissuer (by rw [hflag, hrow]; rfl)
    rw [Function.update_of_ne hne, hflag, hrow]
    rfl
  | some i =>
    have hid : i.principalId = id := by simpa using List.find?_some hrow
    by_cases heq : id = principalId
    · simp [heq, hid]
    · rw [Function.update_of_ne heq, hflag, hrow]
      simp [hid, heq]

/-- The one transaction of an update runs alone and ends in what `updateBootstrapIssuer` makes of
the database. -/
theorem updateBootstrapIssuer_alone {db' : Database} (hrefers : db.bootstrapTables.Refers)
    (h : db.updateBootstrapIssuer principalId update now = .ok (some db')) (t : τ)
    (s : DerivedTables τ String BootstrapIssuerRow) :
    (bootstrapTransactions τ).RunVia (DerivedTables.CommitsClear isRoot)
        (DerivedTables.patchSteps t principalId (Database.updatedRegistryRow principalId update now))
        ⟨db.bootstrapTables, fun _ => none⟩ s ↔
      s = ⟨db'.bootstrapTables, fun _ => none⟩ := by
  suffices hrun : (bootstrapTransactions τ).RunVia (DerivedTables.CommitsClear isRoot)
      (DerivedTables.patchSteps t principalId (Database.updatedRegistryRow principalId update now))
      ⟨db.bootstrapTables, fun _ => none⟩ ⟨db'.bootstrapTables, fun _ => none⟩ by
    constructor
    · intro hother
      exact hother.unique (fun _ _ _ _ hst hst' => DerivedTables.Step.unique hst hst') hrun
    · rintro rfl
      exact hrun
  unfold Database.updateBootstrapIssuer at h
  split_ifs at h with hempty hexists hweight
  any_goals cases h
  obtain ⟨b, hb, hid⟩ := hexists
  have hnodup : (db.bootstrapIssuers.rows.map BootstrapIssuerRow.principalId).Nodup :=
    db.bootstrapIssuers.nodup_map _ fun _ _ h => h
  have hsource : db.bootstrapTables.source principalId = some b :=
    (find?_key_eq_some_iff BootstrapIssuerRow.principalId _ hnodup principalId b).mpr ⟨hb, hid⟩
  have hregistry := source_updateRegistry hsource update now
  have htables : ((db.updateRegistry principalId update now).deriveIsBootstrapForIssuer
      principalId).bootstrapTables = DerivedTables.patched isRoot db.bootstrapTables principalId
        (Database.updatedRegistryRow principalId update now b) := by
    have hflag := flag_deriveIsBootstrapForIssuer (db.updateRegistry principalId update now)
      principalId (hrefers principalId (by simp [hsource]))
    rw [isRegistryRoot_eq, hregistry, Function.update_self, Option.any_some] at hflag
    rw [DerivedTables.patched, SourceTables.mk.injEq]
    exact ⟨hregistry, hflag⟩
  change (bootstrapTransactions τ).RunVia _ _ _ ⟨((db.updateRegistry principalId update
    now).deriveIsBootstrapForIssuer principalId).bootstrapTables, _⟩
  rw [htables]
  apply DerivedTables.run_patch (.updateBootstrapIssuer principalId update now hweight) rfl hsource
    hrefers
  · intro _ _ _ hy
    cases hy
  · intro _ _ _ hy
    cases hy
  · exact fun s' op hothers => commitsClear_of_idle fun u hu => by simp [hothers u hu]

theorem updateBootstrapIssuer_alone_twoRoots : ∃ db db' : Database, db.bootstrapTables.Refers ∧
    db.updateBootstrapIssuer "root" { currentWeight := some 0 } 0 = .ok (some db') ∧
    ∀ s, (bootstrapTransactions Bool).RunVia (DerivedTables.CommitsClear isRoot)
        (DerivedTables.patchSteps true "root"
          (Database.updatedRegistryRow "root" { currentWeight := some 0 } 0))
        ⟨db.bootstrapTables, fun _ => none⟩ s ↔
      s = ⟨db'.bootstrapTables, fun _ => none⟩ := by
  have hrefers : (twoRoots 1 chainOfTrust).bootstrapTables.Refers := by
    intro id hid
    simpa [Database.bootstrapTables, twoRoots] using hid
  exact ⟨_, _, hrefers, twoRoots_update 1, updateBootstrapIssuer_alone hrefers (twoRoots_update 1) true⟩

/-! ## A seed and an update -/

def seededTables : SourceTables String BootstrapIssuerRow where
  source id := (SEED_ISSUERS.find? fun entry => entry.id = id).map fun entry =>
    ⟨entry.id, entry.name, 1, 0, none⟩
  flag id := (SEED_ISSUERS.find? fun entry => entry.id = id).map fun _ => true

theorem seeded_settled : DerivedTables.Settled isRoot
    (⟨seededTables, fun _ => none⟩ : DerivedTables Bool String BootstrapIssuerRow) where
  closed _ := rfl
  agrees id b hb := by
    simp only [seededTables, Option.map_eq_some_iff] at hb
    obtain ⟨entry, hentry, rfl⟩ := hb
    simp [seededTables, hentry, isRoot]
  refers id hid := by simpa [seededTables] using hid

def rootId : String := "vrl:p:11111111-1111-4111-8111-111111111111"

def whimsyId : String := "vrl:p:22222222-2222-4222-8222-222222222222"

def dropRoot : BootstrapUpdate := { currentWeight := some 0 }

def seededRow : BootstrapIssuerRow := ⟨rootId, "VeriLink Bootstrap", 1, 0, none⟩

theorem dropRoot_job : BootstrapJob [.patch rootId (Database.updatedRegistryRow rootId dropRoot 0)]
    (some rootId) :=
  .updateBootstrapIssuer rootId dropRoot 0 (by decide +kernel)

def insertedSeed : DeriveTxn String BootstrapIssuerRow where
  writes := []
  target := none

/-- The seed has found the manifest stored and has not started its derivation. -/
def insertedState : DerivedTables Bool String BootstrapIssuerRow :=
  DerivedTables.set ⟨seededTables, fun _ => none⟩ true (some insertedSeed)

variable {ok : DerivedTables Bool String BootstrapIssuerRow →
  Bool × DeriveOp String BootstrapIssuerRow → Prop}

theorem reachable_next {s s' : DerivedTables Bool String BootstrapIssuerRow}
    {a : Bool × DeriveOp String BootstrapIssuerRow}
    (hs : (bootstrapTransactions Bool).ReachableVia ok s) (hok : ok s a)
    (hstep : DerivedTables.Step isRoot BootstrapJob s a s') :
    (bootstrapTransactions Bool).ReachableVia ok s' :=
  hs.next a hok hstep

theorem insertedState_reachable (hok : ∀ s op, s.txn false = none → ok s (true, op)) :
    (bootstrapTransactions Bool).ReachableVia ok insertedState := by
  have hstart : (bootstrapTransactions Bool).ReachableVia ok ⟨seededTables, fun _ => none⟩ :=
    .init seeded_settled
  have hbegin := reachable_next (a := (true, .begin (seedWrites 0) none)) hstart (hok _ _ rfl)
    (.begin rfl (.seedBootstrapRegistry 0))
  -- the manifest is there already
  have hkept : ∀ w ∈ seedWrites 0, DerivedTables.Kept (insertedSeed.sees seededTables) w := by
    intro w hw
    simp only [seedWrites, List.mem_flatMap] at hw
    obtain ⟨entry, hentry, hw⟩ := hw
    have hstored : (SEED_ISSUERS.find? fun e => e.id = entry.id).isSome := by
      rw [List.find?_isSome]
      exact ⟨entry, hentry, by simp⟩
    rw [Option.isSome_iff_exists] at hstored
    obtain ⟨e, he⟩ := hstored
    simp only [List.mem_cons, List.not_mem_nil, or_false] at hw
    rcases hw with rfl | rfl <;>
      simp [DerivedTables.Kept, insertedSeed, DeriveTxn.sees, seededTables, he]
  exact hbegin.runVia (DerivedTables.run_kept rfl hkept fun _ => hok _ _ rfl)

/-- Staff sets the weight of the root to zero while the seed is open and has written nothing. -/
theorem dropRoot_reachable {s : DerivedTables Bool String BootstrapIssuerRow} {x}
    (h : (bootstrapTransactions Bool).ReachableVia ok s) (htables : s.tables = seededTables)
    (hclosed : s.txn false = none) (hopen : s.txn true = some x) (hsource : x.source = fun _ => none)
    (hflag : x.flag = fun _ => none)
    (hok : ∀ s' op, s'.txn true = some x → ok s' (false, op)) :
    (bootstrapTransactions Bool).ReachableVia ok ⟨DerivedTables.patched isRoot seededTables rootId
      (Database.updatedRegistryRow rootId dropRoot 0 seededRow), s.txn⟩ := by
  have hidle : ∀ u y, u ≠ false → s.txn u = some y → y = x := by
    intro u y hu hy
    rw [Bool.eq_true_of_not_eq_false hu, hopen] at hy
    exact (Option.some.inj hy).symm
  rw [← htables]
  apply h.runVia
  apply DerivedTables.run_patch dropRoot_job hclosed
  · rw [htables]
    decide
  · rw [htables]
    exact seeded_settled.refers
  · intro u y hu hy
    rw [hidle u y hu hy, hflag]
  · intro u y hu hy
    rw [hidle u y hu hy, hsource]
  · intro s' op hothers
    exact hok s' op ((hothers true (by decide)).trans hopen)

/-- The derivation of a seed writes both issuers as it has read them, and the seed commits. -/
theorem seed_derives {s : DerivedTables Bool String BootstrapIssuerRow} {view}
    (h : (bootstrapTransactions Bool).ReachableVia ok s) (hclosed : s.txn false = none)
    (hopen : s.txn true = some { insertedSeed with
      stage := .running view (insertedSeed.rowsToDerive seededTables) })
    (hok : ∀ s' op, s'.txn false = none → ok s' (true, op)) :
    ∃ s', (bootstrapTransactions Bool).ReachableVia ok s' ∧ (∀ t, s'.txn t = none) ∧
      s'.tables.flag rootId = some ((view rootId).any isRoot) ∧
      s'.tables.source = s.tables.source := by
  have hfree : ∀ (s : DerivedTables Bool String BootstrapIssuerRow) k, s.txn false = none →
      s.FlagFree true k := by
    intro s k hnone u y hu hy
    rw [Bool.eq_false_of_not_eq_true hu, hnone] at hy
    cases hy
  have hstored : ∀ id, seededTables.flag id ≠ none → id ∈ insertedSeed.rowsToDerive seededTables :=
    fun id hid => ⟨by simp [DeriveTxn.Covers, insertedSeed], by simpa [DeriveTxn.sees, insertedSeed]⟩
  have hroot : rootId ∈ insertedSeed.rowsToDerive seededTables :=
    hstored rootId (by decide)
  have hwhimsy : whimsyId ∈ insertedSeed.rowsToDerive seededTables \ {rootId} :=
    ⟨hstored whimsyId (by decide), by decide⟩
  have hrows : (insertedSeed.rowsToDerive seededTables \ {rootId}) \ {whimsyId} = ∅ := by
    rw [Set.eq_empty_iff_forall_notMem]
    rintro id ⟨⟨⟨_, hflag⟩, hnotRoot⟩, hnotWhimsy⟩
    simp only [insertedSeed, DeriveTxn.sees, seededTables, Option.none_or, ne_eq,
      Option.map_eq_none_iff, List.find?_eq_none, decide_eq_true_eq, not_forall, not_not] at hflag
    obtain ⟨entry, hentry, rfl⟩ := hflag
    rw [SEED_ISSUERS, List.mem_cons, List.mem_singleton] at hentry
    rcases hentry with rfl | rfl
    · exact hnotRoot rfl
    · exact hnotWhimsy rfl
  have hderive := reachable_next (a := (true, .derive rootId)) h (hok _ _ hclosed)
    (.derive hopen rfl hroot (hfree _ _ hclosed))
  have hderive' := reachable_next (a := (true, .derive whimsyId)) hderive (hok _ _ hclosed)
    (.derive (DerivedTables.txn_set_self _ _ _) rfl hwhimsy (hfree _ _ hclosed))
  have hfinish := reachable_next (a := (true, .finish)) hderive' (hok _ _ hclosed)
    (.finish (DerivedTables.txn_set_self _ _ _) (congrArg (DeriveStage.running _) hrows))
  have hcommit := reachable_next (a := (true, .commit)) hfinish (hok _ _ hclosed)
    (.commit (DerivedTables.txn_set_self _ _ _) rfl)
  refine ⟨_, hcommit, ?_, ?_, rfl⟩
  · intro t
    cases t with
    | true => rfl
    | false => exact hclosed
  · rfl

/-- The update comes between the inserts of a seed and its derivation. -/
theorem isBootstrap_of_registry_dropped :
    ∃ s : DerivedTables Bool String BootstrapIssuerRow,
      (bootstrapTransactions Bool).ReachableVia (DerivedTables.CommitsClear isRoot) s ∧
      s.tables.flag rootId = some false ∧
      (false = true ↔ ∃ b, s.tables.source rootId = some b ∧ b.removedFromRegistryAt = none ∧
        0 < b.currentWeight) := by
  have hok : ∀ (s : DerivedTables Bool String BootstrapIssuerRow) op, s.txn false = none →
      DerivedTables.CommitsClear isRoot s (true, op) := by
    intro s op hclosed
    apply commitsClear_of_idle
    intro u hu
    simp [Bool.eq_false_of_not_eq_true hu, hclosed]
  have hupdated := dropRoot_reachable (insertedState_reachable hok) rfl rfl rfl rfl rfl (by
    intro s' op hopen
    apply commitsClear_of_idle
    intro u hu y hy
    rw [Bool.eq_true_of_not_eq_false hu, hopen] at hy
    cases hy
    simp [insertedSeed])
  have hstarted := reachable_next (a := (true, .start)) hupdated (hok _ _ rfl) (.start rfl rfl rfl)
  have hrows : insertedSeed.rowsToDerive (DerivedTables.patched isRoot seededTables rootId
      (Database.updatedRegistryRow rootId dropRoot 0 seededRow)) =
      insertedSeed.rowsToDerive seededTables := by
    ext id
    by_cases hid : id = rootId
    · have hstored : seededTables.flag rootId = some true := by decide
      simp [DeriveTxn.rowsToDerive, DeriveTxn.sees, DerivedTables.patched, hid, hstored]
    · simp [DeriveTxn.rowsToDerive, DeriveTxn.sees, DerivedTables.patched, hid]
  obtain ⟨s, hs, -, hflag, -⟩ := seed_derives hstarted rfl (by rw [← hrows]; rfl) hok
  have hfalse : s.tables.flag rootId = some false := hflag.trans (by decide +kernel)
  exact ⟨s, hs, hfalse, isBootstrap_of_registry hs rootId false hfalse⟩

/-- The derivation of a seed starts, staff sets the weight of the root to zero and commits, and
the seed writes what it read before. -/
theorem seed_overwrites_update :
    ∃ s : DerivedTables Bool String BootstrapIssuerRow,
      (bootstrapTransactions Bool).Reachable s ∧ (∀ t, s.txn t = none) ∧
      s.tables.flag rootId = some true ∧
      ∃ b, s.tables.source rootId = some b ∧ b.currentWeight = 0 := by
  have hinserted : (bootstrapTransactions Bool).Reachable insertedState :=
    insertedState_reachable fun _ _ _ => trivial
  have hstarted := reachable_next (a := (true, .start)) hinserted trivial (.start rfl rfl rfl)
  have hupdated := dropRoot_reachable hstarted rfl rfl rfl rfl rfl fun _ _ _ => trivial
  obtain ⟨s, hs, hclosed, hflag, hsource⟩ := seed_derives hupdated rfl rfl fun _ _ _ => trivial
  refine ⟨s, hs, hclosed, hflag.trans (by decide +kernel), ?_⟩
  rw [hsource]
  exact ⟨_, rfl, by decide +kernel⟩

end Verilink.ControlPlane

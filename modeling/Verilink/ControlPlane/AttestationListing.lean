import Verilink.ControlPlane.Database
import Verilink.Framework.SortedBy

/-!
# Listing attestations

`GET /v1/attestations` shows a caller what is public and what concerns their tenants.
-/

namespace Verilink.ControlPlane

open Verilink.Framework

/-- The claims of a session or API key that listing reads; `none` is `undefined`. -/
structure CallerUser where
  tenantIds : Option (List Uuid) := none
  tenantId : Option Uuid := none
  roles : Option (List String) := none
  isStaff : Bool := false

/-- The tenants in which the caller is staff or admin, or all of them if there are no roles. A
tenant without a role at its position is left out. -/
def resolveCallerTenantIds : Option CallerUser → List Uuid
  | none => []
  | some user =>
    let tenantIds := user.tenantIds.getD user.tenantId.toList
    let roles := user.roles.getD []
    if 0 < roles.length then
      ((tenantIds.zip roles).filter fun x => x.2 = "staff" ∨ x.2 = "admin").map Prod.fst
    else tenantIds

/-- A row of `attestations` with the time by which it is listed. -/
structure ReceivedAttestation extends AttestationRow where
  receivedAt : Int
  deriving DecidableEq

/-- No two rows are received at the same time. -/
abbrev ReceivedTable : Type := Table ReceivedAttestation fun a b => a.receivedAt = b.receivedAt

structure ListOptions where
  issuerId : Option String := none
  subjectId : Option String := none
  limit : Option Int := none
  offset : Option Int := none

/-! ## The query -/

def sqlOr : Option Bool → Option Bool → Option Bool
  | some true, _ => some true
  | _, some true => some true
  | some false, b => b
  | none, _ => none

def ownedByAny (owner : Option Uuid) (ids : List Uuid) : Option Bool :=
  owner.map fun owner => ids.contains owner

def ownerOf (principals : List PrincipalRow) (id : String) : Option Uuid :=
  (principals.find? fun p => p.id = id).bind PrincipalRow.ownerTenantId

def visibleTo (principals : List PrincipalRow) (isStaff : Bool) (tenantIds : List Uuid)
    (a : ReceivedAttestation) : Option Bool :=
  if isStaff then some true
  else if 0 < tenantIds.length then
    sqlOr (sqlOr (some (a.visibility = .isPublic))
      (ownedByAny (ownerOf principals a.issuerId) tenantIds))
      (ownedByAny (ownerOf principals a.subjectId) tenantIds)
  else some (a.visibility = .isPublic)

/-- A filter that is absent or empty is not a condition. -/
def filterAllows (wanted : Option String) (value : String) : Bool :=
  wanted.getD "" = "" ∨ wanted = some value

def listed (principals : List PrincipalRow) (isStaff : Bool) (tenantIds : List Uuid) (opts : ListOptions)
    (a : ReceivedAttestation) : Bool :=
  filterAllows opts.issuerId a.issuerId && filterAllows opts.subjectId a.subjectId &&
    visibleTo principals isStaff tenantIds a = some true

/-- `value || dflt`, for which zero counts as absent. -/
def orWhenFalsy (value : Option Int) (dflt : Int) : Int :=
  if value.getD 0 = 0 then dflt else value.getD 0

def listAttestations (principals : List PrincipalRow) (table : ReceivedTable) (isStaff : Bool)
    (tenantIds : List Uuid) (opts : ListOptions) : Except String (List ReceivedAttestation × Nat) :=
  let rows := table.rows.filter (listed principals isStaff tenantIds opts)
  let limit := orWhenFalsy opts.limit 50
  let offset := orWhenFalsy opts.offset 0
  if offset < 0 then .error "OFFSET must not be negative"
  else if limit < 0 then .error "LIMIT must not be negative"
  else
    let newestFirst := sortBy (fun a => OrderDual.toDual a.receivedAt) rows
    .ok ((newestFirst.drop offset.toNat).take limit.toNat, rows.length)

def getAttestations (principals : List PrincipalRow) (table : ReceivedTable) (user : Option CallerUser)
    (opts : ListOptions) : Except String (List ReceivedAttestation × Nat) :=
  listAttestations principals table (user.elim false CallerUser.isStaff)
    (resolveCallerTenantIds user) opts

/-! ## What a caller cannot see -/

def Foreign (principals : List PrincipalRow) (tenantIds : List Uuid) (a : ReceivedAttestation) : Prop :=
  a.visibility = .participants ∧ (∀ t ∈ ownerOf principals a.issuerId, t ∉ tenantIds) ∧
    ∀ t ∈ ownerOf principals a.subjectId, t ∉ tenantIds

variable {principals : List PrincipalRow} {tenantIds : List Uuid} {a : ReceivedAttestation}

theorem ownedByAny_ne_true {owner : Option Uuid} (h : ∀ t ∈ owner, t ∉ tenantIds) :
    ownedByAny owner tenantIds ≠ some true := by
  cases owner with
  | none => simp [ownedByAny]
  | some t => simpa [ownedByAny] using h

theorem sqlOr_eq_true {x y : Option Bool} : sqlOr x y = some true ↔ x = some true ∨ y = some true := by
  rcases x with _ | _ | _ <;> rcases y with _ | _ | _ <;> simp [sqlOr]

theorem Foreign.not_visible (h : Foreign principals tenantIds a) :
    visibleTo principals false tenantIds a ≠ some true := by
  have hvisibility : decide (a.visibility = .isPublic) = false := by simp [h.1]
  rw [visibleTo, if_neg nofun]
  split_ifs
  · simp only [ne_eq, sqlOr_eq_true, hvisibility, not_or]
    exact ⟨⟨nofun, ownedByAny_ne_true h.2.1⟩, ownedByAny_ne_true h.2.2⟩
  · simp [hvisibility]

theorem listed_congr {table table' : ReceivedTable} (opts : ListOptions)
    (h : ∀ a, ¬ Foreign principals tenantIds a → (a ∈ table.rows ↔ a ∈ table'.rows)) :
    (table.rows.filter (listed principals false tenantIds opts)).Perm
      (table'.rows.filter (listed principals false tenantIds opts)) := by
  have hnodup : ∀ t : ReceivedTable, t.rows.Nodup := fun t =>
    (t.nodup_map ReceivedAttestation.receivedAt fun _ _ h => h).of_map
  apply (List.perm_ext_iff_of_nodup ((hnodup _).filter _) ((hnodup _).filter _)).mpr
  intro a
  simp only [List.mem_filter]
  refine and_congr_left fun hlisted => h a ?_
  intro hforeign
  simp only [listed, Bool.and_eq_true, decide_eq_true_eq] at hlisted
  exact hforeign.not_visible hlisted.2

/-- Attestations among other tenants change neither the page nor the total. -/
theorem getAttestations_foreign (principals : List PrincipalRow) (user : Option CallerUser)
    (opts : ListOptions) (table table' : ReceivedTable)
    (hstaff : user.elim false CallerUser.isStaff = false)
    (h : ∀ a, ¬ Foreign principals (resolveCallerTenantIds user) a →
    (a ∈ table.rows ↔ a ∈ table'.rows)) :
    getAttestations principals table user opts = getAttestations principals table' user opts := by
  have hperm := listed_congr opts h
  have hsort : sortBy (fun a => OrderDual.toDual a.receivedAt)
        (table.rows.filter (listed principals false (resolveCallerTenantIds user) opts)) =
      sortBy (fun a => OrderDual.toDual a.receivedAt)
        (table'.rows.filter (listed principals false (resolveCallerTenantIds user) opts)) := by
    apply sortBy_congr _ hperm
    exact (table.nodup_map ReceivedAttestation.receivedAt fun _ _ h => h).sublist
      ((List.filter_sublist).map _)
  rw [getAttestations, getAttestations, hstaff, listAttestations, listAttestations,
    hperm.length_eq, hsort]

/-! ## An attestation between two others -/

def ownedPrincipal (id : String) (owner : Option Uuid) : PrincipalRow :=
  ⟨id, .both, none, owner, .active⟩

def receivedAt (id : Uuid) (time : Int) (visibility : Visibility) : ReceivedAttestation :=
  { id := id, issuerId := "i", subjectId := "s", trustDelta := 1, issuedAt := 0, expiresAt := none,
    attestationType := "t", observationId := none, visibility := visibility, supersededBy := none,
    bootstrapOrigin := false, receivedAt := time }

def otherParties : List PrincipalRow :=
  [ownedPrincipal "i" (some ⟨"other", by decide⟩), ownedPrincipal "s" none]

def onlyPublic : ReceivedTable := ⟨[receivedAt (.short '1') 1 .isPublic], by simp⟩

def withPrivate : ReceivedTable :=
  ⟨[receivedAt (.short '1') 1 .isPublic, receivedAt (.short '2') 2 .participants], by decide⟩

def tenantAdmin : CallerUser := { tenantIds := some [⟨"own", by decide⟩], roles := some ["admin"] }

theorem getAttestations_foreign_between :
    withPrivate.rows.length = 2 ∧
      getAttestations otherParties withPrivate (some tenantAdmin) {} =
        getAttestations otherParties onlyPublic (some tenantAdmin) {} := by
  refine ⟨rfl, getAttestations_foreign otherParties (some tenantAdmin) {} withPrivate onlyPublic rfl ?_⟩
  intro a hvisible
  have hforeign : Foreign otherParties (resolveCallerTenantIds (some tenantAdmin))
      (receivedAt (.short '2') 2 .participants) := ⟨rfl, by decide, nofun⟩
  simp only [withPrivate, onlyPublic, List.mem_cons, List.not_mem_nil, or_false]
  refine or_iff_left ?_
  rintro rfl
  exact hvisible hforeign

end Verilink.ControlPlane

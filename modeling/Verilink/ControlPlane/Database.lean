import Verilink.Framework.Json
import Verilink.Framework.Table

/-!
# The control-plane database

The tables of the migrations, with the columns that scoring, key management, policies and sync
read. A column with a `CHECK ... IN` is an enumeration. Times are JavaScript times:
milliseconds since the Unix epoch.
-/

namespace Verilink.ControlPlane

open Verilink.Framework

abbrev Timestamp := Int

structure Uuid where
  text : String
  nonempty : text ≠ ""
  deriving DecidableEq

theorem singleton_ne_empty (c : Char) : String.singleton c ≠ "" := by simp

def Uuid.short (c : Char) : Uuid := ⟨String.singleton c, singleton_ne_empty c⟩

inductive PrincipalKind
  | agent
  | issuer
  | both
  deriving DecidableEq, Repr

def PrincipalKind.text : PrincipalKind → String
  | .agent => "agent"
  | .issuer => "issuer"
  | .both => "both"

inductive PrincipalStatus
  | active
  | deactivated
  deriving DecidableEq, Repr

inductive Visibility
  | participants
  | isPublic
  deriving DecidableEq, Repr

inductive BelowThresholdAction
  | allow
  | deny
  deriving DecidableEq, Repr

def BelowThresholdAction.text : BelowThresholdAction → String
  | .allow => "allow"
  | .deny => "deny"

inductive UnsignedAction
  | passthrough
  | deny
  deriving DecidableEq, Repr

def UnsignedAction.text : UnsignedAction → String
  | .passthrough => "passthrough"
  | .deny => "deny"

inductive SyncEventType
  | scoreUpsert
  | scoreDelete
  | keyUpsert
  | keyRevoke
  | policyReplace
  deriving DecidableEq, Repr

def SyncEventType.text : SyncEventType → String
  | .scoreUpsert => "score.upsert"
  | .scoreDelete => "score.delete"
  | .keyUpsert => "key.upsert"
  | .keyRevoke => "key.revoke"
  | .policyReplace => "policy.replace"

structure PrincipalRow where
  id : String
  entityKind : PrincipalKind
  name : Option String
  ownerTenantId : Option Uuid
  status : PrincipalStatus
  deriving DecidableEq

structure PrincipalKeyRow where
  principalId : String
  keyId : String
  publicKeyRaw : List UInt8
  keyHash : String
  validFrom : Timestamp
  validUntil : Option Timestamp
  revokedAt : Option Timestamp
  deriving DecidableEq

structure IssuerRow where
  principalId : String
  trustWeight : ℚ
  isBootstrap : Option Bool
  deriving DecidableEq

structure BootstrapIssuerRow where
  principalId : String
  name : String
  currentWeight : ℚ
  seededAt : Timestamp
  removedFromRegistryAt : Option Timestamp
  deriving DecidableEq

structure AttestationRow where
  id : Uuid
  issuerId : String
  subjectId : String
  trustDelta : Int
  issuedAt : Timestamp
  expiresAt : Option Timestamp
  attestationType : String
  observationId : Option String
  visibility : Visibility
  supersededBy : Option Uuid
  bootstrapOrigin : Bool
  deriving DecidableEq

structure EngineScore where
  principalId : String
  entityKind : String
  score : Int
  blacklisted : Bool
  scoreReason : String
  deriving DecidableEq, Repr

structure NetworkScoreRow extends EngineScore where
  computedAt : Timestamp
  syncVersion : Int
  deriving DecidableEq, Repr

structure PolicyRow where
  tenantId : Uuid
  name : String
  threshold : Int
  belowThresholdAction : BelowThresholdAction
  unsignedAction : UnsignedAction
  allowFingerprints : List String
  denyFingerprints : List String
  failOpenExpired : Bool
  noDropDecisions : Bool
  maxSnapshotAgeSeconds : Int
  allowSampleRate : ℚ
  isActive : Bool
  deriving DecidableEq

structure SyncEventRow where
  syncVersion : Int
  eventType : SyncEventType
  principalId : Option String
  tenantId : Option Uuid
  payload : Json

/-- Primary key and the `key_hash_unique` index. -/
abbrev PrincipalKeyRow.Conflict (a b : PrincipalKeyRow) : Prop :=
  (a.principalId = b.principalId ∧ a.keyId = b.keyId) ∨ a.keyHash = b.keyHash

/-- `UNIQUE (tenant_id, name)` and the partial index `active_policy_per_tenant`. -/
abbrev PolicyRow.Conflict (a b : PolicyRow) : Prop :=
  (a.tenantId = b.tenantId ∧ a.name = b.name) ∨
    (a.tenantId = b.tenantId ∧ a.isActive = true ∧ b.isActive = true)

structure Database where
  tenants : List Uuid
  principals : Table PrincipalRow fun a b => a.id = b.id
  principalKeys : Table PrincipalKeyRow PrincipalKeyRow.Conflict
  issuers : Table IssuerRow fun a b => a.principalId = b.principalId
  bootstrapIssuers : Table BootstrapIssuerRow fun a b => a.principalId = b.principalId
  attestations : Table AttestationRow fun a b => a.id = b.id
  networkScores : Table NetworkScoreRow fun a b => a.principalId = b.principalId
  policies : Table PolicyRow PolicyRow.Conflict
  syncEvents : Table SyncEventRow fun a b => a.syncVersion = b.syncVersion

namespace Database

def empty : Database where
  tenants := []
  principals := Table.empty
  principalKeys := Table.empty
  issuers := Table.empty
  bootstrapIssuers := Table.empty
  attestations := Table.empty
  networkScores := Table.empty
  policies := Table.empty
  syncEvents := Table.empty

/-- `COALESCE(MAX(sync_version), 0)`. -/
def highWater (db : Database) : Int :=
  (db.syncEvents.rows.map SyncEventRow.syncVersion).foldl max 0

def getActivePolicy (db : Database) (tenantId : Uuid) : Option PolicyRow :=
  db.policies.rows.find? fun p => p.tenantId = tenantId ∧ p.isActive = true

def findPrincipal (db : Database) (id : String) : Option PrincipalRow :=
  db.principals.rows.find? fun p => p.id = id

theorem findPrincipal_eq_some_iff (db : Database) (id : String) (p : PrincipalRow) :
    db.findPrincipal id = some p ↔ p ∈ db.principals.rows ∧ p.id = id :=
  find?_key_eq_some_iff PrincipalRow.id _ (db.principals.nodup_map _ fun _ _ h => h) id p

end Database

end Verilink.ControlPlane

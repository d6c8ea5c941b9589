import Verilink.Trust.Monotone
import Verilink.ControlPlane.AttestationListing
import Verilink.ControlPlane.AttestationStore
import Verilink.ControlPlane.Billing
import Verilink.ControlPlane.BootstrapFlag
import Verilink.ControlPlane.Canonicalize
import Verilink.ControlPlane.KeyOwnership
import Verilink.ControlPlane.OrganicWindow
import Verilink.ControlPlane.RecomputeRuns
import Verilink.ControlPlane.ReportFreshness
import Verilink.ControlPlane.SchedulerLifecycle
import Verilink.ControlPlane.SyncAllocation
import Verilink.Edge.AuditRecord
import Verilink.Edge.EventDelivery
import Verilink.Edge.Fingerprint
import Verilink.Edge.NonceCache
import Verilink.Edge.Persistence
import Verilink.Edge.Retention
import Verilink.Edge.SignatureReplay
import Verilink.Edge.WalCrash
import Verilink.Edge.WalFaults
import Verilink.Client.Interop
import Verilink.Client.TargetURI
import Verilink.Sync.CountedOnce
import Verilink.Sync.ScoreReplay
import Verilink.Sync.SseCut
import Verilink.Sync.StreamBurst
import Verilink.Sync.WriteQueue

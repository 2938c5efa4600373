import AmcCluster.Fold
import AmcCluster.Stats
import AmcCluster.Node
import AmcCluster.Cluster
import AmcCluster.Membership
import AmcCluster.Version
import AmcCluster.NamespaceInfo
import AmcCluster.BackupRestore
import AmcCluster.Interleaving
import AmcCluster.Locking
import AmcCluster.LockDiscipline
import AmcCluster.UpdateStats
import AmcCluster.Lifecycle
import AmcCluster.BackupRace
import AmcCluster.Readers
import AmcCluster.RequestInfo
import AmcCluster.Datacenter
import AmcCluster.DeviceInfo
import AmcCluster.Reconcile
import AmcCluster.Refresh
import AmcCluster.RemoveRace

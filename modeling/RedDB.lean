import RedDB.Allocator.Safety
import RedDB.Auth.Evaluation
import RedDB.Auth.TenantScope
import RedDB.Cluster.CatchupSlices
import RedDB.Cluster.KeyRanges
import RedDB.Cluster.MoveSafety
import RedDB.Cluster.Placement
import RedDB.Election.Safety
import RedDB.Lease.Safety
import RedDB.Operational.ArtifactNames
import RedDB.Pager.DoubleWriteSafety
import RedDB.Pager.OwnershipRecovery
import RedDB.Pager.SuperblockSafety
import RedDB.Query.BloomGate
import RedDB.Query.FilterSemantics
import RedDB.Query.InList
import RedDB.Query.JoinAgreement
import RedDB.Query.Like
import RedDB.Query.SetOps
import RedDB.Query.SlotFilter
import RedDB.Queue.Exclusive
import RedDB.Queue.RetryBudget
import RedDB.Replay.ApplySafety
import RedDB.Replication.QuorumSafety
import RedDB.Replication.ResumeSafety
import RedDB.Replication.SpoolSafety
import RedDB.Storage.ChainWalks
import RedDB.Storage.LeafSplit
import RedDB.Storage.ValueRoundTrip
import RedDB.Transaction.FirstCommitter
import RedDB.Transaction.Horizon
import RedDB.Transaction.SerializableSafety
import RedDB.Types.DecimalExact
import RedDB.Types.OrderedKey
import RedDB.Vcs.Log
import RedDB.Wal.CommitBatch
import RedDB.Wal.GroupCommit

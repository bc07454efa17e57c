import Sententia.Engine
import Sententia.Engine.BookInvariant
import Sententia.Engine.Matching
import Sententia.Engine.Invariant
import Sententia.Engine.Refinement
import Sententia.Engine.EventFold
import Sententia.Net.Message
import Sententia.Replication.CommandLog
import Sententia.Replication.Replicator
import Sententia.Consensus.Election
import Sententia.Library.Ballot
import Sententia.Library.Transition
import Sententia.Consensus.ElectionInvariant
import Sententia.Consensus.ElectionCluster
import Sententia.Replication.LogSpec
import Sententia.Replication.LogRepresentation
import Sententia.Replication.AppendFor
import Sententia.Replication.Compaction
import Sententia.Replication.Amplification
import Sententia.Replication.WiredTransport
import Sententia.Replication.ForgottenBackup
import Sententia.Replication.PrefixReplica
import Sententia.Replication.CatchUp
import Sententia.Node.Heartbeat
import Sententia.Replication.ReplicatorSpec
import Sententia.Replication.FollowerSpec
import Sententia.Replication.ReplicatorCluster
import Sententia.Library.LeaderLog
import Sententia.Replication.SinglePrimary
import Sententia.Replication.LogMatching
import Sententia.Library.LeaderCompleteness
import Sententia.Replication.ReplicaHistory
import Sententia.Replication.MatchPoints
import Sententia.Node
import Sententia.Node.CommitQuorum
import Sententia.Consensus.RoleNotifications
import Sententia.Node.RoleTracking
import Sententia.Consensus.VoteMemory
import Sententia.Replication.OnlyPrimary
import Sententia.Replication.AppliedPoint
import Sententia.Replication.EngineHistory
import Sententia.Replication.SharedCommit
import Sententia.Engine.Likeness
import Sententia.Engine.Snapshot
import Sententia.Library.Codec
import Sententia.Net.Wire
import Sententia.Storage.Device
import Sententia.Storage.Wal
import Sententia.Storage.WalSpec
import Sententia.Storage.AppendFaults
import Sententia.Storage.Snapshot
import Sententia.Storage.DurableState
import Sententia.Engine.Growth
import Sententia.Storage.Recovery
import Sententia.Storage.Journal
import Sententia.Storage.Crash
import Sententia.Storage.SnapshotDamage
import Sententia.Storage.InstallSnapshot
import Sententia.Storage.SnapshotTruncation
import Sententia.Engine.FailedRestore
import Sententia.Engine.RestoredBook
import Sententia.Engine.EventGrammar
import Sententia.Engine.RestingQuantity
import Sententia.Engine.Conservation
import Sententia.Engine.ReportedSizes
import Sententia.Engine.ChecksumInput
import Sententia.Net.MessageCodec
import Sententia.Net.Framing
import Sententia.Net.FramingReference
import Sententia.Net.Transport
import Sententia.Net.Tiebreak
import Sententia.Net.CommandCodec
import Sententia.Storage.EntryCodec
import Sententia.Storage.SnapshotCodec
import Sententia.Library.Crc
import Sententia.Storage.LogFile
import Sententia.Storage.LogRecovery
import Sententia.Storage.PayloadDamage
import Sententia.Replication.QuorumPoint
import Sententia.Net.ClusterConfig
import Sententia.Engine.Rendering
import Sententia.Library.Parallel
import Sententia.Net.ReadLoop
import Sententia.Net.ReconnectPacing
import Sententia.Library.Campaign
import Sententia.Consensus.ElectionCampaign
import Sententia.Node.NodeCluster
import Sententia.Node.NodeCampaign
import Sententia.Node.LeaderCompleteness
import Sententia.Consensus.Proclamations
import Sententia.Replication.CommittedFront
import Sententia.Node.Announcements
import Sententia.Node.CommittedEntries
import Sententia.Node.StateMachineSafety
import Sententia.Engine.FlatVenue
import Sententia.Storage.PowerLoss
import Sententia.Library.Replacement
import Sententia.Storage.ReplacedFiles
import Sententia.Net.SendPath
import Sententia.Node.OrderFeed
import Sententia.Engine.CommandFile
import Sententia.Engine.ReplayDriver
import Sententia.Storage.Lifetime

import FiscoBcos.Pbft.Proposals
import FiscoBcos.Pbft.CommitTrigger
import FiscoBcos.Pbft.Agreement
import FiscoBcos.Pbft.Backup
import FiscoBcos.Pbft.Executions
import FiscoBcos.Pbft.ViewChange
import FiscoBcos.Pbft.Forwarding
import FiscoBcos.Raft.Codec
import FiscoBcos.Raft.Elections
import FiscoBcos.Rpbft.Quorums
import FiscoBcos.Precompiled.OneRotation
import FiscoBcos.Storage.LogicalTable
import FiscoBcos.Raft.Votes
import FiscoBcos.Raft.Majority
import FiscoBcos.Storage.DirtyEntries
import FiscoBcos.Precompiled.DeclaredFields
import FiscoBcos.TxPool.ReservedNonces
import FiscoBcos.Devcore.RLPRoundTrip
import FiscoBcos.Storage.HashBuffer
import FiscoBcos.Storage.BinLogRecovery
import FiscoBcos.TxPool.Replays
import FiscoBcos.Chain.TransactionProof
import FiscoBcos.Precompiled.FreshMajority
import FiscoBcos.Precompiled.SealerRegistry
import FiscoBcos.Sync.NodeTimeMaintenance
import FiscoBcos.Sync.DownloadedBlocks
import FiscoBcos.Executive.NestedCalls
import FiscoBcos.Executive.Gas
import FiscoBcos.BlockVerifier.Handles
import FiscoBcos.BlockVerifier.ParallelBlock
import FiscoBcos.Sync.DownloadQueues
import FiscoBcos.Sync.MaintainTransactions
import FiscoBcos.P2p.P2PMessage
import FiscoBcos.Ethcore.AbiDecoding

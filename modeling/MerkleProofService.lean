import MerkleProofService.Proofs.ProofPaths
import MerkleProofService.Proofs.BatchWrites
import MerkleProofService.Proofs.CommitRuns
import MerkleProofService.Proofs.SimulationChain
import MerkleProofService.ZkRegistry.CertificateRegistry
import MerkleProofService.Proofs.RegistryCommits
import MerkleProofService.Proofs.RegistryStates
import MerkleProofService.Proofs.SimulationCommit
import MerkleProofService.Indexer.JobStorage
import MerkleProofService.Indexer.RegistryJob
import MerkleProofService.Library.SharedStore
import MerkleProofService.Query.Handlers
import MerkleProofService.Proofs.JobCommits
import MerkleProofService.Proofs.ConcurrentRequests
import MerkleProofService.Proofs.ConcurrentProofs
import MerkleProofService.Proofs.ConcurrentEmptyLeaves
import MerkleProofService.Proofs.ConcurrentSimulation
import MerkleProofService.Indexer.IndexLogs
import MerkleProofService.Proofs.Replay
import MerkleProofService.Proofs.ChainLogs
import MerkleProofService.Proofs.CrashRuns
import MerkleProofService.Proofs.SubscriptionRuns
import MerkleProofService.Proofs.IndexAssignment
import MerkleProofService.Proofs.NodeCalls
import MerkleProofService.Proofs.InsertionOrder
import MerkleProofService.Proofs.WrittenNodes
import MerkleProofService.Proofs.CommitOrder
import MerkleProofService.Proofs.InsertionReads
import MerkleProofService.Proofs.AcceptedLogs
import MerkleProofService.Proofs.EventLeaves
import MerkleProofService.Proofs.KeySpace
import MerkleProofService.Library.HashBinding
import MerkleProofService.Proofs.RootBinding
import MerkleProofService.Proofs.CursorRuns
import MerkleProofService.Proofs.OverlayProofs
import MerkleProofService.Library.ServedPrograms
import MerkleProofService.Proofs.SlotSearch
import MerkleProofService.ZkRegistry.Initialization
import MerkleProofService.Proofs.IndexFailures
import MerkleProofService.Proofs.RegistryInitialization
import MerkleProofService.Proofs.InitializationRuns
import MerkleProofService.Proofs.TreeDepths
import MerkleProofService.Indexer.HandlerCalls
import MerkleProofService.Proofs.PollingRuns
import MerkleProofService.Proofs.HeadFlag
import MerkleProofService.Indexer.Configurator
import MerkleProofService.Proofs.ConfiguratorRuns
import MerkleProofService.Proofs.JobStarts
import MerkleProofService.Proofs.StartUp
import MerkleProofService.Proofs.ReloadRuns
import MerkleProofService.Proofs.RangeArithmetic
import MerkleProofService.Proofs.JobMap
import MerkleProofService.Library.Threads
import MerkleProofService.ZkRegistry.Mutex
import MerkleProofService.Proofs.MutexRuns
import MerkleProofService.Library.Slices
import MerkleProofService.Library.StatefulPrograms
import MerkleProofService.ZkRegistry.SliceInsertion
import MerkleProofService.Proofs.BufferReuse
import MerkleProofService.Indexer.SinkIndexation
import MerkleProofService.Proofs.SinkRuns
import MerkleProofService.Library.DisjointParties
import MerkleProofService.Proofs.JobFootprints
import MerkleProofService.Proofs.FleetRuns
import MerkleProofService.Proofs.ServedAnswers
import MerkleProofService.Application.RunIndexer
import MerkleProofService.Proofs.IndexerRuns
import MerkleProofService.Application.Configuration
import MerkleProofService.Proofs.ConfigurationRuns
import MerkleProofService.Proofs.ServiceLife
import MerkleProofService.Application.Process
import MerkleProofService.Proofs.ProcessRuns
import MerkleProofService.Library.FairRuns
import MerkleProofService.Proofs.CatchUp

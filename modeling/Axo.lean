import Axo.Consensus.Concurrency
import Axo.Consensus.LedgerFacts
import Axo.Consensus.LedgerRuns
import Axo.Consensus.Reconcile
import Axo.Functions.ParamsValidation
import Axo.Service.Placement
import Axo.Lib.Transition
import Axo.Service.PlacementHops
import Axo.Service.Cluster
import Axo.Service.ClusterBacking
import Axo.Service.ClusterCap
import Axo.Consensus.Bully
import Axo.Lib.WaitGraph
import Axo.Service.CircularWait
import Axo.Service.ConsensusLoop
import Axo.Service.Failover
import Axo.Service.FailoverReconciled
import Axo.Lib.Custody
import Axo.Service.ProcessReports
import Axo.Service.ContainerReports
import Axo.Service.JobWriteOnce
import Axo.Service.ActiveJobs
import Axo.Service.JobRetryBound
import Axo.Consensus.Replication
import Axo.Lib.Overlay
import Axo.Service.RegistryCalls
import Axo.Service.FlushTruth
import Axo.Service.StableLeader
import Axo.Service.StepDown
import Axo.Service.SyncCluster
import Axo.Service.StaleTerms
import Axo.Service.LostPushes
import Axo.Service.PulledStates
import Axo.Service.StateAndStores
import Axo.Storage.InMemory
import Axo.Functions.FunctionVersions
import Axo.Lib.Slices
import Axo.Data.ChunkKeys
import Axo.Data.DataStore
import Axo.Data.Dataset
import Axo.Data.OwnUpload
import Axo.Data.UploadSignals
import Axo.Data.Replicable
import Axo.Data.BlobReplication
import Axo.Data.ReplicaAgreement
import Axo.Data.DataHandlers
import Axo.Data.ClientUpload
import Axo.Data.StreamRequests
import Axo.Data.StreamedOutput
import Axo.Data.BucketQuota
import Axo.Lib.FileTree
import Axo.Storage.Filesystem
import Axo.Data.FileStore
import Axo.Data.SharedStorage
import Axo.Data.FileStatus
import Axo.Data.FileBlobs
import Axo.Data.OtherWriters
import Axo.Data.DataIo
import Axo.Service.RouterServer
import Axo.Service.ResultBytes
import Axo.Service.ResultPush
import Axo.Service.ResultSync
import Axo.Service.ClientSession
import Axo.Lib.Layering
import Axo.Lib.Adjacency
import Axo.Choreography.GraphOps
import Axo.Choreography.Waves
import Axo.Choreography.RunChoreography
import Axo.Choreography.RunOutcomes
import Axo.Choreography.ConcurrencyCheck
import Axo.Choreography.JobsInFlight
import Axo.Choreography.JobLimits
import Axo.Wire.Frames
import Axo.Wire.RoundTrip
import Axo.Wire.PyValues
import Axo.Wire.Ingestion
import Axo.Wire.IngestionLoop
import Axo.Wire.RecordBlobs
import Axo.Wire.RecordRoundTrip
import Axo.Wire.StateCodec
import Axo.Wire.StateRoundTrip
import Axo.Projector.Subscriber
import Axo.Projector.Teardowns
import Axo.Projector.BucketMirror
import Axo.Lib.Documents
import Axo.Projector.Events
import Axo.Projector.ReadModel
import Axo.Projector.Redelivery
import Axo.Projector.EndpointLiveness
import Axo.Projector.JobHistory
import Axo.Projector.FunctionDocs
import Axo.Projector.FunctionLife
import Axo.Projector.LeaderQuery
import Axo.Choreography.RunLifecycle
import Axo.Choreography.RunTermination
import Axo.Choreography.ResultBuckets
import Axo.Choreography.ResultsKept
import Axo.Choreography.ResultFiles
import Axo.Service.HandleLife
import Axo.Service.DeadHandles
import Axo.Service.IdleContainers
import Axo.Storage.PutOrder
import Axo.Data.WholeStore
import Axo.Data.HashCache
import Axo.Lib.Rounds
import Axo.Data.ReplicationTick
import Axo.Data.TickProgress
import Axo.Data.UnknownHash
import Axo.Wire.RawRecords
import Axo.Service.IncomingDiffs
import Axo.Service.StatePush
import Axo.Service.Heartbeats
import Axo.Service.ActivityFeed
import Axo.Service.Dispatcher
import Axo.Service.QuorumEvents
import Axo.Lib.Rotation
import Axo.Consensus.ResultConsistency
import Axo.Consensus.SweepCoverage
import Axo.Storage.Containment
import Axo.Service.PendingTruth
import Axo.Service.WorkerPools
import Axo.Service.ContainerNames
import Axo.Service.ReturnedValues
import Axo.Service.RunnerPlays
import Axo.Projector.Confluence
import Axo.Projector.Retention
import Axo.Projector.EndpointPurge
import Axo.Projector.Owners
import Axo.Projector.JobRouting
import Axo.Lib.Replay
import Axo.Projector.Restarts

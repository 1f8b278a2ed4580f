import CCNxFileRepo.Foundations.DependencyOrder
import CCNxFileRepo.Foundations.Fallible
import CCNxFileRepo.Foundations.JoinStore
import CCNxFileRepo.Foundations.Overlay
import CCNxFileRepo.Foundations.Patch
import CCNxFileRepo.Foundations.Mending
import CCNxFileRepo.Foundations.PrefixCode
import CCNxFileRepo.Foundations.Refill
import CCNxFileRepo.Foundations.Transition
import CCNxFileRepo.Foundations.Transfer
import CCNxFileRepo.Foundations.Unfolding
import CCNxFileRepo.Foundations.LastNodes
import CCNxFileRepo.Parc.Buffer
import CCNxFileRepo.Parc.File
import CCNxFileRepo.CCNx.Message
import CCNxFileRepo.CCNx.ManifestTree
import CCNxFileRepo.CCNx.Portal
import CCNxFileRepo.CCNx.ReferenceLibrary
import CCNxFileRepo.Repository.ManifestBuilder
import CCNxFileRepo.Repository.PointerOrder
import CCNxFileRepo.Repository.SkewedTree
import CCNxFileRepo.Repository.SkewedShape
import CCNxFileRepo.Repository.FetchOrder
import CCNxFileRepo.Repository.SizeMetadata
import CCNxFileRepo.Repository.OverallDigest
import CCNxFileRepo.Repository.Cache
import CCNxFileRepo.Repository.ContentStore
import CCNxFileRepo.Repository.History
import CCNxFileRepo.Repository.Commitment
import CCNxFileRepo.Repository.Commutation
import CCNxFileRepo.Repository.Sharing
import CCNxFileRepo.Repository.Confinement
import CCNxFileRepo.Repository.Recovery
import CCNxFileRepo.Repository.Closure
import CCNxFileRepo.Repository.Calls
import CCNxFileRepo.Repository.Interleaving
import CCNxFileRepo.Repository.Serialization
import CCNxFileRepo.Repository.RacedCreates
import CCNxFileRepo.Server.Producer
import CCNxFileRepo.Server.RequestLoop
import CCNxFileRepo.Server.Replies
import CCNxFileRepo.Server.Machine
import CCNxFileRepo.Client.ManifestFetcher
import CCNxFileRepo.Client.Traversal
import CCNxFileRepo.Client.Streaming
import CCNxFileRepo.Client.BufferSafety
import CCNxFileRepo.Client.LazyTraversal
import CCNxFileRepo.Client.StackDepth
import CCNxFileRepo.Client.StackGrowth
import CCNxFileRepo.Client.Requests
import CCNxFileRepo.Client.HashGroups
import CCNxFileRepo.Client.Download
import CCNxFileRepo.Client.ShortWrites
import CCNxFileRepo.Client.BufferSizes
import CCNxFileRepo.Client.Interruption
import CCNxFileRepo.Client.AnyNetwork
import CCNxFileRepo.Client.Conversation
import CCNxFileRepo.Client.Progress
import CCNxFileRepo.Client.FetchFailures
import CCNxFileRepo.Client.Machine
import CCNxFileRepo.Client.Delivery
import CCNxFileRepo.Client.Work
import CCNxFileRepo.System.HonestInterests
import CCNxFileRepo.System.RoundTrip
import CCNxFileRepo.System.OutputFile
import CCNxFileRepo.System.PublishedRun
import CCNxFileRepo.System.CheckedNetwork
import CCNxFileRepo.System.Rerun
import CCNxFileRepo.System.Concurrency
import CCNxFileRepo.System.Programs
import CCNxFileRepo.System.ExitStatus
import CCNxFileRepo.System.Deployment
import CCNxFileRepo.System.Standing
import CCNxFileRepo.System.DeploymentInvariant
import CCNxFileRepo.System.Safety
import CCNxFileRepo.System.Progress
import CCNxFileRepo.System.Liveness
import CCNxFileRepo.System.Refinement

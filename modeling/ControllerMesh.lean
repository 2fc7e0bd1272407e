import ControllerMesh.Framework.System
import ControllerMesh.Framework.Container
import ControllerMesh.Framework.Wire
import ControllerMesh.Impl.Messages
import ControllerMesh.Impl.Selector
import ControllerMesh.Impl.InternalSpec
import ControllerMesh.Framework.File
import ControllerMesh.Framework.Json
import ControllerMesh.Framework.JsonCodec
import ControllerMesh.Framework.Buffer
import ControllerMesh.Framework.Compress
import ControllerMesh.Impl.RequestsStore
import ControllerMesh.Impl.Storage
import ControllerMesh.Impl.SpecManager
import ControllerMesh.Impl.Router
import ControllerMesh.Impl.Response
import ControllerMesh.Impl.Serializer
import ControllerMesh.Impl.Proxy
import ControllerMesh.Impl.VirtualApp
import ControllerMesh.Impl.Route
import ControllerMesh.Impl.Webhook
import ControllerMesh.Impl.GrpcServer
import ControllerMesh.Impl.Server
import ControllerMesh.Impl.Mesh
import ControllerMesh.Impl.EventHandlers
import ControllerMesh.Impl.Traffic
import ControllerMesh.Framework.Occurrence
import ControllerMesh.Impl.Http
import ControllerMesh.Impl.LeaderElection
import ControllerMesh.Framework.UrlQuery
import ControllerMesh.Impl.Query
import ControllerMesh.Framework.TokenBucket
import ControllerMesh.Impl.TrafficHandler
import ControllerMesh.Impl.Injection
import ControllerMesh.Impl.Call
import ControllerMesh.Framework.ObjectStore
import ControllerMesh.Impl.CertWriter
import ControllerMesh.Framework.FileTree
import ControllerMesh.Impl.AtomicWriter
import ControllerMesh.Impl.CertDir
import ControllerMesh.Impl.CertWatcher
import ControllerMesh.Framework.Decisions
import ControllerMesh.Spec.History
import ControllerMesh.Framework.FirstMatch
import ControllerMesh.Framework.Tokens
import ControllerMesh.Framework.Replace
import ControllerMesh.Spec.Ownership
import ControllerMesh.Spec.Labels
import ControllerMesh.Spec.Validity
import ControllerMesh.Spec.IdealBuckets
import ControllerMesh.Spec.Backoff
import ControllerMesh.Spec.Publication
import ControllerMesh.Proof.Validate
import ControllerMesh.Proof.Ownership
import ControllerMesh.Proof.Owners
import ControllerMesh.Proof.Streams
import ControllerMesh.Proof.Reconcile
import ControllerMesh.Proof.Expectations
import ControllerMesh.Proof.RequestsStore
import ControllerMesh.Proof.Loadable
import ControllerMesh.Proof.Router
import ControllerMesh.Proof.Proxy
import ControllerMesh.Proof.Status
import ControllerMesh.Proof.Selectors
import ControllerMesh.Proof.Durability
import ControllerMesh.Proof.Rollout
import ControllerMesh.Proof.ObjectSelectors
import ControllerMesh.Proof.Responses
import ControllerMesh.Proof.WatchStream
import ControllerMesh.Proof.Webhook
import ControllerMesh.Proof.InFlight
import ControllerMesh.Proof.Events
import ControllerMesh.Proof.Frames
import ControllerMesh.Proof.Release
import ControllerMesh.Proof.Encoding
import ControllerMesh.Proof.SelectorAlgebra
import ControllerMesh.Proof.UnloadReason
import ControllerMesh.Proof.SelectorOrder
import ControllerMesh.Proof.Phases
import ControllerMesh.Proof.Round
import ControllerMesh.Proof.CertWriter
import ControllerMesh.Proof.RequestsUnion
import ControllerMesh.Proof.ValidateExact
import ControllerMesh.Proof.Contract
import ControllerMesh.Proof.LeaderElection
import ControllerMesh.Proof.RawQuery
import ControllerMesh.Proof.Query
import ControllerMesh.Proof.TrafficLoop
import ControllerMesh.Proof.Admission
import ControllerMesh.Proof.HandlerSim
import ControllerMesh.Proof.Buckets
import ControllerMesh.Proof.BackoffRange
import ControllerMesh.Proof.Backoff
import ControllerMesh.Proof.AtomicWriter
import ControllerMesh.Proof.WriterCalls
import ControllerMesh.Proof.WriterPaths
import ControllerMesh.Proof.CertDir
import ControllerMesh.Proof.CertWatcher
import ControllerMesh.Impl.ManagerState
import ControllerMesh.Impl.GrpcClient
import ControllerMesh.Impl.WebhookController
import ControllerMesh.Proof.ManagerState
import ControllerMesh.Proof.Reports
import ControllerMesh.Proof.WebhookController
import ControllerMesh.Proof.WebhookEdits

import NuRaft.Source.LogStore
import NuRaft.Source.Server
import NuRaft.Source.HandleAppendEntries
import NuRaft.Source.RequestAppendEntries
import NuRaft.Source.HandleAppendEntriesResp
import NuRaft.Spec.Splice
import NuRaft.Spec.CatchUp
import NuRaft.Guarantees.Reconcile
import NuRaft.Guarantees.Redelivery
import NuRaft.Guarantees.Overwrite
import NuRaft.Guarantees.StateMachine
import NuRaft.Guarantees.Builder
import NuRaft.Guarantees.Dispatcher
import NuRaft.Protocol.Follower
import NuRaft.Protocol.Cluster
import NuRaft.Protocol.Quorum
import NuRaft.Protocol.Leader
import NuRaft.Protocol.Agreement
import NuRaft.Protocol.PeerTracker
import NuRaft.Protocol.Safety
import NuRaft.Protocol.Backtrack
import NuRaft.Protocol.Dispatch
import NuRaft.Protocol.Convergence
import NuRaft.Protocol.FollowerCommit
import NuRaft.Protocol.Progress

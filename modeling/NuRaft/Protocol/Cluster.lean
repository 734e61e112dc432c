import NuRaft.Source.HandleAppendEntriesResp
import NuRaft.Protocol.Follower

/-!
# The replication protocol of one leader term

A leader at `leaderId` and its followers, each a `RaftServer`, with every
message sent so far. Delivering a message does not remove it from `network`,
so a message may arrive late, out of order, more than once, or never. Each
action runs one entry point of the source on one server: the dispatcher
`request_append_entries()` and the reducer `handle_append_entries_resp` on the
leader, `handle_append_entries` on a follower.

The environment decides the observer hook's answers (`DispatchEnv`), when the
leader's timers advance, when a send fails, when a follower's state machine
catches up with its commit index and when a follower starts stopping. The
transport is outside the source: it clears a peer's `busy` flag when the
request completes or fails.
-/
namespace NuRaft.Protocol
open NuRaft.Source NuRaft.Spec

structure Cluster where
  servers : Nat → RaftServer
  leaderId : Nat
  network : List Msg

namespace Cluster

def leader (c : Cluster) : RaftServer := c.servers c.leaderId

def setServer (c : Cluster) (sid : Nat) (s : RaftServer) : Cluster :=
  { c with servers := fun i => if i = sid then s else c.servers i }

def send (c : Cluster) (msgs : List Msg) : Cluster := { c with network := c.network ++ msgs }

@[simp] theorem setServer_servers (c : Cluster) (sid : Nat) (s : RaftServer) (i : Nat) :
    (c.setServer sid s).servers i = if i = sid then s else c.servers i := rfl

@[simp] theorem setServer_leaderId (c : Cluster) (sid : Nat) (s : RaftServer) :
    (c.setServer sid s).leaderId = c.leaderId := rfl

@[simp] theorem setServer_network (c : Cluster) (sid : Nat) (s : RaftServer) :
    (c.setServer sid s).network = c.network := rfl

@[simp] theorem send_servers (c : Cluster) (msgs : List Msg) : (c.send msgs).servers = c.servers :=
  rfl

@[simp] theorem send_leaderId (c : Cluster) (msgs : List Msg) :
    (c.send msgs).leaderId = c.leaderId := rfl

@[simp] theorem send_network (c : Cluster) (msgs : List Msg) :
    (c.send msgs).network = c.network ++ msgs := rfl

@[simp] theorem send_nil (c : Cluster) : c.send [] = c := by simp [send]

@[simp] theorem setServer_leader (c : Cluster) (sid : Nat) (s : RaftServer) :
    (c.setServer sid s).leader = if c.leaderId = sid then s else c.leader := rfl

@[simp] theorem send_leader (c : Cluster) (msgs : List Msg) : (c.send msgs).leader = c.leader :=
  rfl

end Cluster

/-- Modelled from the spec: the transport completes or fails a request to
`pid` and clears its `busy` flag (`set_free`). -/
def freePeer (s : RaftServer) (pid : Nat) : RaftServer :=
  s.setPeer pid { s.peers pid with busy := false }

/-- Modelled from the spec: the leader's peer timers (`ls_timer`,
`active_timer`) advance by `elapsedUs`. -/
def tickPeers (s : RaftServer) (elapsedUs : Nat) : RaftServer :=
  { s with peers := fun pid =>
      { s.peers pid with lsTimerUs := (s.peers pid).lsTimerUs + elapsedUs,
                         activeTimerUs := (s.peers pid).activeTimerUs + elapsedUs } }

@[simp] theorem freePeer_matchedIdx (s : RaftServer) (pid q : Nat) :
    ((freePeer s pid).peers q).matchedIdx = (s.peers q).matchedIdx := by
  by_cases h : q = pid <;> simp [freePeer, RaftServer.setPeer, h]

inductive Action where
  /-- A client's entry reaches the leader, which appends it at its term. -/
  | clientRequest (valType : LogValType) (buf : Nat)
  /-- The leader's heartbeat or append round, `request_append_entries()`. -/
  | requestAppendEntries (env : Nat → DispatchEnv)
  | tick (elapsedUs : Nat)
  /-- A send to `pid` failed; the transport clears `busy`. -/
  | transportError (pid : Nat)
  | deliverRequest (req : ReqMsg)
  | deliverResponse (resp : RespMsg) (env : DispatchEnv)
  /-- A follower's state machine commits up to its `quick_commit_index_`. -/
  | commitInBg (sid : Nat)
  /-- A follower starts shutting down: `stopping_` is set. -/
  | stop (sid : Nat)

/-- One action; `none` where it cannot happen. Nothing runs on a leader that has
exited, and a message is delivered only if it was sent. -/
def step (c : Cluster) : Action → Option Cluster
  | .clientRequest valType buf =>
    if c.leader.exited then none
    else some (c.setServer c.leaderId
      { c.leader with logStore := c.leader.logStore.append ⟨c.leader.term, valType, buf⟩ })
  | .requestAppendEntries env =>
    if c.leader.exited then none
    else
      let sent := requestAppendEntries c.leader env
      some ((c.setServer c.leaderId sent.1).send sent.2)
  | .tick elapsedUs =>
    if c.leader.exited then none else some (c.setServer c.leaderId (tickPeers c.leader elapsedUs))
  | .transportError pid =>
    if c.leader.exited ∨ pid ∉ c.leader.peerIds then none
    else some (c.setServer c.leaderId (freePeer c.leader pid))
  | .deliverRequest req =>
    if .appendEntriesRequest req ∈ c.network ∧ req.dst ≠ c.leaderId then
      let handled := handleAppendEntries (c.servers req.dst) req
      some ((c.setServer req.dst handled.1).send (handled.2.toList.map .appendEntriesResponse))
    else none
  | .deliverResponse resp env =>
    if .appendEntriesResponse resp ∈ c.network ∧ resp.dst = c.leaderId ∧
        resp.src ∈ c.leader.peerIds ∧ c.leader.exited = false then
      let handled := handleAppendEntriesResp (freePeer c.leader resp.src) resp env
      some ((c.setServer c.leaderId handled.1).send handled.2)
    else none
  | .commitInBg sid =>
    if sid = c.leaderId then none
    else some (c.setServer sid
      { c.servers sid with smCommitIndex := (c.servers sid).quickCommitIndex })
  | .stop sid =>
    if sid = c.leaderId then none
    else some (c.setServer sid { c.servers sid with stopping := true })

/-- Everything one action can do, guards included. -/
theorem step_cases {c c' : Cluster} {a : Action} (h : step c a = some c') :
    (∃ valType buf, a = .clientRequest valType buf ∧ c.leader.exited = false ∧
      c' = c.setServer c.leaderId
        { c.leader with logStore := c.leader.logStore.append ⟨c.leader.term, valType, buf⟩ }) ∨
    (∃ env, a = .requestAppendEntries env ∧ c.leader.exited = false ∧
      c' = (c.setServer c.leaderId (requestAppendEntries c.leader env).1).send
        (requestAppendEntries c.leader env).2) ∨
    (∃ elapsedUs, a = .tick elapsedUs ∧ c.leader.exited = false ∧
      c' = c.setServer c.leaderId (tickPeers c.leader elapsedUs)) ∨
    (∃ pid, a = .transportError pid ∧ c.leader.exited = false ∧ pid ∈ c.leader.peerIds ∧
      c' = c.setServer c.leaderId (freePeer c.leader pid)) ∨
    (∃ req, a = .deliverRequest req ∧ .appendEntriesRequest req ∈ c.network ∧
      req.dst ≠ c.leaderId ∧
      c' = (c.setServer req.dst (handleAppendEntries (c.servers req.dst) req).1).send
        ((handleAppendEntries (c.servers req.dst) req).2.toList.map .appendEntriesResponse)) ∨
    (∃ resp env, a = .deliverResponse resp env ∧ .appendEntriesResponse resp ∈ c.network ∧
      resp.dst = c.leaderId ∧ resp.src ∈ c.leader.peerIds ∧ c.leader.exited = false ∧
      c' = (c.setServer c.leaderId
        (handleAppendEntriesResp (freePeer c.leader resp.src) resp env).1).send
        (handleAppendEntriesResp (freePeer c.leader resp.src) resp env).2) ∨
    (∃ sid, a = .commitInBg sid ∧ sid ≠ c.leaderId ∧
      c' = c.setServer sid
        { c.servers sid with smCommitIndex := (c.servers sid).quickCommitIndex }) ∨
    (∃ sid, a = .stop sid ∧ sid ≠ c.leaderId ∧
      c' = c.setServer sid { c.servers sid with stopping := true }) := by
  cases a with
  | clientRequest valType buf =>
    simp only [step] at h; split at h <;> cases h
    next running => exact .inl ⟨valType, buf, rfl, by simpa using running, rfl⟩
  | requestAppendEntries env =>
    simp only [step] at h; split at h <;> cases h
    next running => exact .inr <| .inl ⟨env, rfl, by simpa using running, rfl⟩
  | tick elapsedUs =>
    simp only [step] at h; split at h <;> cases h
    next running => exact .inr <| .inr <| .inl ⟨elapsedUs, rfl, by simpa using running, rfl⟩
  | transportError pid =>
    simp only [step] at h; split at h <;> cases h
    next guard =>
      obtain ⟨running, member⟩ := not_or.mp guard
      exact .inr <| .inr <| .inr <| .inl
        ⟨pid, rfl, by simpa using running, not_not.mp member, rfl⟩
  | deliverRequest req =>
    simp only [step] at h; split at h <;> cases h
    next guard => exact .inr <| .inr <| .inr <| .inr <| .inl ⟨req, rfl, guard.1, guard.2, rfl⟩
  | deliverResponse resp env =>
    simp only [step] at h; split at h <;> cases h
    next guard =>
      obtain ⟨sent, dst, member, running⟩ := guard
      exact .inr <| .inr <| .inr <| .inr <| .inr <| .inl
        ⟨resp, env, rfl, sent, dst, member, running, rfl⟩
  | commitInBg sid =>
    simp only [step] at h; split at h <;> cases h
    next notLeader =>
      exact .inr <| .inr <| .inr <| .inr <| .inr <| .inr <| .inl ⟨sid, rfl, notLeader, rfl⟩
  | stop sid =>
    simp only [step] at h; split at h <;> cases h
    next notLeader =>
      exact .inr <| .inr <| .inr <| .inr <| .inr <| .inr <| .inr ⟨sid, rfl, notLeader, rfl⟩

/-- Run actions one after the other. -/
def run (c : Cluster) : List Action → Option Cluster
  | [] => some c
  | a :: rest => (step c a).bind fun c' => run c' rest

theorem run_cons {c c' : Cluster} {a : Action} {rest : List Action} :
    run c (a :: rest) = some c' ↔ ∃ c₁, step c a = some c₁ ∧ run c₁ rest = some c' := by
  simp only [run, Option.bind_eq_some]

theorem run_append {c₁ c₂ : Cluster} {ys : List Action} :
    ∀ {c : Cluster} {xs : List Action}, run c xs = some c₁ → run c₁ ys = some c₂ →
      run c (xs ++ ys) = some c₂
  | _, [], first, second => by cases first; exact second
  | _, _ :: _, first, second => by
    obtain ⟨c', stepped, ran⟩ := run_cons.mp first
    exact run_cons.mpr ⟨c', stepped, run_append ran second⟩

/-- A follower's store starts at index 1, or right after its snapshot. -/
def StoreStart (f : RaftServer) : Prop :=
  f.logStore.startIndex ≤ 1 ∨
    ∃ snp, f.lastSnapshot = some snp ∧ f.logStore.startIndex ≤ snp.lastLogIdx + 1

/-- The start condition survives a store whose start only moves down, under the
same snapshot. -/
theorem StoreStart.mono {f f' : RaftServer} (h : StoreStart f)
    (snapshot : f'.lastSnapshot = f.lastSnapshot)
    (start : f'.logStore.startIndex ≤ f.logStore.startIndex) : StoreStart f' := by
  rcases h with one | ⟨snp, hs, le⟩
  · exact .inl (start.trans one)
  · exact .inr ⟨snp, snapshot.trans hs, start.trans le⟩

/-- A follower `f` of the leader `l` at the start of the term: at the leader's
term and not a leader, its log a `FollowerLog` of the leader's, its committed
prefix agreeing with the leader's log, its store starting at 1 or right after
its snapshot. -/
structure FollowerStart (l f : RaftServer) (pid : Nat)
    extends FollowerLog l.logStore.entries l.term f : Prop where
  id : f.id = pid
  term : f.term = l.term
  notLeader : f.role ≠ .leader
  committed : AgreeUpTo f.logStore.entries l.logStore.entries f.quickCommitIndex
  ordered : f.smCommitIndex ≤ f.quickCommitIndex
  start : StoreStart f

/-- The leader's store starts where its snapshot ends, or at index 1 without a
snapshot, and the snapshot carries the log's term at its index. -/
structure LeaderStore (l : RaftServer) : Prop where
  start : l.logStore.startIndex ≤ 1 ∨
    ∃ snp, l.lastSnapshot = some snp ∧ l.logStore.startIndex ≤ snp.lastLogIdx + 1
  snapshot : ∀ snp, l.lastSnapshot = some snp →
    snp.lastLogIdx ≤ l.logStore.entries.length ∧
      termOf l.logStore.entries snp.lastLogIdx = snp.lastLogTerm

/-- The voting peers, in the order the source visits them (lines 541-546). -/
def voters (s : RaftServer) : List Nat := s.peerIds.filter fun pid => !(s.peers pid).isLearner

theorem matchedIndexes_eq (s : RaftServer) :
    matchedIndexes s =
      (s.logStore.nextSlot - 1) :: (voters s).map fun pid => (s.peers pid).matchedIdx := rfl

/-- The start of a term: no message sent yet, the leader running with a
well-formed store, a quorum index inside the voters' match vector, no peer
matched yet and no peer past the leader's `next_slot`. -/
structure Init (c : Cluster) : Prop where
  network : c.network = []
  role : c.leader.role = .leader
  running : c.leader.exited = false
  id : c.leader.id = c.leaderId
  notPeer : c.leaderId ∉ c.leader.peerIds
  nodup : c.leader.peerIds.Nodup
  quorum : c.leader.quorumForCommit ≤ (voters c.leader).length
  store : LeaderStore c.leader
  peers : ∀ pid ∈ c.leader.peerIds, (c.leader.peers pid).matchedIdx = 0 ∧
    (c.leader.peers pid).nextLogIdx ≤ c.leader.logStore.nextSlot
  followers : ∀ pid ∈ c.leader.peerIds, FollowerStart c.leader (c.servers pid) pid

inductive Reachable : Cluster → Prop where
  | init {c : Cluster} : Init c → Reachable c
  | step {c c' : Cluster} {a : Action} : Reachable c → step c a = some c' → Reachable c'

theorem Reachable.run {c c' : Cluster} (reach : Reachable c) :
    ∀ {actions : List Action}, run c actions = some c' → Reachable c'
  | [], h => by cases h; exact reach
  | a :: rest, h => by
    obtain ⟨c₁, h₁, h₂⟩ := run_cons.mp h
    exact Reachable.run (reach.step h₁) h₂

/-- A run that ends gives a reachable state. -/
theorem Reachable.run_get {c : Cluster} (reach : Reachable c) {actions : List Action}
    (ends : (Protocol.run c actions).isSome) : Reachable ((Protocol.run c actions).get ends) :=
  reach.run (Option.eq_some_of_isSome ends)

end NuRaft.Protocol

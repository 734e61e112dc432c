import NuRaft.Protocol.Leader
import NuRaft.Protocol.Quorum

/-!
# One leader term: what every reachable state satisfies

`Replicated` holds in every reachable state of one term, over any delivery
order of the messages, duplicates included, whatever the followers' stores
hold: the leader's peers, voters and store stay well formed, every follower's
store starts at 1 or right after its snapshot, every message sent is `Sent` (a
request read off the leader's log, an acceptance naming an index inside it),
and every `matched_idx` lies inside the leader's log.

A store answers nothing below its `start_index`, and on a follower whose store
starts past index 1 a late request truncates the log behind the leader's
`matched_idx` for it (`stale_request_truncates_matched`). On a run whose
followers hold their whole logs (`ReachableWhole`) `Agreed` holds as well:

* every follower's log is a `FollowerLog` of the leader's log `L`;
* every acceptance in flight names an index up to which its sender's log agrees
  with `L`;
* every peer's `matched_idx` is an index up to which the peer's log agrees with
  `L`.

There every action changes the logs only by `Extends`, the leader's log growing
at its end and the followers' logs advancing towards it, which keeps every
agreement (`Extends.agree`).
-/
namespace NuRaft.Protocol
open NuRaft.Source NuRaft.Spec NuRaft.Guarantees

/-- What a leader action other than a client request may change on the leader:
its peers' states except `is_learner`, `quick_commit_index_` and `exited`. -/
def LeaderFrame (s s' : RaftServer) : Prop :=
  ∃ peers quick exited,
    s' = { s with peers := peers, quickCommitIndex := quick, exited := exited } ∧
    ∀ pid, (peers pid).isLearner = (s.peers pid).isLearner

namespace LeaderFrame

theorem trans {s t u : RaftServer} (h : LeaderFrame s t) (h' : LeaderFrame t u) :
    LeaderFrame s u := by
  obtain ⟨_, _, _, rfl, hp⟩ := h
  obtain ⟨peers', quick', exited', rfl, hp'⟩ := h'
  exact ⟨peers', quick', exited', rfl, fun pid => (hp' pid).trans (hp pid)⟩

theorem setPeer (s : RaftServer) {pid : Nat} {p : Peer}
    (learner : p.isLearner = (s.peers pid).isLearner) : LeaderFrame s (s.setPeer pid p) := by
  refine ⟨_, s.quickCommitIndex, s.exited, rfl, fun q => ?_⟩
  by_cases hq : q = pid
  · subst hq; simpa [RaftServer.setPeer] using learner
  · simp [RaftServer.setPeer, hq]

theorem of_dispatch {s s' : RaftServer} (h : DispatchFrame s s') : LeaderFrame s s' := by
  obtain ⟨peers, quick, exited, rfl, hp⟩ := h
  exact ⟨peers, quick, exited, rfl, fun pid => (hp pid).2.1⟩

variable {s s' : RaftServer} (h : LeaderFrame s s')
include h

theorem logStore : s'.logStore = s.logStore := by obtain ⟨_, _, _, rfl, _⟩ := h; rfl
theorem term : s'.term = s.term := by obtain ⟨_, _, _, rfl, _⟩ := h; rfl
theorem id : s'.id = s.id := by obtain ⟨_, _, _, rfl, _⟩ := h; rfl
theorem role : s'.role = s.role := by obtain ⟨_, _, _, rfl, _⟩ := h; rfl
theorem peerIds : s'.peerIds = s.peerIds := by obtain ⟨_, _, _, rfl, _⟩ := h; rfl
theorem quorumForCommit : s'.quorumForCommit = s.quorumForCommit := by
  obtain ⟨_, _, _, rfl, _⟩ := h; rfl
theorem params : s'.params = s.params := by obtain ⟨_, _, _, rfl, _⟩ := h; rfl
theorem lastSnapshot : s'.lastSnapshot = s.lastSnapshot := by obtain ⟨_, _, _, rfl, _⟩ := h; rfl

theorem voters_eq : voters s' = voters s := by
  obtain ⟨_, _, _, rfl, hp⟩ := h
  exact List.filter_congr fun pid _ => by simp [hp pid]

theorem leaderStore (wf : LeaderStore s) : LeaderStore s' := by
  obtain ⟨_, _, _, rfl, _⟩ := h; exact ⟨wf.1, wf.2⟩

theorem fromLeader : FromLeader s' = FromLeader s := fromLeader_congr h.term h.logStore

end LeaderFrame

theorem freePeer_frame (s : RaftServer) (pid : Nat) : LeaderFrame s (freePeer s pid) :=
  .setPeer s rfl

theorem tickPeers_frame (s : RaftServer) (elapsedUs : Nat) :
    LeaderFrame s (tickPeers s elapsedUs) :=
  ⟨_, s.quickCommitIndex, s.exited, rfl, fun _ => rfl⟩

/-- The leader's state after the response reducer, from the one it started
with: `LeaderFrame`, with `matched_idx` set from an acceptance. -/
theorem handleAppendEntriesResp_frame (s : RaftServer) (resp : RespMsg) (env : DispatchEnv)
    (member : resp.src ∈ s.peerIds) :
    LeaderFrame s (handleAppendEntriesResp s resp env).1 ∧
      ∀ pid, ((handleAppendEntriesResp s resp env).1.peers pid).matchedIdx =
        if resp.accepted ∧ pid = resp.src then ulongPred resp.nextIdx
        else (s.peers pid).matchedIdx := by
  have frame := handleAppendEntriesResp_dispatchFrame s resp env member
  refine ⟨?_, fun pid => ?_⟩
  · refine LeaderFrame.trans ?_ (.of_dispatch frame)
    split
    · exact .setPeer s rfl
    · exact .setPeer s rfl
  · rw [frame.matchedIdx]
    by_cases accepted : resp.accepted <;> by_cases hp : pid = resp.src <;> simp [accepted, hp]

/-- What a message sent in the term says of itself, whatever the followers'
stores hold: a request goes to a peer and is read off the leader's log; an
acceptance comes from a peer and names an index `next_idx` in `[1, next_slot]`. -/
def Sent (c : Cluster) : Msg → Prop
  | .appendEntriesRequest req =>
    req.dst ∈ c.leader.peerIds ∧ BuiltFrom c.leader.logStore.entries req
  | .appendEntriesResponse resp =>
    resp.src ∈ c.leader.peerIds ∧ (resp.accepted = true →
      0 < resp.nextIdx ∧ resp.nextIdx ≤ c.leader.logStore.entries.length + 1)
  | .installSnapshotRequest _ _ _ _ => True

/-- What a message in flight means: a request goes to a peer and is read off the
leader's log; an acceptance from a peer names an index `next_idx > 0` up to
`next_idx - 1` of which the peer's log agrees with the leader's. -/
def InFlight (c : Cluster) : Msg → Prop
  | .appendEntriesRequest req =>
    req.dst ∈ c.leader.peerIds ∧ BuiltFrom c.leader.logStore.entries req
  | .appendEntriesResponse resp =>
    resp.src ∈ c.leader.peerIds ∧
      (resp.accepted = true → 0 < resp.nextIdx ∧
        AgreeUpTo (c.servers resp.src).logStore.entries c.leader.logStore.entries
          (resp.nextIdx - 1))
  | .installSnapshotRequest _ _ _ _ => True

/-- The invariant of one leader term, in every reachable state: the leader's
peers, voters and store are well formed, every peer is the server of its id and
its store starts at 1 or right after its snapshot, every message sent is `Sent`,
and every `matched_idx` lies inside the leader's log. -/
structure Replicated (c : Cluster) : Prop where
  notPeer : c.leaderId ∉ c.leader.peerIds
  nodup : c.leader.peerIds.Nodup
  quorum : c.leader.quorumForCommit ≤ (voters c.leader).length
  store : LeaderStore c.leader
  followers : ∀ pid ∈ c.leader.peerIds, (c.servers pid).id = pid ∧ StoreStart (c.servers pid)
  network : ∀ m ∈ c.network, Sent c m
  matched : ∀ pid ∈ c.leader.peerIds,
    (c.leader.peers pid).matchedIdx ≤ c.leader.logStore.entries.length

theorem Replicated.init {c : Cluster} (h : Init c) : Replicated c where
  notPeer := h.notPeer
  nodup := h.nodup
  quorum := h.quorum
  store := h.store
  followers pid mem := ⟨(h.followers pid mem).id, (h.followers pid mem).start⟩
  network m mem := by rw [h.network] at mem; cases mem
  matched pid mem := by rw [(h.peers pid mem).1]; exact Nat.zero_le _

/-- How an action changes the leader: its id, peers, voters and commit quorum
stay, and its log grows at its end. -/
structure Grows (c c' : Cluster) : Prop where
  leaderId : c'.leaderId = c.leaderId
  peerIds : c'.leader.peerIds = c.leader.peerIds
  voters_eq : voters c'.leader = voters c.leader
  quorum : c'.leader.quorumForCommit = c.leader.quorumForCommit
  grows : c.leader.logStore.entries <+: c'.leader.logStore.entries

namespace Grows

theorem send {c c' : Cluster} (g : Grows c c') (msgs : List Msg) : Grows c (c'.send msgs) :=
  ⟨g.leaderId, g.peerIds, g.voters_eq, g.quorum, g.grows⟩

/-- The leader replaced by `l'` with the same peers, voters and quorum and a log
that grows. -/
theorem setLeader {c : Cluster} {l' : RaftServer} (peerIds : l'.peerIds = c.leader.peerIds)
    (voters_eq : voters l' = voters c.leader)
    (quorum : l'.quorumForCommit = c.leader.quorumForCommit)
    (grows : c.leader.logStore.entries <+: l'.logStore.entries) :
    Grows c (c.setServer c.leaderId l') := by
  have leader' : (c.setServer c.leaderId l').leader = l' := by simp
  exact ⟨rfl, by rw [leader', peerIds], by rw [leader', voters_eq], by rw [leader', quorum],
    by rw [leader']; exact grows⟩

theorem ofFrame {c : Cluster} {l' : RaftServer} (frame : LeaderFrame c.leader l') :
    Grows c (c.setServer c.leaderId l') :=
  .setLeader frame.peerIds frame.voters_eq frame.quorumForCommit (by rw [frame.logStore])

theorem setFollower {c : Cluster} {sid : Nat} (notLeader : sid ≠ c.leaderId) (f' : RaftServer) :
    Grows c (c.setServer sid f') := by
  have leader' : (c.setServer sid f').leader = c.leader := by simp [notLeader.symm]
  exact ⟨rfl, by rw [leader'], by rw [leader'], by rw [leader'], by simp [leader']⟩

variable {c c' : Cluster} (g : Grows c c')
include g

theorem builtFrom {req : ReqMsg} (h : BuiltFrom c.leader.logStore.entries req) :
    BuiltFrom c'.leader.logStore.entries req := by
  obtain ⟨more, grown⟩ := g.grows
  rw [← grown]
  refine ⟨by simp; have := h.inside; omega,
    by rw [h.lastLogTerm, termOf_append_left h.inside], ?_⟩
  rw [List.drop_append_of_le_length h.inside]
  exact h.entries.trans (List.prefix_append _ _)

theorem sent : ∀ {m : Msg}, Sent c m → Sent c' m
  | .appendEntriesRequest _, ⟨dst, built⟩ => ⟨g.peerIds ▸ dst, g.builtFrom built⟩
  | .appendEntriesResponse _, ⟨src, acked⟩ =>
    ⟨g.peerIds ▸ src, fun accepted => by
      have := g.grows.length_le; have := acked accepted; omega⟩
  | .installSnapshotRequest _ _ _ _, _ => trivial

end Grows

/-- How an action changes the logs on a run whose followers hold their whole
logs: the leader `Grows`, and every peer's log advances towards the leader's. -/
structure Extends (c c' : Cluster) extends Grows c c' : Prop where
  advances : ∀ pid ∈ c.leader.peerIds,
    Advances (c.servers pid).logStore.entries c.leader.logStore.entries
      (c'.servers pid).logStore.entries

namespace Extends

theorem send {c c' : Cluster} (ext : Extends c c') (msgs : List Msg) :
    Extends c (c'.send msgs) :=
  ⟨ext.toGrows.send msgs, ext.advances⟩

/-- A change of the leader alone leaves every peer's log. -/
theorem ofLeader {c : Cluster} (notPeer : c.leaderId ∉ c.leader.peerIds) {l' : RaftServer}
    (g : Grows c (c.setServer c.leaderId l')) : Extends c (c.setServer c.leaderId l') :=
  ⟨g, fun pid mem => by
    rw [Cluster.setServer_servers, if_neg fun (h : pid = c.leaderId) => notPeer (h ▸ mem)]
    exact .refl _ _⟩

/-- A follower `sid` replaced by `f'`, whose log advances towards the leader's. -/
theorem setFollower {c : Cluster} {sid : Nat} (notLeader : sid ≠ c.leaderId) {f' : RaftServer}
    (adv : Advances (c.servers sid).logStore.entries c.leader.logStore.entries
      f'.logStore.entries) :
    Extends c (c.setServer sid f') := by
  refine ⟨.setFollower notLeader f', fun pid _ => ?_⟩
  rw [Cluster.setServer_servers]
  split
  · subst pid; exact adv
  · exact .refl _ _

theorem agree {c c' : Cluster} (ext : Extends c c') {pid k : Nat} (mem : pid ∈ c.leader.peerIds)
    (h : AgreeUpTo (c.servers pid).logStore.entries c.leader.logStore.entries k) :
    AgreeUpTo (c'.servers pid).logStore.entries c'.leader.logStore.entries k := by
  obtain ⟨more, grown⟩ := ext.grows
  rw [← grown]
  exact ((ext.advances pid mem).agree h).append_right more

end Extends

theorem FromLeader.sent {c : Cluster} :
    ∀ {m : Msg}, FromLeader c.leader c.leader.peerIds m → Sent c m
  | .appendEntriesRequest _, ⟨dst, _, built⟩ => ⟨dst, built⟩
  | .installSnapshotRequest _ _ _ _, _ => trivial

/-- Replacing the leader leaves every peer's server. -/
theorem setLeader_servers {c : Cluster} (notPeer : c.leaderId ∉ c.leader.peerIds)
    (l' : RaftServer) {pid : Nat} (mem : pid ∈ c.leader.peerIds) :
    (c.setServer c.leaderId l').servers pid = c.servers pid := by
  simp [show pid ≠ c.leaderId from fun h => notPeer (h ▸ mem)]

/-- The response reducer on the leader that the transport freed: a
`LeaderFrame`, `matched_idx` set from an acceptance, and requests from the
leader. -/
theorem deliverResponse_frame {l : RaftServer} (wf : LeaderStore l) {resp : RespMsg}
    (env : DispatchEnv) (member : resp.src ∈ l.peerIds) :
    LeaderFrame l (handleAppendEntriesResp (freePeer l resp.src) resp env).1 ∧
      (∀ pid, ((handleAppendEntriesResp (freePeer l resp.src) resp env).1.peers pid).matchedIdx =
        if resp.accepted ∧ pid = resp.src then ulongPred resp.nextIdx
        else (l.peers pid).matchedIdx) ∧
      ∀ m ∈ (handleAppendEntriesResp (freePeer l resp.src) resp env).2,
        FromLeader l l.peerIds m := by
  have freed := freePeer_frame l resp.src
  have member' : resp.src ∈ (freePeer l resp.src).peerIds := freed.peerIds ▸ member
  obtain ⟨frame, matched⟩ := handleAppendEntriesResp_frame _ resp env member'
  have catchUp := (handleAppendEntriesResp_spec _ resp env (freed.leaderStore wf) member').2
  rw [freed.fromLeader] at catchUp
  exact ⟨freed.trans frame, fun pid => by rw [matched pid, freePeer_matchedIdx],
    fun m mem => (catchUp m mem).mono fun _ h => by rw [List.mem_singleton.mp h]; exact member⟩

/-! ### Every reachable state -/

section Replicated

variable {c : Cluster} (inv : Replicated c)
include inv

/-- `Replicated` carries over a step where the leader `Grows`, given what the
step does to the leader and to the peers. -/
theorem Replicated.transfer {c' : Cluster} (g : Grows c c') (store : LeaderStore c'.leader)
    (followers : ∀ pid ∈ c.leader.peerIds,
      (c'.servers pid).id = pid ∧ StoreStart (c'.servers pid))
    (network : ∀ m ∈ c'.network, m ∈ c.network ∨ Sent c' m)
    (matched : ∀ pid ∈ c.leader.peerIds,
      (c'.leader.peers pid).matchedIdx ≤ c'.leader.logStore.entries.length) :
    Replicated c' where
  notPeer := by rw [g.leaderId, g.peerIds]; exact inv.notPeer
  nodup := by rw [g.peerIds]; exact inv.nodup
  quorum := by rw [g.quorum, g.voters_eq]; exact inv.quorum
  store := store
  followers := by rw [g.peerIds]; exact followers
  network m mem := (network m mem).elim (fun old => g.sent (inv.network m old)) id
  matched := by rw [g.peerIds]; exact matched

/-- Every action but a client request, on the leader: a `LeaderFrame` whose
`matched_idx` values lie inside its log, and messages from the leader. -/
theorem Replicated.leaderAction {l' : RaftServer} {msgs : List Msg}
    (frame : LeaderFrame c.leader l')
    (matched : ∀ pid ∈ c.leader.peerIds,
      (l'.peers pid).matchedIdx ≤ c.leader.logStore.entries.length)
    (sent : ∀ m ∈ msgs, FromLeader c.leader c.leader.peerIds m) :
    Replicated ((c.setServer c.leaderId l').send msgs) := by
  have leader' : ((c.setServer c.leaderId l').send msgs).leader = l' := by simp
  refine inv.transfer ((Grows.ofFrame frame).send msgs) ?_ (fun pid mem => ?_)
    (fun m mem => ?_) (fun pid mem => ?_)
  · rw [leader']; exact frame.leaderStore inv.store
  · rw [Cluster.send_servers, setLeader_servers inv.notPeer l' mem]; exact inv.followers pid mem
  · refine (List.mem_append.mp mem).imp id fun new => FromLeader.sent ?_
    rw [leader', frame.fromLeader, frame.peerIds]; exact sent m new
  · rw [leader', frame.logStore]; exact matched pid mem

theorem Replicated.leaderUpdate {l' : RaftServer} (frame : LeaderFrame c.leader l')
    (matched : ∀ pid ∈ c.leader.peerIds,
      (l'.peers pid).matchedIdx ≤ c.leader.logStore.entries.length) :
    Replicated (c.setServer c.leaderId l') := by
  simpa using inv.leaderAction frame matched (fun m (mem : m ∈ ([] : List Msg)) => nomatch mem)

/-- A client request: the leader appends an entry. -/
theorem Replicated.clientRequest (e : LogEntry) :
    Replicated
      (c.setServer c.leaderId { c.leader with logStore := c.leader.logStore.append e }) := by
  have leader' : (c.setServer c.leaderId
      { c.leader with logStore := c.leader.logStore.append e }).leader =
      { c.leader with logStore := c.leader.logStore.append e } := by simp
  refine inv.transfer (.setLeader rfl rfl rfl (List.prefix_append _ _)) ?_
    (fun pid mem => ?_) (fun m mem => .inl mem) (fun pid mem => ?_)
  · rw [leader']
    refine ⟨by simpa using inv.store.start, fun snp hs => ?_⟩
    obtain ⟨within, held⟩ := inv.store.snapshot snp hs
    refine ⟨by simp; omega, ?_⟩
    simp only [LogStore.append_entries]; rw [termOf_append_left within, held]
  · rw [setLeader_servers inv.notPeer _ mem]; exact inv.followers pid mem
  · rw [leader']; have := inv.matched pid mem; simp; omega

/-- An action on a follower other than the leader that keeps its id and
snapshot and moves its store's start only down, sending messages that are
`Sent`. -/
theorem Replicated.followerAction {sid : Nat} {f' : RaftServer} {msgs : List Msg}
    (notLeader : sid ≠ c.leaderId) (sameId : f'.id = (c.servers sid).id)
    (snap : f'.lastSnapshot = (c.servers sid).lastSnapshot)
    (start : f'.logStore.startIndex ≤ (c.servers sid).logStore.startIndex)
    (sent : ∀ m ∈ msgs, Sent (c.setServer sid f') m) :
    Replicated ((c.setServer sid f').send msgs) := by
  have leader' : ((c.setServer sid f').send msgs).leader = c.leader := by simp [notLeader.symm]
  refine inv.transfer ((Grows.setFollower notLeader f').send msgs)
    (by rw [leader']; exact inv.store) (fun pid mem => ?_)
    (fun m mem => (List.mem_append.mp mem).imp id fun new => sent m new)
    (fun pid mem => by rw [leader']; exact inv.matched pid mem)
  rw [Cluster.send_servers, Cluster.setServer_servers]
  split
  · subst pid
    exact ⟨sameId.trans (inv.followers sid mem).1, (inv.followers sid mem).2.mono snap start⟩
  · exact inv.followers pid mem

theorem Replicated.followerUpdate {sid : Nat} {f' : RaftServer} (notLeader : sid ≠ c.leaderId)
    (sameId : f'.id = (c.servers sid).id)
    (snap : f'.lastSnapshot = (c.servers sid).lastSnapshot)
    (start : f'.logStore.startIndex ≤ (c.servers sid).logStore.startIndex) :
    Replicated (c.setServer sid f') := by
  simpa using inv.followerAction notLeader sameId snap start
    (fun m (mem : m ∈ ([] : List Msg)) => nomatch mem)

/-- A request delivered to a follower: its answer names the follower and, if an
acceptance, the index after the request's last entry. -/
theorem Replicated.deliverRequest {req : ReqMsg} (sent : .appendEntriesRequest req ∈ c.network)
    (notLeader : req.dst ≠ c.leaderId) :
    Replicated ((c.setServer req.dst (handleAppendEntries (c.servers req.dst) req).1).send
      ((handleAppendEntries (c.servers req.dst) req).2.toList.map .appendEntriesResponse)) := by
  obtain ⟨dst, built⟩ := inv.network _ sent
  obtain ⟨kept, snap, start⟩ := handleAppendEntries_keeps (c.servers req.dst) req
  refine inv.followerAction notLeader kept snap start fun m mem => ?_
  obtain ⟨resp, answered, rfl⟩ := List.mem_map.mp mem
  have answered : (handleAppendEntries (c.servers req.dst) req).2 = some resp := by
    simpa using answered
  have src : resp.src = req.dst :=
    (handleAppendEntries_src _ req answered).trans (inv.followers req.dst dst).1
  have within : req.lastLogIdx + req.logEntries.length ≤ c.leader.logStore.entries.length := by
    have := built.entries.length_le; simp at this; have := built.inside; omega
  refine ⟨by simpa [Ne.symm notLeader] using src ▸ dst, fun accepted => ?_⟩
  rw [handleAppendEntries_nextIdx _ req answered accepted, Cluster.setServer_leader,
    if_neg (Ne.symm notLeader)]
  omega

/-- A response delivered to the leader: the peer's `matched_idx` is set from an
acceptance, whose index lies inside the leader's log, and the catch-up sends
requests from the leader. -/
theorem Replicated.deliverResponse {resp : RespMsg} (env : DispatchEnv)
    (sent : .appendEntriesResponse resp ∈ c.network) (member : resp.src ∈ c.leader.peerIds) :
    Replicated ((c.setServer c.leaderId
      (handleAppendEntriesResp (freePeer c.leader resp.src) resp env).1).send
      (handleAppendEntriesResp (freePeer c.leader resp.src) resp env).2) := by
  obtain ⟨frame, matched, catchUp⟩ := deliverResponse_frame inv.store env member
  refine inv.leaderAction frame (fun pid mem => ?_) catchUp
  rw [matched pid]
  split
  · next acceptedFrom =>
    obtain ⟨pos, inside⟩ := (inv.network _ sent).2 acceptedFrom.1
    rw [ulongPred_of_pos pos]; omega
  · exact inv.matched pid mem

/-- Every action keeps `Replicated`. -/
theorem Replicated.step {c' : Cluster} {a : Action} (h : Protocol.step c a = some c') :
    Replicated c' := by
  rcases step_cases h with ⟨_, _, -, -, rfl⟩ | ⟨env, -, -, rfl⟩ | ⟨elapsedUs, -, -, rfl⟩ |
    ⟨pid, -, -, -, rfl⟩ | ⟨req, -, sent, notLeader, rfl⟩ |
    ⟨resp, env, -, sent, -, member, -, rfl⟩ | ⟨sid, -, notLeader, rfl⟩ | ⟨sid, -, notLeader, rfl⟩
  · exact inv.clientRequest _
  · obtain ⟨frame, sent⟩ := requestAppendEntries_spec c.leader env inv.store
    exact inv.leaderAction (.of_dispatch frame)
      (fun pid mem => by rw [frame.matchedIdx]; exact inv.matched pid mem) sent
  · exact inv.leaderUpdate (tickPeers_frame c.leader elapsedUs) inv.matched
  · exact inv.leaderUpdate (freePeer_frame c.leader pid)
      (fun q mem => by rw [freePeer_matchedIdx]; exact inv.matched q mem)
  · exact inv.deliverRequest sent notLeader
  · exact inv.deliverResponse env sent member
  -- `commit_in_bg` and `stopping_` leave the follower's store as it is.
  all_goals exact inv.followerUpdate notLeader rfl rfl le_rfl

end Replicated

theorem Replicated.reachable {c : Cluster} (reach : Reachable c) : Replicated c := by
  induction reach with
  | init start => exact .init start
  | step _ stepped inv => exact inv.step stepped

/-! ### Runs whose followers hold their whole logs

With every follower's store starting at index 1 the store answers every index
the follower's loops read (`LogStore.termAt_of_whole`), so `handle_append_entries`
only moves a follower's log towards the leader's (`handleAppendEntries_advances`)
and every agreement a message or a `matched_idx` names stays. -/

/-- What holds on a run whose followers hold their whole logs: every follower's
store starts at index 1, every follower's log is a `FollowerLog` of the
leader's log `L`, every acceptance in flight names an index up to which its
sender's log agrees with `L`, and so does every peer's `matched_idx`. -/
structure Agreed (c : Cluster) : Prop where
  whole : ∀ pid ∈ c.leader.peerIds, (c.servers pid).logStore.startIndex ≤ 1
  followers : ∀ pid ∈ c.leader.peerIds,
    FollowerLog c.leader.logStore.entries c.leader.term (c.servers pid)
  acked : ∀ resp, .appendEntriesResponse resp ∈ c.network → resp.accepted = true →
    AgreeUpTo (c.servers resp.src).logStore.entries c.leader.logStore.entries (resp.nextIdx - 1)
  matched : ∀ pid ∈ c.leader.peerIds,
    AgreeUpTo (c.servers pid).logStore.entries c.leader.logStore.entries
      (c.leader.peers pid).matchedIdx

theorem Agreed.init {c : Cluster} (h : Init c)
    (whole : ∀ pid ∈ c.leader.peerIds, (c.servers pid).logStore.startIndex ≤ 1) :
    Agreed c where
  whole := whole
  followers pid mem := (h.followers pid mem).toFollowerLog
  acked resp mem := by rw [h.network] at mem; cases mem
  matched pid mem := by rw [(h.peers pid mem).1]; exact agreeUpTo_zero _ _

section Agreed

variable {c : Cluster} (inv : Replicated c) (agreed : Agreed c)
include inv agreed

/-- `Agreed` carries over an `Extends` step, given what the step does to the
peers and sends. -/
theorem Agreed.transfer {c' : Cluster} (ext : Extends c c')
    (whole : ∀ pid ∈ c.leader.peerIds, (c'.servers pid).logStore.startIndex ≤ 1)
    (followers : ∀ pid ∈ c.leader.peerIds,
      FollowerLog c'.leader.logStore.entries c'.leader.term (c'.servers pid))
    (acked : ∀ resp, .appendEntriesResponse resp ∈ c'.network → resp.accepted = true →
      .appendEntriesResponse resp ∈ c.network ∨
        AgreeUpTo (c'.servers resp.src).logStore.entries c'.leader.logStore.entries
          (resp.nextIdx - 1))
    (matched : ∀ pid ∈ c.leader.peerIds, AgreeUpTo (c'.servers pid).logStore.entries
      c'.leader.logStore.entries (c'.leader.peers pid).matchedIdx) :
    Agreed c' where
  whole := by rw [ext.peerIds]; exact whole
  followers := by rw [ext.peerIds]; exact followers
  acked resp mem accepted := (acked resp mem accepted).elim
    (fun old => ext.agree (inv.network _ old).1 (agreed.acked resp old accepted)) id
  matched := by rw [ext.peerIds]; exact matched

/-- Every action but a client request, on the leader: a `LeaderFrame` whose
`matched_idx` values are agreement indices, and messages from the leader. -/
theorem Agreed.leaderAction {l' : RaftServer} {msgs : List Msg}
    (frame : LeaderFrame c.leader l')
    (matched : ∀ pid ∈ c.leader.peerIds, AgreeUpTo (c.servers pid).logStore.entries
      c.leader.logStore.entries (l'.peers pid).matchedIdx)
    (sent : ∀ m ∈ msgs, FromLeader c.leader c.leader.peerIds m) :
    Agreed ((c.setServer c.leaderId l').send msgs) := by
  have leader' : ((c.setServer c.leaderId l').send msgs).leader = l' := by simp
  have others : ∀ pid ∈ c.leader.peerIds,
      ((c.setServer c.leaderId l').send msgs).servers pid = c.servers pid := fun pid mem => by
    rw [Cluster.send_servers, setLeader_servers inv.notPeer l' mem]
  refine agreed.transfer inv ((Extends.ofLeader inv.notPeer (.ofFrame frame)).send msgs)
    (fun pid mem => ?_) (fun pid mem => ?_) (fun resp mem accepted => ?_) (fun pid mem => ?_)
  · rw [others pid mem]; exact agreed.whole pid mem
  · rw [others pid mem, leader', frame.logStore, frame.term]; exact agreed.followers pid mem
  · exact (List.mem_append.mp mem).imp id
      fun new => False.elim (sent (.appendEntriesResponse resp) new)
  · rw [others pid mem, leader', frame.logStore]; exact matched pid mem

theorem Agreed.leaderUpdate {l' : RaftServer} (frame : LeaderFrame c.leader l')
    (matched : ∀ pid ∈ c.leader.peerIds, AgreeUpTo (c.servers pid).logStore.entries
      c.leader.logStore.entries (l'.peers pid).matchedIdx) :
    Agreed (c.setServer c.leaderId l') := by
  simpa using agreed.leaderAction inv frame matched
    (fun m (mem : m ∈ ([] : List Msg)) => nomatch mem)

/-- A client request: the leader appends an entry of its term. -/
theorem Agreed.clientRequest (e : LogEntry) (own : e.term = c.leader.term) :
    Agreed
      (c.setServer c.leaderId { c.leader with logStore := c.leader.logStore.append e }) := by
  have leader' : (c.setServer c.leaderId
      { c.leader with logStore := c.leader.logStore.append e }).leader =
      { c.leader with logStore := c.leader.logStore.append e } := by simp
  have ext : Extends c (c.setServer c.leaderId
      { c.leader with logStore := c.leader.logStore.append e }) :=
    .ofLeader inv.notPeer (.setLeader rfl rfl rfl (List.prefix_append _ _))
  refine agreed.transfer inv ext (fun pid mem => ?_) (fun pid mem => ?_)
    (fun resp mem _ => .inl mem) (fun pid mem => ?_)
  · rw [setLeader_servers inv.notPeer _ mem]; exact agreed.whole pid mem
  · rw [setLeader_servers inv.notPeer _ mem, leader', LogStore.append_entries]
    exact (agreed.followers pid mem).append own
  · have := ext.agree mem (agreed.matched pid mem)
    rwa [leader'] at this ⊢

/-- An action on a follower other than the leader: its log advances towards the
leader's, its snapshot stays, its store's start moves only down, and every
acceptance it sends names an agreement index. -/
theorem Agreed.followerAction {sid : Nat} {f' : RaftServer} {msgs : List Msg}
    (notLeader : sid ≠ c.leaderId)
    (adv : Advances (c.servers sid).logStore.entries c.leader.logStore.entries
      f'.logStore.entries)
    (snap : f'.lastSnapshot = (c.servers sid).lastSnapshot)
    (start : f'.logStore.startIndex ≤ (c.servers sid).logStore.startIndex)
    (acked : ∀ resp, .appendEntriesResponse resp ∈ msgs → resp.accepted = true →
      AgreeUpTo ((c.setServer sid f').servers resp.src).logStore.entries
        c.leader.logStore.entries (resp.nextIdx - 1)) :
    Agreed ((c.setServer sid f').send msgs) := by
  have leader' : ((c.setServer sid f').send msgs).leader = c.leader := by simp [notLeader.symm]
  refine agreed.transfer inv ((Extends.setFollower notLeader adv).send msgs) (fun pid mem => ?_)
    (fun pid mem => ?_) (fun resp mem accepted => (List.mem_append.mp mem).imp id fun new => ?_)
    (fun pid mem => ?_)
  · rw [Cluster.send_servers, Cluster.setServer_servers]
    split
    · subst pid; exact start.trans (agreed.whole sid mem)
    · exact agreed.whole pid mem
  · rw [leader', Cluster.send_servers, Cluster.setServer_servers]
    split
    · subst pid; exact (agreed.followers sid mem).advance adv snap
    · exact agreed.followers pid mem
  · rw [leader']; exact acked resp new accepted
  · rw [leader', Cluster.send_servers, Cluster.setServer_servers]
    split
    · subst pid; exact adv.agree (agreed.matched sid mem)
    · exact agreed.matched pid mem

theorem Agreed.followerUpdate {sid : Nat} {f' : RaftServer} (notLeader : sid ≠ c.leaderId)
    (same : f'.logStore = (c.servers sid).logStore)
    (snap : f'.lastSnapshot = (c.servers sid).lastSnapshot) :
    Agreed (c.setServer sid f') := by
  simpa using agreed.followerAction inv notLeader (by rw [same]; exact .refl _ _) snap
    (by rw [same]) (fun resp (mem : _ ∈ ([] : List Msg)) => nomatch mem)

/-- A request delivered to a follower: the store answers every index the
follower reads, so its log advances towards the leader's, and its answer names
the follower and, if an acceptance, an agreement index. -/
theorem Agreed.deliverRequest {req : ReqMsg} (sent : .appendEntriesRequest req ∈ c.network)
    (notLeader : req.dst ≠ c.leaderId) :
    Agreed ((c.setServer req.dst (handleAppendEntries (c.servers req.dst) req).1).send
      ((handleAppendEntries (c.servers req.dst) req).2.toList.map .appendEntriesResponse)) := by
  obtain ⟨dst, built⟩ := inv.network _ sent
  obtain ⟨adv, acked⟩ := handleAppendEntries_advances _ req (agreed.followers req.dst dst) built
    (by have := agreed.whole req.dst dst; omega)
  obtain ⟨-, snap, start⟩ := handleAppendEntries_keeps (c.servers req.dst) req
  refine agreed.followerAction inv notLeader adv snap start fun resp mem accepted => ?_
  have answered : (handleAppendEntries (c.servers req.dst) req).2 = some resp := by
    simpa using mem
  have src : resp.src = req.dst :=
    (handleAppendEntries_src _ req answered).trans (inv.followers req.dst dst).1
  simpa [src] using (acked resp answered accepted).2

/-- A response delivered to the leader: the peer's `matched_idx` is set from an
acceptance, which names an agreement index, and the catch-up sends requests
from the leader. -/
theorem Agreed.deliverResponse {resp : RespMsg} (env : DispatchEnv)
    (sent : .appendEntriesResponse resp ∈ c.network) (member : resp.src ∈ c.leader.peerIds) :
    Agreed ((c.setServer c.leaderId
      (handleAppendEntriesResp (freePeer c.leader resp.src) resp env).1).send
      (handleAppendEntriesResp (freePeer c.leader resp.src) resp env).2) := by
  obtain ⟨frame, matched, catchUp⟩ := deliverResponse_frame inv.store env member
  refine agreed.leaderAction inv frame (fun pid mem => ?_) catchUp
  rw [matched pid]
  split
  · next acceptedFrom =>
    obtain ⟨accepted, rfl⟩ := acceptedFrom
    rw [ulongPred_of_pos ((inv.network _ sent).2 accepted).1]
    exact agreed.acked resp sent accepted
  · exact agreed.matched pid mem

/-- Every action keeps `Agreed`. -/
theorem Agreed.step {c' : Cluster} {a : Action} (h : Protocol.step c a = some c') :
    Agreed c' := by
  rcases step_cases h with ⟨_, _, -, -, rfl⟩ | ⟨env, -, -, rfl⟩ | ⟨elapsedUs, -, -, rfl⟩ |
    ⟨pid, -, -, -, rfl⟩ | ⟨req, -, sent, notLeader, rfl⟩ |
    ⟨resp, env, -, sent, -, member, -, rfl⟩ | ⟨sid, -, notLeader, rfl⟩ | ⟨sid, -, notLeader, rfl⟩
  · exact agreed.clientRequest inv _ rfl
  · obtain ⟨frame, sent⟩ := requestAppendEntries_spec c.leader env inv.store
    exact agreed.leaderAction inv (.of_dispatch frame)
      (fun pid mem => by rw [frame.matchedIdx]; exact agreed.matched pid mem) sent
  · exact agreed.leaderUpdate inv (tickPeers_frame c.leader elapsedUs) agreed.matched
  · exact agreed.leaderUpdate inv (freePeer_frame c.leader pid)
      (fun q mem => by rw [freePeer_matchedIdx]; exact agreed.matched q mem)
  · exact agreed.deliverRequest inv sent notLeader
  · exact agreed.deliverResponse inv env sent member
  all_goals exact agreed.followerUpdate inv notLeader rfl rfl

/-- Every action changes the logs only by `Extends`. -/
theorem Agreed.stepExtends {c' : Cluster} {a : Action} (h : Protocol.step c a = some c') :
    Extends c c' := by
  rcases step_cases h with ⟨_, _, -, -, rfl⟩ | ⟨env, -, -, rfl⟩ | ⟨elapsedUs, -, -, rfl⟩ |
    ⟨pid, -, -, -, rfl⟩ | ⟨req, -, sent, notLeader, rfl⟩ |
    ⟨resp, env, -, -, -, member, -, rfl⟩ | ⟨sid, -, notLeader, rfl⟩ | ⟨sid, -, notLeader, rfl⟩
  · exact .ofLeader inv.notPeer (.setLeader rfl rfl rfl (List.prefix_append _ _))
  · exact (Extends.ofLeader inv.notPeer (.ofFrame
      (.of_dispatch (requestAppendEntries_spec c.leader env inv.store).1))).send _
  · exact .ofLeader inv.notPeer (.ofFrame (tickPeers_frame c.leader elapsedUs))
  · exact .ofLeader inv.notPeer (.ofFrame (freePeer_frame c.leader pid))
  · obtain ⟨dst, built⟩ := inv.network _ sent
    exact (Extends.setFollower notLeader (handleAppendEntries_advances _ req
      (agreed.followers req.dst dst) built (by have := agreed.whole req.dst dst; omega)).1).send _
  · exact (Extends.ofLeader inv.notPeer
      (.ofFrame (deliverResponse_frame inv.store env member).1)).send _
  all_goals exact .setFollower notLeader (.refl _ _)

end Agreed

/-- The states reachable from a start whose followers hold their whole logs. -/
inductive ReachableWhole : Cluster → Prop where
  | init {c : Cluster} : Init c →
      (∀ pid ∈ c.leader.peerIds, (c.servers pid).logStore.startIndex ≤ 1) → ReachableWhole c
  | step {c c' : Cluster} {a : Action} : ReachableWhole c → step c a = some c' →
      ReachableWhole c'

namespace ReachableWhole

theorem reachable {c : Cluster} (reach : ReachableWhole c) : Reachable c := by
  induction reach with
  | init start _ => exact .init start
  | step _ stepped ih => exact ih.step stepped

theorem agreed {c : Cluster} (reach : ReachableWhole c) : Agreed c := by
  induction reach with
  | init start whole => exact .init start whole
  | step reached stepped ih => exact ih.step (Replicated.reachable reached.reachable) stepped

theorem run {c c' : Cluster} (reach : ReachableWhole c) :
    ∀ {actions : List Action}, Protocol.run c actions = some c' → ReachableWhole c'
  | [], h => by cases h; exact reach
  | a :: rest, h => by
    obtain ⟨c₁, h₁, h₂⟩ := run_cons.mp h
    exact (reach.step h₁).run h₂

theorem run_get {c : Cluster} (reach : ReachableWhole c) {actions : List Action}
    (ends : (Protocol.run c actions).isSome) :
    ReachableWhole ((Protocol.run c actions).get ends) :=
  reach.run (Option.eq_some_of_isSome ends)

end ReachableWhole

/-! ### The commit index has a quorum -/

/-- With every peer's `matched_idx` an agreement index, the index committed on
a leader `s` is held with the leader's terms by `get_quorum_for_commit() + 1`
voting members, the leader included. -/
theorem quorumCommitIdx_held (s : RaftServer) (servers : Nat → RaftServer) (leaderId : Nat)
    (own : (servers leaderId).logStore.entries = s.logStore.entries)
    (agreed : ∀ pid ∈ s.peerIds, AgreeUpTo (servers pid).logStore.entries s.logStore.entries
      (s.peers pid).matchedIdx)
    (quorum : s.quorumForCommit ≤ (voters s).length) :
    s.quorumForCommit + 1 ≤ ((leaderId :: voters s).filter fun m =>
      decide (AgreeUpTo (servers m).logStore.entries s.logStore.entries
        (quorumCommitIdx s))).length := by
  have count := le_countP_quorumCommitIdx s quorum
  rw [matchedIndexes_eq, List.countP_cons, List.countP_map] at count
  rw [← List.countP_eq_length_filter, List.countP_cons]
  have peers :
      (voters s).countP (fun pid => decide (quorumCommitIdx s ≤ (s.peers pid).matchedIdx)) ≤
      (voters s).countP fun pid =>
        decide (AgreeUpTo (servers pid).logStore.entries s.logStore.entries (quorumCommitIdx s)) :=
    List.countP_mono_left fun pid mem held => by
      simpa using (agreed pid (List.mem_filter.mp mem).1).mono (by simpa using held)
  have self : quorumCommitIdx s ≤ s.logStore.nextSlot - 1 →
      AgreeUpTo (servers leaderId).logStore.entries s.logStore.entries (quorumCommitIdx s) :=
    fun le => by rw [own]; exact ⟨by simpa [LogStore.nextSlot] using le,
      by simpa [LogStore.nextSlot] using le, fun _ _ => rfl⟩
  simp only [Function.comp_def] at count
  by_cases hl : quorumCommitIdx s ≤ s.logStore.nextSlot - 1
  · rw [if_pos (decide_eq_true (self hl))]
    rw [if_pos (decide_eq_true hl)] at count
    omega
  · rw [if_neg fun h => hl (of_decide_eq_true h)] at count
    split <;> omega

/-- `k` is held by a commit quorum: `get_quorum_for_commit() + 1` distinct
members among the leader and its voting peers hold the leader's log up to `k`. -/
def QuorumHeld (c : Cluster) (k : Nat) : Prop :=
  (c.leaderId :: voters c.leader).Nodup ∧
    c.leader.quorumForCommit + 1 ≤ ((c.leaderId :: voters c.leader).filter fun m =>
      decide (AgreeUpTo (c.servers m).logStore.entries c.leader.logStore.entries k)).length

instance (c : Cluster) (k : Nat) : Decidable (QuorumHeld c k) :=
  inferInstanceAs (Decidable (_ ∧ _))

/-- The leader and its voting peers are distinct members. -/
theorem Replicated.members_nodup {c : Cluster} (inv : Replicated c) :
    (c.leaderId :: voters c.leader).Nodup :=
  List.nodup_cons.mpr ⟨fun h => inv.notPeer (List.mem_filter.mp h).1, inv.nodup.filter _⟩

/-- On a run whose followers hold their whole logs, the index
`handle_append_entries_resp` commits on an acceptance in flight is held by a
commit quorum. -/
theorem Agreed.acceptHeld {c : Cluster} (inv : Replicated c) (agreed : Agreed c)
    {resp : RespMsg} (sent : .appendEntriesResponse resp ∈ c.network)
    (accepted : resp.accepted = true) :
    QuorumHeld c (quorumCommitIdx (acceptResp (freePeer c.leader resp.src) resp)) := by
  have frame : LeaderFrame c.leader (acceptResp (freePeer c.leader resp.src) resp) :=
    (freePeer_frame _ _).trans (LeaderFrame.setPeer _ rfl)
  refine ⟨inv.members_nodup, ?_⟩
  have held := quorumCommitIdx_held (acceptResp (freePeer c.leader resp.src) resp) c.servers
    c.leaderId (by rw [frame.logStore]; rfl) (fun pid mem => ?_)
    (by rw [frame.quorumForCommit, frame.voters_eq]; exact inv.quorum)
  · rwa [frame.quorumForCommit, frame.voters_eq, frame.logStore] at held
  · rw [frame.peerIds] at mem
    rw [frame.logStore, acceptResp_matchedIdx, freePeer_matchedIdx]
    split
    · next src =>
      subst src
      rw [ulongPred_of_pos ((inv.network _ sent).2 accepted).1]
      exact agreed.acked resp sent accepted
    · exact agreed.matched pid mem

/-- Witness input: a leader with id 0, its store starting at index 1, no
snapshot, and every peer fresh. -/
def leaderWith (term : Nat) (entries : List LogEntry) (peerIds : List Nat)
    (quorum maxAppend : Nat) : RaftServer :=
  { id := 0, role := .leader, term := term, logStore := ⟨entries, 1, Nat.le_add_left 1 _⟩,
    lastSnapshot := none,
    quickCommitIndex := 0, smCommitIndex := 0, leaderCommitIndex := 0, leader := 0,
    configChanging := false, stopping := false, catchingUp := false, initialized := true,
    peers := fun _ => ⟨false, 0, 0, false, false, 0, 0, 0, 0, false, false, 0, 0⟩,
    peerIds := peerIds, quorumForCommit := quorum, params := ⟨100, maxAppend⟩, smCalls := [],
    exited := false }

/-- The observer hook lets every request go. -/
def hookOk : DispatchEnv := ⟨.ok, false⟩

/-- A leader of term 1 with two entries and one peer, batches of one entry, and
a follower with an empty log. -/
def twoNode : Cluster :=
  { servers := fun i =>
      if i = 0 then leaderWith 1 [⟨1, .appLog, 1⟩, ⟨1, .appLog, 2⟩] [1] 1 1
      else followerWith 1 [] 0 0 [] false,
    leaderId := 0, network := [] }

theorem twoNode_init : Init twoNode where
  network := rfl
  role := rfl
  running := rfl
  id := rfl
  notPeer := by decide
  nodup := by decide
  quorum := by decide
  store := ⟨.inl (by decide), fun _ h => by cases h⟩
  peers := by decide
  followers pid mem := by
    obtain rfl : pid = 1 := by simpa [twoNode, leaderWith, Cluster.leader] using mem
    exact ⟨⟨by decide, by decide, fun _ h => by cases h⟩, rfl, rfl, by decide, by decide,
      by decide, Or.inl (by decide)⟩

/-- The probe after index 2, which the empty follower rejects. -/
def probe : ReqMsg :=
  { term := 1, src := 0, dst := 1, lastLogTerm := 1, lastLogIdx := 2, commitIdx := 0,
    logEntries := [] }

def probeRejected : RespMsg := { term := 1, src := 1, dst := 0, nextIdx := 1, accepted := false }

/-- The catch-up request from the start, carrying the first entry. -/
def firstEntry : ReqMsg :=
  { term := 1, src := 0, dst := 1, lastLogTerm := 0, lastLogIdx := 0, commitIdx := 0,
    logEntries := [⟨1, .appLog, 1⟩] }

def firstAccepted : RespMsg := { term := 1, src := 1, dst := 0, nextIdx := 2, accepted := true }

/-- Probe, rejection, catch-up from the start, acceptance of the first entry. -/
def catchUpActions : List Action :=
  [.requestAppendEntries fun _ => hookOk, .deliverRequest probe,
    .deliverResponse probeRejected hookOk, .deliverRequest firstEntry,
    .deliverResponse firstAccepted hookOk]

theorem catchUpActions_run : (run twoNode catchUpActions).isSome := by decide

def caughtUp : Cluster := (run twoNode catchUpActions).get catchUpActions_run

/-! ### A compacted follower and a late request

`Agreed` needs followers whose stores start at index 1. On a follower whose
store starts past it, the skip loop of `handle_append_entries` (lines 384-394)
asks `term_at` for indices below `start_index`, where the store holds nothing
and answers 0: a late request from before the compacted part then overwrites
the follower's log there and truncates it, after the leader has matched the
follower beyond it. -/

/-- A leader of term 2 holding `compactedLeaderLog` whose peer 1 is expected at
index 2, with batches of one entry and a commit quorum index of 1; peer 1 is
`compactedFollower`, its store starting at 3 after a snapshot at index 2. -/
def compactedCluster : Cluster :=
  { servers := fun i =>
      if i = 0 then
        { leaderWith 2 compactedLeaderLog [1] 1 1 with
          peers := fun _ => ⟨false, 2, 0, false, false, 0, 0, 0, 0, false, false, 0, 0⟩ }
      else compactedFollower,
    leaderId := 0, network := [] }

theorem compactedCluster_init : Init compactedCluster where
  network := rfl
  role := rfl
  running := rfl
  id := rfl
  notPeer := by decide
  nodup := by decide
  quorum := by decide
  store := ⟨.inl (by decide), fun _ h => by cases h⟩
  peers := by decide
  followers pid mem := by
    obtain rfl : pid = 1 := by simpa [compactedCluster, leaderWith, Cluster.leader] using mem
    exact ⟨⟨by decide, by decide, fun _ h => by cases h; exact ⟨by decide, rfl⟩⟩, rfl, rfl,
      by decide, by decide, by decide, Or.inr ⟨_, rfl, le_rfl⟩⟩

/-- The first request, after index 1. -/
def probeAfterOne : ReqMsg :=
  { term := 2, src := 0, dst := 1, lastLogTerm := 1, lastLogIdx := 1, commitIdx := 0,
    logEntries := [⟨1, .appLog, 2⟩] }

/-- The follower's rejection, with its `next_slot` 4 as the hint. -/
def hintFour : RespMsg := { term := 2, src := 1, dst := 0, nextIdx := 4, accepted := false }

/-- The request from the start that the first delivery of `hintFour` sends. -/
def staleHead : ReqMsg :=
  { term := 2, src := 0, dst := 1, lastLogTerm := 0, lastLogIdx := 0, commitIdx := 0,
    logEntries := [⟨1, .appLog, 1⟩] }

/-- The heartbeat after index 4, once `next_log_idx` is initialised again. -/
def heartbeatAfterFour : ReqMsg :=
  { term := 2, src := 0, dst := 1, lastLogTerm := 2, lastLogIdx := 4, commitIdx := 0,
    logEntries := [] }

/-- The request after index 3 carrying the leader's entry of term 2. -/
def entryFour : ReqMsg :=
  { term := 2, src := 0, dst := 1, lastLogTerm := 1, lastLogIdx := 3, commitIdx := 0,
    logEntries := [⟨2, .appLog, 4⟩] }

def entryFourAccepted : RespMsg :=
  { term := 2, src := 1, dst := 0, nextIdx := 5, accepted := true }

/-- The probe is rejected, and the rejection, delivered three times, steps
`next_log_idx` to 1 (sending `staleHead`), to 0 and on to 5 (the heartbeat,
rejected with the same hint) and to 4; `entryFour` is accepted, the leader
matches peer 1 at 4 and commits 4; `staleHead` arrives last. -/
def staleHeadActions : List Action :=
  [.requestAppendEntries fun _ => hookOk, .deliverRequest probeAfterOne,
    .deliverResponse hintFour hookOk, .deliverResponse hintFour hookOk,
    .deliverRequest heartbeatAfterFour, .deliverResponse hintFour hookOk,
    .deliverRequest entryFour, .deliverResponse entryFourAccepted hookOk,
    .deliverRequest staleHead]

theorem staleHeadActions_run : (run compactedCluster staleHeadActions).isSome := by decide

def staleHeadDelivered : Cluster :=
  (run compactedCluster staleHeadActions).get staleHeadActions_run

/-- The leader's log at term 3. -/
def termThreeLog : List LogEntry :=
  [⟨1, .appLog, 1⟩, ⟨1, .appLog, 2⟩, ⟨3, .appLog, 3⟩, ⟨3, .appLog, 4⟩]

/-- A follower log with a tail of term 2 from an earlier leader. -/
def divergentLog : List LogEntry :=
  [⟨1, .appLog, 1⟩, ⟨1, .appLog, 2⟩, ⟨2, .appLog, 5⟩, ⟨2, .appLog, 6⟩]

/-- A leader of term 3 with quorum index 1 among three voters, batches of one
entry; follower 1 holds the leader's log, follower 2 the divergent one. -/
def threeNode : Cluster :=
  { servers := fun i => if i = 0 then leaderWith 3 termThreeLog [1, 2] 1 1
      else if i = 1 then followerWith 3 termThreeLog 0 0 [] false
      else { followerWith 3 divergentLog 0 0 [] false with id := 2 },
    leaderId := 0, network := [] }

theorem threeNode_init : Init threeNode where
  network := rfl
  role := rfl
  running := rfl
  id := rfl
  notPeer := by decide
  nodup := by decide
  quorum := by decide
  store := ⟨.inl (by decide), fun _ h => by cases h⟩
  peers := by decide
  followers pid mem := by
    have : pid = 1 ∨ pid = 2 := by simpa [threeNode, leaderWith, Cluster.leader] using mem
    rcases this with rfl | rfl <;>
      exact ⟨⟨by decide, by decide, fun _ h => by cases h⟩, rfl, rfl, by decide, by decide,
        by decide, Or.inl (by decide)⟩

/-- The first heartbeat to `dst`, after index 4. -/
def probeAfterFour (dst : Nat) : ReqMsg :=
  { term := 3, src := 0, dst := dst, lastLogTerm := 3, lastLogIdx := 4, commitIdx := 0,
    logEntries := [] }

def probeAccepted : RespMsg := { term := 3, src := 1, dst := 0, nextIdx := 5, accepted := true }

def probeDeclined : RespMsg := { term := 3, src := 2, dst := 0, nextIdx := 5, accepted := false }

/-- The retry after index 1 that three deliveries of `probeDeclined` produce:
entry 2 and commit index 4. -/
def retryAfterOne : ReqMsg :=
  { term := 3, src := 0, dst := 2, lastLogTerm := 1, lastLogIdx := 1, commitIdx := 4,
    logEntries := [⟨1, .appLog, 2⟩] }

def retryAccepted : RespMsg := { term := 3, src := 2, dst := 0, nextIdx := 3, accepted := true }

/-- The catch-up after `retryAccepted`: entry 3 of the leader's log. -/
def entryThree : ReqMsg :=
  { term := 3, src := 0, dst := 2, lastLogTerm := 1, lastLogIdx := 2, commitIdx := 4,
    logEntries := [⟨3, .appLog, 3⟩] }

/-- Follower 1 accepts the heartbeat, so the leader commits 4; follower 2's
duplicated rejection steps `next_log_idx` back to 2; the retry after index 1
reaches follower 2 and its state machine commits. -/
def tailCommitActions : List Action :=
  [.requestAppendEntries fun _ => hookOk, .deliverRequest (probeAfterFour 1),
    .deliverResponse probeAccepted hookOk, .deliverRequest (probeAfterFour 2),
    .deliverResponse probeDeclined hookOk, .deliverResponse probeDeclined hookOk,
    .deliverResponse probeDeclined hookOk, .deliverRequest retryAfterOne, .commitInBg 2]

theorem tailCommitActions_run : (run threeNode tailCommitActions).isSome := by decide

def tailCommitted : Cluster := (run threeNode tailCommitActions).get tailCommitActions_run

theorem entryThree_run :
    (run tailCommitted
      [.deliverResponse retryAccepted hookOk, .deliverRequest entryThree]).isSome := by
  decide

def tailOverwritten : Cluster :=
  (run tailCommitted [.deliverResponse retryAccepted hookOk, .deliverRequest entryThree]).get
    entryThree_run

/-- Follower 2 commits, and applies, indices 3 and 4 holding term 2 where the
leader's log holds term 3; replacing index 3 then rolls it back and lowers
`sm_commit_index_` from 4 to 2. -/
theorem divergent_tail_committed :
    Reachable tailCommitted ∧
      (tailCommitted.servers 2).quickCommitIndex = 4 ∧
      (tailCommitted.servers 2).smCommitIndex = 4 ∧
      ¬ AgreeUpTo (tailCommitted.servers 2).logStore.entries tailCommitted.leader.logStore.entries
        (tailCommitted.servers 2).quickCommitIndex ∧
      Reachable tailOverwritten ∧
      SmCall.rollback 3 5 ∈ (tailOverwritten.servers 2).smCalls ∧
      (tailOverwritten.servers 2).smCommitIndex = 2 := by
  have reach : Reachable tailCommitted :=
    (Reachable.init threeNode_init).run_get tailCommitActions_run
  exact ⟨reach, by decide, by decide, by decide, reach.run_get entryThree_run, by decide,
    by decide⟩

end NuRaft.Protocol

import NuRaft.Protocol.Convergence
import NuRaft.Guarantees.Dispatcher

/-!
# Catching a follower up in the cluster

handle_append_entries.cxx:38-150, 266-503 and 505-599, run by the cluster of
`Protocol.Cluster`. `replicate_converges` follows the exchange with one peer
on its own; here its rounds are actions of the cluster, with every other
message left in the network. A failed send frees the peer, and one round of
`request_append_entries()` in which the observer hook lets only the peer's
request go sends it a `Fresh` request. From then on each round delivers the
request and then its answer, and unless the answer ends the catch-up, the
reducer's own catch-up (lines 590-597) sends the next `Fresh` request.

So from every reachable state, a follower under `Syncing` whose leader holds no
snapshot and has a commit quorum above 0 is brought by the protocol's own
actions to the leader's whole log, with the peer's `next_log_idx` at the
leader's `next_slot` and its `matched_idx` at the leader's last index
(`follower_catches_up`). With a commit quorum of 0, `request_append_entries()`
commits instead of sending (lines 46-50), and a snapshot on the leader can end
the catch-up at the snapshot path, which the cluster does not deliver.
-/
namespace NuRaft.Protocol
open NuRaft.Source NuRaft.Spec NuRaft.Guarantees

/-! ### The leader keeps leading -/

/-- The server at `leaderId` leads and knows its own id. -/
structure Leading (c : Cluster) : Prop where
  role : c.leader.role = .leader
  id : c.leader.id = c.leaderId

theorem Leading.setLeader {c : Cluster} (h : Leading c) {l' : RaftServer}
    (frame : LeaderFrame c.leader l') : Leading (c.setServer c.leaderId l') :=
  ⟨by simp [frame.role, h.role], by simp [frame.id, h.id]⟩

theorem Leading.setFollower {c : Cluster} (h : Leading c) {sid : Nat} (notLeader : sid ≠ c.leaderId)
    (f' : RaftServer) : Leading (c.setServer sid f') :=
  ⟨by simp [Ne.symm notLeader, h.role], by simp [Ne.symm notLeader, h.id]⟩

theorem Leading.send {c : Cluster} (h : Leading c) (msgs : List Msg) : Leading (c.send msgs) :=
  ⟨h.role, h.id⟩

theorem Leading.step {c c' : Cluster} {a : Action} (inv : Replicated c) (h : Leading c)
    (stepped : Protocol.step c a = some c') : Leading c' := by
  rcases step_cases stepped with ⟨_, _, -, -, rfl⟩ | ⟨env, -, -, rfl⟩ | ⟨elapsedUs, -, -, rfl⟩ |
    ⟨pid, -, -, -, rfl⟩ | ⟨req, -, -, notLeader, rfl⟩ |
    ⟨resp, env, -, -, -, member, -, rfl⟩ | ⟨sid, -, notLeader, rfl⟩ | ⟨sid, -, notLeader, rfl⟩
  · exact ⟨by simp [h.role], by simp [h.id]⟩
  · exact (h.setLeader (.of_dispatch (requestAppendEntries_spec c.leader env inv.store).1)).send _
  · exact h.setLeader (tickPeers_frame _ _)
  · exact h.setLeader (freePeer_frame _ _)
  · exact (h.setFollower notLeader _).send _
  · have freed := freePeer_frame c.leader resp.src
    exact (h.setLeader (freed.trans
      (handleAppendEntriesResp_frame _ resp env (freed.peerIds ▸ member)).1)).send _
  · exact h.setFollower notLeader _
  · exact h.setFollower notLeader _

theorem Reachable.leading {c : Cluster} (reach : Reachable c) : Leading c := by
  induction reach with
  | init start => exact ⟨start.role, start.id⟩
  | step reached stepped ih => exact ih.step (Replicated.reachable reached) stepped

/-! ### The leader's side -/

/-- The observer hook's answers that let only the request to `pid` go. -/
def onlyTo (pid : Nat) : Nat → DispatchEnv :=
  fun q => if q = pid then hookOk else ⟨.returnNull, false⟩

/-- Lines 52-54 over peers other than `pid`, none of whose requests the hook
lets go: nothing changes and nothing is sent. -/
theorem requestAppendEntriesEach_quiet {pid : Nat} :
    ∀ (s : RaftServer) (pids : List Nat), pid ∉ pids →
      requestAppendEntriesEach (onlyTo pid) s pids = (s, [])
  | _, [], _ => rfl
  | s, q :: rest, out => by
    have other : q ≠ pid := fun same => out (same ▸ List.mem_cons_self q rest)
    have vetoed : requestAppendEntriesTo s q (onlyTo pid q) = (s, []) := by
      simp [requestAppendEntriesTo, onlyTo, other]
    simp only [requestAppendEntriesEach, vetoed,
      requestAppendEntriesEach_quiet s rest fun mem => out (List.mem_cons_of_mem q mem),
      List.append_nil]

/-- Lines 52-54 with only `pid`'s request let go: the round is
`request_append_entries(p)` for `pid` alone. -/
theorem requestAppendEntriesEach_onlyTo {pid : Nat} :
    ∀ (s : RaftServer) (pids : List Nat), pids.Nodup → pid ∈ pids →
      requestAppendEntriesEach (onlyTo pid) s pids = requestAppendEntriesTo s pid hookOk
  | s, q :: rest, nodup, mem => by
    rw [List.nodup_cons] at nodup
    by_cases first : q = pid
    · subst first
      simp only [requestAppendEntriesEach, onlyTo, if_pos,
        requestAppendEntriesEach_quiet _ rest nodup.1, List.append_nil]
    · have vetoed : requestAppendEntriesTo s q (onlyTo pid q) = (s, []) := by
        simp [requestAppendEntriesTo, onlyTo, first]
      simp only [requestAppendEntriesEach, vetoed, List.nil_append]
      exact requestAppendEntriesEach_onlyTo s rest nodup.2
        ((List.mem_cons.mp mem).resolve_left (Ne.symm first))

/-- Lines 85-117 for a free peer past its lazy initialisation, on a leader that
holds no snapshot, the hook letting the request go: the peer is sent one
request, `Fresh` for the leader the dispatch leaves, and `exited` stays. -/
theorem requestAppendEntriesTo_fresh {s : RaftServer} {pid : Nat} (wf : LeaderStore s)
    (batch : 1 ≤ s.params.maxAppendSize) (noSnapshot : s.lastSnapshot = none)
    (free : (s.peers pid).busy = false) (positive : 1 ≤ (s.peers pid).nextLogIdx)
    (inside : (s.peers pid).nextLogIdx ≤ s.logStore.nextSlot) :
    ∃ req, (requestAppendEntriesTo s pid hookOk).2 = [.appendEntriesRequest req] ∧
      Fresh (requestAppendEntriesTo s pid hookOk).1 pid req ∧
      (requestAppendEntriesTo s pid hookOk).1.exited = s.exited := by
  have busy : DispatchFrame s (s.setPeer pid
      { checkReconnect (s.peers pid) s.params.heartBeatInterval with busy := true }) :=
    .setPeer ((PeerUpdate.refl s pid).keep (by simp) (by simp) (by simp))
  have next := busy.nextLogIdx_of_pos positive
  rcases createAppendEntriesReq_sends _ pid hookOk.snapshotReady (next ▸ positive)
      (by rw [next, busy.logStore]; exact inside) with ⟨fallback, -⟩ | ⟨-, req, sent⟩
  · simp [snapshotFallback, busy.lastSnapshot, noSnapshot] at fallback
  have fresh := (createAppendEntriesReq_fresh (busy.leaderStore wf) (busy.params ▸ batch)
    (next ▸ positive) sent).congr busy.term.symm busy.id.symm busy.logStore.symm next.symm
  have dispatched := requestAppendEntriesTo_of_message s pid hookOk rfl free (Prod.ext rfl sent)
  refine ⟨req, by rw [dispatched], fresh.of_frame (requestAppendEntriesTo_frame s pid hookOk) positive,
    ?_⟩
  rw [dispatched, RaftServer.setPeer_exited]
  exact createAppendEntriesReq_exited _ _ _ sent

/-- The reducer changes neither `exited` nor any peer's `busy`. -/
theorem reduceResp_keeps (s : RaftServer) (resp : RespMsg) :
    (reduceResp s resp).1.exited = s.exited ∧
      ∀ q, ((reduceResp s resp).1.peers q).busy = (s.peers q).busy := by
  unfold reduceResp
  split
  · obtain ⟨qc, hq⟩ := commit_eq (acceptResp s resp) (quorumCommitIdx (acceptResp s resp))
    simp only [hq]
    refine ⟨by simp [acceptResp], fun q => ?_⟩
    by_cases h : q = resp.src <;> simp [acceptResp, RaftServer.setPeer, h]
  · refine ⟨rfl, fun q => ?_⟩
    by_cases h : q = resp.src <;> simp [rejectResp, RaftServer.setPeer, h]

/-- Lines 590-597: a leader that still leads catches the peer up through
`request_append_entries(p)` after a rejection, and after an acceptance short of
`next_slot`. -/
theorem handleAppendEntriesResp_of_catchUp {s : RaftServer} {resp : RespMsg} (env : DispatchEnv)
    (member : resp.src ∈ s.peerIds) (leading : s.role = .leader)
    (going : resp.accepted = false ∨ resp.nextIdx < s.logStore.nextSlot) :
    handleAppendEntriesResp s resp env =
      requestAppendEntriesTo (reduceResp s resp).1 resp.src env := by
  have role : (reduceResp s resp).1.role = .leader := by
    rw [(reduceResp_frame s resp).role]
    split <;> simpa [acceptResp, rejectResp] using leading
  have need : (reduceResp s resp).2 = true := by
    unfold reduceResp
    rcases going with rejected | short
    · simp [rejected]
    · split
      · obtain ⟨qc, hq⟩ := commit_eq (acceptResp s resp) (quorumCommitIdx (acceptResp s resp))
        simp only [hq]
        simp [acceptResp, short]
      · rfl
  unfold handleAppendEntriesResp
  rw [if_neg (not_not.mpr member)]
  exact if_pos ⟨role, need⟩

/-- The leader's half of a round that does not end the catch-up, on a leader
that leads and holds no snapshot, the peer freed: the reducer's catch-up sends
the peer one request, `Fresh` for the leader it leaves, and `exited` stays. -/
theorem handleAppendEntriesResp_resends {s : RaftServer} {pid : Nat} {resp : RespMsg}
    (src : resp.src = pid) (member : pid ∈ s.peerIds) (leading : s.role = .leader)
    (wf : LeaderStore s) (batch : 1 ≤ s.params.maxAppendSize)
    (noSnapshot : s.lastSnapshot = none) (free : (s.peers pid).busy = false)
    (going : resp.accepted = false ∨ resp.nextIdx < s.logStore.nextSlot)
    (positive : 1 ≤
      ((if resp.accepted then acceptResp s resp else rejectResp s resp).peers pid).nextLogIdx)
    (inside : ((if resp.accepted then acceptResp s resp else rejectResp s resp).peers pid).nextLogIdx
      ≤ s.logStore.nextSlot) :
    ∃ req, (handleAppendEntriesResp s resp hookOk).2 = [.appendEntriesRequest req] ∧
      Fresh (handleAppendEntriesResp s resp hookOk).1 pid req ∧
      (handleAppendEntriesResp s resp hookOk).1.exited = s.exited := by
  rw [handleAppendEntriesResp_of_catchUp hookOk (src ▸ member) leading going, src]
  have answered : LeaderFrame s (if resp.accepted then acceptResp s resp else rejectResp s resp) := by
    split <;> exact .setPeer s rfl
  have reduced := reduceResp_frame s resp
  have frame := answered.trans (.of_dispatch reduced)
  obtain ⟨exited, busy⟩ := reduceResp_keeps s resp
  have next := reduced.nextLogIdx_of_pos positive
  obtain ⟨req, sent, fresh, kept⟩ := requestAppendEntriesTo_fresh (frame.leaderStore wf)
    (frame.params ▸ batch) (frame.lastSnapshot.trans noSnapshot) (by rw [busy, free])
    (next ▸ positive) (by rw [next, frame.logStore]; exact inside)
  exact ⟨req, sent, fresh, kept.trans exited⟩

/-! ### Rounds in the cluster -/

/-- A catch-up of peer `pid` under way in a reachable state: `Syncing` holds of
the leader and the follower, the leader runs and holds no snapshot, and a
`Fresh` request to the peer is in the network. -/
structure CatchingUp (c : Cluster) (pid : Nat) (req : ReqMsg) : Prop where
  reach : Reachable c
  syncing : Syncing c.leader (c.servers pid) pid
  running : c.leader.exited = false
  noSnapshot : c.leader.lastSnapshot = none
  sent : .appendEntriesRequest req ∈ c.network
  fresh : Fresh c.leader pid req

/-- One round of the catch-up in the cluster: the request is delivered, then
its answer, and the round is a `SyncStep`; unless the answer ends the catch-up,
the reducer's catch-up leaves the next round under way. -/
theorem CatchingUp.round {c : Cluster} {pid : Nat} {req : ReqMsg} (h : CatchingUp c pid req) :
    ∃ resp c', run c [.deliverRequest req, .deliverResponse resp hookOk] = some c' ∧
      SyncStep c.leader (c.servers pid) pid resp c'.leader (c'.servers pid) ∧
      (¬(resp.accepted = true ∧ c.leader.logStore.nextSlot ≤ resp.nextIdx) →
        ∃ req', CatchingUp c' pid req') := by
  have inv := Replicated.reachable h.reach
  have member := h.syncing.member
  have notLeader : pid ≠ c.leaderId := fun same => inv.notPeer (same ▸ member)
  have freed := freePeer_dispatchFrame c.leader pid
  obtain ⟨resp, answered, step⟩ := answer_syncs h.syncing h.fresh freed hookOk
  have src : resp.src = pid := (handleAppendEntries_src _ req answered).trans h.syncing.peer
  have dst : resp.dst = c.leaderId :=
    (handleAppendEntries_dst _ req answered).trans (h.fresh.src.trans h.reach.leading.id)
  -- The follower answers the request.
  obtain ⟨c₁, hc₁⟩ : ∃ c₁, c₁ = (c.setServer pid (handleAppendEntries (c.servers pid) req).1).send
      [.appendEntriesResponse resp] := ⟨_, rfl⟩
  have delivered : Protocol.step c (.deliverRequest req) = some c₁ := by
    simp only [Protocol.step]
    rw [if_pos ⟨h.sent, h.fresh.dst ▸ notLeader⟩, h.fresh.dst, answered, hc₁]
    rfl
  have leader₁ : c₁.leader = c.leader := by simp [hc₁, Ne.symm notLeader]
  -- The leader reduces the answer.
  obtain ⟨c₂, hc₂⟩ : ∃ c₂, c₂ = (c₁.setServer c.leaderId
      (handleAppendEntriesResp (freePeer c.leader pid) resp hookOk).1).send
      (handleAppendEntriesResp (freePeer c.leader pid) resp hookOk).2 := ⟨_, rfl⟩
  have reduced : Protocol.step c₁ (.deliverResponse resp hookOk) = some c₂ := by
    simp only [Protocol.step]
    rw [if_pos ⟨by simp [hc₁], by rw [dst, hc₁]; rfl, by rw [leader₁, src]; exact member,
      by rw [leader₁]; exact h.running⟩, leader₁, src, hc₂, hc₁]
    rfl
  have ran : run c [.deliverRequest req, .deliverResponse resp hookOk] = some c₂ :=
    run_cons.mpr ⟨c₁, delivered, run_cons.mpr ⟨c₂, reduced, rfl⟩⟩
  have leader₂ : c₂.leader = (handleAppendEntriesResp (freePeer c.leader pid) resp hookOk).1 := by
    simp [hc₂, hc₁]
  have follower₂ : c₂.servers pid = (handleAppendEntries (c.servers pid) req).1 := by
    simp [hc₂, hc₁, notLeader]
  refine ⟨resp, c₂, ran, by rw [leader₂, follower₂]; exact step, fun going => ?_⟩
  -- Unless the answer ends the catch-up, the reducer sends the next request.
  have going' : resp.accepted = false ∨ resp.nextIdx < (freePeer c.leader pid).logStore.nextSlot := by
    cases accepted : resp.accepted
    · exact .inl rfl
    · exact .inr (by simp [accepted] at going; simpa [freePeer] using going)
  have positive : 1 ≤ ((if resp.accepted then acceptResp (freePeer c.leader pid) resp
      else rejectResp (freePeer c.leader pid) resp).peers pid).nextLogIdx := by
    have := step.syncing.positive
    cases accepted : resp.accepted
    · obtain ⟨lower, -⟩ := step.rejected accepted
      rw [if_neg (by simp), rejectResp_nextLogIdx, if_pos src.symm, src]
      simp only [freePeer, RaftServer.setPeer_peers_self, ulongPred]
      split_ifs <;> omega
    · obtain ⟨-, next, -⟩ := step.accepted accepted
      rw [if_pos rfl, acceptResp_nextLogIdx, if_pos src.symm]
      omega
  have next := (handleAppendEntriesResp_dispatchFrame _ resp hookOk
    (by rw [src, freed.peerIds]; exact member)).nextLogIdx_of_pos positive
  obtain ⟨req', sent, fresh, kept⟩ := handleAppendEntriesResp_resends src
    (freed.peerIds ▸ member) (freed.role.trans h.reach.leading.role)
    (freed.leaderStore h.syncing.store) (freed.params ▸ h.syncing.batch)
    (freed.lastSnapshot.trans h.noSnapshot) (by simp [freePeer]) going' positive
    (by rw [← next, freed.logStore, ← step.store]; exact step.syncing.inside)
  refine ⟨req', h.reach.run ran, by rw [leader₂, follower₂]; exact step.syncing, ?_, ?_, ?_, ?_⟩
  · rw [leader₂, kept]; exact h.running
  · rw [leader₂, step.snapshot]; exact h.noSnapshot
  · simp [hc₂, sent]
  · rw [leader₂]; exact fresh

/-- The run lemma: a catch-up under way, with the budget of `replicate_synced`,
reaches the leader's whole log. -/
theorem CatchingUp.catchUp {pid : Nat} : ∀ (fuel : Nat) {c : Cluster} {req : ReqMsg},
    CatchingUp c pid req →
    AgreeUpTo (c.servers pid).logStore.entries c.leader.logStore.entries
        ((c.leader.peers pid).nextLogIdx - 1) ∧
        c.leader.logStore.nextSlot - (c.leader.peers pid).nextLogIdx < fuel ∨
      (c.leader.peers pid).nextLogIdx + c.leader.logStore.nextSlot ≤ fuel →
    ∃ actions c', run c actions = some c' ∧ c'.leader.logStore = c.leader.logStore ∧
      (c'.leader.peers pid).nextLogIdx = c.leader.logStore.nextSlot ∧
      (c'.leader.peers pid).matchedIdx = c.leader.logStore.nextSlot - 1 ∧
      AgreeUpTo (c'.servers pid).logStore.entries c.leader.logStore.entries
        c.leader.logStore.entries.length
  | 0, c, _, _, budget => by have := c.leader.logStore.nextSlot_pos; omega
  | fuel + 1, c, _, h, budget => by
    obtain ⟨resp, c₂, ran, step, more⟩ := h.round
    by_cases done : resp.accepted = true ∧ c.leader.logStore.nextSlot ≤ resp.nextIdx
    · exact ⟨_, c₂, ran, step.finished done⟩
    obtain ⟨_, going⟩ := more done
    obtain ⟨actions, c', ran', rest⟩ :=
      CatchingUp.catchUp fuel going (step.budget h.syncing.positive done budget)
    rw [step.store] at rest
    exact ⟨_, c', run_append ran ran', rest⟩

/-- The catch-up starts: a failed send frees the peer, and a round of
`request_append_entries()` that lets only the peer's request go sends it a
`Fresh` request, the leader's log unchanged. -/
theorem catchingUp_start {c : Cluster} (reach : Reachable c) {pid : Nat}
    (h : Syncing c.leader (c.servers pid) pid) (running : c.leader.exited = false)
    (quorum : 0 < c.leader.quorumForCommit) (noSnapshot : c.leader.lastSnapshot = none) :
    ∃ req c', run c [.transportError pid, .requestAppendEntries (onlyTo pid)] = some c' ∧
      CatchingUp c' pid req ∧ c'.leader.logStore = c.leader.logStore := by
  have inv := Replicated.reachable reach
  have notLeader : pid ≠ c.leaderId := fun same => inv.notPeer (same ▸ h.member)
  have freed := freePeer_dispatchFrame c.leader pid
  have next := freed.nextLogIdx_of_pos h.positive
  obtain ⟨req, sent, fresh, kept⟩ := requestAppendEntriesTo_fresh (freed.leaderStore h.store)
    (freed.params ▸ h.batch) (freed.lastSnapshot.trans noSnapshot) (by simp [freePeer])
    (next ▸ h.positive) (by rw [next, freed.logStore]; exact h.inside)
  have frame := freed.trans (requestAppendEntriesTo_frame (freePeer c.leader pid) pid hookOk)
  obtain ⟨c₁, hc₁⟩ : ∃ c₁, c₁ = c.setServer c.leaderId (freePeer c.leader pid) := ⟨_, rfl⟩
  have leader₁ : c₁.leader = freePeer c.leader pid := by simp [hc₁]
  have failed : Protocol.step c (.transportError pid) = some c₁ := by
    simp only [Protocol.step]
    rw [if_neg (by simp [running, h.member]), hc₁]
  obtain ⟨c₂, hc₂⟩ : ∃ c₂, c₂ = (c₁.setServer c.leaderId
      (requestAppendEntriesTo (freePeer c.leader pid) pid hookOk).1).send
      [.appendEntriesRequest req] := ⟨_, rfl⟩
  have dispatched : Protocol.step c₁ (.requestAppendEntries (onlyTo pid)) = some c₂ := by
    have many : ¬((freePeer c.leader pid).peerIds.length = 0 ∨
        (freePeer c.leader pid).quorumForCommit = 0) := by
      rw [freed.peerIds, freed.quorumForCommit]
      have := List.length_pos_of_mem h.member
      omega
    simp only [Protocol.step]
    rw [if_neg (by rw [leader₁]; simpa [freePeer] using running), leader₁, requestAppendEntries,
      if_neg many, requestAppendEntriesEach_onlyTo _ _ (freed.peerIds ▸ inv.nodup)
      (freed.peerIds ▸ h.member), sent, hc₂, hc₁]
    rfl
  have leader₂ : c₂.leader = (requestAppendEntriesTo (freePeer c.leader pid) pid hookOk).1 := by
    simp [hc₂, hc₁]
  have ran : run c [.transportError pid, .requestAppendEntries (onlyTo pid)] = some c₂ :=
    run_cons.mpr ⟨c₁, failed, run_cons.mpr ⟨c₂, dispatched, rfl⟩⟩
  refine ⟨req, c₂, ran, ⟨reach.run ran, ?_, ?_, ?_, by simp [hc₂], ?_⟩, ?_⟩
  · rw [leader₂, show c₂.servers pid = c.servers pid by simp [hc₂, hc₁, notLeader]]
    exact h.of_frame frame
  · rw [leader₂, kept]; exact running
  · rw [leader₂, frame.lastSnapshot]; exact noSnapshot
  · rw [leader₂]; exact fresh
  · rw [leader₂, frame.logStore]

/-- Liveness of replication within one term: from every reachable state, a
follower under `Syncing` whose leader runs, holds no snapshot and has a commit
quorum above 0 is brought by the protocol's own actions, whatever else the
network holds, to agree with the leader's whole log, the leader's log unchanged,
the peer's `next_log_idx` at the leader's `next_slot` and its `matched_idx` at
the leader's last index. -/
theorem follower_catches_up {c : Cluster} (reach : Reachable c) {pid : Nat}
    (h : Syncing c.leader (c.servers pid) pid) (running : c.leader.exited = false)
    (quorum : 0 < c.leader.quorumForCommit) (noSnapshot : c.leader.lastSnapshot = none) :
    ∃ actions c', run c actions = some c' ∧ c'.leader.logStore = c.leader.logStore ∧
      (c'.leader.peers pid).nextLogIdx = c.leader.logStore.nextSlot ∧
      (c'.leader.peers pid).matchedIdx = c.leader.logStore.nextSlot - 1 ∧
      AgreeUpTo (c'.servers pid).logStore.entries c.leader.logStore.entries
        c.leader.logStore.entries.length := by
  obtain ⟨_, c₁, started, going, store⟩ := catchingUp_start reach h running quorum noSnapshot
  obtain ⟨actions, c', ran, rest⟩ := going.catchUp _ (.inr le_rfl)
  rw [store] at rest
  exact ⟨_, c', run_append started ran, rest⟩

/-- `divergedLeader` at 0 with `divergedFollower` at 1, no message sent. -/
def divergedCluster : Cluster :=
  { servers := fun i => if i = 0 then divergedLeader else divergedFollower, leaderId := 0,
    network := [] }

theorem divergedCluster_init : Init divergedCluster where
  network := rfl
  role := rfl
  running := rfl
  id := rfl
  notPeer := by decide
  nodup := by decide
  quorum := by decide
  store := ⟨.inl (by decide), fun _ h => by cases h⟩
  peers := by decide
  followers pid mem := by
    obtain rfl : pid = 1 := by simpa [divergedCluster, divergedLeader, Cluster.leader] using mem
    exact ⟨divergedFollower_syncing.log, rfl, rfl, by decide, agreeUpTo_zero _ _, le_rfl,
      divergedFollower_syncing.start⟩

/-- The follower of `divergedCluster`, agreeing with the leader up to index 2
only, is caught up by the cluster's own actions. -/
theorem follower_catches_up_diverged :
    Reachable divergedCluster ∧ Syncing divergedCluster.leader (divergedCluster.servers 1) 1 ∧
      divergedCluster.leader.exited = false ∧ 0 < divergedCluster.leader.quorumForCommit ∧
      divergedCluster.leader.lastSnapshot = none ∧
      ∃ actions c', run divergedCluster actions = some c' ∧
        c'.leader.logStore = divergedCluster.leader.logStore ∧
        (c'.leader.peers 1).nextLogIdx = divergedCluster.leader.logStore.nextSlot ∧
        (c'.leader.peers 1).matchedIdx = divergedCluster.leader.logStore.nextSlot - 1 ∧
        AgreeUpTo (c'.servers 1).logStore.entries divergedCluster.leader.logStore.entries
          divergedCluster.leader.logStore.entries.length :=
  ⟨.init divergedCluster_init, divergedFollower_syncing, rfl, by decide, rfl,
    follower_catches_up (.init divergedCluster_init) divergedFollower_syncing rfl (by decide) rfl⟩

end NuRaft.Protocol

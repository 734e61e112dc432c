import NuRaft.Protocol.Agreement

/-!
# No follower commits ahead of the leader

handle_append_entries.cxx:46-49, 236-241, 470-479 and 551-556. A request carries
the leader's `quick_commit_index_` as it was when the request was built
(`CarryCommit`), a follower commits at most up to the commit index of a request
it handles (`handleAppendEntries_quick_le`), and the leader's own commit index
only rises. So however messages are delayed, reordered or duplicated, every
server but the leader keeps `sm_commit_index_ ≤ quick_commit_index_ ≤` the
leader's `quick_commit_index_`, and every request in flight carries a commit
index no larger than the leader's (`CommitBehind`, `followers_commit_behind`).
-/
namespace NuRaft.Protocol
open NuRaft.Source NuRaft.Spec NuRaft.Guarantees

/-- Every append request among `msgs` carries the commit index `q`. -/
def CarryCommit (q : Nat) (msgs : List Msg) : Prop :=
  ∀ req, .appendEntriesRequest req ∈ msgs → req.commitIdx = q

theorem carryCommit_nil (q : Nat) : CarryCommit q [] := nofun

theorem requestAppendEntriesTo_carryCommit (s : RaftServer) (pid : Nat) (env : DispatchEnv) :
    CarryCommit s.quickCommitIndex (requestAppendEntriesTo s pid env).2 := by
  unfold requestAppendEntriesTo
  dsimp only
  split_ifs
  · exact carryCommit_nil _
  · exact carryCommit_nil _
  · split
    · exact carryCommit_nil _
    · exact carryCommit_nil _
    · next heq =>
      intro req mem
      obtain rfl := List.mem_singleton.mp mem
      exact (createAppendEntriesReq_header
        (s.setPeer pid { checkReconnect (s.peers pid) s.params.heartBeatInterval with busy := true })
        pid env.snapshotReady (by rw [heq])).2.2

theorem requestAppendEntriesEach_carryCommit (env : Nat → DispatchEnv) :
    ∀ (s : RaftServer) (pids : List Nat),
      CarryCommit s.quickCommitIndex (requestAppendEntriesEach env s pids).2
  | _, [] => carryCommit_nil _
  | s, pid :: rest => fun req mem => by
    simp only [requestAppendEntriesEach, List.mem_append] at mem
    rcases mem with first | others
    · exact requestAppendEntriesTo_carryCommit s pid (env pid) req first
    · have := requestAppendEntriesEach_carryCommit env _ rest req others
      rwa [requestAppendEntriesTo_quickCommitIndex] at this

/-- The dispatcher's requests carry the leader's commit index after it. -/
theorem requestAppendEntries_carryCommit (s : RaftServer) (env : Nat → DispatchEnv) :
    CarryCommit (requestAppendEntries s env).1.quickCommitIndex (requestAppendEntries s env).2 := by
  unfold requestAppendEntries
  split
  · exact carryCommit_nil _
  · rw [requestAppendEntriesEach_quickCommitIndex]
    exact requestAppendEntriesEach_carryCommit env s s.peerIds

/-- The catch-up's requests carry the leader's commit index after the reducer's
commit. -/
theorem handleAppendEntriesResp_carryCommit (s : RaftServer) (resp : RespMsg)
    (env : DispatchEnv) :
    CarryCommit (handleAppendEntriesResp s resp env).1.quickCommitIndex
      (handleAppendEntriesResp s resp env).2 := by
  unfold handleAppendEntriesResp
  split
  · exact carryCommit_nil _
  · dsimp only
    split
    · rw [requestAppendEntriesTo_quickCommitIndex]
      exact requestAppendEntriesTo_carryCommit _ _ _
    · exact carryCommit_nil _

/-- Lines 427-433 and 479: the loops only regress `quick_commit_index_` below
`sm_commit_index_`, and the commit after them goes up to at most the request's
commit index, so no path of `handle_append_entries` raises it past both. -/
theorem handleAppendEntries_quick_le (s : RaftServer) (req : ReqMsg)
    (ordered : s.smCommitIndex ≤ s.quickCommitIndex) :
    (handleAppendEntries s req).1.quickCommitIndex ≤ max s.quickCommitIndex req.commitIdx := by
  have loops : ∀ t : RaftServer, t.smCommitIndex ≤ t.quickCommitIndex →
      t.quickCommitIndex ≤ s.quickCommitIndex →
      (storeEntries t req).server.quickCommitIndex ≤ s.quickCommitIndex := fun t ord le =>
    (storeEntries_preserves
      (fun t => t.smCommitIndex ≤ t.quickCommitIndex ∧ t.quickCommitIndex ≤ s.quickCommitIndex)
      (fun t logIdx entry _ _ ⟨ord, le⟩ => by
        rcases overwriteEntry_commitIndexes t logIdx entry with
          ⟨sm, quick, -⟩ | ⟨below, sm, quick⟩ <;> exact ⟨by omega, by omega⟩)
      (fun t entry h => by simpa using h) t req ⟨ord, le⟩).2
  rcases handleAppendEntries_result s req with h | ⟨s1, he, h | h | h⟩ <;> rw [h]
  · exact le_max_left _ _
  all_goals obtain ⟨r, rfl, -⟩ := enterRequest_some he
  · exact le_max_left _ _
  · exact (loops { s with catchingUp := false, role := r, initialized := true } ordered
      le_rfl).trans (le_max_left _ _)
  · rcases commit_quickCommitIndex_cases _
        (min req.commitIdx ((storeEntries _ req).server.logStore.nextSlot - 1)) with
      same | ⟨-, raised⟩
    · rw [finishAppend, same]
      exact (loops { s with catchingUp := false, role := r, initialized := true } ordered
        le_rfl).trans (le_max_left _ _)
    · rw [finishAppend, raised]
      exact (min_le_left _ _).trans (le_max_right _ _)

/-- No server but the leader commits ahead of it: each keeps
`sm_commit_index_ ≤ quick_commit_index_ ≤` the leader's `quick_commit_index_`,
and every request in flight carries a commit index at most the leader's. -/
structure CommitBehind (c : Cluster) : Prop where
  ordered : ∀ sid ≠ c.leaderId, (c.servers sid).smCommitIndex ≤ (c.servers sid).quickCommitIndex
  behind : ∀ sid ≠ c.leaderId, (c.servers sid).quickCommitIndex ≤ c.leader.quickCommitIndex
  inFlight : ∀ req, .appendEntriesRequest req ∈ c.network →
    req.commitIdx ≤ c.leader.quickCommitIndex

/-- An action on the leader that does not lower its commit index and sends
requests carrying the new one. -/
theorem CommitBehind.leaderAction {c : Cluster} (h : CommitBehind c) {l : RaftServer}
    {msgs : List Msg} (raised : c.leader.quickCommitIndex ≤ l.quickCommitIndex)
    (carry : CarryCommit l.quickCommitIndex msgs) :
    CommitBehind ((c.setServer c.leaderId l).send msgs) where
  ordered sid ne := by
    simp only [Cluster.send_leaderId, Cluster.setServer_leaderId] at ne
    simpa [ne] using h.ordered sid ne
  behind sid ne := by
    simp only [Cluster.send_leaderId, Cluster.setServer_leaderId] at ne
    simpa [ne] using (h.behind sid ne).trans raised
  inFlight req mem := by
    simp only [Cluster.send_network, Cluster.setServer_network, List.mem_append] at mem
    simp only [Cluster.send_leader, Cluster.setServer_leader, if_pos]
    rcases mem with old | new
    · exact (h.inFlight req old).trans raised
    · exact (carry req new).le

/-- An action on a server other than the leader that keeps it ordered and
behind the leader, and sends no request. -/
theorem CommitBehind.followerAction {c : Cluster} (h : CommitBehind c) {sid : Nat}
    (notLeader : sid ≠ c.leaderId) {f : RaftServer} {msgs : List Msg}
    (ordered : f.smCommitIndex ≤ f.quickCommitIndex)
    (behind : f.quickCommitIndex ≤ c.leader.quickCommitIndex)
    (replies : ∀ req, .appendEntriesRequest req ∉ msgs) :
    CommitBehind ((c.setServer sid f).send msgs) where
  ordered i ne := by
    by_cases same : i = sid
    · subst same; simpa using ordered
    · simpa [same] using h.ordered i ne
  behind i ne := by
    by_cases same : i = sid
    · subst same; simpa [notLeader.symm] using behind
    · simpa [same, notLeader.symm] using h.behind i ne
  inFlight req mem := by
    simp only [Cluster.send_network, Cluster.setServer_network, List.mem_append] at mem
    simpa [notLeader.symm] using h.inFlight req (mem.resolve_right (replies req))

/-- Every action keeps `CommitBehind`. -/
theorem CommitBehind.step {c c' : Cluster} (h : CommitBehind c) {a : Action}
    (stepped : Protocol.step c a = some c') : CommitBehind c' := by
  rcases step_cases stepped with
    ⟨_, _, -, -, rfl⟩ | ⟨env, -, -, rfl⟩ | ⟨_, -, -, rfl⟩ | ⟨_, -, -, -, rfl⟩ |
    ⟨req, -, sent, notLeader, rfl⟩ | ⟨resp, env, -, -, -, -, -, rfl⟩ |
    ⟨sid, -, notLeader, rfl⟩ | ⟨sid, -, notLeader, rfl⟩
  · rw [← Cluster.send_nil (c.setServer _ _)]
    exact h.leaderAction le_rfl (carryCommit_nil _)
  · -- The dispatcher: its commit only raises the index, its requests carry it.
    refine h.leaderAction ?_ (requestAppendEntries_carryCommit _ env)
    rcases requestAppendEntries_quickCommitIndex c.leader env with same | ⟨-, lt, raised⟩ <;>
      omega
  · rw [← Cluster.send_nil (c.setServer _ _)]
    exact h.leaderAction le_rfl (carryCommit_nil _)
  · rw [← Cluster.send_nil (c.setServer _ _)]
    exact h.leaderAction le_rfl (carryCommit_nil _)
  · -- A follower handles a request whose commit index is at most the leader's.
    exact h.followerAction notLeader
      (handleAppendEntries_sm_le_quick _ req (h.ordered _ notLeader))
      ((handleAppendEntries_quick_le _ req (h.ordered _ notLeader)).trans
        (max_le (h.behind _ notLeader) (h.inFlight req sent)))
      (by simp)
  · -- The reducer: its commit only raises the index, the catch-up's requests
    -- carry it.
    refine h.leaderAction ?_ (handleAppendEntriesResp_carryCommit _ resp env)
    have freed : (freePeer c.leader resp.src).quickCommitIndex = c.leader.quickCommitIndex := rfl
    rcases handleAppendEntriesResp_quickCommitIndex (freePeer c.leader resp.src) resp env with
      same | ⟨-, lt, raised⟩ <;> omega
  · rw [← Cluster.send_nil (c.setServer _ _)]
    exact h.followerAction notLeader le_rfl (h.behind sid notLeader) (by simp)
  · rw [← Cluster.send_nil (c.setServer _ _)]
    exact h.followerAction notLeader (h.ordered sid notLeader) (h.behind sid notLeader)
      (by simp)

/-- Along every run from a state where no follower commits ahead of the leader,
under any delivery order of the messages, none ever does: every server but the
leader keeps `sm_commit_index_ ≤ quick_commit_index_ ≤` the leader's
`quick_commit_index_`, and every request in flight carries a commit index at
most the leader's. -/
theorem followers_commit_behind {c : Cluster} (h : CommitBehind c) :
    ∀ {actions : List Action} {c' : Cluster}, run c actions = some c' → CommitBehind c'
  | [], _, ran => by cases ran; exact h
  | _ :: _, _, ran => by
    obtain ⟨_, stepped, ran'⟩ := run_cons.mp ran
    exact followers_commit_behind (h.step stepped) ran'

theorem twoNode_commitBehind : CommitBehind twoNode where
  ordered sid ne := by simp [twoNode, Cluster.leader] at ne ⊢; simp [ne, followerWith]
  behind sid ne := by simp [twoNode, Cluster.leader] at ne ⊢; simp [ne, followerWith, leaderWith]
  inFlight _ mem := by cases mem

/-- The catch-up run from `twoNode` ends with no follower ahead of the leader. -/
theorem followers_commit_behind_caught_up :
    CommitBehind twoNode ∧ run twoNode catchUpActions = some caughtUp ∧ CommitBehind caughtUp :=
  ⟨twoNode_commitBehind, Option.eq_some_of_isSome catchUpActions_run,
    followers_commit_behind twoNode_commitBehind (Option.eq_some_of_isSome catchUpActions_run)⟩

end NuRaft.Protocol

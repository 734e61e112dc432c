import NuRaft.Protocol.Agreement

/-!
# Safety of one leader term, over every run

What the invariants of `Agreement` give, and what a run keeps of the leader:

* Leader Append-Only, in every reachable state: an action writes to the
  leader's log only by appending one entry of the leader's term
  (`Replicated.leaderStep`), so along a run the leader's term and peers stay and
  its log only gains entries of its term at its end (`leader_append_only`).

On runs whose followers hold their whole logs (`ReachableWhole`), where
`Agreed` holds:

* Log Matching: every follower's log is a `FollowerLog` of the leader's log
  (`followers_match_leader`);
* every message sent keeps its meaning however late, and however often, it is
  delivered (`messages_in_flight_sound`);
* commit safety on the leader: an action raises `quick_commit_index_` only to an
  index held by a commit quorum (`Agreed.commitStep`), and a quorum once
  reached stays (`QuorumHeld.transfer`), so along a run the leader's commit
  index never decreases and, once moved, is held by a quorum
  (`leader_commit_held`).

A follower whose store starts past index 1 breaks all three
(`stale_request_truncates_matched`).
-/
namespace NuRaft.Protocol
open NuRaft.Source NuRaft.Spec NuRaft.Guarantees

/-- `twoNode`'s follower holds its whole log. -/
theorem twoNode_reachableWhole : ReachableWhole twoNode := .init twoNode_init (by decide)

/-- Log Matching on every run whose followers hold their whole logs: each
follower's log agrees with the leader's up to every index where the two hold an
entry of one term, holds no entry of the leader's term that the leader's log
lacks, and has its snapshot on a prefix that agrees with the leader's log. -/
theorem followers_match_leader {c : Cluster} (reach : ReachableWhole c) :
    ∀ pid ∈ c.leader.peerIds,
      FollowerLog c.leader.logStore.entries c.leader.term (c.servers pid) :=
  reach.agreed.followers

/-- After the catch-up run, peer 1's log is a `FollowerLog` of the leader's. -/
theorem followers_match_leader_caught_up :
    ReachableWhole caughtUp ∧ 1 ∈ caughtUp.leader.peerIds ∧
      FollowerLog caughtUp.leader.logStore.entries caughtUp.leader.term (caughtUp.servers 1) :=
  have reach := twoNode_reachableWhole.run_get catchUpActions_run
  ⟨reach, by decide, followers_match_leader reach 1 (by decide)⟩

/-- On every run whose followers hold their whole logs, every message sent in
the term, whenever and however often it is delivered: a request goes to a peer
and carries the leader's current log from its `last_log_idx` on, with the term
the leader's log has there; an acceptance comes from a peer and names an index
`next_idx > 0` up to `next_idx - 1` of which the sender's log agrees with the
leader's. -/
theorem messages_in_flight_sound {c : Cluster} (reach : ReachableWhole c) :
    ∀ m ∈ c.network, InFlight c m := by
  intro m mem
  have sent := (Replicated.reachable reach.reachable).network m mem
  cases m with
  | appendEntriesRequest _ => exact sent
  | appendEntriesResponse resp =>
    exact ⟨sent.1, fun accepted => ⟨(sent.2 accepted).1, reach.agreed.acked resp mem accepted⟩⟩
  | installSnapshotRequest => trivial

/-- The acceptance of the first entry, still in flight after the run, names an
index where peer 1 agrees with the leader. -/
theorem messages_in_flight_sound_caught_up :
    ReachableWhole caughtUp ∧ .appendEntriesResponse firstAccepted ∈ caughtUp.network ∧
      InFlight caughtUp (.appendEntriesResponse firstAccepted) :=
  have reach := twoNode_reachableWhole.run_get catchUpActions_run
  ⟨reach, by decide, messages_in_flight_sound reach _ (by decide)⟩

/-- One action keeps the leader's term and peers, and leaves its log as it is
or with one entry of the leader's term appended. -/
theorem Replicated.leaderStep {c c' : Cluster} (inv : Replicated c) {a : Action}
    (h : Protocol.step c a = some c') :
    c'.leader.term = c.leader.term ∧ c'.leader.peerIds = c.leader.peerIds ∧
      (c'.leader.logStore.entries = c.leader.logStore.entries ∨
        ∃ e : LogEntry, e.term = c.leader.term ∧
          c'.leader.logStore.entries = c.leader.logStore.entries ++ [e]) := by
  have framed : ∀ {l' : RaftServer}, LeaderFrame c.leader l' →
      l'.term = c.leader.term ∧ l'.peerIds = c.leader.peerIds ∧
        (l'.logStore.entries = c.leader.logStore.entries ∨
          ∃ e : LogEntry, e.term = c.leader.term ∧
            l'.logStore.entries = c.leader.logStore.entries ++ [e]) :=
    fun frame => ⟨frame.term, frame.peerIds, .inl (by rw [frame.logStore])⟩
  rcases step_cases h with ⟨valType, buf, -, -, rfl⟩ | ⟨env, -, -, rfl⟩ | ⟨elapsedUs, -, -, rfl⟩ |
    ⟨pid, -, -, -, rfl⟩ | ⟨req, -, -, notLeader, rfl⟩ |
    ⟨resp, env, -, -, -, member, -, rfl⟩ | ⟨sid, -, notLeader, rfl⟩ | ⟨sid, -, notLeader, rfl⟩
  · exact ⟨by simp, by simp, .inr ⟨⟨c.leader.term, valType, buf⟩, rfl, by simp⟩⟩
  · simpa using framed (.of_dispatch (requestAppendEntries_spec c.leader env inv.store).1)
  · simpa using framed (tickPeers_frame c.leader elapsedUs)
  · simpa using framed (freePeer_frame c.leader pid)
  · simp [Ne.symm notLeader]
  · have freed := freePeer_frame c.leader resp.src
    simpa using framed (freed.trans (handleAppendEntriesResp_frame _ resp env
      (freed.peerIds ▸ member)).1)
  -- Actions on a follower leave the leader as it is.
  all_goals simp [Ne.symm notLeader]

/-- Leader Append-Only, along every run from a reachable state: the leader's
term and peers stay, and its log is the log it started with followed by entries
of its term. -/
theorem leader_append_only {c c' : Cluster} (reach : Reachable c) {actions : List Action}
    (ran : Protocol.run c actions = some c') :
    c'.leader.term = c.leader.term ∧ c'.leader.peerIds = c.leader.peerIds ∧
      ∃ added : List LogEntry, c'.leader.logStore.entries = c.leader.logStore.entries ++ added ∧
        ∀ e ∈ added, e.term = c.leader.term := by
  induction actions generalizing c with
  | nil => cases ran; exact ⟨rfl, rfl, [], by simp, by simp⟩
  | cons a rest ih =>
    obtain ⟨c₁, stepped, ran⟩ := run_cons.mp ran
    obtain ⟨term, peers, log⟩ := (Replicated.reachable reach).leaderStep stepped
    obtain ⟨term', peers', added, grown, own'⟩ := ih (reach.step stepped) ran
    refine ⟨term'.trans term, peers'.trans peers, ?_⟩
    rw [term] at own'
    rcases log with same | ⟨e, own, appended⟩
    · exact ⟨added, by rw [grown, same], own'⟩
    · refine ⟨e :: added, by rw [grown, appended, List.append_assoc]; rfl, fun x mem => ?_⟩
      rcases List.mem_cons.mp mem with rfl | later
      · exact own
      · exact own' x later

/-- The catch-up run keeps the leader's term, peers and log. -/
theorem leader_append_only_caught_up :
    Reachable twoNode ∧ run twoNode catchUpActions = some caughtUp ∧
      caughtUp.leader.term = twoNode.leader.term ∧
      caughtUp.leader.peerIds = twoNode.leader.peerIds ∧
      ∃ added : List LogEntry,
        caughtUp.leader.logStore.entries = twoNode.leader.logStore.entries ++ added ∧
          ∀ e ∈ added, e.term = twoNode.leader.term :=
  have ran : run twoNode catchUpActions = some caughtUp := Option.eq_some_of_isSome _
  ⟨.init twoNode_init, ran, leader_append_only (.init twoNode_init) ran⟩

/-! ### Commit safety on the leader -/

/-- A commit quorum carries over every `Extends` step: the members and the
quorum stay, the leader's log only grows and every peer's log only advances. -/
theorem QuorumHeld.transfer {c c' : Cluster} (ext : Extends c c') {k : Nat}
    (held : QuorumHeld c k) : QuorumHeld c' k := by
  obtain ⟨nodup, count⟩ := held
  unfold QuorumHeld
  rw [ext.leaderId, ext.voters_eq, ext.quorum]
  refine ⟨nodup, count.trans ?_⟩
  simp only [← List.countP_eq_length_filter]
  refine List.countP_mono_left fun m mem agreed => ?_
  simp only [decide_eq_true_eq] at agreed ⊢
  rcases List.mem_cons.mp mem with rfl | voter
  · -- The leader holds its own log, which only grows.
    have self : c'.servers c.leaderId = c'.leader := by rw [← ext.leaderId]; rfl
    have inside := agreed.2.1
    have longer := ext.grows.length_le
    rw [self]
    exact ⟨by omega, by omega, fun _ _ => rfl⟩
  · exact ext.agree (List.mem_filter.mp voter).1 agreed

/-- A commit quorum, once reached, stays along every run whose followers hold
their whole logs. -/
theorem QuorumHeld.run {c c' : Cluster} (reach : ReachableWhole c) {actions : List Action}
    (ran : Protocol.run c actions = some c') {k : Nat} (held : QuorumHeld c k) :
    QuorumHeld c' k := by
  induction actions generalizing c with
  | nil => cases ran; exact held
  | cons a rest ih =>
    obtain ⟨c₁, stepped, ran⟩ := run_cons.mp ran
    exact ih (reach.step stepped) ran
      (held.transfer (reach.agreed.stepExtends (.reachable reach.reachable) stepped))

/-- With a commit quorum of 0 the leader alone holds its whole log. -/
theorem Replicated.selfHeld {c : Cluster} (inv : Replicated c)
    (zero : c.leader.quorumForCommit = 0) : QuorumHeld c (c.leader.logStore.nextSlot - 1) := by
  have own : AgreeUpTo (c.servers c.leaderId).logStore.entries c.leader.logStore.entries
      (c.leader.logStore.nextSlot - 1) := by
    show AgreeUpTo c.leader.logStore.entries _ _
    simp only [LogStore.nextSlot, Nat.add_sub_cancel]
    exact ⟨le_rfl, le_rfl, fun _ _ => rfl⟩
  refine ⟨inv.members_nodup, ?_⟩
  simp [zero, List.filter_cons, own]

/-- One action never lowers the leader's `quick_commit_index_`, and raises it
only to an index held by a commit quorum: the commit of `request_append_entries()`
with no peer or a quorum of 0, or the commit of an acceptance. -/
theorem Agreed.commitStep {c c' : Cluster} (inv : Replicated c) (agreed : Agreed c)
    {a : Action} (h : Protocol.step c a = some c') :
    c.leader.quickCommitIndex ≤ c'.leader.quickCommitIndex ∧
      (c'.leader.quickCommitIndex = c.leader.quickCommitIndex ∨
        QuorumHeld c' c'.leader.quickCommitIndex) := by
  suffices moved : c'.leader.quickCommitIndex = c.leader.quickCommitIndex ∨
      ∃ k, c.leader.quickCommitIndex < k ∧ c'.leader.quickCommitIndex = k ∧ QuorumHeld c k by
    rcases moved with same | ⟨k, raise, committed, held⟩
    · exact ⟨same.ge, .inl same⟩
    · exact ⟨committed ▸ raise.le,
        .inr (committed ▸ held.transfer (agreed.stepExtends inv h))⟩
  rcases step_cases h with ⟨_, _, -, -, rfl⟩ | ⟨env, -, -, rfl⟩ | ⟨_, -, -, rfl⟩ |
    ⟨_, -, -, -, rfl⟩ | ⟨_, -, -, notLeader, rfl⟩ |
    ⟨resp, env, -, sent, -, -, -, rfl⟩ | ⟨_, -, notLeader, rfl⟩ | ⟨_, -, notLeader, rfl⟩
  · exact .inl (by simp)
  · rcases requestAppendEntries_quickCommitIndex c.leader env with
      same | ⟨shortcut, raise, committed⟩
    · exact .inl (by simpa using same)
    · refine .inr ⟨_, raise, by simpa using committed, inv.selfHeld ?_⟩
      rcases shortcut with none | zero
      · simpa [voters, List.length_eq_zero.mp none] using inv.quorum
      · exact zero
  · exact .inl (by simp [tickPeers])
  · exact .inl (by simp [freePeer])
  · exact .inl (by simp [Ne.symm notLeader])
  · rcases handleAppendEntriesResp_quickCommitIndex (freePeer c.leader resp.src) resp env with
      same | ⟨accepted, raise, committed⟩
    · exact .inl (by simpa [freePeer] using same)
    · exact .inr ⟨_, by simpa [freePeer] using raise, by simpa using committed,
        agreed.acceptHeld inv sent accepted⟩
  all_goals exact .inl (by simp [Ne.symm notLeader])

/-- Commit safety on the leader, along every run whose followers hold their
whole logs: the leader's `quick_commit_index_` never decreases, and once it has
moved it is held with the leader's terms by `get_quorum_for_commit() + 1`
distinct members among the leader and its voting peers. -/
theorem leader_commit_held {c c' : Cluster} (reach : ReachableWhole c) {actions : List Action}
    (ran : Protocol.run c actions = some c') :
    c.leader.quickCommitIndex ≤ c'.leader.quickCommitIndex ∧
      (c'.leader.quickCommitIndex = c.leader.quickCommitIndex ∨
        QuorumHeld c' c'.leader.quickCommitIndex) := by
  induction actions generalizing c with
  | nil => cases ran; exact ⟨le_rfl, .inl rfl⟩
  | cons a rest ih =>
    obtain ⟨c₁, stepped, ran⟩ := run_cons.mp ran
    obtain ⟨up₁, moved₁⟩ := reach.agreed.commitStep (.reachable reach.reachable) stepped
    obtain ⟨up₂, moved₂⟩ := ih (reach.step stepped) ran
    refine ⟨up₁.trans up₂, moved₂.elim (fun same => ?_) .inr⟩
    rcases moved₁ with same₁ | held₁
    · exact .inl (same.trans same₁)
    · exact .inr (same ▸ held₁.run (reach.step stepped) ran)

/-- The catch-up run commits index 1, which the leader and peer 1 hold. -/
theorem leader_commit_held_caught_up :
    ReachableWhole twoNode ∧ run twoNode catchUpActions = some caughtUp ∧
      caughtUp.leader.quickCommitIndex = 1 ∧
      twoNode.leader.quickCommitIndex ≤ caughtUp.leader.quickCommitIndex ∧
      (caughtUp.leader.quickCommitIndex = twoNode.leader.quickCommitIndex ∨
        QuorumHeld caughtUp caughtUp.leader.quickCommitIndex) :=
  have ran : run twoNode catchUpActions = some caughtUp := Option.eq_some_of_isSome _
  ⟨twoNode_reachableWhole, ran, by decide, leader_commit_held twoNode_reachableWhole ran⟩

example : QuorumHeld caughtUp 1 := by decide

end NuRaft.Protocol

import NuRaft.Protocol.Cluster
import NuRaft.Guarantees.Redelivery
import NuRaft.Guarantees.Builder

/-!
# What the leader's entry points change and send

The dispatcher (`request_append_entries`, `create_append_entries_req`) changes
on the leader only its peers' replication state, never a `matched_idx` and a
`next_log_idx` only by the lazy initialisation to `next_slot`, besides
`quick_commit_index_` and `exited` (`DispatchFrame`). Every request it sends
reads the leader's log: `last_log_idx` inside it, `last_log_term` its term
there, the entries those right after it (`BuiltFrom`). The response reducer
sets the responding peer's indices from the response and then dispatches.
-/
namespace NuRaft.Protocol
open NuRaft.Source NuRaft.Spec NuRaft.Guarantees

/-- `p` is peer `pid`'s state on the leader `s` with none of `matched_idx`,
`is_learner` changed, and `next_log_idx` kept or initialised from 0 to
`next_slot`. -/
def PeerUpdate (s : RaftServer) (pid : Nat) (p : Peer) : Prop :=
  p.matchedIdx = (s.peers pid).matchedIdx ∧ p.isLearner = (s.peers pid).isLearner ∧
    (p.nextLogIdx = (s.peers pid).nextLogIdx ∨
      (s.peers pid).nextLogIdx = 0 ∧ p.nextLogIdx = s.logStore.nextSlot)

theorem PeerUpdate.refl (s : RaftServer) (pid : Nat) : PeerUpdate s pid (s.peers pid) :=
  ⟨rfl, rfl, .inl rfl⟩

/-- A further change of fields other than those three keeps a `PeerUpdate`. -/
theorem PeerUpdate.keep {s : RaftServer} {pid : Nat} {p p' : Peer} (h : PeerUpdate s pid p)
    (matched : p'.matchedIdx = p.matchedIdx) (learner : p'.isLearner = p.isLearner)
    (next : p'.nextLogIdx = p.nextLogIdx) : PeerUpdate s pid p' := by
  rw [PeerUpdate, matched, learner, next]; exact h

/-- What the dispatcher may change on the leader `s`: its peers' replication
state as `PeerUpdate` allows, `quick_commit_index_` and `exited`. -/
def DispatchFrame (s s' : RaftServer) : Prop :=
  ∃ peers quick exited,
    s' = { s with peers := peers, quickCommitIndex := quick, exited := exited } ∧
    ∀ pid, PeerUpdate s pid (peers pid)

namespace DispatchFrame

theorem refl (s : RaftServer) : DispatchFrame s s :=
  ⟨s.peers, s.quickCommitIndex, s.exited, rfl, PeerUpdate.refl s⟩

theorem trans {s t u : RaftServer} (h : DispatchFrame s t) (h' : DispatchFrame t u) :
    DispatchFrame s u := by
  obtain ⟨peers, quick, exited, rfl, hp⟩ := h
  obtain ⟨peers', quick', exited', rfl, hp'⟩ := h'
  refine ⟨peers', quick', exited', rfl, fun pid => ?_⟩
  obtain ⟨m, l, n⟩ := hp pid
  obtain ⟨m', l', n'⟩ := hp' pid
  refine ⟨m'.trans m, l'.trans l, ?_⟩
  simp only [LogStore.nextSlot] at n n' ⊢
  omega

theorem setPeer {s : RaftServer} {pid : Nat} {p : Peer} (h : PeerUpdate s pid p) :
    DispatchFrame s (s.setPeer pid p) := by
  refine ⟨_, s.quickCommitIndex, s.exited, rfl, fun q => ?_⟩
  by_cases hq : q = pid
  · subst hq; simpa [RaftServer.setPeer] using h
  · simpa [RaftServer.setPeer, hq] using PeerUpdate.refl s q

theorem commit (s : RaftServer) (targetIdx : Nat) :
    DispatchFrame s (Source.commit s targetIdx) := by
  obtain ⟨q, hq⟩ := commit_eq s targetIdx
  exact ⟨s.peers, q, s.exited, hq, PeerUpdate.refl s⟩

theorem exit (s : RaftServer) : DispatchFrame s { s with exited := true } :=
  ⟨s.peers, s.quickCommitIndex, true, rfl, PeerUpdate.refl s⟩

variable {s s' : RaftServer} (h : DispatchFrame s s')
include h

theorem logStore : s'.logStore = s.logStore := by obtain ⟨_, _, _, rfl, _⟩ := h; rfl
theorem term : s'.term = s.term := by obtain ⟨_, _, _, rfl, _⟩ := h; rfl
theorem id : s'.id = s.id := by obtain ⟨_, _, _, rfl, _⟩ := h; rfl
theorem role : s'.role = s.role := by obtain ⟨_, _, _, rfl, _⟩ := h; rfl
theorem peerIds : s'.peerIds = s.peerIds := by obtain ⟨_, _, _, rfl, _⟩ := h; rfl
theorem lastSnapshot : s'.lastSnapshot = s.lastSnapshot := by obtain ⟨_, _, _, rfl, _⟩ := h; rfl
theorem snapshotFallback : Source.snapshotFallback s' = Source.snapshotFallback s := by
  obtain ⟨_, _, _, rfl, _⟩ := h; rfl
theorem quorumForCommit : s'.quorumForCommit = s.quorumForCommit := by
  obtain ⟨_, _, _, rfl, _⟩ := h; rfl
theorem params : s'.params = s.params := by obtain ⟨_, _, _, rfl, _⟩ := h; rfl

theorem matchedIdx (pid : Nat) : (s'.peers pid).matchedIdx = (s.peers pid).matchedIdx := by
  obtain ⟨_, _, _, rfl, hp⟩ := h; exact (hp pid).1

theorem isLearner (pid : Nat) : (s'.peers pid).isLearner = (s.peers pid).isLearner := by
  obtain ⟨_, _, _, rfl, hp⟩ := h; exact (hp pid).2.1

theorem nextLogIdx (pid : Nat) : (s'.peers pid).nextLogIdx = (s.peers pid).nextLogIdx ∨
    (s.peers pid).nextLogIdx = 0 ∧ (s'.peers pid).nextLogIdx = s.logStore.nextSlot := by
  obtain ⟨_, _, _, rfl, hp⟩ := h; exact (hp pid).2.2

/-- Past its lazy initialisation a peer's `next_log_idx` stays. -/
theorem nextLogIdx_of_pos {pid : Nat} (positive : 1 ≤ (s.peers pid).nextLogIdx) :
    (s'.peers pid).nextLogIdx = (s.peers pid).nextLogIdx :=
  (h.nextLogIdx pid).resolve_right fun ⟨zero, _⟩ => by omega

theorem peerUpdate (pid : Nat) : PeerUpdate s pid (s'.peers pid) := by
  obtain ⟨_, _, _, rfl, hp⟩ := h; exact hp pid

theorem leaderStore (wf : LeaderStore s) : LeaderStore s' := by
  obtain ⟨_, _, _, rfl, _⟩ := h; exact ⟨wf.1, wf.2⟩

end DispatchFrame

/-- A failed send frees the peer and changes nothing a dispatch must keep. -/
theorem freePeer_dispatchFrame (s : RaftServer) (pid : Nat) : DispatchFrame s (freePeer s pid) :=
  .setPeer ((PeerUpdate.refl _ _).keep rfl rfl rfl)

/-- A message the leader `s` may send to one of `dsts`: a request at its term
read off its log, or a snapshot request; never a response. -/
def FromLeader (s : RaftServer) (dsts : List Nat) : Msg → Prop
  | .appendEntriesRequest req =>
    req.dst ∈ dsts ∧ req.term = s.term ∧ BuiltFrom s.logStore.entries req
  | .appendEntriesResponse _ => False
  | .installSnapshotRequest dst _ _ _ => dst ∈ dsts

theorem FromLeader.mono {s : RaftServer} {dsts dsts' : List Nat} (sub : dsts ⊆ dsts') :
    ∀ {m : Msg}, FromLeader s dsts m → FromLeader s dsts' m
  | .appendEntriesRequest _, ⟨dst, rest⟩ => ⟨sub dst, rest⟩
  | .installSnapshotRequest _ _ _ _, dst => sub dst

/-- `FromLeader` reads the leader's term and log only. -/
theorem fromLeader_congr {s s' : RaftServer} (term : s'.term = s.term)
    (store : s'.logStore = s.logStore) : FromLeader s' = FromLeader s := by
  funext dsts m
  cases m <;> simp only [FromLeader, term, store]

theorem DispatchFrame.fromLeader {s s' : RaftServer} (h : DispatchFrame s s') :
    FromLeader s' = FromLeader s :=
  fromLeader_congr h.term h.logStore

/-- `term_for_log` on a well-formed leader store reads the log's term wherever
the builder does not fall back to a snapshot. -/
theorem termForLog_of_leaderStore {s : RaftServer} (wf : LeaderStore s) {logIdx : Nat}
    (kept : snapshotFallback s logIdx = false) :
    termForLog s logIdx = termOf s.logStore.entries logIdx := by
  unfold termForLog
  split_ifs with zero start
  · rw [zero, termOf_zero]
  · exact LogStore.termAt_of_le start
  · unfold snapshotFallback at kept
    rcases hs : s.lastSnapshot with _ | snp
    · rcases wf.start with one | ⟨snp, none, -⟩
      · omega
      · rw [hs] at none; cases none
    · simp only [hs, Bool.and_eq_false_iff, decide_eq_false_iff_not, Nat.not_lt] at kept ⊢
      rcases wf.start with one | ⟨snp', some, below⟩
      · omega
      · rw [hs, Option.some.injEq] at some
        subst some
        have idx : snp.lastLogIdx = logIdx := by omega
        rw [if_pos idx, ← idx, (wf.snapshot snp hs).2]

/-- The peer `create_append_entries_req` works on: `next_log_idx` initialised
lazily. -/
theorem lazyInit_peerUpdate (s : RaftServer) (pid : Nat) :
    PeerUpdate s pid (lazyInit (s.peers pid) s.logStore.nextSlot) := by
  unfold lazyInit
  split
  · next zero => exact ⟨rfl, rfl, .inr ⟨zero, rfl⟩⟩
  · exact PeerUpdate.refl s pid

/-- The entries `log_entries(lo, hi)` returns are those right after `lo - 1`. -/
theorem logEntries_prefix (store : LogStore) (lo hi : Nat) :
    store.logEntries lo hi <+: store.entries.drop (lo - 1) :=
  List.take_prefix _ _

/-- `create_append_entries_req` on any leader is a `DispatchFrame`. -/
theorem createAppendEntriesReq_frame (s : RaftServer) (pid : Nat) (ready : Bool) :
    DispatchFrame s (createAppendEntriesReq s pid ready).1 := by
  have init := lazyInit_peerUpdate s pid
  unfold createAppendEntriesReq
  dsimp only
  split_ifs
  · exact (DispatchFrame.setPeer init).trans (DispatchFrame.exit _)
  · exact DispatchFrame.setPeer init
  all_goals
    obtain ⟨cnt, hcnt⟩ := batchEnd_fst (lazyInit (s.peers pid) s.logStore.nextSlot)
      s.logStore.nextSlot (ulongPred (lazyInit (s.peers pid) s.logStore.nextSlot).nextLogIdx)
      s.params.maxAppendSize
    exact DispatchFrame.setPeer (init.keep (by rw [hcnt]) (by rw [hcnt]) (by rw [hcnt]))

/-- `create_append_entries_req` on a well-formed leader store: a `DispatchFrame`,
and a message to `pid` from the leader. -/
theorem createAppendEntriesReq_spec (s : RaftServer) (pid : Nat) (ready : Bool)
    (wf : LeaderStore s) :
    DispatchFrame s (createAppendEntriesReq s pid ready).1 ∧
      ∀ m, (createAppendEntriesReq s pid ready).2 = .message m → FromLeader s [pid] m := by
  refine ⟨createAppendEntriesReq_frame s pid ready, fun m h => ?_⟩
  unfold createAppendEntriesReq at h
  dsimp only at h
  split_ifs at h with fatal fallback
  · cases ready <;> cases h
    exact List.mem_singleton_self pid
  all_goals
    cases h
    refine ⟨List.mem_singleton_self pid, rfl,
      ⟨?_, termForLog_of_leaderStore wf (by simpa using fallback), ?_⟩⟩
    · have slot : s.logStore.nextSlot = s.logStore.entries.length + 1 := rfl
      show ulongPred _ ≤ _
      omega
  · exact List.nil_prefix
  · simpa using logEntries_prefix s.logStore _ _

/-- `request_append_entries(p)` on any leader is a `DispatchFrame`. -/
theorem requestAppendEntriesTo_frame (s : RaftServer) (pid : Nat) (env : DispatchEnv) :
    DispatchFrame s (requestAppendEntriesTo s pid env).1 := by
  have checked : PeerUpdate s pid (checkReconnect (s.peers pid) s.params.heartBeatInterval) :=
    (PeerUpdate.refl s pid).keep (by simp) (by simp) (by simp)
  unfold requestAppendEntriesTo
  dsimp only
  split_ifs
  · exact .refl s
  · exact .setPeer (checked.keep (by simp) (by simp) (by simp))
  · have made := DispatchFrame.setPeer (checked.keep rfl rfl rfl : PeerUpdate s pid
      { checkReconnect (s.peers pid) s.params.heartBeatInterval with busy := true })
    have frame := made.trans (createAppendEntriesReq_frame _ pid env.snapshotReady)
    split
    next heq => rwa [heq] at frame
    next heq =>
      rw [heq] at frame
      exact frame.trans (.setPeer ((PeerUpdate.refl _ _).keep rfl rfl rfl))
    next heq =>
      rw [heq] at frame
      exact frame.trans (.setPeer ((PeerUpdate.refl _ _).keep (by simp) (by simp) (by simp)))

/-- `request_append_entries(p)` on a well-formed leader store: a
`DispatchFrame`, and messages to `pid` from the leader. -/
theorem requestAppendEntriesTo_spec (s : RaftServer) (pid : Nat) (env : DispatchEnv)
    (wf : LeaderStore s) :
    DispatchFrame s (requestAppendEntriesTo s pid env).1 ∧
      ∀ m ∈ (requestAppendEntriesTo s pid env).2, FromLeader s [pid] m := by
  refine ⟨requestAppendEntriesTo_frame s pid env, ?_⟩
  have checked : PeerUpdate s pid (checkReconnect (s.peers pid) s.params.heartBeatInterval) :=
    (PeerUpdate.refl s pid).keep (by simp) (by simp) (by simp)
  unfold requestAppendEntriesTo
  dsimp only
  split_ifs
  · simp
  · simp
  · have made := DispatchFrame.setPeer (checked.keep rfl rfl rfl : PeerUpdate s pid
      { checkReconnect (s.peers pid) s.params.heartBeatInterval with busy := true })
    obtain ⟨-, sent⟩ := createAppendEntriesReq_spec _ pid env.snapshotReady (made.leaderStore wf)
    rw [made.fromLeader] at sent
    split
    · simp
    · simp
    · next heq =>
      intro m' mem
      rw [List.mem_singleton.mp mem]
      exact sent _ (by rw [heq])

/-- The loop of `request_append_entries()` over `pids`. -/
theorem requestAppendEntriesEach_spec (env : Nat → DispatchEnv) :
    ∀ (s : RaftServer) (pids : List Nat), LeaderStore s →
      DispatchFrame s (requestAppendEntriesEach env s pids).1 ∧
        ∀ m ∈ (requestAppendEntriesEach env s pids).2, FromLeader s pids m
  | s, [], _ => ⟨.refl s, by simp [requestAppendEntriesEach]⟩
  | s, pid :: rest, wf => by
    obtain ⟨frame, sent⟩ := requestAppendEntriesTo_spec s pid (env pid) wf
    obtain ⟨frame', sent'⟩ := requestAppendEntriesEach_spec env _ rest (frame.leaderStore wf)
    rw [frame.fromLeader] at sent'
    refine ⟨frame.trans frame', fun m mem => ?_⟩
    simp only [requestAppendEntriesEach, List.mem_append] at mem
    rcases mem with mem | mem
    · exact (sent m mem).mono fun _ h => by
        rw [List.mem_singleton.mp h]; exact List.mem_cons_self _ _
    · exact (sent' m mem).mono (List.subset_cons_self _ _)

/-- `request_append_entries()`: a `DispatchFrame`, and messages to peers from
the leader. -/
theorem requestAppendEntries_spec (s : RaftServer) (env : Nat → DispatchEnv)
    (wf : LeaderStore s) :
    DispatchFrame s (requestAppendEntries s env).1 ∧
      ∀ m ∈ (requestAppendEntries s env).2, FromLeader s s.peerIds m := by
  unfold requestAppendEntries
  split
  · exact ⟨.commit s _, by simp⟩
  · exact requestAppendEntriesEach_spec env s s.peerIds wf

theorem reduceResp_frame (s : RaftServer) (resp : RespMsg) :
    DispatchFrame (if resp.accepted then acceptResp s resp else rejectResp s resp)
      (reduceResp s resp).1 := by
  unfold reduceResp
  split
  · exact (DispatchFrame.commit _ _).trans (.setPeer ((PeerUpdate.refl _ _).keep rfl rfl rfl))
  · exact .refl _

/-- `handle_append_entries_resp` for a peer of any leader: the peer's indices set
from the response, then a `DispatchFrame`. -/
theorem handleAppendEntriesResp_dispatchFrame (s : RaftServer) (resp : RespMsg) (env : DispatchEnv)
    (member : resp.src ∈ s.peerIds) :
    DispatchFrame (if resp.accepted then acceptResp s resp else rejectResp s resp)
      (handleAppendEntriesResp s resp env).1 := by
  have reduced := reduceResp_frame s resp
  unfold handleAppendEntriesResp
  rw [if_neg (not_not.mpr member)]
  dsimp only
  by_cases catchUp : (reduceResp s resp).1.role = .leader ∧ (reduceResp s resp).2 = true
  · rw [if_pos catchUp]
    exact reduced.trans (requestAppendEntriesTo_frame _ resp.src env)
  · rwa [if_neg catchUp]

/-- Lines 519-529, then the commit and the catch-up: an acceptance naming a
positive index leaves the peer's `next_log_idx` at that index and its
`matched_idx` one below. -/
theorem handleAppendEntriesResp_accepted {s : RaftServer} {resp : RespMsg} (env : DispatchEnv)
    (member : resp.src ∈ s.peerIds) (accepted : resp.accepted = true) (pos : 0 < resp.nextIdx) :
    ((handleAppendEntriesResp s resp env).1.peers resp.src).nextLogIdx = resp.nextIdx ∧
      ((handleAppendEntriesResp s resp env).1.peers resp.src).matchedIdx = resp.nextIdx - 1 ∧
      DispatchFrame (acceptResp s resp) (handleAppendEntriesResp s resp env).1 := by
  have frame := handleAppendEntriesResp_dispatchFrame s resp env member
  rw [if_pos accepted] at frame
  refine ⟨?_, by rw [frame.matchedIdx, acceptResp_matchedIdx, if_pos rfl, ulongPred_of_pos pos],
    frame⟩
  rcases frame.nextLogIdx resp.src with same | ⟨zero, -⟩
  · rw [same, acceptResp_nextLogIdx, if_pos rfl]
  · rw [acceptResp_nextLogIdx, if_pos rfl] at zero; omega

/-- Lines 572-581, then the catch-up: a rejection from a peer whose
`next_log_idx` is at least 2 leaves it at the hint when that is positive and
lower, and one back otherwise. -/
theorem handleAppendEntriesResp_rejected {s : RaftServer} {resp : RespMsg} (env : DispatchEnv)
    (member : resp.src ∈ s.peerIds) (rejected : resp.accepted = false)
    (deep : 2 ≤ (s.peers resp.src).nextLogIdx) :
    ((handleAppendEntriesResp s resp env).1.peers resp.src).nextLogIdx =
        (if 0 < resp.nextIdx ∧ resp.nextIdx < (s.peers resp.src).nextLogIdx then resp.nextIdx
          else (s.peers resp.src).nextLogIdx - 1) ∧
      DispatchFrame (rejectResp s resp) (handleAppendEntriesResp s resp env).1 := by
  have frame := handleAppendEntriesResp_dispatchFrame s resp env member
  rw [if_neg (by simp [rejected])] at frame
  have back : ((rejectResp s resp).peers resp.src).nextLogIdx =
      if 0 < resp.nextIdx ∧ resp.nextIdx < (s.peers resp.src).nextLogIdx then resp.nextIdx
      else (s.peers resp.src).nextLogIdx - 1 := by
    rw [rejectResp_nextLogIdx, if_pos rfl, ulongPred_of_pos (by omega)]
  rcases frame.nextLogIdx resp.src with same | ⟨zero, -⟩
  · exact ⟨same.trans back, frame⟩
  · rw [back] at zero; split at zero <;> omega

/-- `handle_append_entries_resp` for a peer: the peer's indices set from the
response, then a `DispatchFrame`, and messages to the peer from the leader. -/
theorem handleAppendEntriesResp_spec (s : RaftServer) (resp : RespMsg) (env : DispatchEnv)
    (wf : LeaderStore s) (member : resp.src ∈ s.peerIds) :
    DispatchFrame (if resp.accepted then acceptResp s resp else rejectResp s resp)
        (handleAppendEntriesResp s resp env).1 ∧
      ∀ m ∈ (handleAppendEntriesResp s resp env).2, FromLeader s [resp.src] m := by
  refine ⟨handleAppendEntriesResp_dispatchFrame s resp env member, ?_⟩
  have reduced := reduceResp_frame s resp
  have wf' : LeaderStore (if resp.accepted then acceptResp s resp else rejectResp s resp) := by
    split <;> exact ⟨wf.1, wf.2⟩
  have same : FromLeader (if resp.accepted then acceptResp s resp else rejectResp s resp) =
      FromLeader s := by
    split <;> exact fromLeader_congr rfl rfl
  unfold handleAppendEntriesResp
  rw [if_neg (not_not.mpr member)]
  dsimp only
  by_cases catchUp : (reduceResp s resp).1.role = .leader ∧ (reduceResp s resp).2 = true
  · rw [if_pos catchUp]
    obtain ⟨-, sent⟩ := requestAppendEntriesTo_spec _ resp.src env (reduced.leaderStore wf')
    rwa [reduced.fromLeader, same] at sent
  · simp [if_neg catchUp]

end NuRaft.Protocol

import Mathlib.Data.List.Sort
import NuRaft.Source.RequestAppendEntries

/-!
# Response reducer: `raft_server::handle_append_entries_resp`

handle_append_entries.cxx:505-599. On acceptance the peer's indices are set from
`resp.next_idx` and the quorum commit index is the `get_quorum_for_commit()`-th
entry of the voters' match indices sorted in descending order (an insertion
sort here; any sort of the same list gives the same sorted list). On rejection
`next_log_idx` jumps to the hint or steps back by one, as a `ulong`. An index
past the end of the sorted vector is undefined behaviour in the source and reads
0 here, which `commit` ignores.
-/
namespace NuRaft.Source

/-- Lines 537-548: the leader's last index, then each voting peer's match index. -/
def matchedIndexes (s : RaftServer) : List Nat :=
  (s.logStore.nextSlot - 1) ::
    ((s.peerIds.filter fun pid => !(s.peers pid).isLearner).map fun pid => (s.peers pid).matchedIdx)

/-- Lines 555-568: the index passed to `commit`. -/
def quorumCommitIdx (s : RaftServer) : Nat :=
  ((matchedIndexes s).insertionSort (· ≥ ·)).getD s.quorumForCommit 0

/-- Lines 519-529: the accepted response sets both indices of the peer. -/
def acceptResp (s : RaftServer) (resp : RespMsg) : RaftServer :=
  s.setPeer resp.src
    { s.peers resp.src with nextLogIdx := resp.nextIdx, matchedIdx := ulongPred resp.nextIdx }

@[simp] theorem acceptResp_matchedIdx (s : RaftServer) (resp : RespMsg) (q : Nat) :
    ((acceptResp s resp).peers q).matchedIdx =
      if q = resp.src then ulongPred resp.nextIdx else (s.peers q).matchedIdx := by
  by_cases h : q = resp.src <;> simp [acceptResp, RaftServer.setPeer, h]

@[simp] theorem acceptResp_nextLogIdx (s : RaftServer) (resp : RespMsg) (q : Nat) :
    ((acceptResp s resp).peers q).nextLogIdx =
      if q = resp.src then resp.nextIdx else (s.peers q).nextLogIdx := by
  by_cases h : q = resp.src <;> simp [acceptResp, RaftServer.setPeer, h]

/-- Lines 573-581: fast jump to the hint, or one step back. -/
def rejectResp (s : RaftServer) (resp : RespMsg) : RaftServer :=
  let p := s.peers resp.src
  s.setPeer resp.src
    { p with nextLogIdx :=
        if 0 < resp.nextIdx ∧ resp.nextIdx < p.nextLogIdx then resp.nextIdx
        else ulongPred p.nextLogIdx }

@[simp] theorem rejectResp_matchedIdx (s : RaftServer) (resp : RespMsg) (q : Nat) :
    ((rejectResp s resp).peers q).matchedIdx = (s.peers q).matchedIdx := by
  by_cases h : q = resp.src <;> simp [rejectResp, RaftServer.setPeer, h]

@[simp] theorem rejectResp_nextLogIdx (s : RaftServer) (resp : RespMsg) (q : Nat) :
    ((rejectResp s resp).peers q).nextLogIdx =
      if q = resp.src then
        (if 0 < resp.nextIdx ∧ resp.nextIdx < (s.peers resp.src).nextLogIdx then resp.nextIdx
          else ulongPred (s.peers resp.src).nextLogIdx)
      else (s.peers q).nextLogIdx := by
  by_cases h : q = resp.src <;> simp [rejectResp, RaftServer.setPeer, h]

/-- Lines 518-588: the peer's indices set from the response, the commit on
acceptance, and `need_to_catchup`. -/
def reduceResp (s : RaftServer) (resp : RespMsg) : RaftServer × Bool :=
  if resp.accepted then
    let s := commit (acceptResp s resp) (quorumCommitIdx (acceptResp s resp))
    let pending := (s.peers resp.src).pendingCommit
    (s.setPeer resp.src { s.peers resp.src with pendingCommit := false },
      pending || decide (resp.nextIdx < s.logStore.nextSlot))
  else (rejectResp s resp, true)

/-- `raft_server::handle_append_entries_resp`: the messages its catch-up sends. -/
def handleAppendEntriesResp (s : RaftServer) (resp : RespMsg) (env : DispatchEnv) :
    RaftServer × List Msg :=
  if resp.src ∉ s.peerIds then (s, [])
  else
    let reduced := reduceResp s resp
    if reduced.1.role = .leader ∧ reduced.2 = true then
      requestAppendEntriesTo reduced.1 resp.src env
    else (reduced.1, [])

/-- The reducer moves `quick_commit_index_` only by the commit of an acceptance,
and then up to the quorum commit index. -/
theorem handleAppendEntriesResp_quickCommitIndex (s : RaftServer) (resp : RespMsg)
    (env : DispatchEnv) :
    (handleAppendEntriesResp s resp env).1.quickCommitIndex = s.quickCommitIndex ∨
      resp.accepted = true ∧ s.quickCommitIndex < quorumCommitIdx (acceptResp s resp) ∧
        (handleAppendEntriesResp s resp env).1.quickCommitIndex =
          quorumCommitIdx (acceptResp s resp) := by
  have reduced : (reduceResp s resp).1.quickCommitIndex = s.quickCommitIndex ∨
      resp.accepted = true ∧ s.quickCommitIndex < quorumCommitIdx (acceptResp s resp) ∧
        (reduceResp s resp).1.quickCommitIndex = quorumCommitIdx (acceptResp s resp) := by
    unfold reduceResp
    split
    · next accepted =>
      simpa [accepted] using commit_quickCommitIndex_cases (acceptResp s resp)
        (quorumCommitIdx (acceptResp s resp))
    · exact .inl (by simp [rejectResp])
  unfold handleAppendEntriesResp
  split
  · exact .inl rfl
  · dsimp only
    split <;> simpa using reduced

end NuRaft.Source

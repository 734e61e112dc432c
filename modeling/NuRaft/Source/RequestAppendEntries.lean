import NuRaft.Source.Server

/-!
# Leader dispatcher and request builder

handle_append_entries.cxx:38-264: `request_append_entries()` over every peer,
`request_append_entries(p)` with its busy-flag gate and stuck-peer escape, and
`create_append_entries_req` with its fatal check, snapshot fallback and batch
narrowing. What the environment decides is an input: the `RequestAppendEntries`
hook's result and whether `create_sync_snapshot_req` (outside the source) has a
message. `::exit` after `system_exit` sets `exited`; nothing runs on that
server afterwards. `reconnect_client` only touches the transport.
-/
namespace NuRaft.Source

/-- What the environment answers during one `request_append_entries(p)`. -/
structure DispatchEnv where
  callback : CbReturnCode
  snapshotReady : Bool
  deriving DecidableEq, Repr

/-- Result of `create_append_entries_req`: exit, a null message, or a message. -/
inductive BuildOutcome where
  | systemExit
  | noMessage
  | message (m : Msg)

/-- Modelled from the spec: `create_sync_snapshot_req` is opaque; it has a
message or returns null. -/
def createSyncSnapshotReq (pid lastLogIdx term commitIdx : Nat) (ready : Bool) : BuildOutcome :=
  if ready then .message (.installSnapshotRequest pid lastLogIdx term commitIdx) else .noMessage

/-- Lines 201-203: the peer is behind the leader's log start and its snapshot. -/
def snapshotFallback (s : RaftServer) (lastLogIdx : Nat) : Bool :=
  match s.lastSnapshot with
  | some snp => lastLogIdx < s.logStore.startIndex && lastLogIdx < snp.lastLogIdx
  | none => false

theorem snapshotFallback_eq_true {s : RaftServer} {lastLogIdx : Nat} :
    snapshotFallback s lastLogIdx = true ↔ ∃ snp, s.lastSnapshot = some snp ∧
      lastLogIdx < s.logStore.startIndex ∧ lastLogIdx < snp.lastLogIdx := by
  unfold snapshotFallback
  split <;> simp_all

/-- The fallback test reads the leader's store start and snapshot only. -/
theorem snapshotFallback_congr {s s' : RaftServer} (store : s'.logStore = s.logStore)
    (snapshot : s'.lastSnapshot = s.lastSnapshot) : snapshotFallback s' = snapshotFallback s := by
  funext lastLogIdx
  simp only [snapshotFallback, store, snapshot]

/-- Lines 213-233: end of the batch, narrowed to one entry on the fifth retry;
the raised count is read into the `int32` local `cur_cnt`. -/
def batchEnd (p : Peer) (curNxtIdx lastLogIdx maxAppendSize : Nat) : Peer × Nat :=
  let endIdx := min curNxtIdx (lastLogIdx + 1 + maxAppendSize)
  if lastLogIdx + 1 = p.lastSentIdx ∧ lastLogIdx + 2 < endIdx then
    let p := { p with cntNotApplied := p.cntNotApplied + 1 }
    (p, if 5 ≤ int32Of p.cntNotApplied then min curNxtIdx (lastLogIdx + 1 + 1) else endIdx)
  else ({ p with cntNotApplied := 0 }, endIdx)

/-- Lines 167-170: `next_log_idx` is initialised lazily to `next_slot`. -/
def lazyInit (p : Peer) (curNxtIdx : Nat) : Peer :=
  if p.nextLogIdx = 0 then { p with nextLogIdx := curNxtIdx } else p

/-- `raft_server::create_append_entries_req` for peer `pid`. -/
def createAppendEntriesReq (s : RaftServer) (pid : Nat) (snapshotReady : Bool) :
    RaftServer × BuildOutcome :=
  let curNxtIdx := s.logStore.nextSlot
  let p := lazyInit (s.peers pid) curNxtIdx
  let lastLogIdx := ulongPred p.nextLogIdx
  if curNxtIdx ≤ lastLogIdx then ({ s.setPeer pid p with exited := true }, .systemExit)
  else if snapshotFallback s lastLogIdx then
    (s.setPeer pid p,
      createSyncSnapshotReq pid lastLogIdx s.term s.quickCommitIndex snapshotReady)
  else
    let batch := batchEnd p curNxtIdx lastLogIdx s.params.maxAppendSize
    let entries :=
      if curNxtIdx ≤ lastLogIdx + 1 then [] else s.logStore.logEntries (lastLogIdx + 1) batch.2
    (s.setPeer pid { batch.1 with lastSentIdx := lastLogIdx + 1 },
      .message (.appendEntriesRequest
        { term := s.term, src := s.id, dst := pid, lastLogTerm := termForLog s lastLogIdx,
          lastLogIdx := lastLogIdx, commitIdx := s.quickCommitIndex, logEntries := entries }))

/-- Lines 91-115: recovery bookkeeping once a message is built. -/
def noteRecovery (p : Peer) : Peer :=
  if p.manualFree then { p with manualFree := false }
  else
    let p := if warningsLimit ≤ p.longPauseWarnings then
        let p := { p with recoveryCnt := p.recoveryCnt + 1 }
        if 10 ≤ p.recoveryCnt then { p with recoveryCnt := 0 } else p
      else p
    { p with longPauseWarnings := 0 }

/-- Lines 123-148: the peer is busy; warn, and free it once it is stuck too
long. The timer is read in milliseconds into the `int32` local `last_ts_ms`. -/
def skipBusy (p : Peer) (heartBeatInterval : Nat) : Peer :=
  let lastTsMs := int32Of (p.lsTimerUs / 1000)
  if (heartBeatInterval : Int) < lastTsMs then
    let p := { p with longPauseWarnings := p.longPauseWarnings + 1 }
    if ((heartBeatInterval * busyFlagLimit : Nat) : Int) < lastTsMs then
      { p with busy := false, manualFree := true, lsTimerUs := 0 }
    else p
  else p

/-- Lines 66-80: after a long silence the active timer restarts; reconnecting
itself only touches the transport. The timer is read in milliseconds into the
`int32` local `last_active_time_ms`. -/
def checkReconnect (p : Peer) (heartBeatInterval : Nat) : Peer :=
  if ((heartBeatInterval * reconnectLimit : Nat) : Int) < int32Of (p.activeTimerUs / 1000) then
    { p with activeTimerUs := 0, needReconnect := false }
  else { p with needReconnect := false }

/-- `raft_server::request_append_entries(ptr<peer>)`: the messages sent. -/
def requestAppendEntriesTo (s : RaftServer) (pid : Nat) (env : DispatchEnv) :
    RaftServer × List Msg :=
  if env.callback = .returnNull then (s, [])
  else
    let hb := s.params.heartBeatInterval
    let p := checkReconnect (s.peers pid) hb
    if p.busy then (s.setPeer pid (skipBusy p hb), [])
    else
      match createAppendEntriesReq (s.setPeer pid { p with busy := true }) pid
          env.snapshotReady with
      | (s', .systemExit) => (s', [])
      | (s', .noMessage) => (s'.setPeer pid { s'.peers pid with busy := false }, [])
      | (s', .message m) =>
        (s'.setPeer pid { noteRecovery (s'.peers pid) with lsTimerUs := 0 }, [m])

@[simp] theorem createAppendEntriesReq_quickCommitIndex (s : RaftServer) (pid : Nat)
    (ready : Bool) :
    (createAppendEntriesReq s pid ready).1.quickCommitIndex = s.quickCommitIndex := by
  unfold createAppendEntriesReq; dsimp only; split_ifs <;> rfl

@[simp] theorem requestAppendEntriesTo_quickCommitIndex (s : RaftServer) (pid : Nat)
    (env : DispatchEnv) :
    (requestAppendEntriesTo s pid env).1.quickCommitIndex = s.quickCommitIndex := by
  have built := createAppendEntriesReq_quickCommitIndex
    (s.setPeer pid { checkReconnect (s.peers pid) s.params.heartBeatInterval with busy := true })
    pid env.snapshotReady
  unfold requestAppendEntriesTo
  dsimp only
  split_ifs
  · rfl
  · rfl
  · split <;> next heq => rw [heq] at built; exact built

@[simp] theorem noteRecovery_matchedIdx (p : Peer) :
    (noteRecovery p).matchedIdx = p.matchedIdx := by
  unfold noteRecovery; dsimp only; split_ifs <;> rfl

@[simp] theorem noteRecovery_isLearner (p : Peer) : (noteRecovery p).isLearner = p.isLearner := by
  unfold noteRecovery; dsimp only; split_ifs <;> rfl

@[simp] theorem noteRecovery_nextLogIdx (p : Peer) :
    (noteRecovery p).nextLogIdx = p.nextLogIdx := by
  unfold noteRecovery; dsimp only; split_ifs <;> rfl

@[simp] theorem skipBusy_matchedIdx (p : Peer) (hb : Nat) :
    (skipBusy p hb).matchedIdx = p.matchedIdx := by
  unfold skipBusy; dsimp only; split_ifs <;> rfl

@[simp] theorem skipBusy_isLearner (p : Peer) (hb : Nat) :
    (skipBusy p hb).isLearner = p.isLearner := by
  unfold skipBusy; dsimp only; split_ifs <;> rfl

@[simp] theorem skipBusy_nextLogIdx (p : Peer) (hb : Nat) :
    (skipBusy p hb).nextLogIdx = p.nextLogIdx := by
  unfold skipBusy; dsimp only; split_ifs <;> rfl

@[simp] theorem checkReconnect_matchedIdx (p : Peer) (hb : Nat) :
    (checkReconnect p hb).matchedIdx = p.matchedIdx := by
  unfold checkReconnect; split_ifs <;> rfl

@[simp] theorem checkReconnect_isLearner (p : Peer) (hb : Nat) :
    (checkReconnect p hb).isLearner = p.isLearner := by
  unfold checkReconnect; split_ifs <;> rfl

@[simp] theorem checkReconnect_nextLogIdx (p : Peer) (hb : Nat) :
    (checkReconnect p hb).nextLogIdx = p.nextLogIdx := by
  unfold checkReconnect; split_ifs <;> rfl

/-- The loop of lines 52-54, over `peers_` in key order. -/
def requestAppendEntriesEach (env : Nat → DispatchEnv) :
    RaftServer → List Nat → RaftServer × List Msg
  | s, [] => (s, [])
  | s, pid :: rest =>
    let first := requestAppendEntriesTo s pid (env pid)
    let others := requestAppendEntriesEach env first.1 rest
    (others.1, first.2 ++ others.2)

/-- `raft_server::request_append_entries()`. -/
def requestAppendEntries (s : RaftServer) (env : Nat → DispatchEnv) : RaftServer × List Msg :=
  if s.peerIds.length = 0 ∨ s.quorumForCommit = 0 then (commit s (s.logStore.nextSlot - 1), [])
  else requestAppendEntriesEach env s s.peerIds

@[simp] theorem requestAppendEntriesEach_quickCommitIndex (env : Nat → DispatchEnv) :
    ∀ (s : RaftServer) (pids : List Nat),
      (requestAppendEntriesEach env s pids).1.quickCommitIndex = s.quickCommitIndex
  | _, [] => rfl
  | s, pid :: rest => by
    simp [requestAppendEntriesEach, requestAppendEntriesEach_quickCommitIndex env _ rest]

/-- `request_append_entries()` moves `quick_commit_index_` only by the commit of
lines 46-49, with no peer or a commit quorum of 0, and then up to
`next_slot - 1`. -/
theorem requestAppendEntries_quickCommitIndex (s : RaftServer) (env : Nat → DispatchEnv) :
    (requestAppendEntries s env).1.quickCommitIndex = s.quickCommitIndex ∨
      (s.peerIds.length = 0 ∨ s.quorumForCommit = 0) ∧
        s.quickCommitIndex < s.logStore.nextSlot - 1 ∧
        (requestAppendEntries s env).1.quickCommitIndex = s.logStore.nextSlot - 1 := by
  unfold requestAppendEntries
  split
  · next shortcut => exact (commit_quickCommitIndex_cases s _).imp_right (⟨shortcut, ·⟩)
  · exact .inl (requestAppendEntriesEach_quickCommitIndex env s s.peerIds)

end NuRaft.Source

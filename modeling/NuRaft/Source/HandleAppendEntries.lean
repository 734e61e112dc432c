import NuRaft.Source.Server

/-!
# Follower acceptor: `raft_server::handle_append_entries`

handle_append_entries.cxx:266-503. The three reconciliation loops run over the
request's entries not yet stored: the skip loop (384-394) only reads the store,
the overwrite loop (398-442) hands its remaining entries to the append loop
(446-463), and both return the prepared (rejecting) response at once when
`stopping_` is set. `serving_req_`, the election timer, the callbacks (whose
results are ignored here) and `end_of_append_batch` leave no state the model
keeps.
-/
namespace NuRaft.Source

/-- How a reconciliation loop ended: ran to its end, or returned on `stopping_`. -/
inductive LoopExit where
  | completed (s : RaftServer)
  | stopped (s : RaftServer)

def LoopExit.server : LoopExit → RaftServer
  | .completed s => s
  | .stopped s => s

/-- Lines 384-394: skip the entries whose term the store already holds. -/
def skipExisting (store : LogStore) : Nat → List LogEntry → Nat × List LogEntry
  | logIdx, [] => (logIdx, [])
  | logIdx, entry :: rest =>
    if logIdx < store.nextSlot ∧ store.termAt logIdx = entry.term then
      skipExisting store (logIdx + 1) rest
    else (logIdx, entry :: rest)

/-- Lines 401-412: undo the speculative effect of the entry about to be overwritten. -/
def revertEntry (s : RaftServer) (logIdx : Nat) : RaftServer :=
  match s.logStore.entryAt logIdx with
  | some old =>
    if old.valType = .appLog then { s with smCalls := s.smCalls ++ [.rollback logIdx old.buf] }
    else if old.valType = .conf then { s with configChanging := false }
    else s
  | none => s

/-- Lines 418-427 and 450-460: pre-commit an application entry, flag a config entry. -/
def observeEntry (s : RaftServer) (logIdx : Nat) (entry : LogEntry) : RaftServer :=
  if entry.valType = .appLog then { s with smCalls := s.smCalls ++ [.preCommit logIdx entry.buf] }
  else if entry.valType = .conf then { s with configChanging := true }
  else s

/-- Lines 401-436: one overwrite, with the commit regression of 431-436. -/
def overwriteEntry (s : RaftServer) (logIdx : Nat) (entry : LogEntry) : RaftServer :=
  let reverted := revertEntry s logIdx
  let written := observeEntry
    { reverted with logStore := (storeLogEntry reverted.logStore entry logIdx).1 } logIdx entry
  if logIdx ≤ written.smCommitIndex then
    { written with smCommitIndex := logIdx - 1, quickCommitIndex := logIdx - 1 }
  else written

/-- Lines 448-460: one append at `next_slot`. -/
def appendEntry (s : RaftServer) (entry : LogEntry) : RaftServer :=
  let stored := storeLogEntry s.logStore entry 0
  observeEntry { s with logStore := stored.1 } stored.2 entry

/-- Lines 446-463: the append loop. -/
def appendLogs (s : RaftServer) : List LogEntry → LoopExit
  | [] => .completed s
  | entry :: rest =>
    let s' := appendEntry s entry
    if s'.stopping then .stopped s' else appendLogs s' rest

/-- Lines 398-442, continued by the append loop when the store ends first. -/
def overwriteLogs (s : RaftServer) : Nat → List LogEntry → LoopExit
  | _, [] => .completed s
  | logIdx, entry :: rest =>
    if logIdx < s.logStore.nextSlot then
      let s' := overwriteEntry s logIdx entry
      if s'.stopping then .stopped s' else overwriteLogs s' (logIdx + 1) rest
    else appendLogs s (entry :: rest)

/-- Lines 371-468: store the request's entries from `last_log_idx + 1` on. -/
def storeEntries (s : RaftServer) (req : ReqMsg) : LoopExit :=
  if 0 < req.logEntries.length then
    let skipped := skipExisting s.logStore (req.lastLogIdx + 1) req.logEntries
    overwriteLogs s skipped.1 skipped.2
  else .completed s

/-- Lines 325-336. -/
def logOkay (s : RaftServer) (req : ReqMsg) : Bool :=
  let logTerm := if req.lastLogIdx < s.logStore.nextSlot then termForLog s req.lastLogIdx else 0
  req.lastLogIdx == 0 || (logTerm != 0 && req.lastLogTerm == logTerm) ||
    match s.lastSnapshot with
    | some snp => snp.lastLogIdx == req.lastLogIdx && snp.lastLogTerm == req.lastLogTerm
    | none => false

/-- Lines 268-308: clear `catching_up_`; at the request's term a candidate steps
down and a leader answers nothing (`none`). -/
def enterRequest (s : RaftServer) (req : ReqMsg) : Option RaftServer :=
  let s := { s with catchingUp := false }
  if req.term = s.term then
    match s.role with
    | .candidate => some (becomeFollower s)
    | .leader => none
    | .follower => some s
  else some s

/-- Lines 470-479: record the leader, then commit up to the request's commit
index, capped by the follower's last index. -/
def finishAppend (s : RaftServer) (req : ReqMsg) : RaftServer :=
  let s := { s with leader := req.src, leaderCommitIndex := req.commitIdx }
  commit s (min req.commitIdx (s.logStore.nextSlot - 1))

/-- Lines 319-323: the response prepared before reconciling, a rejection
carrying `next_slot` as the hint. -/
def initialResp (s : RaftServer) (req : ReqMsg) : RespMsg :=
  { term := s.term, src := s.id, dst := req.src, nextIdx := s.logStore.nextSlot,
    accepted := false }

/-- Line 481: `resp->accept(last_log_idx + |entries| + 1)`. -/
def acceptedResp (s : RaftServer) (req : ReqMsg) : RespMsg :=
  { initialResp s req with
    nextIdx := req.lastLogIdx + req.logEntries.length + 1, accepted := true }

/-- `raft_server::handle_append_entries`; `none` is the null response of line 300. -/
def handleAppendEntries (s : RaftServer) (req : ReqMsg) : RaftServer × Option RespMsg :=
  match enterRequest s req with
  | none => ({ s with catchingUp := false }, none)
  | some s =>
    if req.term < s.term ∨ logOkay s req = false then (s, some (initialResp s req))
    else
      match storeEntries { s with initialized := true } req with
      | .stopped s' => (s', some (initialResp s req))
      | .completed s' => (finishAppend s' req, some (acceptedResp s req))

end NuRaft.Source

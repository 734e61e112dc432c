import NuRaft.Source.LogStore

/-!
# Server, peer and message state

The fields of `raft_server`, `peer`, `req_msg` and `resp_msg` that
`handle_append_entries.cxx` reads or writes. `peers_` is a map keyed by peer id:
`peers` gives each id's state and `peerIds` the keys in iteration order.

Collaborators outside the source are modelled from the spec: `term_for_log`,
`commit`, `store_log_entry`, `become_follower` and the peer limits. Timers are
elapsed microseconds; the state machine is the ordered list of the
`pre_commit_ext` and `rollback_ext` calls it received.
-/
namespace NuRaft.Source

inductive SrvRole where
  | follower | candidate | leader
  deriving DecidableEq, Repr

/-- A call the follower made on `state_machine_`, with its log index and buffer. -/
inductive SmCall where
  | preCommit (logIdx buf : Nat)
  | rollback (logIdx buf : Nat)
  deriving DecidableEq, Repr

/-- The log index a state machine call is about. -/
def SmCall.logIdx : SmCall → Nat
  | .preCommit logIdx _ => logIdx
  | .rollback logIdx _ => logIdx

/-- Result of an observer hook; `returnNull` vetoes the send it observes. -/
inductive CbReturnCode where
  | ok | returnNull
  deriving DecidableEq, Repr

structure RaftParams where
  heartBeatInterval : Nat
  maxAppendSize : Nat
  deriving DecidableEq, Repr

/-- Modelled from the spec: `RECONNECT_LIMIT`, `BUSY_FLAG_LIMIT` and
`WARNINGS_LIMIT` of `peer`, at their defaults. -/
def reconnectLimit : Nat := 20

/-- Modelled from the spec (see `reconnectLimit`). -/
def busyFlagLimit : Nat := 20

/-- Modelled from the spec (see `reconnectLimit`). -/
def warningsLimit : Nat := 20

structure Peer where
  isLearner : Bool
  nextLogIdx : Nat
  matchedIdx : Nat
  busy : Bool
  manualFree : Bool
  lastSentIdx : Nat
  cntNotApplied : Nat
  longPauseWarnings : Nat
  recoveryCnt : Nat
  pendingCommit : Bool
  needReconnect : Bool
  lsTimerUs : Nat
  activeTimerUs : Nat
  deriving DecidableEq, Repr

structure ReqMsg where
  term : Nat
  src : Nat
  dst : Nat
  lastLogTerm : Nat
  lastLogIdx : Nat
  commitIdx : Nat
  logEntries : List LogEntry
  deriving DecidableEq, Repr

structure RespMsg where
  term : Nat
  src : Nat
  dst : Nat
  nextIdx : Nat
  accepted : Bool
  deriving DecidableEq, Repr

/-- Messages on the wire. The install-snapshot request is opaque: only the
arguments of `create_sync_snapshot_req` are kept. -/
inductive Msg where
  | appendEntriesRequest (req : ReqMsg)
  | appendEntriesResponse (resp : RespMsg)
  | installSnapshotRequest (dst lastLogIdx term commitIdx : Nat)
  deriving DecidableEq, Repr

structure RaftServer where
  id : Nat
  role : SrvRole
  term : Nat
  logStore : LogStore
  lastSnapshot : Option Snapshot
  quickCommitIndex : Nat
  smCommitIndex : Nat
  leaderCommitIndex : Nat
  leader : Nat
  configChanging : Bool
  stopping : Bool
  catchingUp : Bool
  initialized : Bool
  peers : Nat → Peer
  peerIds : List Nat
  quorumForCommit : Nat
  params : RaftParams
  smCalls : List SmCall
  exited : Bool

namespace RaftServer

/-- Replace the state of peer `pid`. -/
def setPeer (s : RaftServer) (pid : Nat) (p : Peer) : RaftServer :=
  { s with peers := fun q => if q = pid then p else s.peers q }

@[simp] theorem setPeer_peers_self (s : RaftServer) (pid : Nat) (p : Peer) :
    (s.setPeer pid p).peers pid = p := by simp [setPeer]

theorem setPeer_peers_ne (s : RaftServer) {pid q : Nat} (p : Peer) (h : q ≠ pid) :
    (s.setPeer pid p).peers q = s.peers q := by simp [setPeer, h]

@[simp] theorem setPeer_logStore (s : RaftServer) (pid : Nat) (p : Peer) :
    (s.setPeer pid p).logStore = s.logStore := rfl

@[simp] theorem setPeer_term (s : RaftServer) (pid : Nat) (p : Peer) :
    (s.setPeer pid p).term = s.term := rfl

@[simp] theorem setPeer_role (s : RaftServer) (pid : Nat) (p : Peer) :
    (s.setPeer pid p).role = s.role := rfl

@[simp] theorem setPeer_peerIds (s : RaftServer) (pid : Nat) (p : Peer) :
    (s.setPeer pid p).peerIds = s.peerIds := rfl

@[simp] theorem setPeer_lastSnapshot (s : RaftServer) (pid : Nat) (p : Peer) :
    (s.setPeer pid p).lastSnapshot = s.lastSnapshot := rfl

@[simp] theorem setPeer_id (s : RaftServer) (pid : Nat) (p : Peer) :
    (s.setPeer pid p).id = s.id := rfl

@[simp] theorem setPeer_exited (s : RaftServer) (pid : Nat) (p : Peer) :
    (s.setPeer pid p).exited = s.exited := rfl

@[simp] theorem setPeer_quickCommitIndex (s : RaftServer) (pid : Nat) (p : Peer) :
    (s.setPeer pid p).quickCommitIndex = s.quickCommitIndex := rfl

@[simp] theorem setPeer_params (s : RaftServer) (pid : Nat) (p : Peer) :
    (s.setPeer pid p).params = s.params := rfl

@[simp] theorem setPeer_quorumForCommit (s : RaftServer) (pid : Nat) (p : Peer) :
    (s.setPeer pid p).quorumForCommit = s.quorumForCommit := rfl

/-- A second update of one peer replaces the first. -/
@[simp] theorem setPeer_setPeer (s : RaftServer) (pid : Nat) (p q : Peer) :
    (s.setPeer pid p).setPeer pid q = s.setPeer pid q := by
  simp only [setPeer, RaftServer.mk.injEq, and_true, true_and]
  funext r
  split <;> rfl

end RaftServer

/-- Modelled from the spec: `term_for_log(i)` is the term at `i`, read from the
snapshot when `i` is below `start_index` and is the snapshot's index, else 0. -/
def termForLog (s : RaftServer) (logIdx : Nat) : Nat :=
  if logIdx = 0 then 0
  else if s.logStore.startIndex ≤ logIdx then s.logStore.termAt logIdx
  else match s.lastSnapshot with
    | some snp => if snp.lastLogIdx = logIdx then snp.lastLogTerm else 0
    | none => 0

/-- Modelled from the spec: `commit(target)` raises `quick_commit_index_` to
`target`; a leader only commits an entry of its own term. -/
def commit (s : RaftServer) (targetIdx : Nat) : RaftServer :=
  if s.quickCommitIndex < targetIdx ∧ (s.role = .leader → s.logStore.termAt targetIdx = s.term)
  then { s with quickCommitIndex := targetIdx } else s

/-- Modelled from the spec: `store_log_entry(entry, index)` appends when `index`
is 0 and writes at `index` otherwise; it returns the index written. -/
def storeLogEntry (store : LogStore) (entry : LogEntry) (index : Nat) : LogStore × Nat :=
  if index = 0 then (store.append entry, store.nextSlot) else (store.writeAt index entry, index)

theorem storeLogEntry_startIndex (store : LogStore) (entry : LogEntry) (index : Nat) :
    (storeLogEntry store entry index).1.startIndex ≤ store.startIndex := by
  unfold storeLogEntry; split <;> simp [Nat.min_le_left]

/-- Modelled from the spec: `become_follower()`, as far as replication sees it. -/
def becomeFollower (s : RaftServer) : RaftServer := { s with role := .follower }

theorem commit_quickCommitIndex_ge (s : RaftServer) (targetIdx : Nat) :
    s.quickCommitIndex ≤ (commit s targetIdx).quickCommitIndex := by
  unfold commit; split <;> simp_all; omega

theorem commit_quickCommitIndex_le {s : RaftServer} {targetIdx bound : Nat}
    (h : s.quickCommitIndex ≤ bound) (ht : targetIdx ≤ bound) :
    (commit s targetIdx).quickCommitIndex ≤ bound := by
  unfold commit; split <;> simp_all

/-- `commit` keeps `quick_commit_index_`, or raises it to the target. -/
theorem commit_quickCommitIndex_cases (s : RaftServer) (targetIdx : Nat) :
    (commit s targetIdx).quickCommitIndex = s.quickCommitIndex ∨
      s.quickCommitIndex < targetIdx ∧ (commit s targetIdx).quickCommitIndex = targetIdx := by
  unfold commit; split
  · next raise => exact .inr ⟨raise.1, rfl⟩
  · exact .inl rfl

/-- `commit` only moves `quick_commit_index_`. -/
theorem commit_eq (s : RaftServer) (targetIdx : Nat) :
    ∃ q, commit s targetIdx = { s with quickCommitIndex := q } := by
  unfold commit; split
  · exact ⟨_, rfl⟩
  · exact ⟨s.quickCommitIndex, rfl⟩

/-- A second `commit` to the same index changes nothing. -/
theorem commit_commit (s : RaftServer) (targetIdx : Nat) :
    commit (commit s targetIdx) targetIdx = commit s targetIdx := by
  unfold commit
  by_cases h : s.quickCommitIndex < targetIdx ∧
    (s.role = .leader → s.logStore.termAt targetIdx = s.term)
  · rw [if_pos h, if_neg fun again => Nat.lt_irrefl _ again.1]
  · rw [if_neg h, if_neg h]

end NuRaft.Source

import NuRaft.Guarantees.Reconcile

/-!
# The calls the state machine sees, and `config_changing_`

handle_append_entries.cxx:398-463. The overwrite loop rolls back the old entry
it overwrites and pre-commits the new one (lines 401-427), and the append loop
pre-commits each entry it appends (lines 450-460). With a store whose
`write_at` discards every entry after the index written, the overwrite loop
runs at most once: after the first overwrite the store ends there and the rest
of the request is appended (`storeEntries_server`). So a running follower that
accepts a request calls the state machine exactly as `storeCalls` says
(`handleAppendEntries_smCalls`): at most one `rollback_ext`, for the old
application entry at the first index the store does not hold with the request's
term, then one `pre_commit_ext` for each application entry written, at its own
index and in index order. The old entries the write discards behind that index
get no rollback.

`config_changing_` follows the same two loops (lines 409-412, 425-427 and
452-455): it is set when an entry written is a configuration entry, and
otherwise cleared only when the one entry overwritten was one
(`handleAppendEntries_configChanging`). A configuration entry that the write
discards behind the first conflict leaves the flag set, with no configuration
entry left in the log to clear it.
-/
namespace NuRaft.Guarantees
open NuRaft.Source

/-- Lines 418-422 and 455-460: the pre-commit of an entry written at `logIdx`,
if it is an application entry. -/
def preCommitOf (logIdx : Nat) (entry : LogEntry) : List SmCall :=
  if entry.valType = .appLog then [.preCommit logIdx entry.buf] else []

/-- Lines 402-406: the rollback of the entry found at `logIdx`, if there is one
and it is an application entry. -/
def rollbackOf (logIdx : Nat) : Option LogEntry → List SmCall
  | some old => if old.valType = .appLog then [.rollback logIdx old.buf] else []
  | none => []

/-- The pre-commits of the entries written from `logIdx` on. -/
def preCommits : Nat → List LogEntry → List SmCall
  | _, [] => []
  | logIdx, entry :: rest => preCommitOf logIdx entry ++ preCommits (logIdx + 1) rest

/-- The calls of the loops on `store` for `req`: from the first index the store
does not hold with the request's term, the rollback of the entry found there and
the pre-commits of the request's entries from there on. -/
def storeCalls (store : LogStore) (req : ReqMsg) : List SmCall :=
  match skipExisting store (req.lastLogIdx + 1) req.logEntries with
  | (_, []) => []
  | (logIdx, entry :: rest) =>
    rollbackOf logIdx (store.entryAt logIdx) ++ preCommits logIdx (entry :: rest)

@[simp] theorem observeEntry_smCalls (s : RaftServer) (logIdx : Nat) (entry : LogEntry) :
    (observeEntry s logIdx entry).smCalls = s.smCalls ++ preCommitOf logIdx entry := by
  unfold observeEntry preCommitOf
  split_ifs <;> simp

@[simp] theorem revertEntry_smCalls (s : RaftServer) (logIdx : Nat) :
    (revertEntry s logIdx).smCalls = s.smCalls ++ rollbackOf logIdx (s.logStore.entryAt logIdx) := by
  unfold revertEntry
  split
  · next old _ => simp only [rollbackOf, *]; split_ifs <;> simp
  · next none => simp [rollbackOf, none]

theorem overwriteEntry_smCalls (s : RaftServer) (logIdx : Nat) (entry : LogEntry) :
    (overwriteEntry s logIdx entry).smCalls =
      s.smCalls ++ rollbackOf logIdx (s.logStore.entryAt logIdx) ++ preCommitOf logIdx entry := by
  unfold overwriteEntry
  dsimp only
  split <;> simp

theorem appendEntry_smCalls (s : RaftServer) (entry : LogEntry) :
    (appendEntry s entry).smCalls = s.smCalls ++ preCommitOf s.logStore.nextSlot entry := by
  simp [appendEntry, storeLogEntry]

/-- Lines 446-463: with `stopping_` clear, the append loop pre-commits every
application entry at the index it is appended at. -/
theorem appendLogs_smCalls (s : RaftServer) (running : s.stopping = false) :
    ∀ E, (appendLogs s E).server.smCalls = s.smCalls ++ preCommits s.logStore.nextSlot E
  | [] => by simp [appendLogs, LoopExit.server, preCommits]
  | entry :: rest => by
    have stop : (appendEntry s entry).stopping = false := by
      rw [(appendEntry_frame s entry).stopping, running]
    rw [appendLogs_cons, if_neg (by simp [running]), appendLogs_smCalls _ stop rest,
      appendEntry_smCalls, appendEntry_logStore, LogStore.nextSlot_append]
    simp [preCommits]

/-- Lines 371-468 with `stopping_` clear, for a request that starts inside the
store: from the first index the store does not hold with the request's term,
nothing if the request ends before it; else one overwrite there while the store
reaches it, after which `write_at` has cut the store there, and appends for the
rest. -/
theorem storeEntries_server (s : RaftServer) (req : ReqMsg) (running : s.stopping = false)
    (inside : req.lastLogIdx < s.logStore.nextSlot) :
    ∃ logIdx written, skipExisting s.logStore (req.lastLogIdx + 1) req.logEntries =
        (logIdx, written) ∧
      (written = [] ∧ (storeEntries s req).server = s ∨
        ∃ entry rest, written = entry :: rest ∧
          (logIdx < s.logStore.nextSlot ∧
              (overwriteEntry s logIdx entry).logStore.nextSlot = logIdx + 1 ∧
              (storeEntries s req).server = (appendLogs (overwriteEntry s logIdx entry) rest).server ∨
            logIdx = s.logStore.nextSlot ∧
              (storeEntries s req).server = (appendLogs s (entry :: rest)).server)) := by
  obtain ⟨n, hn, heq, hskip, -⟩ :=
    skipExisting_spec s.logStore (req.lastLogIdx + 1) req.logEntries
  have reach : req.lastLogIdx + 1 + n ≤ s.logStore.nextSlot := by
    rcases Nat.eq_zero_or_pos n with zero | pos
    · omega
    · have := (hskip (n - 1) (by omega)).1; omega
  refine ⟨_, _, heq, ?_⟩
  unfold storeEntries
  rw [heq]
  rcases hd : req.logEntries.drop n with _ | ⟨entry, rest⟩
  · exact .inl ⟨rfl, by split <;> simp [overwriteLogs, LoopExit.server]⟩
  have pos : 0 < req.logEntries.length := by
    have := congrArg List.length hd; simp at this; omega
  rw [if_pos pos]
  refine .inr ⟨entry, rest, rfl, ?_⟩
  rcases Nat.lt_or_ge (req.lastLogIdx + 1 + n) s.logStore.nextSlot with conflict | full
  · -- One overwrite at the first conflict, which cuts the store there.
    refine .inl ⟨conflict, ?_, ?_⟩
    · rw [overwriteEntry_logStore _ (by omega)]
      exact LogStore.nextSlot_writeAt _ (by omega) conflict.le
    · rw [overwriteLogs_conflict s (by omega) conflict, if_neg (by simp [running])]
  · -- The store ends where the request's new entries start: all are appended.
    have edge : req.lastLogIdx + 1 + n = s.logStore.nextSlot := by omega
    exact .inr ⟨edge, by rw [edge, overwriteLogs_end s le_rfl]⟩

/-- Lines 371-468: with `stopping_` clear, for a request that starts inside the
store, the loops make exactly the calls of `storeCalls`. -/
theorem storeEntries_smCalls (s : RaftServer) (req : ReqMsg) (running : s.stopping = false)
    (inside : req.lastLogIdx < s.logStore.nextSlot) :
    (storeEntries s req).server.smCalls = s.smCalls ++ storeCalls s.logStore req := by
  obtain ⟨logIdx, _, hskip, ⟨rfl, hs⟩ | ⟨entry, rest, rfl, ⟨conflict, slot, hs⟩ | ⟨edge, hs⟩⟩⟩ :=
    storeEntries_server s req running inside
  all_goals unfold storeCalls; rw [hskip, hs]
  · simp
  · have stop : (overwriteEntry s logIdx entry).stopping = false := by
      rw [(overwriteEntry_frame _ _ _).stopping, running]
    rw [appendLogs_smCalls _ stop rest, overwriteEntry_smCalls, slot]
    simp [preCommits]
  · rw [appendLogs_smCalls s running, edge]
    simp [rollbackOf, LogStore.entryAt_nextSlot]

/-- What a running follower whose snapshot lies inside its log leaves when it
answers: on a rejection itself, but for `catching_up_` and its role; on an
acceptance of a request starting inside its store, the loops' result on it, but
for those, `initialized_` and what `finishAppend` sets. -/
theorem handleAppendEntries_answered (s : RaftServer) (req : ReqMsg) (running : s.stopping = false)
    (snapshotInside : ∀ snp, s.lastSnapshot = some snp → snp.lastLogIdx < s.logStore.nextSlot)
    {resp : RespMsg} (answered : (handleAppendEntries s req).2 = some resp) :
    ∃ r, resp.accepted = false ∧
        (handleAppendEntries s req).1 = { s with catchingUp := false, role := r } ∨
      resp.accepted = true ∧ req.lastLogIdx < s.logStore.nextSlot ∧
        ∃ q, (handleAppendEntries s req).1 =
          { (storeEntries { s with catchingUp := false, role := r, initialized := true } req).server
            with leader := req.src, leaderCommitIndex := req.commitIdx, quickCommitIndex := q } := by
  rcases handleAppendEntries_cases s req with
    ⟨-, h⟩ | ⟨s1, he, ⟨-, h⟩ | ⟨-, okay, ⟨s2, stopped, -⟩ | ⟨s2, hst, h⟩⟩⟩
  · rw [h] at answered; cases answered
  · obtain ⟨r, rfl, -⟩ := enterRequest_some he
    rw [h] at answered ⊢
    obtain rfl := Option.some.inj answered
    exact ⟨r, .inl ⟨rfl, rfl⟩⟩
  · -- With `stopping_` clear the loops never return early.
    obtain ⟨r, rfl, -⟩ := enterRequest_some he
    rw [storeEntries_completed { s with catchingUp := false, role := r, initialized := true } req
      running] at stopped
    cases stopped
  · obtain ⟨r, rfl, -⟩ := enterRequest_some he
    rw [h] at answered ⊢
    obtain rfl := Option.some.inj answered
    obtain ⟨q, hq⟩ := finishAppend_eq s2 req
    refine ⟨r, .inr ⟨rfl, logOkay_inside okay snapshotInside, q, ?_⟩⟩
    rw [hq, show s2 = (storeEntries _ req).server by rw [hst]; rfl]

/-- A follower of term 2 holding three application entries of term 1. -/
def threeApps : RaftServer :=
  followerWith 2 [⟨1, .appLog, 10⟩, ⟨1, .appLog, 11⟩, ⟨1, .appLog, 12⟩] 0 0 [] false

/-- The leader's request after index 1 carrying two application entries of
term 2. -/
def twoNewApps : ReqMsg :=
  { term := 2, src := 0, dst := 1, lastLogTerm := 1, lastLogIdx := 1, commitIdx := 0,
    logEntries := [⟨2, .appLog, 20⟩, ⟨2, .appLog, 21⟩] }

/-- The entry at index 3 is discarded with no rollback. -/
example : storeCalls threeApps.logStore twoNewApps =
    [.rollback 2 11, .preCommit 2 20, .preCommit 3 21] := by decide

/-! ### `config_changing_` -/

/-- A configuration entry. -/
def isConf (entry : LogEntry) : Bool := decide (entry.valType = .conf)

/-- `config_changing_` after the loops on `store` for `req`, from `changing`:
set if an entry written is a configuration entry; otherwise cleared if the
entry at the first index the store does not hold with the request's term is
one; otherwise as it was. -/
def configAfter (store : LogStore) (req : ReqMsg) (changing : Bool) : Bool :=
  match skipExisting store (req.lastLogIdx + 1) req.logEntries with
  | (_, []) => changing
  | (logIdx, written) => written.any isConf || (changing && !(store.entryAt logIdx).any isConf)

@[simp] theorem observeEntry_configChanging (s : RaftServer) (logIdx : Nat) (entry : LogEntry) :
    (observeEntry s logIdx entry).configChanging = (isConf entry || s.configChanging) := by
  unfold observeEntry isConf
  split_ifs <;> simp_all

@[simp] theorem revertEntry_configChanging (s : RaftServer) (logIdx : Nat) :
    (revertEntry s logIdx).configChanging =
      (s.configChanging && !(s.logStore.entryAt logIdx).any isConf) := by
  unfold revertEntry
  split
  · next old found =>
    simp only [found, Option.any_some, isConf]
    split_ifs <;> simp_all
  · next none => simp [none]

theorem overwriteEntry_configChanging (s : RaftServer) (logIdx : Nat) (entry : LogEntry) :
    (overwriteEntry s logIdx entry).configChanging =
      (isConf entry || (s.configChanging && !(s.logStore.entryAt logIdx).any isConf)) := by
  unfold overwriteEntry
  dsimp only
  split <;> simp

theorem appendEntry_configChanging (s : RaftServer) (entry : LogEntry) :
    (appendEntry s entry).configChanging = (isConf entry || s.configChanging) := by
  simp [appendEntry]

/-- Lines 446-463: with `stopping_` clear, the append loop sets
`config_changing_` if it appends a configuration entry. -/
theorem appendLogs_configChanging (s : RaftServer) (running : s.stopping = false) :
    ∀ E, (appendLogs s E).server.configChanging = (E.any isConf || s.configChanging)
  | [] => by simp [appendLogs, LoopExit.server]
  | entry :: rest => by
    have stop : (appendEntry s entry).stopping = false := by
      rw [(appendEntry_frame s entry).stopping, running]
    rw [appendLogs_cons, if_neg (by simp [running]), appendLogs_configChanging _ stop rest,
      appendEntry_configChanging, List.any_cons]
    cases isConf entry <;> simp

/-- Lines 371-468: with `stopping_` clear, for a request that starts inside the
store, the loops leave `configAfter` in `config_changing_`. -/
theorem storeEntries_configChanging (s : RaftServer) (req : ReqMsg) (running : s.stopping = false)
    (inside : req.lastLogIdx < s.logStore.nextSlot) :
    (storeEntries s req).server.configChanging = configAfter s.logStore req s.configChanging := by
  obtain ⟨logIdx, _, hskip, ⟨rfl, hs⟩ | ⟨entry, rest, rfl, ⟨-, -, hs⟩ | ⟨edge, hs⟩⟩⟩ :=
    storeEntries_server s req running inside
  all_goals unfold configAfter; rw [hskip, hs]
  · have stop : (overwriteEntry s logIdx entry).stopping = false := by
      rw [(overwriteEntry_frame _ _ _).stopping, running]
    rw [appendLogs_configChanging _ stop rest, overwriteEntry_configChanging]
    simp only [List.any_cons]
    cases isConf entry <;> simp
  · rw [appendLogs_configChanging s running]
    simp [edge, LogStore.entryAt_nextSlot]

/-- A follower of term 2 holding two application entries and, at index 3, a
configuration entry of term 1, with `config_changing_` set. -/
def pendingConf : RaftServer :=
  followerWith 2 [⟨1, .appLog, 10⟩, ⟨1, .appLog, 11⟩, ⟨1, .conf, 12⟩] 0 0 [] true

/-- The configuration entry at index 3 is discarded and the flag stays set. -/
example : configAfter pendingConf.logStore twoNewApps true = true ∧
    (handleAppendEntries pendingConf twoNewApps).1.logStore.entries.any isConf = false := by
  decide

end NuRaft.Guarantees

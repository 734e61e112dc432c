import NuRaft.Guarantees.Reconcile

/-!
# What the overwrite phase leaves behind

The overwrite loop of `handle_append_entries` (lines 397-442) is written to
visit every entry it replaces: it rolls the old entry back, writes the new one,
and regresses both commit indices when the written index is at most
`sm_commit_index_`. Over a truncating `write_at` it runs once
(`overwriteLogs_conflict`), so the entries behind the first conflict are
discarded with no rollback, and the regression only looks at
`sm_commit_index_`.

What does hold: `sm_commit_index_ ≤ quick_commit_index_` after every path
(`handleAppendEntries_sm_le_quick`), and `quick_commit_index_ ≤ next_slot - 1`
too when the state machine has caught up with the commit index
(`handleAppendEntries_quick_bounded`). The inputs at the end of the module show
what does not.
-/
namespace NuRaft.Guarantees
open NuRaft.Source NuRaft.Spec

/-- One overwrite keeps both commit indices, above `sm_commit_index_`, or
regresses both to the index before the one written. -/
theorem overwriteEntry_commitIndexes (s : RaftServer) (logIdx : Nat) (entry : LogEntry) :
    ((overwriteEntry s logIdx entry).smCommitIndex = s.smCommitIndex ∧
        (overwriteEntry s logIdx entry).quickCommitIndex = s.quickCommitIndex ∧
        s.smCommitIndex < logIdx) ∨
      (logIdx ≤ s.smCommitIndex ∧ (overwriteEntry s logIdx entry).smCommitIndex = logIdx - 1 ∧
        (overwriteEntry s logIdx entry).quickCommitIndex = logIdx - 1) := by
  unfold overwriteEntry
  dsimp only
  split
  · next regress => exact .inr ⟨by simpa using regress, rfl, rfl⟩
  · next keep => exact .inl ⟨by simp, by simp, by simpa using keep⟩

@[simp] theorem appendEntry_smCommitIndex (s : RaftServer) (entry : LogEntry) :
    (appendEntry s entry).smCommitIndex = s.smCommitIndex := by
  simp [appendEntry]

@[simp] theorem appendEntry_quickCommitIndex (s : RaftServer) (entry : LogEntry) :
    (appendEntry s entry).quickCommitIndex = s.quickCommitIndex := by
  simp [appendEntry]

/-- The server `handle_append_entries` returns is `s` with `catching_up_` clear,
what `enterRequest` let through, what the loops left, or that after
`finishAppend`. -/
theorem handleAppendEntries_result (s : RaftServer) (req : ReqMsg) :
    (handleAppendEntries s req).1 = { s with catchingUp := false } ∨
      (∃ s1, enterRequest s req = some s1 ∧ ((handleAppendEntries s req).1 = s1 ∨
        (handleAppendEntries s req).1 =
          (storeEntries { s1 with initialized := true } req).server ∨
        (handleAppendEntries s req).1 =
          finishAppend (storeEntries { s1 with initialized := true } req).server req)) := by
  rcases handleAppendEntries_cases s req with
    ⟨-, h⟩ | ⟨s1, he, ⟨-, h⟩ | ⟨-, -, ⟨s2, hst, h⟩ | ⟨s2, hst, h⟩⟩⟩ <;>
    rw [h]
  · exact .inl rfl
  · exact .inr ⟨s1, he, .inl rfl⟩
  · exact .inr ⟨s1, he, .inr (.inl (by rw [hst]; rfl))⟩
  · exact .inr ⟨s1, he, .inr (.inr (by rw [hst]; rfl))⟩

/-- `sm_commit_index_ ≤ quick_commit_index_` holds after every path. -/
theorem handleAppendEntries_sm_le_quick (s : RaftServer) (req : ReqMsg)
    (ordered : s.smCommitIndex ≤ s.quickCommitIndex) :
    (handleAppendEntries s req).1.smCommitIndex ≤
      (handleAppendEntries s req).1.quickCommitIndex := by
  have loops : ∀ t : RaftServer, t.smCommitIndex ≤ t.quickCommitIndex →
      (storeEntries t req).server.smCommitIndex ≤ (storeEntries t req).server.quickCommitIndex :=
    fun t => storeEntries_preserves (fun t => t.smCommitIndex ≤ t.quickCommitIndex)
      (fun t logIdx entry _ _ h => by
        rcases overwriteEntry_commitIndexes t logIdx entry with
          ⟨sm, quick, -⟩ | ⟨-, sm, quick⟩ <;> omega)
      (fun t entry h => by simpa using h) t req
  rcases handleAppendEntries_result s req with h | ⟨s1, he, h | h | h⟩ <;> rw [h]
  · exact ordered
  · obtain ⟨r, rfl, -⟩ := enterRequest_some he; exact ordered
  · obtain ⟨r, rfl, -⟩ := enterRequest_some he; exact loops _ ordered
  · obtain ⟨r, rfl, -⟩ := enterRequest_some he
    rw [finishAppend_smCommitIndex]
    exact le_trans (loops _ ordered) (quickCommitIndex_le_finishAppend _ _)

/-- A follower whose state machine has caught up with its commit index, and
whose commit index is inside its log. -/
structure CommitBounded (t : RaftServer) : Prop where
  caughtUp : t.smCommitIndex = t.quickCommitIndex
  inside : t.quickCommitIndex ≤ t.logStore.nextSlot - 1

/-- An overwrite inside the log cuts it right after the index written, and the
regression covers every index it cuts. -/
theorem CommitBounded.overwrite {t : RaftServer} (h : CommitBounded t) {logIdx : Nat}
    (entry : LogEntry) (pos : 0 < logIdx) (lt : logIdx < t.logStore.nextSlot) :
    CommitBounded (overwriteEntry t logIdx entry) := by
  have slot : (overwriteEntry t logIdx entry).logStore.nextSlot = logIdx + 1 := by
    rw [overwriteEntry_logStore t pos]; exact LogStore.nextSlot_writeAt entry pos lt.le
  obtain ⟨caught, inside⟩ := h
  rcases overwriteEntry_commitIndexes t logIdx entry with ⟨sm, quick, _⟩ | ⟨_, sm, quick⟩ <;>
    exact ⟨by omega, by rw [slot]; omega⟩

theorem CommitBounded.append {t : RaftServer} (h : CommitBounded t) (entry : LogEntry) :
    CommitBounded (appendEntry t entry) := by
  obtain ⟨caught, inside⟩ := h
  refine ⟨by simpa using caught, ?_⟩
  simp only [appendEntry_quickCommitIndex, appendEntry_logStore, LogStore.nextSlot_append]
  omega

/-- With the state machine caught up with the commit index, and the commit index
inside the log, every path leaves `sm_commit_index_ ≤ quick_commit_index_ ≤
next_slot - 1`: the regression then covers every overwrite below the commit
index. -/
theorem handleAppendEntries_quick_bounded (s : RaftServer) (req : ReqMsg)
    (caughtUp : s.smCommitIndex = s.quickCommitIndex)
    (inside : s.quickCommitIndex ≤ s.logStore.nextSlot - 1) :
    (handleAppendEntries s req).1.smCommitIndex ≤
        (handleAppendEntries s req).1.quickCommitIndex ∧
      (handleAppendEntries s req).1.quickCommitIndex ≤
        (handleAppendEntries s req).1.logStore.nextSlot - 1 := by
  have loops : ∀ t, CommitBounded t → CommitBounded (storeEntries t req).server :=
    fun t => storeEntries_preserves CommitBounded (fun _ _ entry pos lt h => h.overwrite entry pos lt)
      (fun _ entry h => h.append entry) t req
  rcases handleAppendEntries_result s req with h | ⟨s1, he, h | h | h⟩ <;> rw [h]
  · exact ⟨caughtUp.le, inside⟩
  · obtain ⟨r, rfl, -⟩ := enterRequest_some he; exact ⟨caughtUp.le, inside⟩
  · obtain ⟨r, rfl, -⟩ := enterRequest_some he
    obtain ⟨caught, within⟩ :=
      loops { s with catchingUp := false, role := r, initialized := true } ⟨caughtUp, inside⟩
    exact ⟨caught.le, within⟩
  · obtain ⟨r, rfl, -⟩ := enterRequest_some he
    obtain ⟨caught, within⟩ :=
      loops { s with catchingUp := false, role := r, initialized := true } ⟨caughtUp, inside⟩
    rw [finishAppend_smCommitIndex, finishAppend_logStore]
    exact ⟨caught.le.trans (quickCommitIndex_le_finishAppend _ _),
      finishAppend_quickCommitIndex_le req within⟩

/-- Witness input: a follower whose state machine lags its commit index: five
entries of term 1, `quick_commit_index_` 5, `sm_commit_index_` 0. -/
def laggingFollower : RaftServer :=
  followerWith 2
    [⟨1, .appLog, 1⟩, ⟨1, .appLog, 2⟩, ⟨1, .appLog, 3⟩, ⟨1, .appLog, 4⟩,
      ⟨1, .appLog, 5⟩]
    0 5 [] false

/-- A term-2 request after index 2 whose entry conflicts at index 3. -/
def conflictAtThree : ReqMsg :=
  { term := 2, src := 0, dst := 1, lastLogTerm := 1, lastLogIdx := 2, commitIdx := 0,
    logEntries := [⟨2, .appLog, 6⟩] }

/-- The overwrite at 3 truncates the log to 3 entries; `3 ≤ sm_commit_index_`
fails, so `quick_commit_index_` stays at 5. -/
theorem lagging_commit_outruns_log :
    laggingFollower.smCommitIndex ≤ laggingFollower.quickCommitIndex ∧
      laggingFollower.quickCommitIndex ≤ laggingFollower.logStore.nextSlot - 1 ∧
      (handleAppendEntries laggingFollower conflictAtThree).1.logStore.nextSlot - 1 <
        (handleAppendEntries laggingFollower conflictAtThree).1.quickCommitIndex := by
  decide

/-- `pre_commit_ext` was called for `logIdx` and not undone by a later
`rollback_ext`. -/
def preCommitted (calls : List SmCall) (logIdx : Nat) : Bool :=
  match (calls.filter fun call => call.logIdx == logIdx).getLast? with
  | some (.preCommit _ _) => true
  | _ => false

/-- Witness input: application entries at 1-3, each pre-committed once, and a
configuration entry at 4 that set `config_changing_`. -/
def speculativeFollower : RaftServer :=
  followerWith 1 [⟨1, .appLog, 1⟩, ⟨1, .appLog, 2⟩, ⟨1, .appLog, 3⟩, ⟨1, .conf, 4⟩]
    0 0 [.preCommit 1 1, .preCommit 2 2, .preCommit 3 3] true

/-- A request after index 1 whose one entry conflicts at index 2. -/
def conflictAtTwo : ReqMsg :=
  { term := 1, src := 0, dst := 1, lastLogTerm := 1, lastLogIdx := 1, commitIdx := 0,
    logEntries := [⟨2, .appLog, 7⟩] }

/-- Before: the pre-committed indices are those of the application entries.
After: index 3 is discarded but still pre-committed, and the configuration
entry is gone with no configuration entry written while `config_changing_`
stays set. -/
theorem truncation_skips_rollbacks :
    (∀ i < 6, preCommitted speculativeFollower.smCalls i =
        ((speculativeFollower.logStore.entryAt i).map LogEntry.valType == some .appLog)) ∧
      (handleAppendEntries speculativeFollower conflictAtTwo).1.logStore.entryAt 3 = none ∧
      preCommitted (handleAppendEntries speculativeFollower conflictAtTwo).1.smCalls 3 = true ∧
      (handleAppendEntries speculativeFollower conflictAtTwo).1.logStore.entries.all
        (fun e => e.valType != .conf) = true ∧
      conflictAtTwo.logEntries.all (fun e => e.valType != .conf) = true ∧
      (handleAppendEntries speculativeFollower conflictAtTwo).1.configChanging = true := by
  decide

end NuRaft.Guarantees

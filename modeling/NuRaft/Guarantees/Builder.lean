import NuRaft.Source.RequestAppendEntries

/-!
# What `create_append_entries_req` builds

handle_append_entries.cxx:152-264. On a leader whose store starts no later than
one past its snapshot (or than 1 without one) and ends no earlier, for a peer
whose `next_log_idx` is 0 or inside the log, the builder never hits the fatal
check of line 176: it delegates to the snapshot path, or sends the request after
the lazily initialised `next_log_idx - 1` carrying the store's entries from
there to the batch end, none of them compacted or past `next_slot`, with the
term at `last_log_idx` read from the store or, below its start, from the
snapshot (`createAppendEntriesReq_request`).
-/
namespace NuRaft.Source

/-- The first index the leader's store has to hold: one past its snapshot, or 1
without one. -/
def logBase (s : RaftServer) : Nat :=
  match s.lastSnapshot with
  | some snp => snp.lastLogIdx + 1
  | none => 1

theorem batchEnd_fst (p : Peer) (curNxtIdx lastLogIdx maxAppendSize : Nat) :
    ∃ cnt, (batchEnd p curNxtIdx lastLogIdx maxAppendSize).1 =
      { p with cntNotApplied := cnt } := by
  unfold batchEnd
  dsimp only
  split <;> exact ⟨_, rfl⟩

/-- Lines 213-233: the batch ends inside the log, at most `max_append_size`
entries after `last_log_idx`, at least one entry after it where the log goes
further, and one entry after it once the retry count read as an `int32` has
reached 5. -/
theorem batchEnd_bounds (p : Peer) {curNxtIdx lastLogIdx maxAppendSize : Nat}
    (inside : lastLogIdx < curNxtIdx) (batch : 1 ≤ maxAppendSize) :
    lastLogIdx + 1 ≤ (batchEnd p curNxtIdx lastLogIdx maxAppendSize).2 ∧
      (batchEnd p curNxtIdx lastLogIdx maxAppendSize).2 ≤ curNxtIdx ∧
      (batchEnd p curNxtIdx lastLogIdx maxAppendSize).2 ≤ lastLogIdx + 1 + maxAppendSize ∧
      (lastLogIdx + 1 < curNxtIdx →
        lastLogIdx + 2 ≤ (batchEnd p curNxtIdx lastLogIdx maxAppendSize).2) ∧
      (5 ≤ int32Of (batchEnd p curNxtIdx lastLogIdx maxAppendSize).1.cntNotApplied →
        (batchEnd p curNxtIdx lastLogIdx maxAppendSize).2 ≤ lastLogIdx + 2) := by
  unfold batchEnd
  dsimp only
  split_ifs <;> simp <;> omega

/-- `log_entries(lo, hi)` inside the log: the entries at `lo, ..., hi - 1`. -/
theorem logEntries_getElem? (store : LogStore) {lo hi : Nat} (pos : 0 < lo) (le : lo ≤ hi)
    (inside : hi ≤ store.nextSlot) :
    (store.logEntries lo hi).length = hi - lo ∧
      ∀ k < hi - lo, (store.logEntries lo hi)[k]? = entryOf store.entries (lo + k) := by
  unfold LogStore.nextSlot at inside
  refine ⟨by simp [LogStore.logEntries]; omega, fun k lt => ?_⟩
  obtain ⟨j, rfl⟩ : ∃ j, lo = j + 1 := ⟨lo - 1, by omega⟩
  rw [LogStore.logEntries, List.getElem?_take_of_lt lt, List.getElem?_drop,
    show j + 1 + k = j + k + 1 by omega]
  rfl

/-- Lines 238-241: the guard before `log_entries` changes nothing inside the log. -/
theorem ite_logEntries (store : LogStore) {lo hi : Nat} (le : lo ≤ hi)
    (inside : hi ≤ store.nextSlot) :
    (if store.nextSlot ≤ lo then [] else store.logEntries lo hi) = store.logEntries lo hi := by
  split
  · simp [LogStore.logEntries, show hi - lo = 0 by omega]
  · rfl

/-- At or after the store's start, `term_for_log` reads the store. -/
theorem termForLog_of_start {s : RaftServer} {logIdx : Nat}
    (start : s.logStore.startIndex ≤ logIdx) : termForLog s logIdx = s.logStore.termAt logIdx := by
  unfold termForLog
  split_ifs with zero
  · simp [zero, LogStore.termAt]
  · rfl

/-- Without the snapshot fallback, an index below the store's start is 0 or the
snapshot's index, where `term_for_log` reads the snapshot's term. -/
theorem termForLog_below_start {s : RaftServer} (store : s.logStore.startIndex ≤ logBase s)
    {logIdx : Nat} (kept : snapshotFallback s logIdx = false)
    (below : logIdx < s.logStore.startIndex) :
    logIdx = 0 ∧ termForLog s logIdx = 0 ∨
      ∃ snp, s.lastSnapshot = some snp ∧ snp.lastLogIdx = logIdx ∧
        termForLog s logIdx = snp.lastLogTerm := by
  unfold termForLog
  rcases Nat.eq_zero_or_pos logIdx with zero | pos
  · exact .inl ⟨zero, if_pos zero⟩
  rw [if_neg (by omega), if_neg (by omega)]
  unfold logBase at store
  unfold snapshotFallback at kept
  cases hs : s.lastSnapshot with
  | none => simp only [hs] at store; omega
  | some snp =>
    simp only [hs, Bool.and_eq_false_iff, decide_eq_false_iff_not] at store kept
    have idx : snp.lastLogIdx = logIdx := by omega
    exact .inr ⟨snp, rfl, idx, if_pos idx⟩

/-- Without the snapshot fallback, the request reads no compacted index. -/
theorem startIndex_le_of_kept {s : RaftServer} (store : s.logStore.startIndex ≤ logBase s)
    {logIdx : Nat} (kept : snapshotFallback s logIdx = false) :
    s.logStore.startIndex ≤ logIdx + 1 := by
  unfold logBase at store
  unfold snapshotFallback at kept
  cases hs : s.lastSnapshot with
  | none => simp only [hs] at store; omega
  | some snp =>
    simp only [hs, Bool.and_eq_false_iff, decide_eq_false_iff_not] at store kept
    omega

/-- An append request the builder sends is at the leader's term, after the
peer's lazily initialised `next_log_idx - 1`. -/
theorem createAppendEntriesReq_appendEntries (s : RaftServer) (pid : Nat) (ready : Bool)
    {req : ReqMsg}
    (built : (createAppendEntriesReq s pid ready).2 = .message (.appendEntriesRequest req)) :
    req.term = s.term ∧
      req.lastLogIdx = ulongPred (lazyInit (s.peers pid) s.logStore.nextSlot).nextLogIdx := by
  unfold createAppendEntriesReq at built
  dsimp only at built
  split_ifs at built
  · cases ready <;> cases built
  all_goals cases built; exact ⟨rfl, rfl⟩

/-- Lines 235-238: a request names the leader and the peer, and carries the
leader's `quick_commit_index_`. -/
theorem createAppendEntriesReq_header (s : RaftServer) (pid : Nat) (ready : Bool)
    {req : ReqMsg}
    (built : (createAppendEntriesReq s pid ready).2 = .message (.appendEntriesRequest req)) :
    req.src = s.id ∧ req.dst = pid ∧ req.commitIdx = s.quickCommitIndex := by
  unfold createAppendEntriesReq at built
  dsimp only at built
  split_ifs at built
  · cases ready <;> cases built
  all_goals cases built; exact ⟨rfl, rfl, rfl⟩

/-- Only the fatal path of lines 177-186 sets `exited`. -/
theorem createAppendEntriesReq_exited (s : RaftServer) (pid : Nat) (ready : Bool) {m : Msg}
    (built : (createAppendEntriesReq s pid ready).2 = .message m) :
    (createAppendEntriesReq s pid ready).1.exited = s.exited := by
  unfold createAppendEntriesReq at built ⊢
  dsimp only at built ⊢
  split_ifs at built ⊢ <;> rfl

/-- Lines 186-203: for a peer whose `next_log_idx` lies in `[1, next_slot]`, the
builder falls back to `create_sync_snapshot_req` after `next_log_idx - 1`, or
sends an append request. -/
theorem createAppendEntriesReq_sends (s : RaftServer) (pid : Nat) (ready : Bool)
    (positive : 1 ≤ (s.peers pid).nextLogIdx)
    (inside : (s.peers pid).nextLogIdx ≤ s.logStore.nextSlot) :
    snapshotFallback s ((s.peers pid).nextLogIdx - 1) = true ∧
        (createAppendEntriesReq s pid ready).2 =
          createSyncSnapshotReq pid ((s.peers pid).nextLogIdx - 1) s.term s.quickCommitIndex ready ∨
      snapshotFallback s ((s.peers pid).nextLogIdx - 1) = false ∧
        ∃ req, (createAppendEntriesReq s pid ready).2 = .message (.appendEntriesRequest req) := by
  have kept : lazyInit (s.peers pid) s.logStore.nextSlot = s.peers pid := if_neg (by omega)
  unfold createAppendEntriesReq
  simp only [kept, ulongPred_of_pos positive]
  rw [if_neg (by omega)]
  split
  · next fallback => exact .inl ⟨fallback, rfl⟩
  · next sends => exact .inr ⟨by simpa using sends, _, rfl⟩

/-- Lines 186-264 for a peer whose `next_log_idx` lies in `[1, next_slot]`,
with no snapshot fallback: the request after `next_log_idx - 1` carrying the
store's entries up to `batchEnd`, and the peer left with its batch state and
`last_sent_idx` at `next_log_idx`. -/
theorem createAppendEntriesReq_eq (s : RaftServer) (pid : Nat) (ready : Bool)
    (positive : 1 ≤ (s.peers pid).nextLogIdx)
    (inside : (s.peers pid).nextLogIdx ≤ s.logStore.nextSlot)
    (kept : snapshotFallback s ((s.peers pid).nextLogIdx - 1) = false) :
    createAppendEntriesReq s pid ready =
      (s.setPeer pid { (batchEnd (s.peers pid) s.logStore.nextSlot ((s.peers pid).nextLogIdx - 1)
          s.params.maxAppendSize).1 with lastSentIdx := (s.peers pid).nextLogIdx },
        .message (.appendEntriesRequest
          { term := s.term, src := s.id, dst := pid,
            lastLogTerm := termForLog s ((s.peers pid).nextLogIdx - 1),
            lastLogIdx := (s.peers pid).nextLogIdx - 1, commitIdx := s.quickCommitIndex,
            logEntries := if s.logStore.nextSlot ≤ (s.peers pid).nextLogIdx then []
              else s.logStore.logEntries (s.peers pid).nextLogIdx
                (batchEnd (s.peers pid) s.logStore.nextSlot ((s.peers pid).nextLogIdx - 1)
                  s.params.maxAppendSize).2 })) := by
  have unset : lazyInit (s.peers pid) s.logStore.nextSlot = s.peers pid := if_neg (by omega)
  have back : (s.peers pid).nextLogIdx - 1 + 1 = (s.peers pid).nextLogIdx := by omega
  unfold createAppendEntriesReq
  simp only [unset, ulongPred_of_pos positive, back]
  rw [if_neg (by omega), if_neg (by simp [kept])]

/-- Lines 213-241: with `max_append_size >= 1`, an append request the builder
sends carries at least one entry wherever the log goes on after its
`last_log_idx`. -/
theorem createAppendEntriesReq_nonempty (s : RaftServer) (pid : Nat) (ready : Bool)
    (batch : 1 ≤ s.params.maxAppendSize) {req : ReqMsg}
    (built : (createAppendEntriesReq s pid ready).2 = .message (.appendEntriesRequest req))
    (behind : req.lastLogIdx + 1 < s.logStore.nextSlot) : 0 < req.logEntries.length := by
  unfold createAppendEntriesReq at built
  dsimp only at built
  split_ifs at built with fatal fallback short
  · cases ready <;> cases built
  · cases built; dsimp only at behind; omega
  · cases built
    dsimp only at behind ⊢
    obtain ⟨above, inside, -, narrow, -⟩ :=
      batchEnd_bounds (lazyInit (s.peers pid) s.logStore.nextSlot) (Nat.lt_of_not_le fatal) batch
    rw [(logEntries_getElem? s.logStore (by omega) above inside).1]
    have := narrow behind
    omega

/-- What a request `req` that the leader `s` (becoming `s'`) builds for peer
`pid` carries: `last_log_idx` is the peer's `next_log_idx - 1`, its entries are
exactly the store's from `last_log_idx + 1` on, none compacted or past
`next_slot`, at most `max_append_size` of them (one once the retry count reaches
5 as an `int32`) and at least one where the log goes further, and `last_log_term` is the
store's term at `last_log_idx`, or below the store's start the snapshot's. -/
structure BuiltRequest (s s' : RaftServer) (pid : Nat) (req : ReqMsg) : Prop where
  after : req.lastLogIdx = (s'.peers pid).nextLogIdx - 1
  fromStart : s.logStore.startIndex ≤ req.lastLogIdx + 1
  toEnd : req.lastLogIdx + 1 + req.logEntries.length ≤ s.logStore.nextSlot
  entries : ∀ k < req.logEntries.length,
    req.logEntries[k]? = s.logStore.entryAt (req.lastLogIdx + 1 + k)
  termInStore : s.logStore.startIndex ≤ req.lastLogIdx →
    req.lastLogTerm = s.logStore.termAt req.lastLogIdx
  termBelowStore : req.lastLogIdx < s.logStore.startIndex →
    req.lastLogIdx = 0 ∧ req.lastLogTerm = 0 ∨
      ∃ snp, s.lastSnapshot = some snp ∧ snp.lastLogIdx = req.lastLogIdx ∧
        req.lastLogTerm = snp.lastLogTerm
  batch : req.logEntries.length ≤ s.params.maxAppendSize
  retried : 5 ≤ int32Of (s'.peers pid).cntNotApplied → req.logEntries.length ≤ 1
  nonempty : req.lastLogIdx + 1 < s.logStore.nextSlot → 0 < req.logEntries.length

/-- `create_append_entries_req` on a leader whose store starts no later than
`logBase` and ends no earlier, for a peer whose `next_log_idx` is 0 or inside the
log, with `max_append_size >= 1`: `next_log_idx` is initialised lazily, the
fatal check never fires, and the builder delegates to `create_sync_snapshot_req`
or returns a `BuiltRequest`. -/
theorem createAppendEntriesReq_request (s : RaftServer) (pid : Nat) (ready : Bool)
    (store : s.logStore.startIndex ≤ logBase s ∧ logBase s ≤ s.logStore.nextSlot)
    (peer : (s.peers pid).nextLogIdx = 0 ∨
      1 ≤ (s.peers pid).nextLogIdx ∧ (s.peers pid).nextLogIdx ≤ s.logStore.nextSlot)
    (batch : 1 ≤ s.params.maxAppendSize) {s' : RaftServer} {out : BuildOutcome}
    (built : createAppendEntriesReq s pid ready = (s', out)) :
    (s'.peers pid).nextLogIdx =
        (if (s.peers pid).nextLogIdx = 0 then s.logStore.nextSlot else (s.peers pid).nextLogIdx) ∧
      (snapshotFallback s ((s'.peers pid).nextLogIdx - 1) = true ∧
          out = createSyncSnapshotReq pid ((s'.peers pid).nextLogIdx - 1) s.term
            s.quickCommitIndex ready ∨
        ∃ req, out = .message (.appendEntriesRequest req) ∧ BuiltRequest s s' pid req) := by
  have slot := s.logStore.nextSlot_pos
  set p := lazyInit (s.peers pid) s.logStore.nextSlot with hp
  have next : p.nextLogIdx =
      if (s.peers pid).nextLogIdx = 0 then s.logStore.nextSlot else (s.peers pid).nextLogIdx := by
    rw [hp, lazyInit]; split <;> rfl
  have range : 1 ≤ p.nextLogIdx ∧ p.nextLogIdx ≤ s.logStore.nextSlot := by
    rw [next]; split <;> omega
  unfold createAppendEntriesReq at built
  simp only [← hp, ulongPred_of_pos range.1] at built
  rw [if_neg (by omega)] at built
  split at built
  · -- The snapshot fallback: only the lazy initialisation is stored.
    next fallback =>
    obtain ⟨rfl, rfl⟩ := Prod.mk.inj built
    exact ⟨by simpa using next, .inl ⟨by simpa using fallback, by simp⟩⟩
  · next kept =>
    obtain ⟨rfl, rfl⟩ := Prod.mk.inj built
    obtain ⟨cnt, hcnt⟩ := batchEnd_fst p s.logStore.nextSlot (p.nextLogIdx - 1)
      s.params.maxAppendSize
    obtain ⟨above, inside, within, narrow, wide⟩ :=
      batchEnd_bounds p (show p.nextLogIdx - 1 < s.logStore.nextSlot by omega) batch
    simp only [RaftServer.setPeer_peers_self, hcnt] at wide ⊢
    simp only [Bool.not_eq_true] at kept
    refine ⟨next, .inr ⟨_, rfl, ?_⟩⟩
    dsimp only
    rw [ite_logEntries s.logStore above inside]
    obtain ⟨len, held⟩ :=
      logEntries_getElem? s.logStore (show 0 < p.nextLogIdx - 1 + 1 by omega) above inside
    have fromStart := startIndex_le_of_kept store.1 kept
    refine ⟨by simp, fromStart, ?_,
      fun k lt => (held k (len ▸ lt)).trans (LogStore.entryAt_of_le (by omega)).symm,
      fun start => termForLog_of_start start,
      fun below => termForLog_below_start store.1 kept below, ?_, fun retries => ?_,
      fun further => ?_⟩ <;> dsimp only at *
    · omega
    · omega
    · simp only [RaftServer.setPeer_peers_self] at retries
      have := wide retries; omega
    · have := narrow further; omega

/-- A leader of term 2 whose store is compacted up to its snapshot at index 2, with
a batch of 2 and peer 1 expecting index 3. -/
def reservedLeader : RaftServer :=
  { id := 0, role := .leader, term := 2,
    logStore := ⟨[⟨1, .appLog, 0⟩, ⟨1, .appLog, 0⟩, ⟨2, .appLog, 0⟩, ⟨2, .appLog, 0⟩, ⟨2, .appLog, 0⟩], 3, by decide⟩,
    lastSnapshot := some ⟨2, 1⟩, quickCommitIndex := 2, smCommitIndex := 2,
    leaderCommitIndex := 2, leader := 0, configChanging := false, stopping := false,
    catchingUp := false, initialized := true,
    peers := fun _ => ⟨false, 3, 2, false, false, 0, 0, 0, 0, false, false, 0, 0⟩,
    peerIds := [1], quorumForCommit := 1, params := ⟨100, 2⟩, smCalls := [], exited := false }

/-- Peer 1 of `reservedLeader` is sent a request after index 2, below the store's
start, with the snapshot's term. -/
theorem createAppendEntriesReq_request_reserved :
    (reservedLeader.logStore.startIndex ≤ logBase reservedLeader ∧
        logBase reservedLeader ≤ reservedLeader.logStore.nextSlot) ∧
      ((reservedLeader.peers 1).nextLogIdx = 0 ∨ 1 ≤ (reservedLeader.peers 1).nextLogIdx ∧
        (reservedLeader.peers 1).nextLogIdx ≤ reservedLeader.logStore.nextSlot) ∧
      1 ≤ reservedLeader.params.maxAppendSize ∧
      (((createAppendEntriesReq reservedLeader 1 false).1.peers 1).nextLogIdx =
          (if (reservedLeader.peers 1).nextLogIdx = 0 then reservedLeader.logStore.nextSlot
            else (reservedLeader.peers 1).nextLogIdx) ∧
        (snapshotFallback reservedLeader
              (((createAppendEntriesReq reservedLeader 1 false).1.peers 1).nextLogIdx - 1) = true ∧
            (createAppendEntriesReq reservedLeader 1 false).2 =
              createSyncSnapshotReq 1
                (((createAppendEntriesReq reservedLeader 1 false).1.peers 1).nextLogIdx - 1)
                reservedLeader.term reservedLeader.quickCommitIndex false ∨
          ∃ req, (createAppendEntriesReq reservedLeader 1 false).2 =
              .message (.appendEntriesRequest req) ∧
            BuiltRequest reservedLeader (createAppendEntriesReq reservedLeader 1 false).1 1 req)) :=
  ⟨by decide, by decide, by decide,
    createAppendEntriesReq_request reservedLeader 1 false (by decide) (by decide) (by decide) rfl⟩

example : (createAppendEntriesReq reservedLeader 1 false).2 =
    .message (.appendEntriesRequest ⟨2, 0, 1, 1, 2, 2, [⟨2, .appLog, 0⟩, ⟨2, .appLog, 0⟩]⟩) := rfl

end NuRaft.Source

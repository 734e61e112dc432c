import NuRaft.Guarantees.Builder

/-!
# The busy-flag gate of `request_append_entries(p)`

handle_append_entries.cxx:57-150. A peer with a request in flight is `busy`,
and the dispatcher skips it (lines 121-148); the transport clears the flag when
the request completes or fails. Should that never happen, the skipping dispatch
itself frees the peer once its last send is more than
`heart_beat_interval_ * BUSY_FLAG_LIMIT` ms old, as the `int32` local
`last_ts_ms` reads the timer. So a stuck peer is not stuck for good: the dispatch
that finds it so sends nothing and frees it, and the next one, finding it free,
sends it the request `create_append_entries_req` builds
(`requestAppendEntriesTo_sends`, `busy_escape_sends`). Past 2^31 ms the local
wraps negative and the escape is not taken.

A peer that never answers is retried after each failed send; the retries count
up `cnt_not_applied`, and the request is narrowed to one entry once the count,
read into the `int32` local `cur_cnt`, reaches 5 (`retries_narrow`).
-/
namespace NuRaft.Guarantees
open NuRaft.Source

@[simp] theorem checkReconnect_busy (p : Peer) (hb : Nat) :
    (checkReconnect p hb).busy = p.busy := by
  unfold checkReconnect; split_ifs <;> rfl

@[simp] theorem checkReconnect_lsTimerUs (p : Peer) (hb : Nat) :
    (checkReconnect p hb).lsTimerUs = p.lsTimerUs := by
  unfold checkReconnect; split_ifs <;> rfl

/-- Lines 139-146: a peer whose last send, read in ms as an `int32`, is more
than `heart_beat_interval_ * BUSY_FLAG_LIMIT` ms old is freed. -/
theorem skipBusy_stuck (p : Peer) (hb : Nat)
    (stuck : ((hb * busyFlagLimit : Nat) : Int) < int32Of (p.lsTimerUs / 1000)) :
    (skipBusy p hb).busy = false := by
  unfold skipBusy
  unfold busyFlagLimit at stuck ⊢
  dsimp only
  rw [if_pos (by omega), if_pos stuck]

/-- Lines 121-148: a dispatch that finds the peer busy sends nothing, and only
counts a warning and, once the peer is stuck, frees it. -/
theorem requestAppendEntriesTo_of_busy (s : RaftServer) (pid : Nat) (env : DispatchEnv)
    (hooked : env.callback = .ok) (busy : (s.peers pid).busy = true) :
    requestAppendEntriesTo s pid env =
      (s.setPeer pid (skipBusy (checkReconnect (s.peers pid) s.params.heartBeatInterval)
        s.params.heartBeatInterval), []) := by
  unfold requestAppendEntriesTo
  rw [if_neg (by rw [hooked]; decide)]
  dsimp only
  rw [if_pos (by rw [checkReconnect_busy]; exact busy)]

/-- Lines 85-117: a dispatch that finds the peer free builds on the leader with
the peer marked busy; a message built is sent, and the peer's recovery noted and
its send timer reset. -/
theorem requestAppendEntriesTo_of_message (s : RaftServer) (pid : Nat) (env : DispatchEnv)
    (hooked : env.callback = .ok) (free : (s.peers pid).busy = false) {s' : RaftServer} {m : Msg}
    (built : createAppendEntriesReq
      (s.setPeer pid { checkReconnect (s.peers pid) s.params.heartBeatInterval with busy := true })
      pid env.snapshotReady = (s', .message m)) :
    requestAppendEntriesTo s pid env =
      (s'.setPeer pid { noteRecovery (s'.peers pid) with lsTimerUs := 0 }, [m]) := by
  unfold requestAppendEntriesTo
  rw [if_neg (by rw [hooked]; decide)]
  dsimp only
  rw [if_neg (by rw [checkReconnect_busy, free]; decide), built]

/-- Lines 85-117: a dispatch that finds the peer free sends what the builder
makes of the leader with the peer marked busy. -/
theorem requestAppendEntriesTo_of_free (s : RaftServer) (pid : Nat) (env : DispatchEnv)
    (hooked : env.callback = .ok) (free : (s.peers pid).busy = false) {m : Msg}
    (built : (createAppendEntriesReq
      (s.setPeer pid { checkReconnect (s.peers pid) s.params.heartBeatInterval with busy := true })
      pid env.snapshotReady).2 = .message m) :
    (requestAppendEntriesTo s pid env).2 = [m] := by
  rw [requestAppendEntriesTo_of_message s pid env hooked free (Prod.ext rfl built)]

/-- Lines 85-117 and 186-264 for a free peer whose `next_log_idx` lies in
`[1, next_slot]` and where the builder does not fall back to a snapshot, the
hook letting the request go: the peer is sent one request, after
`next_log_idx - 1`. -/
theorem requestAppendEntriesTo_sends (s : RaftServer) (pid : Nat) (env : DispatchEnv)
    (hooked : env.callback = .ok) (free : (s.peers pid).busy = false)
    (positive : 1 ≤ (s.peers pid).nextLogIdx)
    (inside : (s.peers pid).nextLogIdx ≤ s.logStore.nextSlot)
    (kept : snapshotFallback s ((s.peers pid).nextLogIdx - 1) = false) :
    ∃ req, (requestAppendEntriesTo s pid env).2 = [.appendEntriesRequest req] ∧
      req.dst = pid ∧ req.lastLogIdx = (s.peers pid).nextLogIdx - 1 := by
  -- The builder works on the leader with the peer marked busy, which has the
  -- same log, snapshot and `next_log_idx`.
  obtain ⟨s₁, hs₁⟩ : ∃ s₁, s₁ = s.setPeer pid
      { checkReconnect (s.peers pid) s.params.heartBeatInterval with busy := true } := ⟨_, rfl⟩
  have next : (s₁.peers pid).nextLogIdx = (s.peers pid).nextLogIdx := by simp [hs₁]
  have store : s₁.logStore = s.logStore := by rw [hs₁]; rfl
  rcases createAppendEntriesReq_sends s₁ pid env.snapshotReady (by omega)
      (by rw [next, store]; exact inside) with ⟨fallback, -⟩ | ⟨-, req, sent⟩
  · have same : snapshotFallback s₁ = snapshotFallback s := by rw [hs₁]; rfl
    rw [next, same, kept] at fallback
    cases fallback
  · rw [hs₁] at sent
    refine ⟨req, requestAppendEntriesTo_of_free s pid env hooked free sent,
      (createAppendEntriesReq_header _ _ _ sent).2.1, ?_⟩
    rw [← hs₁] at sent
    rw [(createAppendEntriesReq_appendEntries s₁ pid _ sent).2, lazyInit, if_neg (by omega),
      next, ulongPred_of_pos positive]

/-- A leader of term 1 holding two entries whose peer 1, expected at index 2,
has been busy for 3 s, with a heartbeat of 100 ms. -/
def stuckLeader : RaftServer :=
  { id := 0, role := .leader, term := 1, logStore := ⟨[⟨1, .appLog, 0⟩, ⟨1, .appLog, 0⟩], 1, by decide⟩,
    lastSnapshot := none, quickCommitIndex := 0, smCommitIndex := 0, leaderCommitIndex := 0,
    leader := 0, configChanging := false, stopping := false, catchingUp := false,
    initialized := true,
    peers := fun _ => ⟨false, 2, 1, true, false, 2, 0, 0, 0, false, false, 3000000, 0⟩,
    peerIds := [1], quorumForCommit := 1, params := ⟨100, 10⟩, smCalls := [], exited := false }

/-- Past 2^31 ms the `int32` reading of the timer is negative: the peer stays busy. -/
example : (skipBusy ⟨false, 2, 1, true, false, 2, 0, 0, 0, false, false, 2147484648000, 0⟩
    100).busy = true := by decide

/-! ### Retries to a peer that never answers -/

@[simp] theorem checkReconnect_lastSentIdx (p : Peer) (hb : Nat) :
    (checkReconnect p hb).lastSentIdx = p.lastSentIdx := by
  unfold checkReconnect; split_ifs <;> rfl

@[simp] theorem checkReconnect_cntNotApplied (p : Peer) (hb : Nat) :
    (checkReconnect p hb).cntNotApplied = p.cntNotApplied := by
  unfold checkReconnect; split_ifs <;> rfl

@[simp] theorem noteRecovery_lastSentIdx (p : Peer) : (noteRecovery p).lastSentIdx = p.lastSentIdx := by
  unfold noteRecovery; dsimp only; split_ifs <;> rfl

@[simp] theorem noteRecovery_cntNotApplied (p : Peer) :
    (noteRecovery p).cntNotApplied = p.cntNotApplied := by
  unfold noteRecovery; dsimp only; split_ifs <;> rfl

/-- A retry to `pid`: the transport failed the last send and cleared `busy`
(`set_free`), and `request_append_entries(p)` runs again. -/
def retry (pid : Nat) (env : DispatchEnv) (s : RaftServer) : RaftServer × List Msg :=
  requestAppendEntriesTo (s.setPeer pid { s.peers pid with busy := false }) pid env

/-- `n` retries one after the other. -/
def retries (pid : Nat) (env : DispatchEnv) : Nat → RaftServer → RaftServer
  | 0, s => s
  | n + 1, s => retries pid env n (retry pid env s).1

/-- Lines 213-233 at one retry to a peer whose last request started where its
`next_log_idx` still is, with more than two entries to send: only the peer
changes, its `next_log_idx` stays and `last_sent_idx` stays on it, the retry is
counted in `cnt_not_applied`, and the request carries one entry once the count
read as an `int32` is at least 5 and the whole batch otherwise. -/
theorem retry_counted (s : RaftServer) (pid : Nat) (env : DispatchEnv)
    (hooked : env.callback = .ok) (positive : 1 ≤ (s.peers pid).nextLogIdx)
    (kept : snapshotFallback s ((s.peers pid).nextLogIdx - 1) = false)
    (resent : (s.peers pid).lastSentIdx = (s.peers pid).nextLogIdx)
    (wide : (s.peers pid).nextLogIdx + 1 <
      min s.logStore.nextSlot ((s.peers pid).nextLogIdx + s.params.maxAppendSize)) :
    (retry pid env s).1 = s.setPeer pid ((retry pid env s).1.peers pid) ∧
      ((retry pid env s).1.peers pid).nextLogIdx = (s.peers pid).nextLogIdx ∧
      ((retry pid env s).1.peers pid).lastSentIdx = (s.peers pid).nextLogIdx ∧
      ((retry pid env s).1.peers pid).cntNotApplied = (s.peers pid).cntNotApplied + 1 ∧
      ∃ req, (retry pid env s).2 = [.appendEntriesRequest req] ∧
        req.lastLogIdx = (s.peers pid).nextLogIdx - 1 ∧
        req.logEntries.length =
          if 5 ≤ int32Of ((s.peers pid).cntNotApplied + 1) then 1
          else min s.logStore.nextSlot ((s.peers pid).nextLogIdx + s.params.maxAppendSize) -
            (s.peers pid).nextLogIdx := by
  -- The peer freed, then marked busy by the dispatcher.
  obtain ⟨s₁, h₁⟩ : ∃ t, t = s.setPeer pid { s.peers pid with busy := false } := ⟨_, rfl⟩
  obtain ⟨marked, hm⟩ : ∃ m, m = s₁.setPeer pid
      { checkReconnect (s₁.peers pid) s₁.params.heartBeatInterval with busy := true } := ⟨_, rfl⟩
  have free : (s₁.peers pid).busy = false := by simp [h₁]
  have peer : marked.peers pid = { checkReconnect { s.peers pid with busy := false }
      s.params.heartBeatInterval with busy := true } := by simp [hm, h₁]
  have next : (marked.peers pid).nextLogIdx = (s.peers pid).nextLogIdx := by simp [peer]
  have store : marked.logStore = s.logStore := by rw [hm, h₁]; rfl
  have params : marked.params = s.params := by rw [hm, h₁]; rfl
  have same : snapshotFallback marked = snapshotFallback s := by rw [hm, h₁]; rfl
  -- The batch: the retry is counted, and narrowed from the fifth count on.
  have batch : batchEnd (marked.peers pid) marked.logStore.nextSlot
      ((marked.peers pid).nextLogIdx - 1) marked.params.maxAppendSize =
      ({ marked.peers pid with cntNotApplied := (s.peers pid).cntNotApplied + 1 },
        if 5 ≤ int32Of ((s.peers pid).cntNotApplied + 1) then (s.peers pid).nextLogIdx + 1
        else min s.logStore.nextSlot ((s.peers pid).nextLogIdx + s.params.maxAppendSize)) := by
    unfold batchEnd
    rw [next, store, params, if_pos ⟨by simp [peer, resent]; omega, by omega⟩]
    refine Prod.ext (by simp [peer]) ?_
    dsimp only
    simp only [peer, checkReconnect_cntNotApplied]
    split_ifs <;> omega
  have built := createAppendEntriesReq_eq marked pid env.snapshotReady (next ▸ positive)
    (by rw [next, store]; omega) (by rw [next, same]; exact kept)
  rw [batch] at built
  subst hm
  have sent := requestAppendEntriesTo_of_message s₁ pid env hooked free built
  rw [retry, ← h₁, sent]
  refine ⟨by simp [h₁], by simp [h₁], by simp [h₁], by simp [h₁], _, rfl, by simp [h₁], ?_⟩
  dsimp only
  rw [next, store, if_neg (by omega), (logEntries_getElem? s.logStore (by omega)
    (by split_ifs <;> omega) (by split_ifs <;> omega)).1]
  split_ifs <;> omega

/-- Retries to a peer that never answers, its last request started where its
`next_log_idx` is and more than two entries to send: the `n`-th retry finds
`cnt_not_applied` raised by `n`, and sends the request after
`next_log_idx - 1` with one entry when the raised count read as an `int32` is at
least 5, and with the whole batch otherwise: before the fifth retry, and again
once the count passes 2^31 - 1 and reads negative. -/
theorem retries_narrow (s : RaftServer) (pid : Nat) (env : DispatchEnv)
    (hooked : env.callback = .ok) (positive : 1 ≤ (s.peers pid).nextLogIdx)
    (kept : snapshotFallback s ((s.peers pid).nextLogIdx - 1) = false)
    (resent : (s.peers pid).lastSentIdx = (s.peers pid).nextLogIdx)
    (wide : (s.peers pid).nextLogIdx + 1 <
      min s.logStore.nextSlot ((s.peers pid).nextLogIdx + s.params.maxAppendSize)) (n : Nat) :
    ((retries pid env n s).peers pid).cntNotApplied = (s.peers pid).cntNotApplied + n ∧
      ∃ req, (retry pid env (retries pid env n s)).2 = [.appendEntriesRequest req] ∧
        req.lastLogIdx = (s.peers pid).nextLogIdx - 1 ∧
        req.logEntries.length =
          if 5 ≤ int32Of ((s.peers pid).cntNotApplied + n + 1) then 1
          else min s.logStore.nextSlot ((s.peers pid).nextLogIdx + s.params.maxAppendSize) -
            (s.peers pid).nextLogIdx := by
  induction n generalizing s with
  | zero =>
    obtain ⟨-, -, -, -, sent⟩ := retry_counted s pid env hooked positive kept resent wide
    exact ⟨rfl, sent⟩
  | succ n ih =>
    obtain ⟨only, next, resent', counted, -⟩ :=
      retry_counted s pid env hooked positive kept resent wide
    -- The retried leader keeps every hypothesis, with the count one up.
    have store : (retry pid env s).1.logStore = s.logStore := by rw [only]; rfl
    have params : (retry pid env s).1.params = s.params := by rw [only]; rfl
    have same : snapshotFallback (retry pid env s).1 = snapshotFallback s := by rw [only]; rfl
    obtain ⟨count, sent⟩ := ih (retry pid env s).1 (next ▸ positive)
      (by rw [next, same]; exact kept) (by rw [resent', next])
      (by rw [next, store, params]; exact wide)
    rw [next, store, params, counted,
      show (s.peers pid).cntNotApplied + 1 + n = (s.peers pid).cntNotApplied + (n + 1) by omega]
      at sent
    rw [counted] at count
    exact ⟨by rw [retries, count]; omega, sent⟩

/-- A leader of term 1 holding five entries whose peer 1, expected at index 2,
was last sent the request after index 1 and has not answered. -/
def silentPeerLeader : RaftServer :=
  { stuckLeader with
    logStore := ⟨List.replicate 5 ⟨1, .appLog, 0⟩, 1, by decide⟩
    peers := fun _ => ⟨false, 2, 1, true, false, 2, 0, 0, 0, false, false, 0, 0⟩ }

/-- The fifth retry to peer 1 of `silentPeerLeader` sends a single entry. -/
theorem retries_narrow_silent :
    (⟨.ok, false⟩ : DispatchEnv).callback = .ok ∧ 1 ≤ (silentPeerLeader.peers 1).nextLogIdx ∧
      snapshotFallback silentPeerLeader ((silentPeerLeader.peers 1).nextLogIdx - 1) = false ∧
      (silentPeerLeader.peers 1).lastSentIdx = (silentPeerLeader.peers 1).nextLogIdx ∧
      (silentPeerLeader.peers 1).nextLogIdx + 1 < min silentPeerLeader.logStore.nextSlot
        ((silentPeerLeader.peers 1).nextLogIdx + silentPeerLeader.params.maxAppendSize) ∧
      ((retries 1 ⟨.ok, false⟩ 4 silentPeerLeader).peers 1).cntNotApplied =
        (silentPeerLeader.peers 1).cntNotApplied + 4 ∧
      ∃ req, (retry 1 ⟨.ok, false⟩ (retries 1 ⟨.ok, false⟩ 4 silentPeerLeader)).2 =
          [.appendEntriesRequest req] ∧
        req.lastLogIdx = (silentPeerLeader.peers 1).nextLogIdx - 1 ∧
        req.logEntries.length =
          if 5 ≤ int32Of ((silentPeerLeader.peers 1).cntNotApplied + 4 + 1) then 1
          else min silentPeerLeader.logStore.nextSlot
              ((silentPeerLeader.peers 1).nextLogIdx + silentPeerLeader.params.maxAppendSize) -
            (silentPeerLeader.peers 1).nextLogIdx :=
  ⟨rfl, by decide, rfl, rfl, by decide,
    retries_narrow silentPeerLeader 1 ⟨.ok, false⟩ rfl (by decide) rfl rfl (by decide) 4⟩

/-- The fourth retry still sends the whole batch of four entries, the fifth
one entry. -/
example : (retry 1 ⟨.ok, false⟩ (retries 1 ⟨.ok, false⟩ 3 silentPeerLeader)).2.map
      (fun m => match m with | .appendEntriesRequest req => req.logEntries.length | _ => 0) = [4] ∧
    (retry 1 ⟨.ok, false⟩ (retries 1 ⟨.ok, false⟩ 4 silentPeerLeader)).2.map
      (fun m => match m with | .appendEntriesRequest req => req.logEntries.length | _ => 0) = [1] := by
  decide

/-- With `cnt_not_applied` at 2^31 - 1, the raised count reads negative in
`cur_cnt` and the retry sends the whole batch again. -/
example : (retry 1 ⟨.ok, false⟩ { silentPeerLeader with
      peers := fun _ => ⟨false, 2, 1, true, false, 2, 2147483647, 0, 0, false, false, 0, 0⟩ }).2.map
      (fun m => match m with | .appendEntriesRequest req => req.logEntries.length | _ => 0) = [4] := by
  decide

end NuRaft.Guarantees

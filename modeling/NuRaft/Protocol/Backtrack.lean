import Mathlib.Data.List.Chain
import NuRaft.Protocol.Leader

/-!
# Backtracking `next_log_idx` until a request is accepted

handle_append_entries.cxx:167-174, 319-360 and 572-588. One round of the
exchange builds a request for the peer (`create_append_entries_req`), has the
follower handle it (`handle_append_entries`) and reduces the answer on the
leader (`handle_append_entries_resp`, its catch-up included). A follower at the
leader's term that is neither stopping nor a leader answers every request and
rejects only one that is not log-okay; the request after index 0 always is, so
a rejection comes from a peer whose `next_log_idx` is at least 2, and the
reducer's hint (the follower's `next_slot`, at least 1) or its step back by one
lowers it without reaching 0 (`exchange_step`). The builder sends no request
only on the snapshot path, where `snapshot_fallback` holds (lines 201-203): a
peer in `[1, next_slot]` never reaches the fatal exit. Repeated, the exchange
ends within `next_log_idx` rounds, accepted or on that snapshot path
(`backtrack_converges`), whatever the follower's log and whatever the
environment answers.
-/
namespace NuRaft.Protocol
open NuRaft.Source NuRaft.Guarantees

/-- How one round of the exchange ends. -/
inductive Round where
  /-- `create_append_entries_req` sent no append request: the snapshot path, or
  the fatal exit. -/
  | fallback
  /-- The follower answered nothing: it leads at the request's term. -/
  | unanswered
  /-- The follower answered `resp`; `s` is the leader after
  `handle_append_entries_resp`, `f` the follower after `handle_append_entries`. -/
  | answered (resp : RespMsg) (s f : RaftServer)

/-- One round for peer `pid`, played by the follower `f`: the leader builds a
request, `f` handles it, and the leader reduces the answer. -/
def exchange (s f : RaftServer) (pid : Nat) (ready : Bool) (env : DispatchEnv) : Round :=
  match createAppendEntriesReq s pid ready with
  | (s₁, .message (.appendEntriesRequest req)) =>
    match handleAppendEntries f req with
    | (f₁, some resp) => .answered resp (handleAppendEntriesResp s₁ resp env).1 f₁
    | (_, none) => .unanswered
  | _ => .fallback

/-- A round whose request the follower answers ends with that answer reduced. -/
theorem exchange_answered {s f s₁ : RaftServer} {pid : Nat} {ready : Bool} {env : DispatchEnv}
    {req : ReqMsg} {resp : RespMsg}
    (built : createAppendEntriesReq s pid ready = (s₁, .message (.appendEntriesRequest req)))
    (answered : (handleAppendEntries f req).2 = some resp) :
    exchange s f pid ready env =
      .answered resp (handleAppendEntriesResp s₁ resp env).1 (handleAppendEntries f req).1 := by
  unfold exchange
  rw [built]
  dsimp only
  rw [show handleAppendEntries f req = ((handleAppendEntries f req).1, some resp) from
    Prod.ext rfl answered]

/-- A round whose builder takes the snapshot path sends no append request. -/
theorem exchange_fallback {s f : RaftServer} {pid : Nat} {ready : Bool} {env : DispatchEnv}
    (out : (createAppendEntriesReq s pid ready).2 =
      createSyncSnapshotReq pid ((s.peers pid).nextLogIdx - 1) s.term s.quickCommitIndex ready) :
    exchange s f pid ready env = .fallback := by
  unfold exchange
  rw [show createAppendEntriesReq s pid ready = ((createAppendEntriesReq s pid ready).1,
    createSyncSnapshotReq pid ((s.peers pid).nextLogIdx - 1) s.term s.quickCommitIndex ready)
    from Prod.ext rfl out]
  cases ready <;> rfl

/-- The exchange repeated while the follower rejects, for at most `fuel` rounds;
round `k` sees the environment's answers `ready k` and `env k`. The result lists
the peer's `next_log_idx` after each rejection and how the last round ended;
`none` when the fuel runs out. -/
def backtrack (pid : Nat) (ready : Nat → Bool) (env : Nat → DispatchEnv) :
    Nat → RaftServer → RaftServer → Option (List Nat × Round)
  | 0, _, _ => none
  | fuel + 1, s, f =>
    match exchange s f pid (ready 0) (env 0) with
    | .answered resp s' f' =>
      if resp.accepted then some ([], .answered resp s' f')
      else (backtrack pid (fun k => ready (k + 1)) (fun k => env (k + 1)) fuel s' f').map
        fun run => ((s'.peers pid).nextLogIdx :: run.1, run.2)
    | last => some ([], last)

/-- What a round of the exchange assumes: `pid` is a peer of the leader `s`
whose `next_log_idx` lies in `[1, next_slot]`, and the follower `f` is `pid`, at
the leader's term, neither stopping nor a leader. -/
structure Backtracking (s f : RaftServer) (pid : Nat) : Prop where
  member : pid ∈ s.peerIds
  peer : f.id = pid
  sameTerm : f.term = s.term
  running : f.stopping = false
  follower : f.role ≠ .leader
  positive : 1 ≤ (s.peers pid).nextLogIdx
  inside : (s.peers pid).nextLogIdx ≤ s.logStore.nextSlot

/-- Line 333: the request after index 0 is always log-okay. -/
theorem logOkay_of_zero (f : RaftServer) {req : ReqMsg} (zero : req.lastLogIdx = 0) :
    logOkay f req = true := by
  simp [logOkay, zero]

/-- A follower at the request's term that is neither stopping nor a leader
answers, and rejects only a request that is not log-okay, leaving its log
untouched and answering its `next_slot` as the hint. -/
theorem handleAppendEntries_answer {f : RaftServer} {req : ReqMsg} (sameTerm : req.term = f.term)
    (running : f.stopping = false) (follower : f.role ≠ .leader) :
    ∃ resp, (handleAppendEntries f req).2 = some resp ∧
      (resp.accepted = false → ∃ r, r ≠ .leader ∧
        logOkay { f with catchingUp := false, role := r } req = false ∧
        handleAppendEntries f req = ({ f with catchingUp := false, role := r },
          some (initialResp { f with catchingUp := false, role := r } req))) := by
  rcases handleAppendEntries_cases f req with
    ⟨silent, -⟩ | ⟨s1, entered, ⟨rejects, handled⟩ | ⟨-, -, ⟨s2, stopped, -⟩ | ⟨s2, -, handled⟩⟩⟩
  · -- Only a leader at the request's term answers nothing.
    unfold enterRequest at silent
    cases hr : f.role <;> simp_all
  · obtain ⟨r, rfl, kept⟩ := enterRequest_some entered
    refine ⟨_, by rw [handled], fun _ => ⟨r, kept follower, ?_, handled⟩⟩
    exact rejects.resolve_left (by simp [sameTerm])
  · -- With `stopping_` clear the loops never return early.
    have done := storeEntries_completed { s1 with initialized := true } req
      (by obtain ⟨r, rfl, -⟩ := enterRequest_some entered; exact running)
    rw [stopped] at done
    cases done
  · exact ⟨_, by rw [handled], fun rejected => by simp [acceptedResp] at rejected⟩

/-- Lines 572-581: a rejection with a positive hint from a peer whose
`next_log_idx` is at least 2 lowers it, not below 1; the catch-up after it
changes nothing more than a `DispatchFrame`. -/
theorem handleAppendEntriesResp_backtracks {s : RaftServer} {resp : RespMsg} {pid : Nat}
    (env : DispatchEnv) (src : resp.src = pid) (member : pid ∈ s.peerIds)
    (rejected : resp.accepted = false) (hint : 0 < resp.nextIdx)
    (deep : 2 ≤ (s.peers pid).nextLogIdx) :
    1 ≤ ((handleAppendEntriesResp s resp env).1.peers pid).nextLogIdx ∧
      ((handleAppendEntriesResp s resp env).1.peers pid).nextLogIdx < (s.peers pid).nextLogIdx ∧
      DispatchFrame (rejectResp s resp) (handleAppendEntriesResp s resp env).1 := by
  subst src
  have frame := handleAppendEntriesResp_dispatchFrame s resp env member
  rw [if_neg (by simp [rejected])] at frame
  have back : 1 ≤ ((rejectResp s resp).peers resp.src).nextLogIdx ∧
      ((rejectResp s resp).peers resp.src).nextLogIdx < (s.peers resp.src).nextLogIdx := by
    rw [rejectResp_nextLogIdx, if_pos rfl, ulongPred_of_pos (by omega)]
    split <;> omega
  rcases frame.nextLogIdx resp.src with same | ⟨zero, -⟩
  · exact ⟨same ▸ back.1, same ▸ back.2, frame⟩
  · omega

/-- One round under `Backtracking`: the builder takes the snapshot path, which
it does only where `snapshot_fallback` holds at `next_log_idx - 1`, or the
follower answers, and a rejection lowers the peer's `next_log_idx` and leaves
`Backtracking` in place for the next round, under the same snapshot test. -/
theorem exchange_step {s f : RaftServer} {pid : Nat} (h : Backtracking s f pid) (ready : Bool)
    (env : DispatchEnv) :
    exchange s f pid ready env = .fallback ∧
        snapshotFallback s ((s.peers pid).nextLogIdx - 1) = true ∨
      ∃ resp s' f', exchange s f pid ready env = .answered resp s' f' ∧
        (resp.accepted = false →
          (s'.peers pid).nextLogIdx < (s.peers pid).nextLogIdx ∧ Backtracking s' f' pid ∧
            snapshotFallback s' = snapshotFallback s) := by
  have positive := h.positive
  rcases createAppendEntriesReq_sends s pid ready positive h.inside with
    ⟨fallback, out⟩ | ⟨-, req, sent⟩
  · exact .inl ⟨exchange_fallback out, fallback⟩
  obtain ⟨term, after⟩ := createAppendEntriesReq_appendEntries s pid ready sent
  have frame := createAppendEntriesReq_frame s pid ready
  obtain ⟨resp, answered, rejects⟩ :=
    handleAppendEntries_answer (term.trans h.sameTerm.symm) h.running h.follower
  refine .inr ⟨resp, (handleAppendEntriesResp (createAppendEntriesReq s pid ready).1 resp env).1,
    (handleAppendEntries f req).1, exchange_answered (Prod.ext rfl sent) answered, fun rejected => ?_⟩
  obtain ⟨r, leads, bad, handled⟩ := rejects rejected
  rw [handled]
  -- The request was after `next_log_idx - 1`, not log-okay, so not after 0.
  have deep : 2 ≤ (s.peers pid).nextLogIdx := by
    rw [lazyInit, if_neg (by omega), ulongPred_of_pos positive] at after
    by_contra shallow
    rw [logOkay_of_zero _ (by omega)] at bad
    cases bad
  have old := frame.nextLogIdx_of_pos positive
  have hint : 0 < resp.nextIdx := by
    rw [handled] at answered; rw [← Option.some.inj answered]; exact LogStore.nextSlot_pos _
  -- Name the leader after the build and after the reducer.
  revert frame old
  generalize (createAppendEntriesReq s pid ready).1 = s₁
  intro frame old
  obtain ⟨floor, lower, reduced⟩ := handleAppendEntriesResp_backtracks env
    ((handleAppendEntries_src f req answered).trans h.peer) (frame.peerIds ▸ h.member) rejected
    hint (old ▸ deep)
  revert floor lower reduced
  generalize (handleAppendEntriesResp s₁ resp env).1 = s'
  intro floor lower reduced
  have store : s'.logStore = s.logStore := reduced.logStore.trans frame.logStore
  rw [old] at lower
  exact ⟨lower, ⟨(reduced.peerIds.trans frame.peerIds) ▸ h.member, h.peer,
    h.sameTerm.trans (reduced.term.trans frame.term).symm, h.running, leads, floor,
    store ▸ lower.le.trans h.inside⟩,
    snapshotFallback_congr store (reduced.lastSnapshot.trans frame.lastSnapshot)⟩

/-- From a peer whose `next_log_idx` lies in `[1, next_slot]` and a follower at
the leader's term that is neither stopping nor a leader, and with at least
`next_log_idx` rounds of fuel, the exchange ends after fewer than
`next_log_idx` rejections, each lowering `next_log_idx` strictly and keeping it
at least 1: accepted, or at the snapshot path, which the builder takes only
where `snapshot_fallback` holds after the last `next_log_idx` it reached. -/
theorem backtrack_converges {s f : RaftServer} {pid : Nat} (h : Backtracking s f pid)
    (ready : Nat → Bool) (env : Nat → DispatchEnv) {fuel : Nat}
    (enough : (s.peers pid).nextLogIdx ≤ fuel) :
    ∃ trail last, backtrack pid ready env fuel s f = some (trail, last) ∧
      ((s.peers pid).nextLogIdx :: trail).Chain' (· > ·) ∧ (∀ next ∈ trail, 1 ≤ next) ∧
      trail.length < (s.peers pid).nextLogIdx ∧
      (last = .fallback ∧
          snapshotFallback s (trail.getLastD (s.peers pid).nextLogIdx - 1) = true ∨
        ∃ resp s' f', last = .answered resp s' f' ∧ resp.accepted = true) := by
  have positive := h.positive
  induction fuel generalizing s f ready env with
  | zero => omega
  | succ fuel ih =>
    rcases exchange_step h (ready 0) (env 0) with ⟨fell, path⟩ | ⟨resp, s', f', round, rejects⟩
    · exact ⟨[], _, by simp [backtrack, fell], List.chain'_singleton _, by simp,
        by simp; omega, .inl ⟨rfl, path⟩⟩
    · cases accepted : resp.accepted
      · -- A rejection: the rest of the run starts one index lower.
        obtain ⟨lower, h', same⟩ := rejects accepted
        obtain ⟨trail, last, run, chain, floor, short, ends⟩ :=
          ih h' (fun k => ready (k + 1)) (fun k => env (k + 1)) (by omega) h'.positive
        rw [same] at ends
        refine ⟨_ :: trail, last, by simp [backtrack, round, accepted, run], .cons lower chain,
          ?_, by simp; omega, by rwa [List.getLastD_cons]⟩
        simpa using ⟨h'.positive, floor⟩
      · exact ⟨[], _, by simp [backtrack, round, accepted], List.chain'_singleton _, by simp,
          by simp; omega, .inr ⟨resp, s', f', rfl, accepted⟩⟩

/-- A leader of term 2 holding terms `[1, 1, 2, 2, 2]` whose peer 1 expects
index 6. -/
def divergedLeader : RaftServer :=
  { id := 0, role := .leader, term := 2,
    logStore := ⟨[⟨1, .appLog, 0⟩, ⟨1, .appLog, 0⟩, ⟨2, .appLog, 0⟩, ⟨2, .appLog, 0⟩, ⟨2, .appLog, 0⟩],
      1, by decide⟩,
    lastSnapshot := none, quickCommitIndex := 0, smCommitIndex := 0, leaderCommitIndex := 0,
    leader := 0, configChanging := false, stopping := false, catchingUp := false,
    initialized := true, peers := fun _ => ⟨false, 6, 0, false, false, 0, 0, 0, 0, false, false, 0, 0⟩,
    peerIds := [1], quorumForCommit := 1, params := ⟨100, 100⟩, smCalls := [], exited := false }

/-- Its follower 1, holding `[1, 1, 1]`: rejected at 5 with hint 4, then at 3,
and accepted after 2. -/
theorem backtrack_converges_diverged :
    Backtracking divergedLeader (followerWith 2 (List.replicate 3 ⟨1, .appLog, 0⟩) 0 0 [] false) 1 ∧
      (divergedLeader.peers 1).nextLogIdx ≤ 6 ∧
      ∃ trail last, backtrack 1 (fun _ => false) (fun _ => ⟨.ok, false⟩) 6 divergedLeader
          (followerWith 2 (List.replicate 3 ⟨1, .appLog, 0⟩) 0 0 [] false) = some (trail, last) ∧
        ((divergedLeader.peers 1).nextLogIdx :: trail).Chain' (· > ·) ∧ (∀ next ∈ trail, 1 ≤ next) ∧
        trail.length < (divergedLeader.peers 1).nextLogIdx ∧
        (last = .fallback ∧ snapshotFallback divergedLeader
            (trail.getLastD (divergedLeader.peers 1).nextLogIdx - 1) = true ∨
          ∃ resp s' f', last = .answered resp s' f' ∧ resp.accepted = true) := by
  have h : Backtracking divergedLeader
      (followerWith 2 (List.replicate 3 ⟨1, .appLog, 0⟩) 0 0 [] false) 1 :=
    ⟨by decide, rfl, rfl, rfl, by decide, by decide, by decide⟩
  exact ⟨h, le_rfl, backtrack_converges h (fun _ => false) (fun _ => ⟨.ok, false⟩) le_rfl⟩

example : (backtrack 1 (fun _ => false) (fun _ => ⟨.ok, false⟩) 6 divergedLeader
    (followerWith 2 (List.replicate 3 ⟨1, .appLog, 0⟩) 0 0 [] false)).map Prod.fst =
      some [4, 3] := by decide

end NuRaft.Protocol

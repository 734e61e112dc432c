import NuRaft.Protocol.Agreement
import NuRaft.Protocol.Backtrack

/-!
# Catching a follower up with the leader's log

handle_append_entries.cxx:167-241, 319-481 and 518-588. `backtrack_converges`
follows the exchange with one peer to its first acceptance; here it is followed
on, as the reducer's catch-up does (`need_to_catchup` while the accepted
`next_idx` is below `next_slot`, lines 530-533), to the end of the leader's log
(`replicate`).

Under `Syncing` (a follower in Log Matching with the leader's log, at the
leader's term, its snapshot below the peer's `next_log_idx`; a leader whose
entries have positive terms and who sends at least one entry per request)
every round either takes the snapshot path, where `snapshot_fallback` holds, or
is answered and keeps `Syncing` (`exchange_syncs`):

* a rejection lowers `next_log_idx`, and comes only where the follower
  disagrees with the leader at `next_log_idx - 1`;
* an acceptance moves `next_log_idx` to the answer's index, past at least one
  new entry while the leader has one, and the follower agrees with the leader
  below it.

So with `next_log_idx + next_slot` rounds of fuel the exchange ends, at the
snapshot fallback or with the follower's log agreeing with the leader's whole
log, `next_log_idx` at `next_slot` and `matched_idx` at the leader's last index
(`replicate_converges`).
-/
namespace NuRaft.Protocol
open NuRaft.Source NuRaft.Spec NuRaft.Guarantees

/-- What catching peer `pid` up assumes beyond `Backtracking`: the leader's
store is well formed, its entries have positive terms, and it sends at least one
entry per request; the follower's log is a `FollowerLog` of the leader's, its
store starts at 1 or right after its snapshot, and the peer's `next_log_idx` is
above that snapshot. -/
structure Syncing (s f : RaftServer) (pid : Nat) extends Backtracking s f pid : Prop where
  store : LeaderStore s
  terms : ∀ e ∈ s.logStore.entries, 0 < e.term
  batch : 1 ≤ s.params.maxAppendSize
  log : FollowerLog s.logStore.entries s.term f
  start : StoreStart f
  floor : ∀ snp, f.lastSnapshot = some snp → snp.lastLogIdx < (s.peers pid).nextLogIdx

/-- Under `Syncing` the follower's store answers every index from a request
after `next_log_idx - 1` on. -/
theorem Syncing.readable {s f : RaftServer} {pid : Nat} (h : Syncing s f pid) {req : ReqMsg}
    (after : req.lastLogIdx = (s.peers pid).nextLogIdx - 1) :
    f.logStore.startIndex ≤ req.lastLogIdx + 1 := by
  have positive := h.positive
  rcases h.start with one | ⟨snp, hs, le⟩
  · omega
  · have := h.floor snp hs; omega

/-- `Syncing` carries over a round that changes the leader only as a
`LeaderFrame` and the follower only as `handle_append_entries` does, once the
follower's log is still a `FollowerLog` and the peer's new `next_log_idx` lies in
`[1, next_slot]` above the follower's snapshot. -/
theorem Syncing.carry {s f s' f' : RaftServer} {pid : Nat} (h : Syncing s f pid)
    (leader : LeaderFrame s s') (kept : FollowerKept f f')
    (log : FollowerLog s.logStore.entries s.term f')
    (positive : 1 ≤ (s'.peers pid).nextLogIdx)
    (inside : (s'.peers pid).nextLogIdx ≤ s.logStore.nextSlot)
    (floor : ∀ snp, f.lastSnapshot = some snp → snp.lastLogIdx < (s'.peers pid).nextLogIdx) :
    Syncing s' f' pid where
  member := leader.peerIds ▸ h.member
  peer := kept.id.trans h.peer
  sameTerm := kept.term.trans (h.sameTerm.trans leader.term.symm)
  running := kept.stopping.trans h.running
  follower := kept.role
  positive := positive
  inside := leader.logStore ▸ inside
  store := leader.leaderStore h.store
  terms := leader.logStore ▸ h.terms
  batch := leader.params ▸ h.batch
  log := leader.logStore ▸ leader.term ▸ log
  start := h.start.mono kept.snapshot kept.start
  floor snp hs := floor snp (kept.snapshot.symm.trans hs)

/-- What an answered round under `Syncing` leaves: `Syncing` again, the leader's
log and snapshot unchanged, and the peer's indices moved as the answer says. A
rejection lowers `next_log_idx` and leaves the follower's log as it was; the
follower agrees with the leader at no index from the new `next_log_idx` to the
old `next_log_idx - 1`, so the jump to the hint passes over no index where it
does. An acceptance comes only where it agrees at `next_log_idx - 1`; it sets `next_log_idx` to the
answer's index inside the log, past the old one unless both are at `next_slot`,
and `matched_idx` one below, where the follower now agrees with the leader. -/
structure SyncStep (s f : RaftServer) (pid : Nat) (resp : RespMsg) (s' f' : RaftServer) :
    Prop where
  syncing : Syncing s' f' pid
  store : s'.logStore = s.logStore
  snapshot : s'.lastSnapshot = s.lastSnapshot
  rejected : resp.accepted = false →
    (s'.peers pid).nextLogIdx < (s.peers pid).nextLogIdx ∧ f'.logStore = f.logStore ∧
      ∀ k, (s'.peers pid).nextLogIdx - 1 < k → k ≤ (s.peers pid).nextLogIdx - 1 →
        ¬ AgreeUpTo f.logStore.entries s.logStore.entries k
  accepted : resp.accepted = true →
    AgreeUpTo f.logStore.entries s.logStore.entries ((s.peers pid).nextLogIdx - 1) ∧
    (s'.peers pid).nextLogIdx = resp.nextIdx ∧ (s'.peers pid).matchedIdx = resp.nextIdx - 1 ∧
      ((s.peers pid).nextLogIdx < resp.nextIdx ∨ resp.nextIdx = s.logStore.nextSlot) ∧
      resp.nextIdx ≤ s.logStore.nextSlot ∧
      AgreeUpTo f'.logStore.entries s.logStore.entries (resp.nextIdx - 1)

/-- `Syncing` carries over a change of the leader that the dispatcher could make. -/
theorem Syncing.of_frame {s f s' : RaftServer} {pid : Nat} (h : Syncing s f pid)
    (frame : DispatchFrame s s') : Syncing s' f pid := by
  have next := frame.nextLogIdx_of_pos h.positive
  exact h.carry (.of_dispatch frame) (.refl h.follower) h.log (next ▸ h.positive)
    (next ▸ h.inside) (next ▸ h.floor)

/-- A request to `pid` as the leader `s` builds it now: at its term, from it,
after the peer's `next_log_idx - 1`, read off its log, and carrying an entry
while the log goes on past that index. -/
structure Fresh (s : RaftServer) (pid : Nat) (req : ReqMsg) : Prop where
  term : req.term = s.term
  src : req.src = s.id
  dst : req.dst = pid
  after : req.lastLogIdx = (s.peers pid).nextLogIdx - 1
  built : BuiltFrom s.logStore.entries req
  nonempty : (s.peers pid).nextLogIdx < s.logStore.nextSlot → 0 < req.logEntries.length

/-- What `create_append_entries_req` builds for a peer past its lazy
initialisation is `Fresh`. -/
theorem createAppendEntriesReq_fresh {s : RaftServer} {pid : Nat} {ready : Bool} {req : ReqMsg}
    (wf : LeaderStore s) (batch : 1 ≤ s.params.maxAppendSize)
    (positive : 1 ≤ (s.peers pid).nextLogIdx)
    (built : (createAppendEntriesReq s pid ready).2 = .message (.appendEntriesRequest req)) :
    Fresh s pid req := by
  obtain ⟨term, after⟩ := createAppendEntriesReq_appendEntries s pid ready built
  rw [lazyInit, if_neg (by omega), ulongPred_of_pos positive] at after
  obtain ⟨src, dst, -⟩ := createAppendEntriesReq_header s pid ready built
  obtain ⟨-, -, fromL⟩ := (createAppendEntriesReq_spec s pid ready wf).2 _ built
  exact ⟨term, src, dst, after, fromL,
    fun short => createAppendEntriesReq_nonempty s pid ready batch built (by omega)⟩

/-- `Fresh` reads the leader's term, id and log and the peer's `next_log_idx`. -/
theorem Fresh.congr {s s' : RaftServer} {pid : Nat} {req : ReqMsg} (fresh : Fresh s pid req)
    (term : s'.term = s.term) (id : s'.id = s.id) (store : s'.logStore = s.logStore)
    (next : (s'.peers pid).nextLogIdx = (s.peers pid).nextLogIdx) : Fresh s' pid req := by
  refine ⟨term ▸ fresh.term, id ▸ fresh.src, fresh.dst, next ▸ fresh.after, store ▸ fresh.built, ?_⟩
  rw [next, store]
  exact fresh.nonempty

/-- A request stays `Fresh` over a change of the leader that the dispatcher
could make. -/
theorem Fresh.of_frame {s s' : RaftServer} {pid : Nat} {req : ReqMsg} (fresh : Fresh s pid req)
    (frame : DispatchFrame s s') (positive : 1 ≤ (s.peers pid).nextLogIdx) : Fresh s' pid req :=
  fresh.congr frame.term frame.id frame.logStore (frame.nextLogIdx_of_pos positive)

/-- Under `Syncing` the follower rejects a `Fresh` request only where it
disagrees with the leader at `next_log_idx - 1`; so `next_log_idx` is at least
2 (a request after 0 is always log-okay), and the follower's snapshot lies below
`next_log_idx - 1`, where it agrees with the leader. -/
theorem Syncing.rejected_apart {s f : RaftServer} {pid : Nat} {req : ReqMsg} {r : SrvRole}
    (h : Syncing s f pid) (fresh : Fresh s pid req)
    (bad : logOkay { f with catchingUp := false, role := r } req = false) :
    ¬ AgreeUpTo f.logStore.entries s.logStore.entries ((s.peers pid).nextLogIdx - 1) ∧
      2 ≤ (s.peers pid).nextLogIdx ∧
      ∀ snp, f.lastSnapshot = some snp → snp.lastLogIdx + 1 < (s.peers pid).nextLogIdx := by
  have positive := h.positive
  have after := fresh.after
  have apart : ¬ AgreeUpTo f.logStore.entries s.logStore.entries
      ((s.peers pid).nextLogIdx - 1) := fun agree => by
    have okay := logOkay_of_agree h.log h.terms h.start
      (fun snp hs => by have := h.floor snp hs; omega) (after ▸ agree) fresh.built
    rw [show logOkay { f with catchingUp := false, role := r } req = logOkay f req from rfl,
      okay] at bad
    cases bad
  refine ⟨apart, ?_, fun snp hs => ?_⟩
  · by_contra shallow
    rw [logOkay_of_zero _ (by omega)] at bad
    cases bad
  · have agree := (h.log.snapshot snp hs).1
    have floor := h.floor snp hs
    by_contra edge
    exact apart (by rwa [show (s.peers pid).nextLogIdx - 1 = snp.lastLogIdx by omega])

/-- The follower's and the reducer's half of a round under `Syncing`: the
follower answers a `Fresh` request, and the reducer on any leader the dispatcher
could have made of `s` leaves a `SyncStep`. -/
theorem answer_syncs {s f s₁ : RaftServer} {pid : Nat} {req : ReqMsg} (h : Syncing s f pid)
    (fresh : Fresh s pid req) (frame : DispatchFrame s s₁) (env : DispatchEnv) :
    ∃ resp, (handleAppendEntries f req).2 = some resp ∧
      SyncStep s f pid resp (handleAppendEntriesResp s₁ resp env).1 (handleAppendEntries f req).1 := by
  have positive := h.positive
  have inside := h.inside
  have old := frame.nextLogIdx_of_pos positive
  have after := fresh.after
  have fromL := fresh.built
  -- The follower answers, keeps what `FollowerKept` names, and its log advances
  -- towards the leader's.
  obtain ⟨resp, answered, rejects⟩ :=
    handleAppendEntries_answer (fresh.term.trans h.sameTerm.symm) h.running h.follower
  have src : resp.src = pid := (handleAppendEntries_src f req answered).trans h.peer
  have member : resp.src ∈ s₁.peerIds := by rw [src, frame.peerIds]; exact h.member
  have leader := (LeaderFrame.of_dispatch frame).trans
    (handleAppendEntriesResp_frame _ resp env member).1
  have kept := handleAppendEntries_kept f req h.follower
  have readable := h.readable after
  obtain ⟨advances, agreeing⟩ := handleAppendEntries_advances f req h.log fromL readable
  have log := h.log.advance advances kept.snapshot
  refine ⟨resp, answered, ?_⟩
  cases accepted : resp.accepted
  · -- A rejection: the follower disagrees at `next_log_idx - 1`, and answers
    -- its `next_slot` as the hint.
    obtain ⟨r, -, bad, handled⟩ := rejects accepted
    obtain ⟨apart, deep, below⟩ := h.rejected_apart fresh bad
    have hint : resp.nextIdx = f.logStore.nextSlot := by
      rw [handled] at answered; rw [← Option.some.inj answered]; rfl
    obtain ⟨lowered, -⟩ := handleAppendEntriesResp_rejected env member accepted
      (by rw [src, old]; exact deep)
    rw [src, old] at lowered
    refine ⟨h.carry leader kept log ?_ ?_ ?_, leader.logStore, leader.lastSnapshot,
      fun _ => ⟨by rw [lowered]; split <;> omega, by rw [handled], fun k above upto agree => ?_⟩,
      fun a => by simp [accepted] at a⟩
    · rw [lowered]; split <;> omega
    · rw [lowered]; split <;> omega
    · intro snp hs
      have := below snp hs
      have := (h.log.snapshot snp hs).1.1
      rw [lowered, hint]; unfold LogStore.nextSlot; split <;> omega
    · -- Only the jump to the hint passes over an index, and those lie past the
      -- follower's log.
      rw [lowered] at above
      split at above
      · have := agree.1; rw [hint] at above; unfold LogStore.nextSlot at above; omega
      · exact apart (by rwa [show (s.peers pid).nextLogIdx - 1 = k by omega])
  · -- An acceptance: past `next_log_idx - 1` by the request's entries, of which
    -- there is at least one while the leader's log goes on.
    obtain ⟨pos, agree⟩ := agreeing resp answered accepted
    obtain ⟨next, matched, -⟩ := handleAppendEntriesResp_accepted env member accepted pos
    rw [src] at next matched
    have handled : handleAppendEntries f req = ((handleAppendEntries f req).1, some resp) :=
      Prod.ext rfl answered
    have start := accepted_inside (fun snp hs => by
        have := (h.log.snapshot snp hs).1.1; unfold LogStore.nextSlot; omega) handled accepted
    obtain ⟨-, -, -, reply⟩ := accepted_splice h.running start readable handled accepted
    have before := accepted_agree h.log.snapshotConsistent h.log.matching fromL handled accepted
    rw [after] at before
    have within : req.lastLogIdx + req.logEntries.length ≤ s.logStore.entries.length := by
      have := fromL.entries.length_le; simp at this; have := fromL.inside; omega
    have bounded : resp.nextIdx ≤ s.logStore.nextSlot := by unfold LogStore.nextSlot; omega
    refine ⟨h.carry leader kept log (by omega) (by omega) fun snp hs => ?_, leader.logStore,
      leader.lastSnapshot, fun r => by simp [accepted] at r,
      fun _ => ⟨before, next, matched, ?_, bounded, agree⟩⟩
    · have := h.floor snp hs; omega
    · by_cases short : (s.peers pid).nextLogIdx < s.logStore.nextSlot
      · have := fresh.nonempty short; omega
      · omega

/-- One round under `Syncing`: the builder takes the snapshot path, where
`snapshot_fallback` holds at `next_log_idx - 1`, or the follower answers and the
round is a `SyncStep`. -/
theorem exchange_syncs {s f : RaftServer} {pid : Nat} (h : Syncing s f pid) (ready : Bool)
    (env : DispatchEnv) :
    exchange s f pid ready env = .fallback ∧
        snapshotFallback s ((s.peers pid).nextLogIdx - 1) = true ∨
      ∃ resp s' f', exchange s f pid ready env = .answered resp s' f' ∧
        SyncStep s f pid resp s' f' := by
  rcases createAppendEntriesReq_sends s pid ready h.positive h.inside with
    ⟨fallback, out⟩ | ⟨-, req, sent⟩
  · exact .inl ⟨exchange_fallback out, fallback⟩
  obtain ⟨resp, answered, step⟩ := answer_syncs h
    (createAppendEntriesReq_fresh h.store h.batch h.positive sent)
    (createAppendEntriesReq_frame s pid ready) env
  exact .inr ⟨resp, _, _, exchange_answered (Prod.ext rfl sent) answered, step⟩

/-- The run lemma of the backtracking under `Syncing`, for a follower that
agrees with the leader at no index from `next_log_idx` up to `top`: the exchange
ends on the snapshot path, where `snapshot_fallback` holds after the last
`next_log_idx` it reached, or is accepted after that `next_log_idx` less one,
which is the greatest index up to `top` where the follower agrees with the
leader. -/
theorem backtrack_agreement {pid top : Nat} : ∀ (fuel : Nat) (ready : Nat → Bool)
    (env : Nat → DispatchEnv) {s f : RaftServer}, Syncing s f pid →
    (s.peers pid).nextLogIdx ≤ fuel →
    (∀ k, (s.peers pid).nextLogIdx - 1 < k → k ≤ top →
      ¬ AgreeUpTo f.logStore.entries s.logStore.entries k) →
    ∃ trail last, backtrack pid ready env fuel s f = some (trail, last) ∧
      (last = .fallback ∧
          snapshotFallback s (trail.getLastD (s.peers pid).nextLogIdx - 1) = true ∨
        ∃ resp s' f', last = .answered resp s' f' ∧ resp.accepted = true ∧
          AgreeUpTo f.logStore.entries s.logStore.entries
            (trail.getLastD (s.peers pid).nextLogIdx - 1) ∧
          ∀ k ≤ top, AgreeUpTo f.logStore.entries s.logStore.entries k →
            k ≤ trail.getLastD (s.peers pid).nextLogIdx - 1)
  | 0, _, _, _, _, h, enough, _ => by have := h.positive; omega
  | fuel + 1, ready, env, s, f, h, enough, above => by
    rcases exchange_syncs h (ready 0) (env 0) with ⟨fell, path⟩ | ⟨resp, s', f', round, step⟩
    · exact ⟨[], _, by rw [backtrack, fell], .inl ⟨rfl, path⟩⟩
    cases accepted : resp.accepted
    · -- A rejection: the follower's log stays, and the indices passed over are
      -- ones where it disagrees.
      obtain ⟨lower, same, skipped⟩ := step.rejected accepted
      obtain ⟨trail, last, ran, ends⟩ := backtrack_agreement fuel (fun k => ready (k + 1))
        (fun k => env (k + 1)) step.syncing (by omega) fun k low upto => by
          rw [same, step.store]
          by_cases near : k ≤ (s.peers pid).nextLogIdx - 1
          · exact skipped k low near
          · exact above k (by omega) upto
      rw [same, step.store, snapshotFallback_congr step.store step.snapshot] at ends
      exact ⟨(s'.peers pid).nextLogIdx :: trail, last,
        by simp [backtrack, round, accepted, ran], by rw [List.getLastD_cons]; exact ends⟩
    · -- An acceptance after `next_log_idx - 1`, where the follower agrees.
      obtain ⟨agree, -⟩ := step.accepted accepted
      refine ⟨[], _, by simp [backtrack, round, accepted],
        .inr ⟨resp, s', f', rfl, accepted, agree, fun k upto agreeK => ?_⟩⟩
      by_contra beyond
      exact above k (by simp at beyond ⊢; omega) upto agreeK

/-- The fast jump to the follower's hint agrees with stepping back one index at
a time: under `Syncing`, with at least `next_log_idx` rounds of fuel, the
backtracking ends on the snapshot path, where `snapshot_fallback` holds after
the last `next_log_idx` it reached, or is accepted after exactly the greatest
index below `next_log_idx` at which the follower agrees with the leader. -/
theorem backtrack_finds_agreement {s f : RaftServer} {pid : Nat} (h : Syncing s f pid)
    (ready : Nat → Bool) (env : Nat → DispatchEnv) {fuel : Nat}
    (enough : (s.peers pid).nextLogIdx ≤ fuel) :
    ∃ trail last, backtrack pid ready env fuel s f = some (trail, last) ∧
      (last = .fallback ∧
          snapshotFallback s (trail.getLastD (s.peers pid).nextLogIdx - 1) = true ∨
        ∃ resp s' f', last = .answered resp s' f' ∧ resp.accepted = true ∧
          AgreeUpTo f.logStore.entries s.logStore.entries
            (trail.getLastD (s.peers pid).nextLogIdx - 1) ∧
          ∀ k < (s.peers pid).nextLogIdx, AgreeUpTo f.logStore.entries s.logStore.entries k →
            k ≤ trail.getLastD (s.peers pid).nextLogIdx - 1) := by
  obtain ⟨trail, last, ran, ends⟩ :=
    @backtrack_agreement pid ((s.peers pid).nextLogIdx - 1) fuel ready env s f h enough
      fun _ low upto => absurd upto (by omega)
  exact ⟨trail, last, ran, ends.imp_right fun ⟨resp, s', f', ended, accepted, agree, most⟩ =>
    ⟨resp, s', f', ended, accepted, agree, fun k lt => most k (by omega)⟩⟩

/-- The follower of `divergedLeader` holding `[1, 1, 1]`. -/
def divergedFollower : RaftServer := followerWith 2 (List.replicate 3 ⟨1, .appLog, 0⟩) 0 0 [] false

theorem divergedFollower_syncing : Syncing divergedLeader divergedFollower 1 :=
  ⟨⟨by decide, rfl, rfl, rfl, by decide, by decide, by decide⟩, ⟨.inl (by decide), nofun⟩,
    by decide, by decide, ⟨by decide, by decide, nofun⟩, Or.inl (by decide), nofun⟩

/-- `divergedFollower` agrees with `divergedLeader` up to index 2 and the
backtracking from index 6 ends within 6 rounds. -/
theorem backtrack_finds_agreement_diverged :
    Syncing divergedLeader divergedFollower 1 ∧ (divergedLeader.peers 1).nextLogIdx ≤ 6 ∧
      ∃ trail last, backtrack 1 (fun _ => false) (fun _ => ⟨.ok, false⟩) 6 divergedLeader
          divergedFollower = some (trail, last) ∧
        (last = .fallback ∧ snapshotFallback divergedLeader
            (trail.getLastD (divergedLeader.peers 1).nextLogIdx - 1) = true ∨
          ∃ resp s' f', last = .answered resp s' f' ∧ resp.accepted = true ∧
            AgreeUpTo divergedFollower.logStore.entries divergedLeader.logStore.entries
              (trail.getLastD (divergedLeader.peers 1).nextLogIdx - 1) ∧
            ∀ k < (divergedLeader.peers 1).nextLogIdx,
              AgreeUpTo divergedFollower.logStore.entries divergedLeader.logStore.entries k →
                k ≤ trail.getLastD (divergedLeader.peers 1).nextLogIdx - 1) :=
  ⟨divergedFollower_syncing, le_rfl,
    backtrack_finds_agreement divergedFollower_syncing (fun _ => false) (fun _ => ⟨.ok, false⟩)
      le_rfl⟩

example : ((backtrack 1 (fun _ => false) (fun _ => ⟨.ok, false⟩) 6 divergedLeader
    divergedFollower).map fun run => run.1.getLastD 6 - 1) = some 2 := by decide

/-- The exchange with peer `pid` repeated as the reducer's catch-up repeats it:
on after a rejection, and on after an acceptance short of the leader's
`next_slot`; at most `fuel` rounds, round `k` seeing the environment's answers
`ready k` and `env k`. How the last round ended, or `none` when the fuel runs
out. -/
def replicate (pid : Nat) (ready : Nat → Bool) (env : Nat → DispatchEnv) :
    Nat → RaftServer → RaftServer → Option Round
  | 0, _, _ => none
  | fuel + 1, s, f =>
    match exchange s f pid (ready 0) (env 0) with
    | .answered resp s' f' =>
      if resp.accepted = true ∧ s.logStore.nextSlot ≤ resp.nextIdx then
        some (.answered resp s' f')
      else replicate pid (fun k => ready (k + 1)) (fun k => env (k + 1)) fuel s' f'
    | last => some last

/-- How a catch-up of peer `pid` by the leader `s` may end: at the snapshot
fallback of a leader holding a snapshot, or with an acceptance after which the
leader's log is unchanged, the peer's `next_log_idx` is the leader's
`next_slot` and its `matched_idx` the leader's last index, and the follower's
log agrees with the leader's whole log. -/
def Synced (s : RaftServer) (pid : Nat) : Round → Prop
  | .fallback => s.lastSnapshot ≠ none
  | .unanswered => False
  | .answered resp s' f' =>
    resp.accepted = true ∧ s'.logStore = s.logStore ∧
      (s'.peers pid).nextLogIdx = s.logStore.nextSlot ∧
      (s'.peers pid).matchedIdx = s.logStore.nextSlot - 1 ∧
      AgreeUpTo f'.logStore.entries s.logStore.entries s.logStore.entries.length

/-- `Synced` reads the leader's log and snapshot only. -/
theorem Synced.congr {s s' : RaftServer} {pid : Nat} (store : s'.logStore = s.logStore)
    (snapshot : s'.lastSnapshot = s.lastSnapshot) : ∀ {last : Round},
      Synced s' pid last → Synced s pid last
  | .fallback, synced => fun none => synced (snapshot.trans none)
  | .answered _ _ _, ⟨accepted, store', rest⟩ => ⟨accepted, store'.trans store, store ▸ rest⟩

/-- An acceptance that reaches `next_slot` ends the catch-up: the leader's log
unchanged, the peer's indices at the leader's `next_slot` and last index, and
the follower agreeing with the leader's whole log. -/
theorem SyncStep.finished {s f s' f' : RaftServer} {pid : Nat} {resp : RespMsg}
    (step : SyncStep s f pid resp s' f')
    (done : resp.accepted = true ∧ s.logStore.nextSlot ≤ resp.nextIdx) :
    s'.logStore = s.logStore ∧ (s'.peers pid).nextLogIdx = s.logStore.nextSlot ∧
      (s'.peers pid).matchedIdx = s.logStore.nextSlot - 1 ∧
      AgreeUpTo f'.logStore.entries s.logStore.entries s.logStore.entries.length := by
  obtain ⟨-, next, matched, -, bounded, agree⟩ := step.accepted done.1
  have whole : resp.nextIdx = s.logStore.nextSlot := by omega
  rw [next, matched, whole]
  exact ⟨step.store, rfl, rfl, by rwa [whole] at agree⟩

/-- Any other answered round takes one round off the budget of the catch-up:
a rejection comes only from a follower that disagreed, so the budget was the
wide one, and an acceptance short of `next_slot` moves `next_log_idx` on, past an
index where the follower now agrees. -/
theorem SyncStep.budget {s f s' f' : RaftServer} {pid fuel : Nat} {resp : RespMsg}
    (step : SyncStep s f pid resp s' f') (positive : 1 ≤ (s.peers pid).nextLogIdx)
    (going : ¬(resp.accepted = true ∧ s.logStore.nextSlot ≤ resp.nextIdx))
    (budget : AgreeUpTo f.logStore.entries s.logStore.entries ((s.peers pid).nextLogIdx - 1) ∧
        s.logStore.nextSlot - (s.peers pid).nextLogIdx < fuel + 1 ∨
      (s.peers pid).nextLogIdx + s.logStore.nextSlot ≤ fuel + 1) :
    AgreeUpTo f'.logStore.entries s'.logStore.entries ((s'.peers pid).nextLogIdx - 1) ∧
        s'.logStore.nextSlot - (s'.peers pid).nextLogIdx < fuel ∨
      (s'.peers pid).nextLogIdx + s'.logStore.nextSlot ≤ fuel := by
  rw [step.store]
  cases accepted : resp.accepted
  · obtain ⟨lower, -, apart⟩ := step.rejected accepted
    have := step.syncing.positive
    refine .inr ?_
    rcases budget with ⟨agree, -⟩ | wide
    · exact absurd agree (apart _ (by omega) le_rfl)
    · omega
  · obtain ⟨-, next, -, progress, -, agree⟩ := step.accepted accepted
    have short : resp.nextIdx < s.logStore.nextSlot := by simp [accepted] at going; omega
    rw [next]
    exact .inl ⟨agree, by rcases budget with ⟨-, tight⟩ | wide <;> omega⟩

/-- The run lemma: from `Syncing`, with fuel above `next_slot - next_log_idx`
when the follower already agrees with the leader below `next_log_idx`, and
`next_log_idx + next_slot` otherwise, the catch-up ends `Synced`. -/
theorem replicate_synced {pid : Nat} : ∀ (fuel : Nat) (ready : Nat → Bool)
    (env : Nat → DispatchEnv) {s f : RaftServer}, Syncing s f pid →
    AgreeUpTo f.logStore.entries s.logStore.entries ((s.peers pid).nextLogIdx - 1) ∧
        s.logStore.nextSlot - (s.peers pid).nextLogIdx < fuel ∨
      (s.peers pid).nextLogIdx + s.logStore.nextSlot ≤ fuel →
    ∃ last, replicate pid ready env fuel s f = some last ∧ Synced s pid last
  | 0, _, _, s, _, _, budget => by have := s.logStore.nextSlot_pos; omega
  | fuel + 1, ready, env, s, f, h, budget => by
    rcases exchange_syncs h (ready 0) (env 0) with ⟨fell, path⟩ | ⟨resp, s', f', round, step⟩
    · obtain ⟨snp, hs, -⟩ := snapshotFallback_eq_true.mp path
      exact ⟨_, by rw [replicate, fell], by simp [Synced, hs]⟩
    rw [replicate, round]
    dsimp only
    by_cases done : resp.accepted = true ∧ s.logStore.nextSlot ≤ resp.nextIdx
    · exact ⟨_, if_pos done, done.1, step.finished done⟩
    rw [if_neg done]
    obtain ⟨last, ran, synced⟩ := replicate_synced fuel _ _ step.syncing (step.budget h.positive done budget)
    exact ⟨last, ran, synced.congr step.store step.snapshot⟩

/-- From `Syncing`, with at least `next_log_idx + next_slot` rounds of fuel, the
catch-up ends, whatever the follower's log and whatever the environment answers:
at the snapshot fallback, which only a leader holding a snapshot takes, or with
the follower's log agreeing with the leader's whole log, the peer's
`next_log_idx` at the leader's `next_slot` and its `matched_idx` at the leader's
last index. -/
theorem replicate_converges {s f : RaftServer} {pid : Nat} (h : Syncing s f pid)
    (ready : Nat → Bool) (env : Nat → DispatchEnv) {fuel : Nat}
    (enough : (s.peers pid).nextLogIdx + s.logStore.nextSlot ≤ fuel) :
    ∃ last, replicate pid ready env fuel s f = some last ∧ Synced s pid last :=
  replicate_synced fuel ready env h (.inr enough)

/-- The catch-up of `divergedFollower` by `divergedLeader` ends within 12
rounds. -/
theorem replicate_converges_diverged :
    Syncing divergedLeader divergedFollower 1 ∧
      (divergedLeader.peers 1).nextLogIdx + divergedLeader.logStore.nextSlot ≤ 12 ∧
      ∃ last, replicate 1 (fun _ => false) (fun _ => ⟨.ok, false⟩) 12 divergedLeader
          divergedFollower = some last ∧ Synced divergedLeader 1 last :=
  ⟨divergedFollower_syncing, by decide,
    replicate_converges divergedFollower_syncing (fun _ => false) (fun _ => ⟨.ok, false⟩)
      (by decide)⟩

example : (match replicate 1 (fun _ => false) (fun _ => ⟨.ok, false⟩) 12 divergedLeader
    divergedFollower with
    | some (.answered _ s' f') =>
      (s'.peers 1).nextLogIdx == 6 && f'.logStore.entries == divergedLeader.logStore.entries
    | _ => false) = true := by decide

end NuRaft.Protocol

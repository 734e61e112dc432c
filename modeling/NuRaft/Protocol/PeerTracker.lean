import NuRaft.Protocol.Agreement

/-!
# The leader's peer tracker across a term

What one action does to the leader's record of a peer (`Replicated.peerStep`):
nothing beyond a `PeerUpdate` (`matched_idx` kept, `next_log_idx` kept or
initialised from 0 to `next_slot`), except that delivering a response from the
peer first sets its indices from the response. Hence:

* delivering an acceptance from the peer sets `matched_idx` to that
  acceptance's `next_idx - 1`, and every other action keeps it
  (`matchedAfter`, `matched_moves_on_acceptance`); a late duplicate of an older
  acceptance moves it down (`late_acceptance_lowers_matched`);
* `matched_idx ≤ next_log_idx - 1`, once `next_log_idx` is set, is established
  by an acceptance and kept by every action but a rejection from the peer
  (`matched_below_next_kept`); a late rejection breaks it
  (`late_rejection_lowers_next`);
* the rejected path steps `next_log_idx` back by one with no floor, so
  duplicated rejections take it from 1 to 0 and then around to `ulongMax`,
  and the next dispatch takes the fatal branch (`duplicate_rejections_wrap`).
-/
namespace NuRaft.Protocol
open NuRaft.Source NuRaft.Spec NuRaft.Guarantees

/-- A `PeerUpdate` only reads the peer's indices and the leader's log. -/
theorem PeerUpdate.congr {s t : RaftServer} {pid : Nat} {p : Peer}
    (peer : t.peers pid = s.peers pid) (store : t.logStore = s.logStore)
    (h : PeerUpdate t pid p) : PeerUpdate s pid p := by
  unfold PeerUpdate at h ⊢
  rwa [← peer, ← store]

/-- What an action does to the leader's record of peer `pid`: when it delivers a
response from `pid`, a `PeerUpdate` of the record the response set; otherwise a
`PeerUpdate` of the record it had. -/
theorem Replicated.peerStep {c c' : Cluster} (inv : Replicated c) {a : Action}
    (h : Protocol.step c a = some c') (pid : Nat) :
    (∃ resp env, a = .deliverResponse resp env ∧ resp.src = pid ∧
        .appendEntriesResponse resp ∈ c.network ∧
        PeerUpdate (if resp.accepted then acceptResp (freePeer c.leader pid) resp
          else rejectResp (freePeer c.leader pid) resp) pid (c'.leader.peers pid)) ∨
      ((∀ resp env, a = .deliverResponse resp env → resp.src ≠ pid) ∧
        PeerUpdate c.leader pid (c'.leader.peers pid)) := by
  have kept : ∀ {l : RaftServer}, l.peers = c.leader.peers →
      PeerUpdate c.leader pid (l.peers pid) := fun same => by rw [same]; exact .refl _ _
  rcases step_cases h with ⟨_, _, rfl, -, rfl⟩ | ⟨env, rfl, -, rfl⟩ | ⟨_, rfl, -, rfl⟩ |
    ⟨q, rfl, -, -, rfl⟩ | ⟨req, rfl, -, notLeader, rfl⟩ |
    ⟨resp, env, rfl, sent, -, member, -, rfl⟩ | ⟨sid, rfl, notLeader, rfl⟩ |
    ⟨sid, rfl, notLeader, rfl⟩
  · exact .inr ⟨nofun, by simpa using kept rfl⟩
  · exact .inr ⟨nofun,
      by simpa using (requestAppendEntries_spec c.leader env inv.store).1.peerUpdate pid⟩
  · exact .inr ⟨nofun, by simpa using (PeerUpdate.refl c.leader pid).keep rfl rfl rfl⟩
  · refine .inr ⟨nofun, ?_⟩
    by_cases hq : pid = q
    · subst hq; simpa [freePeer] using (PeerUpdate.refl c.leader pid).keep rfl rfl rfl
    · simpa [freePeer, RaftServer.setPeer, hq] using PeerUpdate.refl c.leader pid
  · exact .inr ⟨nofun, by simpa [Ne.symm notLeader] using kept rfl⟩
  · have freed := freePeer_frame c.leader resp.src
    have frame := (handleAppendEntriesResp_dispatchFrame (freePeer c.leader resp.src) resp env
      (freed.peerIds ▸ member)).peerUpdate pid
    simp only [Cluster.send_leader, Cluster.setServer_leader, if_pos rfl]
    by_cases src : resp.src = pid
    · subst src; exact .inl ⟨resp, env, rfl, rfl, sent, frame⟩
    · refine .inr ⟨fun _ _ same => by cases same; exact src,
        frame.congr ?_ (by split <;> rfl)⟩
      split <;> simp [acceptResp, rejectResp, freePeer, RaftServer.setPeer, Ne.symm src]
  -- A follower's `commit_in_bg` or `stopping_` leaves the leader as it is.
  all_goals exact .inr ⟨nofun, by simpa [Ne.symm notLeader] using kept rfl⟩

/-- What an action makes of peer `pid`'s `matched_idx` `old`: the delivery of
an acceptance from `pid` sets it to the acceptance's `next_idx - 1`, and every
other action keeps it. -/
def matchedAfter (a : Action) (pid old : Nat) : Nat :=
  match a with
  | .deliverResponse resp _ =>
    if resp.src = pid ∧ resp.accepted = true then resp.nextIdx - 1 else old
  | _ => old

/-- In every reachable state, each action moves a peer's `matched_idx` as
`matchedAfter` says: to `next_idx - 1` on the delivery of an acceptance from the
peer, late and duplicated ones included, and nowhere on any other action. -/
theorem matched_moves_on_acceptance {c c' : Cluster} (reach : Reachable c) {a : Action}
    (stepped : step c a = some c') (pid : Nat) :
    (c'.leader.peers pid).matchedIdx = matchedAfter a pid (c.leader.peers pid).matchedIdx := by
  have inv := Replicated.reachable reach
  rcases inv.peerStep stepped pid with ⟨resp, env, rfl, rfl, sent, update⟩ | ⟨other, update⟩
  · rw [update.1]
    by_cases accepted : resp.accepted
    · obtain ⟨pos, -⟩ := (inv.network _ sent).2 accepted
      simp [matchedAfter, accepted, ulongPred_of_pos pos]
    · simp [matchedAfter, accepted]
  · rw [update.1]
    cases a with
    | deliverResponse resp env => simp [matchedAfter, other resp env rfl]
    | _ => rfl

/-- The second catch-up request, carrying entry 2. -/
def secondEntry : ReqMsg :=
  { term := 1, src := 0, dst := 1, lastLogTerm := 1, lastLogIdx := 1, commitIdx := 1,
    logEntries := [⟨1, .appLog, 2⟩] }

def secondAccepted : RespMsg := { term := 1, src := 1, dst := 0, nextIdx := 3, accepted := true }

theorem bothEntries_run :
    (run twoNode (catchUpActions ++ [.deliverRequest secondEntry,
      .deliverResponse secondAccepted hookOk])).isSome := by decide

/-- Peer 1 holds both entries and is matched at 2. -/
def bothEntries : Cluster :=
  (run twoNode (catchUpActions ++ [.deliverRequest secondEntry,
    .deliverResponse secondAccepted hookOk])).get bothEntries_run

theorem lateAcceptance_step :
    (step bothEntries (.deliverResponse firstAccepted hookOk)).isSome := by
  decide

def lateAcceptance : Cluster :=
  (step bothEntries (.deliverResponse firstAccepted hookOk)).get lateAcceptance_step

/-- The acceptance of the first entry, delivered again after the second one,
takes `matched_idx` from 2 back to 1. -/
theorem late_acceptance_lowers_matched :
    Reachable bothEntries ∧
      step bothEntries (.deliverResponse firstAccepted hookOk) = some lateAcceptance ∧
      (bothEntries.leader.peers 1).matchedIdx = 2 ∧
      (lateAcceptance.leader.peers 1).matchedIdx = 1 :=
  ⟨(Reachable.init twoNode_init).run_get bothEntries_run, Option.eq_some_of_isSome _,
    by decide, by decide⟩

/-- The late acceptance is an acceptance from peer 1, moving `matched_idx` to
its `next_idx - 1`. -/
theorem matched_moves_on_acceptance_late :
    Reachable bothEntries ∧
      step bothEntries (.deliverResponse firstAccepted hookOk) = some lateAcceptance ∧
      (lateAcceptance.leader.peers 1).matchedIdx =
        matchedAfter (.deliverResponse firstAccepted hookOk) 1
          (bothEntries.leader.peers 1).matchedIdx :=
  have reach := (Reachable.init twoNode_init).run_get bothEntries_run
  ⟨reach, Option.eq_some_of_isSome _,
    matched_moves_on_acceptance reach (Option.eq_some_of_isSome lateAcceptance_step) 1⟩

/-- `matched_idx ≤ next_log_idx - 1`, once `next_log_idx` is set. -/
def MatchedBelowNext (p : Peer) : Prop := p.nextLogIdx = 0 ∨ p.matchedIdx ≤ p.nextLogIdx - 1

instance (p : Peer) : Decidable (MatchedBelowNext p) := inferInstanceAs (Decidable (_ ∨ _))

/-- Delivering an acceptance from a peer establishes `MatchedBelowNext` for it,
and every action but the delivery of a rejection from it keeps it. -/
theorem matched_below_next_kept {c c' : Cluster} (reach : Reachable c) {a : Action}
    (stepped : step c a = some c') {pid : Nat} (member : pid ∈ c.leader.peerIds)
    (before : MatchedBelowNext (c.leader.peers pid) ∨
      ∃ resp env, a = .deliverResponse resp env ∧ resp.src = pid ∧ resp.accepted = true)
    (notRejection : ¬ ∃ resp env, a = .deliverResponse resp env ∧ resp.src = pid ∧
      resp.accepted = false) :
    MatchedBelowNext (c'.leader.peers pid) := by
  have inv := Replicated.reachable reach
  rcases inv.peerStep stepped pid with
    ⟨resp, env, rfl, rfl, sent, matched, -, next⟩ | ⟨other, matched, -, next⟩
  · have accepted : resp.accepted = true := by
      by_contra rejected
      exact notRejection ⟨resp, env, rfl, rfl, by simpa using rejected⟩
    obtain ⟨pos, -⟩ := (inv.network _ sent).2 accepted
    simp only [accepted, if_true, acceptResp_matchedIdx, acceptResp_nextLogIdx,
      ulongPred_of_pos pos] at matched next
    right
    omega
  · have before := before.resolve_right fun ⟨resp, env, ha, src, _⟩ => other resp env ha src
    have inside := inv.matched pid member
    simp only [MatchedBelowNext, LogStore.nextSlot] at before next ⊢
    omega

/-- The late acceptance of the first entry establishes `MatchedBelowNext` for
peer 1. -/
theorem matched_below_next_kept_late :
    Reachable bothEntries ∧
      step bothEntries (.deliverResponse firstAccepted hookOk) = some lateAcceptance ∧
      MatchedBelowNext (lateAcceptance.leader.peers 1) :=
  have reach := (Reachable.init twoNode_init).run_get bothEntries_run
  ⟨reach, Option.eq_some_of_isSome _,
    matched_below_next_kept reach (Option.eq_some_of_isSome lateAcceptance_step) (by decide)
      (.inr ⟨firstAccepted, hookOk, rfl, rfl, rfl⟩)
      fun ⟨_, _, same, _, rejected⟩ => by cases same; cases rejected⟩

theorem lateRejection_step : (step bothEntries (.deliverResponse probeRejected hookOk)).isSome := by
  decide

def lateRejection : Cluster :=
  (step bothEntries (.deliverResponse probeRejected hookOk)).get lateRejection_step

/-- The rejection of the first probe, delivered again after both acceptances,
moves `next_log_idx` to its hint 1 below `matched_idx + 1 = 3`. -/
theorem late_rejection_lowers_next :
    Reachable lateRejection ∧ 1 ∈ lateRejection.leader.peerIds ∧
      MatchedBelowNext (bothEntries.leader.peers 1) ∧
      step bothEntries (.deliverResponse probeRejected hookOk) = some lateRejection ∧
      (lateRejection.leader.peers 1).nextLogIdx = 1 ∧
      ¬ MatchedBelowNext (lateRejection.leader.peers 1) :=
  ⟨((Reachable.init twoNode_init).run_get bothEntries_run).step (Option.eq_some_of_isSome _),
    by decide, by decide, Option.eq_some_of_isSome _, by decide, by decide⟩

/-- The observer hook cancels the request (`ReturnNull`). -/
def hookVeto : DispatchEnv := ⟨.returnNull, false⟩

/-- The probe is rejected with hint 1 three times; the hook cancels the
catch-up after the second and third. -/
def wrapActions : List Action :=
  [.requestAppendEntries fun _ => hookOk, .deliverRequest probe,
    .deliverResponse probeRejected hookOk, .deliverResponse probeRejected hookVeto,
    .deliverResponse probeRejected hookVeto]

theorem wrapActions_run : (run twoNode wrapActions).isSome := by decide

def wrapped : Cluster := (run twoNode wrapActions).get wrapActions_run

theorem fatalDispatch_step : (step wrapped (.requestAppendEntries fun _ => hookOk)).isSome := by
  decide

def fatalDispatch : Cluster :=
  (step wrapped (.requestAppendEntries fun _ => hookOk)).get fatalDispatch_step

/-- The rejections take `next_log_idx` from 1 to 0 and then to `ulongMax`,
past the leader's `next_slot`; the next dispatch takes the fatal branch. -/
theorem duplicate_rejections_wrap :
    Reachable wrapped ∧ (wrapped.leader.peers 1).nextLogIdx = ulongMax ∧
      wrapped.leader.logStore.nextSlot < (wrapped.leader.peers 1).nextLogIdx ∧
      step wrapped (.requestAppendEntries fun _ => hookOk) = some fatalDispatch ∧
      fatalDispatch.leader.exited = true :=
  ⟨(Reachable.init twoNode_init).run_get wrapActions_run, by decide, by decide,
    Option.eq_some_of_isSome _, by decide⟩

end NuRaft.Protocol

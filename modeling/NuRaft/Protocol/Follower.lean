import Mathlib.Data.List.Infix
import NuRaft.Guarantees.Overwrite
import NuRaft.Guarantees.Redelivery

/-!
# A follower handling requests read off the leader's log

Within one term every request a follower receives carries entries of the
leader's log `L` (`BuiltFrom`). The follower's side of the replication argument
is that handling such a request only moves its log towards `L`:

* where the store answers every index from the request's `last_log_idx + 1` on,
  the loops leave a log that `Advances` from the old one: the same terms, or
  `L`'s first `j` entries for a `j` up to which the old log disagreed with `L`
  (`storeEntries_advances`);
* so a follower in Log Matching with `L`, holding no entry of the leader's term
  that `L` lacks, with its snapshot on the part that agrees with `L`
  (`FollowerLog`), stays so after every path of `handle_append_entries`, and an
  acceptance it sends names an index up to which its log now agrees with `L`
  (`handleAppendEntries_advances`, `FollowerLog.advance`);
* the leader's log growing by an entry of its own term keeps `FollowerLog`
  (`FollowerLog.append`).
-/
namespace NuRaft.Protocol
open NuRaft.Source NuRaft.Spec NuRaft.Guarantees

/-- A follower's log relative to the leader's log `L` at the leader's term
`term`: in Log Matching with `L`, holding no entry of `term` that `L` lacks, its
snapshot on the part that agrees with `L` and carrying the log's term there. -/
structure FollowerLog (L : List LogEntry) (term : Nat) (f : RaftServer) : Prop where
  matching : LogMatching f.logStore.entries L
  ownTerm : OwnTermFrom f.logStore.entries L term
  snapshot : ∀ snp, f.lastSnapshot = some snp →
    AgreeUpTo f.logStore.entries L snp.lastLogIdx ∧
      termOf f.logStore.entries snp.lastLogIdx = snp.lastLogTerm

namespace FollowerLog

variable {L : List LogEntry} {term : Nat} {f f' : RaftServer}

theorem snapshotConsistent (h : FollowerLog L term f) : SnapshotConsistent f :=
  fun snp hs => (h.snapshot snp hs).imp_left fun agree => agree.1

/-- A log that advances towards `L`, under the same snapshot, stays a
`FollowerLog`. -/
theorem advance (h : FollowerLog L term f)
    (adv : Advances f.logStore.entries L f'.logStore.entries)
    (snap : f'.lastSnapshot = f.lastSnapshot) : FollowerLog L term f' := by
  refine ⟨adv.matching h.matching, adv.ownTerm h.ownTerm, fun snp hs => ?_⟩
  obtain ⟨agree, held⟩ := h.snapshot snp (snap ▸ hs)
  have agree' := adv.agree agree
  exact ⟨agree', by rw [agree'.2.2 _ le_rfl, ← agree.2.2 _ le_rfl, held]⟩

/-- The leader appending an entry of its own term keeps every `FollowerLog`:
no follower holds an entry of that term beyond `L`. -/
theorem append (h : FollowerLog L term f) {e : LogEntry} (own : e.term = term) :
    FollowerLog (L ++ [e]) term f := by
  have beyond : termOf (L ++ [e]) (L.length + 1) = term := by
    rw [termOf_append_length _ _ Nat.one_pos, termOf_cons_one, own]
  refine ⟨fun i hF hL eq => ?_, fun i hi eq => ?_, fun snp hs => ?_⟩
  · rcases Nat.lt_or_ge L.length i with past | inside
    · obtain rfl : i = L.length + 1 := by simp at hL; omega
      have := (h.ownTerm _ hF (eq.trans beyond)).1
      omega
    · rw [termOf_append_left inside] at eq
      exact (h.matching i hF inside eq).append_right [e]
  · obtain ⟨inside, held⟩ := h.ownTerm i hi eq
    exact ⟨by simp; omega, by rw [termOf_append_left inside, held]⟩
  · obtain ⟨agree, held⟩ := h.snapshot snp hs
    exact ⟨agree.append_right [e], held⟩

end FollowerLog

/-- The loops, for a request whose entries are read off `L` and which starts
where the store agrees with `L`: the store advances towards `L`, and when the
loops run to their end it agrees with `L` up to the request's last entry. -/
theorem storeEntries_advances (s : RaftServer) (req : ReqMsg) {L : List LogEntry}
    (agree : AgreeUpTo s.logStore.entries L req.lastLogIdx)
    (entries : req.logEntries <+: L.drop req.lastLogIdx)
    (readable : s.logStore.startIndex ≤ req.lastLogIdx + 1) :
    Advances s.logStore.entries L (storeEntries s req).server.logStore.entries ∧
      (storeEntries s req = .completed (storeEntries s req).server →
        AgreeUpTo (storeEntries s req).server.logStore.entries L
          (req.lastLogIdx + req.logEntries.length)) := by
  obtain ⟨n, hn, held, conflict, full, cut⟩ :=
    storeEntries_spec_readable s req (Nat.lt_succ_of_le agree.1) readable
  have within : req.lastLogIdx + req.logEntries.length ≤ L.length := by
    have := entries.length_le; simp at this; have := agree.2.1; omega
  have fromL : ∀ t, t < req.logEntries.length →
      termOf req.logEntries (t + 1) = termOf L (req.lastLogIdx + t + 1) :=
    fun t lt => termOf_of_prefix_drop entries (Nat.succ_pos t) lt
  have agreeN : AgreeUpTo s.logStore.entries L (req.lastLogIdx + n) := by
    refine ⟨?_, by omega, fun i hi => ?_⟩
    · rcases Nat.eq_zero_or_pos n with zero | pos
      · rw [zero]; exact agree.1
      · have := (held (n - 1) (by omega)).1; omega
    · rcases Nat.lt_or_ge req.lastLogIdx i with lt | le
      · obtain ⟨t, rfl⟩ : ∃ t, i = req.lastLogIdx + t + 1 :=
          ⟨i - req.lastLogIdx - 1, by omega⟩
        rw [(held t (by omega)).2, fromL t (by omega)]
      · exact agree.2.2 i le
  rcases Nat.lt_or_ge n req.logEntries.length with short | whole
  · -- The first conflict, or the end of the store, is at `last_log_idx + n + 1`;
    -- what follows it is `rest`, the request's entries from there.
    obtain ⟨stored, completed⟩ := cut short
    set rest := (req.logEntries.drop n).take (if s.stopping then 1 else req.logEntries.length - n)
    have apart : ¬ AgreeUpTo s.logStore.entries L (req.lastLogIdx + n + 1) := fun h => by
      rcases Nat.lt_or_ge (req.lastLogIdx + n) s.logStore.entries.length with inF | outF
      · exact conflict short inF (by rw [h.2.2 _ le_rfl, fromL n short])
      · have := h.1; omega
    have pre : rest <+: L.drop (req.lastLogIdx + n) :=
      (List.take_prefix _ _).trans (by rw [← List.drop_drop]; exact entries.drop n)
    have same := agreeN.sameTerms_take_append pre
    rw [← stored] at same
    have len : 1 ≤ rest.length ∧ rest.length ≤ req.logEntries.length - n ∧
        (s.stopping = false → rest.length = req.logEntries.length - n) := by
      simp only [rest]; cases s.stopping <;> simp <;> omega
    refine ⟨.inr ⟨_, by omega, fun h => apart (h.mono (by omega)), same⟩, fun done => ?_⟩
    rw [show req.lastLogIdx + n + rest.length = req.lastLogIdx + req.logEntries.length by
      have := len.2.2 (completed.mp done); omega] at same
    exact ((agreeUpTo_take within).mpr le_rfl).of_sameTerms same
  · -- Every entry is held: the loops change nothing.
    rw [full (by omega)]
    exact ⟨.refl _ _, fun _ => by rw [show req.logEntries.length = n by omega]; exact agreeN⟩

/-- `handle_append_entries` keeps the server's id and snapshot, and moves its
store's start down if at all. -/
theorem handleAppendEntries_keeps (f : RaftServer) (req : ReqMsg) :
    (handleAppendEntries f req).1.id = f.id ∧
      (handleAppendEntries f req).1.lastSnapshot = f.lastSnapshot ∧
      (handleAppendEntries f req).1.logStore.startIndex ≤ f.logStore.startIndex := by
  rcases handleAppendEntries_result f req with h | ⟨s1, he, h | h | h⟩ <;> rw [h]
  · exact ⟨rfl, rfl, le_rfl⟩
  · obtain ⟨r, rfl, -⟩ := enterRequest_some he; exact ⟨rfl, rfl, le_rfl⟩
  all_goals
    obtain ⟨r, rfl, -⟩ := enterRequest_some he
    obtain ⟨_, _, _, _, _, start, loops⟩ :=
      storeEntries_frame { f with catchingUp := false, role := r, initialized := true } req
  · rw [loops]; exact ⟨rfl, rfl, start⟩
  · rw [finishAppend_id, finishAppend_lastSnapshot, finishAppend_logStore, loops]
    exact ⟨rfl, rfl, start⟩

/-- What `handle_append_entries` keeps of a server that is not the leader: its
id, term, `stopping_` and snapshot, a role other than leader, and a log store
starting no later. -/
structure FollowerKept (f f' : RaftServer) : Prop where
  id : f'.id = f.id
  term : f'.term = f.term
  stopping : f'.stopping = f.stopping
  role : f'.role ≠ .leader
  snapshot : f'.lastSnapshot = f.lastSnapshot
  start : f'.logStore.startIndex ≤ f.logStore.startIndex

theorem FollowerKept.refl {f : RaftServer} (follower : f.role ≠ .leader) : FollowerKept f f :=
  ⟨rfl, rfl, rfl, follower, rfl, le_rfl⟩

theorem handleAppendEntries_kept (f : RaftServer) (req : ReqMsg) (follower : f.role ≠ .leader) :
    FollowerKept f (handleAppendEntries f req).1 := by
  rcases handleAppendEntries_result f req with h | ⟨s1, he, h | h | h⟩ <;> rw [h]
  · exact ⟨rfl, rfl, rfl, follower, rfl, le_rfl⟩
  all_goals obtain ⟨r, rfl, leads⟩ := enterRequest_some he
  · exact ⟨rfl, rfl, rfl, leads follower, rfl, le_rfl⟩
  all_goals
    obtain ⟨_, _, _, _, _, start, loops⟩ :=
      storeEntries_frame { f with catchingUp := false, role := r, initialized := true } req
    rw [loops]
  · exact ⟨rfl, rfl, rfl, leads follower, rfl, start⟩
  · obtain ⟨q, hq⟩ := finishAppend_eq _ req
    rw [hq]
    exact ⟨rfl, rfl, rfl, leads follower, rfl, start⟩

/-- Every response names the server that sends it. -/
theorem handleAppendEntries_src (f : RaftServer) (req : ReqMsg) {resp : RespMsg}
    (sent : (handleAppendEntries f req).2 = some resp) : resp.src = f.id := by
  rcases handleAppendEntries_cases f req with
    ⟨-, h⟩ | ⟨s1, he, ⟨-, h⟩ | ⟨-, -, ⟨s2, -, h⟩ | ⟨s2, -, h⟩⟩⟩ <;>
    rw [h] at sent <;> cases sent
  all_goals obtain ⟨r, rfl, -⟩ := enterRequest_some he; rfl

/-- Every response goes back to the request's sender. -/
theorem handleAppendEntries_dst (f : RaftServer) (req : ReqMsg) {resp : RespMsg}
    (sent : (handleAppendEntries f req).2 = some resp) : resp.dst = req.src := by
  rcases handleAppendEntries_cases f req with
    ⟨-, h⟩ | ⟨s1, -, ⟨-, h⟩ | ⟨-, -, ⟨s2, -, h⟩ | ⟨s2, -, h⟩⟩⟩ <;>
    rw [h] at sent <;> cases sent <;> rfl

/-- An acceptance names the index after the request's last entry (line 481). -/
theorem handleAppendEntries_nextIdx (f : RaftServer) (req : ReqMsg) {resp : RespMsg}
    (sent : (handleAppendEntries f req).2 = some resp) (accepted : resp.accepted = true) :
    resp.nextIdx = req.lastLogIdx + req.logEntries.length + 1 := by
  obtain ⟨_, _, -, -, -, -, -, rfl⟩ := accepted_cases (Prod.ext rfl sent) accepted
  rfl

/-- `handle_append_entries` on a follower in `FollowerLog`, for a request read
off `L` that starts where the follower's store answers: every path leaves a log
that `Advances` towards `L`, and an acceptance names an index `next_idx > 0`
with the log agreeing with `L` up to `next_idx - 1`. -/
theorem handleAppendEntries_advances (f : RaftServer) (req : ReqMsg) {L : List LogEntry}
    {term : Nat} (log : FollowerLog L term f) (built : BuiltFrom L req)
    (readable : f.logStore.startIndex ≤ req.lastLogIdx + 1) :
    Advances f.logStore.entries L (handleAppendEntries f req).1.logStore.entries ∧
      ∀ resp, (handleAppendEntries f req).2 = some resp → resp.accepted = true →
        0 < resp.nextIdx ∧
          AgreeUpTo (handleAppendEntries f req).1.logStore.entries L (resp.nextIdx - 1) := by
  have loops : ∀ s1, enterRequest f req = some s1 → logOkay s1 req = true →
      Advances f.logStore.entries L
          (storeEntries { s1 with initialized := true } req).server.logStore.entries ∧
        (storeEntries { s1 with initialized := true } req =
            .completed (storeEntries { s1 with initialized := true } req).server →
          AgreeUpTo (storeEntries { s1 with initialized := true } req).server.logStore.entries L
            (req.lastLogIdx + req.logEntries.length)) := by
    intro s1 he okay
    obtain ⟨r, entered, -⟩ := enterRequest_some he
    have log1 : FollowerLog L term s1 := by rw [entered]; exact ⟨log.1, log.2, log.3⟩
    have same : s1.logStore = f.logStore := by rw [entered]
    rw [← same]
    exact storeEntries_advances { s1 with initialized := true } req
      (logOkay_agree log1.snapshotConsistent log1.matching built okay) built.entries
      (same ▸ readable)
  rcases handleAppendEntries_cases f req with
    ⟨-, h⟩ | ⟨s1, he, ⟨-, h⟩ | ⟨-, okay, ⟨s2, hst, h⟩ | ⟨s2, hst, h⟩⟩⟩ <;>
    rw [h]
  · exact ⟨.refl _ _, by simp⟩
  · obtain ⟨r, rfl, -⟩ := enterRequest_some he
    exact ⟨.refl _ _, by simp [initialResp]⟩
  · have adv := (loops s1 he okay).1
    rw [hst] at adv
    exact ⟨adv, by simp [initialResp]⟩
  · obtain ⟨adv, done⟩ := loops s1 he okay
    rw [hst] at adv done
    refine ⟨by rw [finishAppend_logStore]; exact adv, fun resp sent _ => ?_⟩
    cases sent
    show 0 < _ + 1 ∧ AgreeUpTo _ L (_ + 1 - 1)
    rw [Nat.add_sub_cancel, finishAppend_logStore]
    exact ⟨Nat.succ_pos _, done rfl⟩

/-- In a log of positive terms no index inside the log has term 0. -/
theorem termOf_pos {log : List LogEntry} (terms : ∀ e ∈ log, 0 < e.term) {i : Nat}
    (pos : 0 < i) (le : i ≤ log.length) : 0 < termOf log i := by
  obtain ⟨j, rfl⟩ : ∃ j, i = j + 1 := ⟨i - 1, by omega⟩
  rw [termOf_of_lt (by omega)]
  exact terms _ (List.get_mem _ _ _)

/-- `log_okay` accepts a request read off `L` from a follower that agrees with
`L` up to the request's `last_log_idx`, once that index is not below the
follower's snapshot and the store starts at 1 or right after the snapshot: the
term there is read from the store, where a log of positive terms never gives 0,
or is the snapshot's own. -/
theorem logOkay_of_agree {f : RaftServer} {req : ReqMsg} {L : List LogEntry} {term : Nat}
    (log : FollowerLog L term f) (terms : ∀ e ∈ L, 0 < e.term)
    (start : f.logStore.startIndex ≤ 1 ∨
      ∃ snp, f.lastSnapshot = some snp ∧ f.logStore.startIndex ≤ snp.lastLogIdx + 1)
    (floor : ∀ snp, f.lastSnapshot = some snp → snp.lastLogIdx ≤ req.lastLogIdx)
    (agree : AgreeUpTo f.logStore.entries L req.lastLogIdx) (built : BuiltFrom L req) :
    logOkay f req = true := by
  have held : termOf f.logStore.entries req.lastLogIdx = req.lastLogTerm := by
    rw [agree.2.2 _ le_rfl, built.lastLogTerm]
  rcases Nat.eq_zero_or_pos req.lastLogIdx with zero | pos
  · simp [logOkay, zero]
  by_cases reads : f.logStore.startIndex ≤ req.lastLogIdx
  · have positive : 0 < req.lastLogTerm := by
      rw [built.lastLogTerm]; exact termOf_pos terms pos built.inside
    have inside : req.lastLogIdx < f.logStore.nextSlot := by
      have := agree.1; unfold LogStore.nextSlot; omega
    simp [logOkay, termForLog, LogStore.termAt_of_le reads, inside, reads, held,
      Nat.pos_iff_ne_zero.mp pos, Nat.pos_iff_ne_zero.mp positive]
  · obtain ⟨snp, hs, idx⟩ : ∃ snp, f.lastSnapshot = some snp ∧ snp.lastLogIdx = req.lastLogIdx := by
      rcases start with one | ⟨snp, hs, le⟩
      · omega
      · exact ⟨snp, hs, by have := floor snp hs; omega⟩
    have snapTerm := (log.snapshot snp hs).2
    rw [idx, held] at snapTerm
    simp [logOkay, hs, idx, snapTerm]

end NuRaft.Protocol

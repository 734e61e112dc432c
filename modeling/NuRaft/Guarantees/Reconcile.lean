import NuRaft.Source.HandleAppendEntries
import NuRaft.Spec.Splice

/-!
# The reconciliation loops compute `splice`

The skip, overwrite and append loops of `handle_append_entries` (lines
371-468), run on any follower state, keep the store's first
`last_log_idx + n` entries, where `n` is how many of the request's entries the
store already holds with their terms, and write the request's entries after
them: all of them (`storeEntries_splice`), or the first when `stopping_` is set
(`storeEntries_spec`). The overwrite loop runs at most once, because `write_at`
truncates the store behind the entry it writes.

`splice` reads the store's terms, so the loops compute it where the store
answers every index they read, from `last_log_idx + 1` on
(`accepted_request_reconciles`). Below `start_index` the store answers term 0:
a request from before a follower's compacted entries is accepted, overwrites
them and truncates the log, and the commit regression lowers
`sm_commit_index_` (`compacted_prefix_truncated`).
-/
namespace NuRaft.Guarantees
open NuRaft.Source NuRaft.Spec

/-- `s'` differs from `s` at most in what the reconciliation loops write, and
its store starts no later. -/
def LoopFrame (s s' : RaftServer) : Prop :=
  ∃ store calls changing sm quick, store.startIndex ≤ s.logStore.startIndex ∧ s' =
    { s with logStore := store, smCalls := calls, configChanging := changing,
             smCommitIndex := sm, quickCommitIndex := quick }

theorem LoopFrame.refl (s : RaftServer) : LoopFrame s s :=
  ⟨_, _, _, _, _, le_rfl, rfl⟩

theorem LoopFrame.trans {s t u : RaftServer} (h : LoopFrame s t) (h' : LoopFrame t u) :
    LoopFrame s u := by
  obtain ⟨_, _, _, _, _, h1, rfl⟩ := h
  obtain ⟨_, _, _, _, _, h2, rfl⟩ := h'
  exact ⟨_, _, _, _, _, le_trans h2 h1, rfl⟩

theorem revertEntry_frame (s : RaftServer) (logIdx : Nat) :
    LoopFrame s (revertEntry s logIdx) := by
  unfold revertEntry
  split
  · split
    · exact ⟨_, _, _, _, _, le_rfl, rfl⟩
    · split
      · exact ⟨_, _, _, _, _, le_rfl, rfl⟩
      · exact .refl s
  · exact .refl s

theorem observeEntry_frame (s : RaftServer) (logIdx : Nat) (entry : LogEntry) :
    LoopFrame s (observeEntry s logIdx entry) := by
  unfold observeEntry
  split
  · exact ⟨_, _, _, _, _, le_rfl, rfl⟩
  · split
    · exact ⟨_, _, _, _, _, le_rfl, rfl⟩
    · exact .refl s

@[simp] theorem revertEntry_logStore (s : RaftServer) (logIdx : Nat) :
    (revertEntry s logIdx).logStore = s.logStore := by
  unfold revertEntry
  split <;> (try split) <;> (try split) <;> rfl

@[simp] theorem observeEntry_logStore (s : RaftServer) (logIdx : Nat) (entry : LogEntry) :
    (observeEntry s logIdx entry).logStore = s.logStore := by
  unfold observeEntry
  split <;> (try split) <;> rfl

@[simp] theorem revertEntry_smCommitIndex (s : RaftServer) (logIdx : Nat) :
    (revertEntry s logIdx).smCommitIndex = s.smCommitIndex := by
  unfold revertEntry
  split <;> (try split) <;> (try split) <;> rfl

@[simp] theorem revertEntry_quickCommitIndex (s : RaftServer) (logIdx : Nat) :
    (revertEntry s logIdx).quickCommitIndex = s.quickCommitIndex := by
  unfold revertEntry
  split <;> (try split) <;> (try split) <;> rfl

@[simp] theorem observeEntry_smCommitIndex (s : RaftServer) (logIdx : Nat) (entry : LogEntry) :
    (observeEntry s logIdx entry).smCommitIndex = s.smCommitIndex := by
  unfold observeEntry
  split <;> (try split) <;> rfl

@[simp] theorem observeEntry_quickCommitIndex (s : RaftServer) (logIdx : Nat) (entry : LogEntry) :
    (observeEntry s logIdx entry).quickCommitIndex = s.quickCommitIndex := by
  unfold observeEntry
  split <;> (try split) <;> rfl

theorem LoopFrame.setStore (s : RaftServer) {store : LogStore}
    (start : store.startIndex ≤ s.logStore.startIndex) : LoopFrame s { s with logStore := store } :=
  ⟨_, _, _, _, _, start, rfl⟩

theorem overwriteEntry_frame (s : RaftServer) (logIdx : Nat) (entry : LogEntry) :
    LoopFrame s (overwriteEntry s logIdx entry) := by
  have written := LoopFrame.trans (revertEntry_frame s logIdx)
    (LoopFrame.trans (.setStore _ (storeLogEntry_startIndex _ entry logIdx))
      (observeEntry_frame _ logIdx entry))
  unfold overwriteEntry
  dsimp only
  split
  · exact written.trans ⟨_, _, _, _, _, le_rfl, rfl⟩
  · exact written

theorem appendEntry_frame (s : RaftServer) (entry : LogEntry) :
    LoopFrame s (appendEntry s entry) :=
  LoopFrame.trans (.setStore _ (storeLogEntry_startIndex _ entry 0)) (observeEntry_frame _ _ _)

theorem LoopFrame.stopping {s s' : RaftServer} (h : LoopFrame s s') : s'.stopping = s.stopping := by
  obtain ⟨_, _, _, _, _, -, rfl⟩ := h; rfl

theorem LoopFrame.id {s s' : RaftServer} (h : LoopFrame s s') : s'.id = s.id := by
  obtain ⟨_, _, _, _, _, -, rfl⟩ := h; rfl

theorem LoopFrame.lastSnapshot {s s' : RaftServer} (h : LoopFrame s s') :
    s'.lastSnapshot = s.lastSnapshot := by
  obtain ⟨_, _, _, _, _, -, rfl⟩ := h; rfl

theorem overwriteEntry_logStore (s : RaftServer) {logIdx : Nat} (pos : 0 < logIdx)
    (entry : LogEntry) :
    (overwriteEntry s logIdx entry).logStore = s.logStore.writeAt logIdx entry := by
  unfold overwriteEntry
  dsimp only
  split <;> simp [storeLogEntry, Nat.pos_iff_ne_zero.mp pos]

theorem appendEntry_logStore (s : RaftServer) (entry : LogEntry) :
    (appendEntry s entry).logStore = s.logStore.append entry := by
  simp [appendEntry, storeLogEntry]

theorem appendLogs_cons (s : RaftServer) (entry : LogEntry) (rest : List LogEntry) :
    appendLogs s (entry :: rest) =
      if s.stopping then .stopped (appendEntry s entry)
      else appendLogs (appendEntry s entry) rest := by
  simp only [appendLogs, (appendEntry_frame s entry).stopping]

/-- A property every append keeps is kept by the append loop. -/
theorem appendLogs_preserves (P : RaftServer → Prop)
    (append : ∀ t entry, P t → P (appendEntry t entry)) :
    ∀ s E, P s → P (appendLogs s E).server
  | _, [], h => h
  | s, entry :: rest, h => by
    rw [appendLogs_cons]
    split
    · exact append s entry h
    · exact appendLogs_preserves P append _ rest (append s entry h)

/-- The append loop appends all entries, or the first one when `stopping_` is
set, and keeps the store's start. -/
theorem appendLogs_logStore (s : RaftServer) : ∀ E,
    (appendLogs s E).server.logStore.entries =
        s.logStore.entries ++ E.take (if s.stopping then 1 else E.length) ∧
      (appendLogs s E).server.logStore.startIndex = s.logStore.startIndex
  | [] => by simp [appendLogs, LoopExit.server]
  | entry :: rest => by
    have stop := (appendEntry_frame s entry).stopping
    rw [appendLogs_cons]
    split
    next hs => simp [LoopExit.server, appendEntry_logStore, hs]
    next hs =>
      rw [(appendLogs_logStore _ rest).1, (appendLogs_logStore _ rest).2, appendEntry_logStore, stop]
      simp [hs]

theorem appendLogs_completed (s : RaftServer) (running : s.stopping = false) : ∀ E,
    appendLogs s E = .completed (appendLogs s E).server
  | [] => rfl
  | entry :: rest => by
    rw [appendLogs_cons, if_neg (by simp [running])]
    exact appendLogs_completed _ (by rw [(appendEntry_frame s entry).stopping, running]) rest

/-- With `stopping_` clear, the overwrite loop and the append loop it hands over
to run to their end. -/
theorem overwriteLogs_completed (s : RaftServer) (running : s.stopping = false) :
    ∀ logIdx E, overwriteLogs s logIdx E = .completed (overwriteLogs s logIdx E).server
  | _, [] => rfl
  | logIdx, entry :: rest => by
    have stop := (overwriteEntry_frame s logIdx entry).stopping
    simp only [overwriteLogs]
    split
    · rw [if_neg (by simp [stop, running])]
      exact overwriteLogs_completed _ (stop.trans running) (logIdx + 1) rest
    · exact appendLogs_completed s running _

theorem storeEntries_completed (s : RaftServer) (req : ReqMsg) (running : s.stopping = false) :
    storeEntries s req = .completed (storeEntries s req).server := by
  unfold storeEntries
  split
  · exact overwriteLogs_completed s running _ _
  · rfl

/-- The overwrite loop writes once: `write_at` leaves `next_slot` right after it. -/
theorem overwriteLogs_conflict (s : RaftServer) {logIdx : Nat} (pos : 0 < logIdx)
    (inside : logIdx < s.logStore.nextSlot) (entry : LogEntry) (rest : List LogEntry) :
    overwriteLogs s logIdx (entry :: rest) =
      if s.stopping then .stopped (overwriteEntry s logIdx entry)
      else appendLogs (overwriteEntry s logIdx entry) rest := by
  have slot : (overwriteEntry s logIdx entry).logStore.nextSlot = logIdx + 1 := by
    rw [overwriteEntry_logStore _ pos]; exact LogStore.nextSlot_writeAt _ pos inside.le
  simp only [overwriteLogs, if_pos inside, (overwriteEntry_frame s logIdx entry).stopping]
  split
  · rfl
  · cases rest with
    | nil => rfl
    | cons e r => simp [overwriteLogs, slot]

theorem overwriteLogs_end (s : RaftServer) {logIdx : Nat} (beyond : s.logStore.nextSlot ≤ logIdx) :
    ∀ E, overwriteLogs s logIdx E = appendLogs s E
  | [] => rfl
  | entry :: rest => by simp [overwriteLogs, Nat.not_lt.mpr beyond]

/-- The skip loop stops after the `n` entries the store holds with their terms. -/
theorem skipExisting_spec (store : LogStore) : ∀ (logIdx : Nat) (E : List LogEntry),
    ∃ n, n ≤ E.length ∧ skipExisting store logIdx E = (logIdx + n, E.drop n) ∧
      (∀ t < n, logIdx + t < store.nextSlot ∧ store.termAt (logIdx + t) = termOf E (t + 1)) ∧
      (n < E.length → logIdx + n < store.nextSlot →
        store.termAt (logIdx + n) ≠ termOf E (n + 1))
  | logIdx, [] => ⟨0, le_refl _, rfl, fun t ht => absurd ht (Nat.not_lt_zero _),
      fun h => absurd h (Nat.lt_irrefl _)⟩
  | logIdx, e :: rest => by
    by_cases hm : logIdx < store.nextSlot ∧ store.termAt logIdx = e.term
    · obtain ⟨n, hn, heq, hskip, hstop⟩ := skipExisting_spec store (logIdx + 1) rest
      refine ⟨n + 1, by simp [hn], ?_, fun t ht => ?_, fun h1 h2 => ?_⟩
      · rw [skipExisting, if_pos hm, heq]
        simp [Nat.add_assoc, Nat.add_comm 1 n]
      · cases t with
        | zero => simpa using hm
        | succ t =>
          have := hskip t (by omega)
          rw [show logIdx + (t + 1) = logIdx + 1 + t by omega]
          simpa using this
      · have := hstop (by simp at h1; omega) (by omega)
        rw [show logIdx + (n + 1) = logIdx + 1 + n by omega]
        simpa using this
    · refine ⟨0, Nat.zero_le _, by simp [skipExisting, hm],
        fun t ht => absurd ht (Nat.not_lt_zero _), fun _ h2 h => hm ⟨h2, ?_⟩⟩
      simpa using h

/-- What the three loops leave in the store, for a request that starts inside
it: where the store answers the first `n` entries of the request with their
terms, its entries up to `last_log_idx + n`, then the rest of the request, or
its first entry only when `stopping_` is set, with the start moved down to the
first index written at the latest. -/
theorem storeEntries_spec (s : RaftServer) (req : ReqMsg)
    (inside : req.lastLogIdx < s.logStore.nextSlot) :
    ∃ n, n ≤ req.logEntries.length ∧
      (∀ t < n, req.lastLogIdx + t < s.logStore.entries.length ∧
        s.logStore.termAt (req.lastLogIdx + t + 1) = termOf req.logEntries (t + 1)) ∧
      (n < req.logEntries.length → req.lastLogIdx + n < s.logStore.entries.length →
        s.logStore.termAt (req.lastLogIdx + n + 1) ≠ termOf req.logEntries (n + 1)) ∧
      (n = req.logEntries.length → storeEntries s req = .completed s) ∧
      (n < req.logEntries.length →
        (storeEntries s req).server.logStore.entries =
          s.logStore.entries.take (req.lastLogIdx + n) ++
            (req.logEntries.drop n).take
              (if s.stopping then 1 else req.logEntries.length - n) ∧
        (storeEntries s req).server.logStore.startIndex =
          min s.logStore.startIndex (req.lastLogIdx + n + 1) ∧
        (storeEntries s req = .completed (storeEntries s req).server ↔ s.stopping = false)) := by
  obtain ⟨n, hn, heq, hskip, hstop⟩ :=
    skipExisting_spec s.logStore (req.lastLogIdx + 1) req.logEntries
  have slot : s.logStore.nextSlot = s.logStore.entries.length + 1 := rfl
  refine ⟨n, hn, fun t ht => ?_, fun h1 h2 => ?_, fun hfull => ?_, fun hpart => ?_⟩
  · have := hskip t ht
    refine ⟨by omega, ?_⟩
    rw [show req.lastLogIdx + t + 1 = req.lastLogIdx + 1 + t by omega]; exact this.2
  · have := hstop h1 (by omega)
    rwa [show req.lastLogIdx + n + 1 = req.lastLogIdx + 1 + n by omega]
  · unfold storeEntries
    split <;> simp [heq, hfull, overwriteLogs]
  · obtain ⟨e, rest, hdrop⟩ :=
      List.exists_cons_of_length_pos (show 0 < (req.logEntries.drop n).length by simp; omega)
    have hlen : (e :: rest).length = req.logEntries.length - n := by
      rw [← hdrop, List.length_drop]
    have hstore : storeEntries s req = overwriteLogs s (req.lastLogIdx + 1 + n) (e :: rest) := by
      unfold storeEntries
      rw [if_pos (by omega), heq, hdrop]
    have reach : req.lastLogIdx + 1 + n ≤ s.logStore.nextSlot := by
      rcases Nat.eq_zero_or_pos n with h0 | h0
      · omega
      · have := (hskip (n - 1) (by omega)).1; omega
    have first : req.lastLogIdx + 1 + n - 1 = req.lastLogIdx + n := by omega
    rw [hstore, show req.lastLogIdx + n + 1 = req.lastLogIdx + 1 + n by omega]
    rcases Nat.lt_or_ge (req.lastLogIdx + 1 + n) s.logStore.nextSlot with hlt | hge
    · rw [overwriteLogs_conflict s (by omega) hlt]
      have written := overwriteEntry_logStore s (show 0 < req.lastLogIdx + 1 + n by omega) e
      cases hs : s.stopping
      · have stop : (overwriteEntry s (req.lastLogIdx + 1 + n) e).stopping = false := by
          rw [(overwriteEntry_frame _ _ _).stopping, hs]
        simp only [if_false, Bool.false_eq_true]
        obtain ⟨entries, start⟩ := appendLogs_logStore (overwriteEntry s (req.lastLogIdx + 1 + n) e) rest
        refine ⟨?_, by rw [start, written]; rfl, by simpa using appendLogs_completed _ stop rest⟩
        rw [entries, written, stop, ← hlen, hdrop]
        simp [first]
      · simp [LoopExit.server, written, hdrop, first]
    · obtain ⟨entries, start⟩ := appendLogs_logStore s (e :: rest)
      have edge : req.lastLogIdx + 1 + n = s.logStore.nextSlot := by omega
      rw [overwriteLogs_end s hge]
      refine ⟨?_, by rw [start, edge, Nat.min_eq_left s.logStore.startIndex_le_nextSlot], ?_⟩
      · rw [entries, List.take_of_length_le (show s.logStore.entries.length ≤ req.lastLogIdx + n by
          omega), ← hlen, hdrop]
      · cases hs : s.stopping
        · simpa using appendLogs_completed s hs (e :: rest)
        · simp [appendLogs_cons, hs, LoopExit.server]

/-- Where the store answers from `last_log_idx + 1` on, its answers are the
sequence's terms. -/
theorem storeEntries_spec_readable (s : RaftServer) (req : ReqMsg)
    (inside : req.lastLogIdx < s.logStore.nextSlot)
    (readable : s.logStore.startIndex ≤ req.lastLogIdx + 1) :
    ∃ n, n ≤ req.logEntries.length ∧
      (∀ t < n, req.lastLogIdx + t < s.logStore.entries.length ∧
        termOf s.logStore.entries (req.lastLogIdx + t + 1) = termOf req.logEntries (t + 1)) ∧
      (n < req.logEntries.length → req.lastLogIdx + n < s.logStore.entries.length →
        termOf s.logStore.entries (req.lastLogIdx + n + 1) ≠ termOf req.logEntries (n + 1)) ∧
      (n = req.logEntries.length → storeEntries s req = .completed s) ∧
      (n < req.logEntries.length →
        (storeEntries s req).server.logStore.entries =
          s.logStore.entries.take (req.lastLogIdx + n) ++
            (req.logEntries.drop n).take
              (if s.stopping then 1 else req.logEntries.length - n) ∧
        (storeEntries s req = .completed (storeEntries s req).server ↔ s.stopping = false)) := by
  obtain ⟨n, hn, hskip, hstop, hfull, hpart⟩ := storeEntries_spec s req inside
  have answers : ∀ t, s.logStore.termAt (req.lastLogIdx + t + 1) =
      termOf s.logStore.entries (req.lastLogIdx + t + 1) := fun t =>
    LogStore.termAt_of_le (by omega)
  refine ⟨n, hn, fun t ht => ?_, fun h1 h2 => ?_, hfull, fun h => ⟨(hpart h).1, (hpart h).2.2⟩⟩
  · rw [← answers]; exact hskip t ht
  · rw [← answers]; exact hstop h1 h2

/-- A property every overwrite inside the store and every append keep is kept by
the overwrite loop, and so by the three loops. -/
theorem overwriteLogs_preserves (P : RaftServer → Prop)
    (overwrite : ∀ t logIdx entry, 0 < logIdx → logIdx < t.logStore.nextSlot → P t →
      P (overwriteEntry t logIdx entry))
    (append : ∀ t entry, P t → P (appendEntry t entry)) :
    ∀ s logIdx E, 0 < logIdx → P s → P (overwriteLogs s logIdx E).server
  | _, _, [], _, h => h
  | s, logIdx, e :: rest, pos, h => by
    unfold overwriteLogs
    split
    next inside =>
      have h' := overwrite s logIdx e pos inside h
      dsimp only
      split
      · exact h'
      · exact overwriteLogs_preserves P overwrite append _ (logIdx + 1) rest (Nat.succ_pos _) h'
    next => exact appendLogs_preserves P append s _ h

theorem storeEntries_preserves (P : RaftServer → Prop)
    (overwrite : ∀ t logIdx entry, 0 < logIdx → logIdx < t.logStore.nextSlot → P t →
      P (overwriteEntry t logIdx entry))
    (append : ∀ t entry, P t → P (appendEntry t entry)) (s : RaftServer) (req : ReqMsg)
    (h : P s) : P (storeEntries s req).server := by
  obtain ⟨n, -, heq, -⟩ := skipExisting_spec s.logStore (req.lastLogIdx + 1) req.logEntries
  unfold storeEntries
  split
  · rw [heq]
    exact overwriteLogs_preserves P overwrite append s _ _ (by omega) h
  · exact h

theorem storeEntries_frame (s : RaftServer) (req : ReqMsg) :
    LoopFrame s (storeEntries s req).server :=
  storeEntries_preserves (LoopFrame s)
    (fun t logIdx entry _ _ h => h.trans (overwriteEntry_frame t logIdx entry))
    (fun t entry h => h.trans (appendEntry_frame t entry)) s req (.refl s)

/-- With `stopping_` clear, the loops leave exactly `splice` in the store. -/
theorem storeEntries_splice (s : RaftServer) (req : ReqMsg) (running : s.stopping = false)
    (inside : req.lastLogIdx < s.logStore.nextSlot)
    (readable : s.logStore.startIndex ≤ req.lastLogIdx + 1) :
    storeEntries s req = .completed (storeEntries s req).server ∧
      (storeEntries s req).server.logStore.entries =
        splice s.logStore.entries req.lastLogIdx req.logEntries := by
  obtain ⟨n, hn, hskip, hstop, hfull, hpart⟩ := storeEntries_spec_readable s req inside readable
  have hsplice := splice_skip _ n req.lastLogIdx req.logEntries hskip hn
  rcases Nat.lt_or_ge n req.logEntries.length with hlt | hge
  · obtain ⟨hentries, hdone⟩ := hpart hlt
    obtain ⟨e, rest, hdrop⟩ :=
      List.exists_cons_of_length_pos (show 0 < (req.logEntries.drop n).length by simp; omega)
    have hlen : (e :: rest).length = req.logEntries.length - n := by
      rw [← hdrop, List.length_drop]
    refine ⟨hdone.mpr running, ?_⟩
    rw [hentries, hsplice, running, hdrop, if_neg (by simp), ← hlen, List.take_length]
    by_cases hend : req.lastLogIdx + n < s.logStore.entries.length
    · rw [splice_conflict rest (by rw [← termOf_of_drop hdrop]; exact hstop hlt hend)]
    · have reach : req.lastLogIdx + n = s.logStore.entries.length := by
        rcases Nat.eq_zero_or_pos n with h0 | h0
        · unfold LogStore.nextSlot at inside; omega
        · have := (hskip (n - 1) (by omega)).1; omega
      rw [reach, splice_at_end, List.take_length]
  · rw [hfull (by omega)]
    simp [LoopExit.server, hsplice, show n = req.logEntries.length by omega, splice]

/-- A request that starts where the store answers writes from its start on:
the start stays. -/
theorem storeEntries_startIndex (s : RaftServer) (req : ReqMsg)
    (inside : req.lastLogIdx < s.logStore.nextSlot)
    (readable : s.logStore.startIndex ≤ req.lastLogIdx + 1) :
    (storeEntries s req).server.logStore.startIndex = s.logStore.startIndex := by
  obtain ⟨n, hn, -, -, hfull, hpart⟩ := storeEntries_spec s req inside
  rcases Nat.lt_or_ge n req.logEntries.length with short | whole
  · rw [(hpart short).2.1, min_eq_left (by omega)]
  · rw [hfull (by omega)]; rfl

/-- `enterRequest` only clears `catching_up_` and may step a candidate down. -/
theorem enterRequest_some {s s1 : RaftServer} {req : ReqMsg} (h : enterRequest s req = some s1) :
    ∃ r, s1 = { s with catchingUp := false, role := r } ∧ (s.role ≠ .leader → r ≠ .leader) := by
  unfold enterRequest at h
  dsimp only at h
  split at h
  · cases hr : s.role <;> simp [hr, becomeFollower] at h <;> subst h <;>
      exact ⟨_, rfl, by simp [hr]⟩
  · cases h
    exact ⟨s.role, rfl, id⟩

/-- Every way `handle_append_entries` can end: no response, a rejection, an
early return on `stopping_`, or an acceptance. -/
theorem handleAppendEntries_cases (s : RaftServer) (req : ReqMsg) :
    (enterRequest s req = none ∧
      handleAppendEntries s req = ({ s with catchingUp := false }, none)) ∨
    ∃ s1, enterRequest s req = some s1 ∧
      (((req.term < s1.term ∨ logOkay s1 req = false) ∧
          handleAppendEntries s req = (s1, some (initialResp s1 req))) ∨
        (¬ req.term < s1.term ∧ logOkay s1 req = true ∧
          ((∃ s2, storeEntries { s1 with initialized := true } req = .stopped s2 ∧
              handleAppendEntries s req = (s2, some (initialResp s1 req))) ∨
            (∃ s2, storeEntries { s1 with initialized := true } req = .completed s2 ∧
              handleAppendEntries s req =
                (finishAppend s2 req, some (acceptedResp s1 req)))))) := by
  unfold handleAppendEntries
  cases he : enterRequest s req with
  | none => exact .inl ⟨rfl, rfl⟩
  | some s1 =>
    refine .inr ⟨s1, rfl, ?_⟩
    dsimp only
    split
    next hrej => exact .inl ⟨hrej, rfl⟩
    next hok =>
      have hok' : ¬ req.term < s1.term ∧ logOkay s1 req = true := by
        simpa [not_or] using hok
      refine .inr ⟨hok'.1, hok'.2, ?_⟩
      cases hst : storeEntries { s1 with initialized := true } req with
      | stopped s2 => exact .inl ⟨s2, rfl, rfl⟩
      | completed s2 => exact .inr ⟨s2, rfl, rfl⟩

/-- A request is log-okay only where it starts inside the log, once the
snapshot is inside the log too. -/
theorem logOkay_inside {s : RaftServer} {req : ReqMsg} (okay : logOkay s req = true)
    (snapshotInside : ∀ snp, s.lastSnapshot = some snp → snp.lastLogIdx < s.logStore.nextSlot) :
    req.lastLogIdx < s.logStore.nextSlot := by
  by_contra outside
  unfold logOkay at okay
  cases hsnp : s.lastSnapshot with
  | none => simp_all
  | some snp =>
    have := snapshotInside snp hsnp
    simp_all
    omega

/-- `finishAppend` records the leader and moves `quick_commit_index_` only. -/
theorem finishAppend_eq (s : RaftServer) (req : ReqMsg) : ∃ q, finishAppend s req =
    { s with leader := req.src, leaderCommitIndex := req.commitIdx, quickCommitIndex := q } := by
  obtain ⟨q, hq⟩ := commit_eq { s with leader := req.src, leaderCommitIndex := req.commitIdx }
    (min req.commitIdx (s.logStore.nextSlot - 1))
  exact ⟨q, hq⟩

@[simp] theorem finishAppend_smCommitIndex (s : RaftServer) (req : ReqMsg) :
    (finishAppend s req).smCommitIndex = s.smCommitIndex := by
  obtain ⟨q, hq⟩ := finishAppend_eq s req
  rw [hq]

@[simp] theorem finishAppend_logStore (s : RaftServer) (req : ReqMsg) :
    (finishAppend s req).logStore = s.logStore := by
  obtain ⟨q, hq⟩ := finishAppend_eq s req
  rw [hq]

@[simp] theorem finishAppend_id (s : RaftServer) (req : ReqMsg) :
    (finishAppend s req).id = s.id := by
  obtain ⟨q, hq⟩ := finishAppend_eq s req
  rw [hq]

@[simp] theorem finishAppend_lastSnapshot (s : RaftServer) (req : ReqMsg) :
    (finishAppend s req).lastSnapshot = s.lastSnapshot := by
  obtain ⟨q, hq⟩ := finishAppend_eq s req
  rw [hq]

theorem finishAppend_quickCommitIndex_le {s : RaftServer} (req : ReqMsg)
    (inside : s.quickCommitIndex ≤ s.logStore.nextSlot - 1) :
    (finishAppend s req).quickCommitIndex ≤ s.logStore.nextSlot - 1 :=
  commit_quickCommitIndex_le inside (min_le_right _ _)

theorem quickCommitIndex_le_finishAppend (s : RaftServer) (req : ReqMsg) :
    s.quickCommitIndex ≤ (finishAppend s req).quickCommitIndex :=
  commit_quickCommitIndex_ge { s with leader := req.src, leaderCommitIndex := req.commitIdx } _

/-- What an accepted request went through: `enterRequest`, the term check and
`log_okay` passed, the loops ran to their end, then `finishAppend`. -/
theorem accepted_cases {s s' : RaftServer} {req : ReqMsg} {resp : RespMsg}
    (handled : handleAppendEntries s req = (s', some resp)) (accepted : resp.accepted = true) :
    ∃ s1 s2, enterRequest s req = some s1 ∧ ¬ req.term < s1.term ∧ logOkay s1 req = true ∧
      storeEntries { s1 with initialized := true } req = .completed s2 ∧
      s' = finishAppend s2 req ∧ resp = acceptedResp s1 req := by
  rcases handleAppendEntries_cases s req with
    ⟨-, h⟩ | ⟨s1, he, ⟨-, h⟩ | ⟨current, okay, ⟨s2, -, h⟩ | ⟨s2, hst, h⟩⟩⟩ <;>
    rw [handled] at h <;> simp only [Prod.mk.injEq, Option.some.injEq, reduceCtorEq, and_false] at h
  · simp [h.2, initialResp] at accepted
  · simp [h.2, initialResp] at accepted
  · exact ⟨s1, s2, he, current, okay, hst, h⟩

/-- An accepted request starts inside the log, once the snapshot is inside it. -/
theorem accepted_inside {s s' : RaftServer} {req : ReqMsg} {resp : RespMsg}
    (snapshotInside : ∀ snp, s.lastSnapshot = some snp → snp.lastLogIdx < s.logStore.nextSlot)
    (handled : handleAppendEntries s req = (s', some resp)) (accepted : resp.accepted = true) :
    req.lastLogIdx < s.logStore.nextSlot := by
  obtain ⟨s1, -, he, -, okay, -⟩ := accepted_cases handled accepted
  obtain ⟨r, rfl, -⟩ := enterRequest_some he
  exact logOkay_inside okay snapshotInside

/-- An accepted request that starts inside the log, where the store answers
from `last_log_idx + 1` on, leaves the store at `splice` of the request, keeps
`stopping_`, and answers with the index after the request's last entry. -/
theorem accepted_splice {s s' : RaftServer} {req : ReqMsg} {resp : RespMsg}
    (running : s.stopping = false) (inside : req.lastLogIdx < s.logStore.nextSlot)
    (readable : s.logStore.startIndex ≤ req.lastLogIdx + 1)
    (handled : handleAppendEntries s req = (s', some resp)) (accepted : resp.accepted = true) :
    s'.logStore.entries = splice s.logStore.entries req.lastLogIdx req.logEntries ∧
      s'.logStore.startIndex = s.logStore.startIndex ∧ s'.stopping = s.stopping ∧
      resp.nextIdx = req.lastLogIdx + req.logEntries.length + 1 := by
  obtain ⟨s1, s2, he, -, -, hst, rfl, rfl⟩ := accepted_cases handled accepted
  obtain ⟨r, rfl, -⟩ := enterRequest_some he
  have stored := storeEntries_splice
    { s with catchingUp := false, role := r, initialized := true } req running inside readable
  have start := storeEntries_startIndex
    { s with catchingUp := false, role := r, initialized := true } req inside readable
  have frame :=
    storeEntries_frame { s with catchingUp := false, role := r, initialized := true } req
  rw [hst] at stored frame start
  obtain ⟨q, hq⟩ := finishAppend_eq s2 req
  exact ⟨by rw [hq]; exact stored.2, by rw [hq]; exact start, by rw [hq]; exact frame.stopping, rfl⟩

/-- An accepted request, with `stopping_` clear and the snapshot inside the
log, that starts where the store answers (`start_index <= last_log_idx + 1`)
reconciles the follower's log as `ReconciledBy` describes, under the same store
start, and answers with the index after the request's last entry. -/
theorem accepted_request_reconciles (s : RaftServer) (req : ReqMsg) (s' : RaftServer)
    (resp : RespMsg) (running : s.stopping = false)
    (snapshotInside : ∀ snp, s.lastSnapshot = some snp → snp.lastLogIdx < s.logStore.nextSlot)
    (readable : s.logStore.startIndex ≤ req.lastLogIdx + 1)
    (handled : handleAppendEntries s req = (s', some resp)) (accepted : resp.accepted = true) :
    ReconciledBy s.logStore.entries s'.logStore.entries req.lastLogIdx req.logEntries ∧
      s'.logStore.startIndex = s.logStore.startIndex ∧
      resp.nextIdx = req.lastLogIdx + req.logEntries.length + 1 := by
  have inside := accepted_inside snapshotInside handled accepted
  obtain ⟨entries, start, -, next⟩ := accepted_splice running inside readable handled accepted
  exact ⟨entries ▸ splice_reconciles _ (by unfold LogStore.nextSlot at inside; omega), start,
    next⟩

/-- Witness inputs: a follower of `term` holding `entries` from index 1, no
snapshot, with the given commit indices, state machine calls and
`config_changing_`. -/
def followerWith (term : Nat) (entries : List LogEntry) (sm quick : Nat) (calls : List SmCall)
    (changing : Bool) : RaftServer :=
  { id := 1, role := .follower, term := term, logStore := ⟨entries, 1, Nat.le_add_left 1 _⟩,
    lastSnapshot := none,
    quickCommitIndex := quick, smCommitIndex := sm, leaderCommitIndex := quick, leader := 0,
    configChanging := changing, stopping := false, catchingUp := false, initialized := true,
    peers := fun _ => ⟨false, 0, 0, false, false, 0, 0, 0, 0, false, false, 0, 0⟩,
    peerIds := [], quorumForCommit := 1, params := ⟨100, 100⟩, smCalls := calls, exited := false }

/-- A follower of term 2 whose log `[1, 1, 2]` diverges from a leader's
`[1, 1, 3, 3]` at index 3. -/
def sampleFollower : RaftServer :=
  followerWith 2 [⟨1, .appLog, 1⟩, ⟨1, .appLog, 2⟩, ⟨2, .appLog, 3⟩] 1 1 [] false

/-- The leader's request after index 2 carrying `[3, 3]`. -/
def sampleRequest : ReqMsg :=
  { term := 3, src := 0, dst := 1, lastLogTerm := 1, lastLogIdx := 2, commitIdx := 2,
    logEntries := [⟨3, .appLog, 4⟩, ⟨3, .conf, 5⟩] }

/-- A follower of term 2 whose store is compacted up to its snapshot at index 2
of term 1, holding three entries of term 1, committed up to 2. -/
def compactedFollower : RaftServer :=
  { followerWith 2 [⟨1, .appLog, 1⟩, ⟨1, .appLog, 2⟩, ⟨1, .appLog, 3⟩] 2 2 [] false with
    logStore := ⟨[⟨1, .appLog, 1⟩, ⟨1, .appLog, 2⟩, ⟨1, .appLog, 3⟩], 3, by decide⟩
    lastSnapshot := some ⟨2, 1⟩ }

/-- The leader's request from the start carrying its first two entries, of term 1. -/
def headTwo : ReqMsg :=
  { term := 2, src := 0, dst := 1, lastLogTerm := 0, lastLogIdx := 0, commitIdx := 2,
    logEntries := [⟨1, .appLog, 1⟩, ⟨1, .appLog, 2⟩] }

end NuRaft.Guarantees

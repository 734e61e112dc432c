import NuRaft.Source.LogStore

/-!
# What an accepted request does to a follower log

The abstract side of `handle_append_entries`: `splice` keeps the follower's
entries while they carry the request's terms and, from the first index where
they do not (or where the follower's log ends), holds the request's entries
instead. `AgreeUpTo` and `LogMatching` compare logs by term, as Raft's Log
Matching property does.
-/
namespace NuRaft.Spec
open NuRaft.Source

/-- The follower log after an accepted request with entries `E` after `prev`. -/
def splice (log : List LogEntry) : Nat → List LogEntry → List LogEntry
  | _, [] => log
  | prev, e :: rest =>
    if prev < log.length ∧ termOf log (prev + 1) = e.term then splice log (prev + 1) rest
    else log.take prev ++ e :: rest

/-- `F` holds entries up to `k`, with the terms `L` has there. -/
def AgreeUpTo (F L : List LogEntry) (k : Nat) : Prop :=
  k ≤ F.length ∧ k ≤ L.length ∧ ∀ i ≤ k, termOf F i = termOf L i

/-- Raft's Log Matching between two logs: one common term at an index means a
common term at every index below it. -/
def LogMatching (F L : List LogEntry) : Prop :=
  ∀ i, i ≤ F.length → i ≤ L.length → termOf F i = termOf L i → AgreeUpTo F L i

instance (F L : List LogEntry) (k : Nat) : Decidable (AgreeUpTo F L k) :=
  inferInstanceAs (Decidable (_ ∧ _ ∧ _))

instance (F L : List LogEntry) : Decidable (LogMatching F L) :=
  inferInstanceAs (Decidable (∀ i, i ≤ F.length → _))

theorem AgreeUpTo.mono {F L : List LogEntry} {k j : Nat} (h : AgreeUpTo F L k)
    (hj : j ≤ k) : AgreeUpTo F L j :=
  ⟨by have := h.1; omega, by have := h.2.1; omega, fun i hi => h.2.2 i (by omega)⟩

theorem agreeUpTo_zero (F L : List LogEntry) : AgreeUpTo F L 0 :=
  ⟨Nat.zero_le _, Nat.zero_le _, fun i hi => by simp [Nat.le_zero.mp hi]⟩

/-- Agreement only reads terms below `k`. -/
theorem AgreeUpTo.congr {F F' L L' : List LogEntry} {k : Nat} (h : AgreeUpTo F L k)
    (hF : k ≤ F'.length) (hL : k ≤ L'.length)
    (sameF : ∀ i ≤ k, termOf F' i = termOf F i)
    (sameL : ∀ i ≤ k, termOf L' i = termOf L i) :
    AgreeUpTo F' L' k :=
  ⟨hF, hL, fun i hi => by rw [sameF i hi, sameL i hi, h.2.2 i hi]⟩

theorem AgreeUpTo.append_right {F L : List LogEntry} {k : Nat} (h : AgreeUpTo F L k)
    (more : List LogEntry) : AgreeUpTo F (L ++ more) k :=
  h.congr h.1 (by simp; have := h.2.1; omega) (fun _ _ => rfl)
    (fun i hi => termOf_append_left (by have := h.2.1; omega))

/-- Splicing at `prev` never touches the first `prev` entries. -/
theorem splice_take (log : List LogEntry) :
    ∀ (prev : Nat) (E : List LogEntry), prev ≤ log.length →
      (splice log prev E).take prev = log.take prev
  | _, [], _ => rfl
  | prev, e :: rest, h => by
    unfold splice
    split
    next hm =>
      have ih := congrArg (List.take prev) (splice_take log (prev + 1) rest hm.1)
      simpa [List.take_take] using ih
    next => exact List.take_left' (List.length_take_of_le h)

/-- A splice reaches at least past the request's last entry. -/
theorem length_splice (log : List LogEntry) :
    ∀ (prev : Nat) (E : List LogEntry), prev ≤ log.length →
      prev + E.length ≤ (splice log prev E).length
  | _, [], h => by simpa using h
  | prev, e :: rest, h => by
    unfold splice
    split
    next hm =>
      have := length_splice log (prev + 1) rest hm.1
      simp only [List.length_cons]; omega
    next => simp; omega

/-- The spliced log carries the request's terms at `prev + 1 .. prev + |E|`. -/
theorem termOf_splice (log : List LogEntry) :
    ∀ (prev : Nat) (E : List LogEntry), prev ≤ log.length →
      ∀ t, 0 < t → t ≤ E.length → termOf (splice log prev E) (prev + t) = termOf E t
  | _, [], _, t, h0, ht => by simp at ht; omega
  | prev, e :: rest, h, t, h0, ht => by
    unfold splice
    split
    next hm =>
      rcases Nat.lt_or_ge 1 t with h1 | h1
      · obtain ⟨u, rfl⟩ : ∃ u, t = u + 2 := ⟨t - 2, by omega⟩
        rw [show prev + (u + 2) = prev + 1 + (u + 1) by omega,
          termOf_splice log (prev + 1) rest hm.1 (u + 1) (by omega) (by simpa using ht),
          termOf_cons_add_two]
      · obtain rfl : t = 1 := by omega
        have hk := congrArg (termOf · (prev + 1)) (splice_take log (prev + 1) rest hm.1)
        simp only [termOf_take (le_refl (prev + 1))] at hk
        rw [hk, hm.2,
          termOf_cons_one]
    next =>
      have hp : (log.take prev).length = prev := List.length_take_of_le h
      have := termOf_append_length (log.take prev) (e :: rest) h0
      rwa [hp] at this

/-- Entries the log already holds with the request's terms are skipped. -/
theorem splice_skip (log : List LogEntry) :
    ∀ (n prev : Nat) (E : List LogEntry),
      (∀ t, t < n → prev + t < log.length ∧ termOf log (prev + t + 1) = termOf E (t + 1)) →
      n ≤ E.length → splice log prev E = splice log (prev + n) (E.drop n)
  | 0, _, _, _, _ => rfl
  | n + 1, prev, [], _, hn => by simp at hn
  | n + 1, prev, e :: rest, hm, hn => by
    have h0 := hm 0 (Nat.succ_pos n)
    have step : splice log prev (e :: rest) = splice log (prev + 1) rest := by
      simp only [splice, termOf_succ] at h0 ⊢
      rw [if_pos ⟨by omega, by simpa using h0.2⟩]
    rw [step, splice_skip log n (prev + 1) rest (fun t ht => by
      have := hm (t + 1) (by omega)
      simpa [termOf_succ, Nat.add_assoc, Nat.add_comm 1 t] using this) (by simpa using hn)]
    simp [Nat.add_assoc, Nat.add_comm 1 n]

/-- At the first index where the terms differ the log is cut and `E` written. -/
theorem splice_conflict {log : List LogEntry} {prev : Nat} {e : LogEntry} (rest : List LogEntry)
    (differ : termOf log (prev + 1) ≠ e.term) :
    splice log prev (e :: rest) = log.take prev ++ e :: rest := by
  simp [splice, differ]

/-- Past the end of the log the request's entries are appended. -/
theorem splice_at_end {log : List LogEntry} (E : List LogEntry) :
    splice log log.length E = log ++ E := by
  cases E with
  | nil => simp [splice]
  | cons e rest => simp [splice]

theorem drop_cons_of_lt {E : List LogEntry} {n : Nat} (h : n < E.length) :
    ∃ e rest, E.drop n = e :: rest := by
  cases hd : E.drop n with
  | nil => simp at hd; omega
  | cons e rest => exact ⟨e, rest, rfl⟩

/-- At the first index `k` where the log's term differs from the request's, the
log is cut before `k` and the request's entries from `k` on are written. -/
theorem splice_first_conflict {log E : List LogEntry} {prev k : Nat} (after : prev < k)
    (inLog : k ≤ log.length) (inRequest : k ≤ prev + E.length)
    (differ : termOf log k ≠ termOf E (k - prev))
    (before : ∀ j, prev < j → j < k → termOf log j = termOf E (j - prev)) :
    splice log prev E = log.take (k - 1) ++ E.drop (k - prev - 1) := by
  have skip := splice_skip log (k - prev - 1) prev E (fun t ht =>
    ⟨by omega, by simpa [show prev + t + 1 - prev = t + 1 by omega]
      using before (prev + t + 1) (by omega) (by omega)⟩) (by omega)
  obtain ⟨e, rest, hdrop⟩ := drop_cons_of_lt (show k - prev - 1 < E.length by omega)
  rw [skip, hdrop, show prev + (k - prev - 1) = k - 1 by omega, splice_conflict rest]
  rw [show k - 1 + 1 = k by omega, ← termOf_of_drop hdrop,
    show k - prev - 1 + 1 = k - prev by omega]
  exact differ

/-- With no such index the log is kept whole and only the request's entries
beyond its end are appended. -/
theorem splice_no_conflict {log E : List LogEntry} {prev : Nat} (inside : prev ≤ log.length)
    (agree : ∀ k, prev < k → k ≤ min log.length (prev + E.length) →
      termOf log k = termOf E (k - prev)) :
    splice log prev E = log ++ E.drop (log.length - prev) := by
  have held : ∀ t, t < min log.length (prev + E.length) - prev →
      prev + t < log.length ∧ termOf log (prev + t + 1) = termOf E (t + 1) := fun t ht =>
    ⟨by omega, by simpa [show prev + t + 1 - prev = t + 1 by omega]
      using (agree (prev + t + 1) (by omega) (by omega))⟩
  rw [splice_skip log _ prev E held (by omega)]
  by_cases within : prev + E.length ≤ log.length
  · rw [show min log.length (prev + E.length) - prev = E.length by omega,
      List.drop_of_length_le (le_refl _), List.drop_of_length_le (by omega)]
    simp [splice]
  · rw [show prev + (min log.length (prev + E.length) - prev) = log.length by omega,
      show min log.length (prev + E.length) - prev = log.length - prev by omega, splice_at_end]

/-- How a follower log `F'` relates to its log `F` before an accepted request
with entries `E` after `prev`: unchanged up to `prev`; cut at the first index
where `F`'s term differs from `E`'s, then `E`; with no such index `F` kept whole
and only `E`'s entries beyond `F`'s end appended; `E`'s terms in place. -/
structure ReconciledBy (F F' : List LogEntry) (prev : Nat) (E : List LogEntry) : Prop where
  below : F'.take prev = F.take prev
  firstConflict : ∀ k, prev < k → k ≤ min F.length (prev + E.length) →
    termOf F k ≠ termOf E (k - prev) →
    (∀ j, prev < j → j < k → termOf F j = termOf E (j - prev)) →
    F' = F.take (k - 1) ++ E.drop (k - prev - 1)
  noConflict : (∀ k, prev < k → k ≤ min F.length (prev + E.length) →
    termOf F k = termOf E (k - prev)) → F' = F ++ E.drop (F.length - prev)
  terms : ∀ k, prev < k → k ≤ prev + E.length → termOf F' k = termOf E (k - prev)
  covers : prev + E.length ≤ F'.length

theorem splice_reconciles {F : List LogEntry} {prev : Nat} (E : List LogEntry)
    (inside : prev ≤ F.length) : ReconciledBy F (splice F prev E) prev E where
  below := splice_take F prev E inside
  firstConflict _ after bound differ before := splice_first_conflict after
    (le_trans bound (min_le_left _ _)) (le_trans bound (min_le_right _ _)) differ before
  noConflict := splice_no_conflict inside
  terms k after upto := by
    have := termOf_splice F prev E inside (k - prev) (by omega) (by omega)
    rwa [show prev + (k - prev) = k by omega] at this
  covers := length_splice F prev E inside

end NuRaft.Spec

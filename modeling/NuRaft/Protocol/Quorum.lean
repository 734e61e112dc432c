import Mathlib.Data.List.GetD
import NuRaft.Protocol.Cluster

/-!
# The quorum commit index is an order statistic

handle_append_entries.cxx:536-568: on an acceptance the leader sorts its match
vector (its own `next_slot - 1`, then the `matched_idx` of every voting peer) in
descending order and commits the entry at `get_quorum_for_commit()`. In a list
sorted so, at least `q + 1` entries reach the `q`-th one (`le_countP_getD`) and
at most `q` exceed it (`countP_lt_getD_le`); sorting keeps the count, so the
committed index is the largest one `q + 1` entries of the vector reach, and it
depends on the vector only up to order (`quorumCommitIdx_order_statistic`).
-/
namespace NuRaft.Protocol
open NuRaft.Source

/-- In a list sorted in descending order, at least `q + 1` elements are at least
its `q`-th one. -/
theorem le_countP_getD {l : List Nat} (sorted : l.Sorted (· ≥ ·)) :
    ∀ {q : Nat}, q < l.length → q + 1 ≤ l.countP fun m => decide (l.getD q 0 ≤ m) := by
  induction l with
  | nil => intro q h; cases h
  | cons a l ih =>
    obtain ⟨top, rest⟩ := List.sorted_cons.mp sorted
    rintro (_ | q) h
    · simp [List.countP_cons]
    · have inside : q < l.length := by simpa using h
      have below : l.getD q 0 ≤ a :=
        top _ (by rw [List.getD_eq_getElem _ _ inside]; exact List.getElem_mem _)
      rw [List.getD_cons_succ, List.countP_cons, if_pos (decide_eq_true below)]
      exact Nat.succ_le_succ (ih rest inside)

/-- In a list sorted in descending order, at most `q` elements exceed its `q`-th
one. -/
theorem countP_lt_getD_le {l : List Nat} (sorted : l.Sorted (· ≥ ·)) :
    ∀ {q : Nat}, q < l.length → l.countP (fun m => decide (l.getD q 0 < m)) ≤ q := by
  induction l with
  | nil => intro q h; cases h
  | cons a l ih =>
    obtain ⟨top, rest⟩ := List.sorted_cons.mp sorted
    rintro (_ | q) h
    · -- Nothing exceeds the head.
      refine Nat.le_of_eq (List.countP_eq_zero.mpr fun m mem => ?_)
      rcases List.mem_cons.mp mem with rfl | tail
      · simp
      · simpa using top m tail
    · have inside : q < l.length := by simpa using h
      have := ih rest inside
      rw [List.getD_cons_succ, List.countP_cons]
      split <;> omega

/-- At least `q + 1` entries of the match vector are at least the index
`handle_append_entries_resp` commits, for `q` the quorum index inside it. -/
theorem le_countP_quorumCommitIdx (s : RaftServer)
    (quorum : s.quorumForCommit ≤ (voters s).length) :
    s.quorumForCommit + 1 ≤
      (matchedIndexes s).countP fun m => decide (quorumCommitIdx s ≤ m) := by
  have perm := List.perm_insertionSort (· ≥ ·) (matchedIndexes s)
  rw [← perm.countP_eq]
  refine le_countP_getD (List.sorted_insertionSort _ _) ?_
  rw [perm.length_eq, matchedIndexes_eq, List.length_cons, List.length_map]
  omega

/-- The index `handle_append_entries_resp` passes to `commit`, for a quorum index
inside the match vector: at least `q + 1` entries reach it and at most `q`
exceed it, so no larger index is reached by `q + 1` entries; and a match vector
that differs only in order, as from another peer order or other learners'
`matched_idx`, gives the same index. -/
theorem quorumCommitIdx_order_statistic (s : RaftServer)
    (inside : s.quorumForCommit < (matchedIndexes s).length) :
    s.quorumForCommit + 1 ≤
        (matchedIndexes s).countP (fun m => decide (quorumCommitIdx s ≤ m)) ∧
      (matchedIndexes s).countP (fun m => decide (quorumCommitIdx s < m)) ≤
        s.quorumForCommit ∧
      (∀ v, s.quorumForCommit + 1 ≤ (matchedIndexes s).countP (fun m => decide (v ≤ m)) →
        v ≤ quorumCommitIdx s) ∧
      ∀ s' : RaftServer, s'.quorumForCommit = s.quorumForCommit →
        (matchedIndexes s').Perm (matchedIndexes s) → quorumCommitIdx s' = quorumCommitIdx s := by
  have perm := List.perm_insertionSort (· ≥ ·) (matchedIndexes s)
  have sorted := List.sorted_insertionSort (· ≥ ·) (matchedIndexes s)
  rw [← perm.length_eq] at inside
  have exceed : (matchedIndexes s).countP (fun m => decide (quorumCommitIdx s < m)) ≤
      s.quorumForCommit := by
    rw [← perm.countP_eq]; exact countP_lt_getD_le sorted inside
  refine ⟨by rw [← perm.countP_eq]; exact le_countP_getD sorted inside, exceed,
    fun v many => Nat.le_of_not_lt fun above => ?_, fun s' quorum same => ?_⟩
  · have fewer : (matchedIndexes s).countP (fun m => decide (v ≤ m)) ≤
        (matchedIndexes s).countP (fun m => decide (quorumCommitIdx s < m)) :=
      List.countP_mono_left fun m _ reached => by
        simp only [decide_eq_true_eq] at reached ⊢; omega
    omega
  · have sorts := List.eq_of_perm_of_sorted
      ((List.perm_insertionSort _ _).trans (same.trans perm.symm))
      (List.sorted_insertionSort (· ≥ ·) (matchedIndexes s')) sorted
    unfold quorumCommitIdx
    rw [quorum, sorts]

/-- Scenario S5 of the spec: a leader at index 10, voters matched at 10, 9 and 8,
a learner matched at 10, and quorum index 2. -/
def learnerQuorum : RaftServer :=
  { id := 0, role := .leader, term := 1, logStore := ⟨List.replicate 10 ⟨1, .appLog, 0⟩, 1, by decide⟩,
    lastSnapshot := none, quickCommitIndex := 0, smCommitIndex := 0, leaderCommitIndex := 0,
    leader := 0, configChanging := false, stopping := false, catchingUp := false,
    initialized := true,
    peers := fun pid =>
      ⟨pid == 4, 11, [0, 10, 9, 8, 10].getD pid 0, false, false, 0, 0, 0, 0, false, false, 0, 0⟩,
    peerIds := [1, 2, 3, 4], quorumForCommit := 2, params := ⟨100, 100⟩, smCalls := [],
    exited := false }

/-- In scenario S5 the committed index is the order statistic of `[10, 10, 9, 8]`. -/
theorem quorumCommitIdx_order_statistic_learner :
    learnerQuorum.quorumForCommit < (matchedIndexes learnerQuorum).length ∧
      learnerQuorum.quorumForCommit + 1 ≤ (matchedIndexes learnerQuorum).countP
        (fun m => decide (quorumCommitIdx learnerQuorum ≤ m)) ∧
      (matchedIndexes learnerQuorum).countP
        (fun m => decide (quorumCommitIdx learnerQuorum < m)) ≤ learnerQuorum.quorumForCommit ∧
      (∀ v, learnerQuorum.quorumForCommit + 1 ≤
          (matchedIndexes learnerQuorum).countP (fun m => decide (v ≤ m)) →
        v ≤ quorumCommitIdx learnerQuorum) ∧
      ∀ s' : RaftServer, s'.quorumForCommit = learnerQuorum.quorumForCommit →
        (matchedIndexes s').Perm (matchedIndexes learnerQuorum) →
        quorumCommitIdx s' = quorumCommitIdx learnerQuorum :=
  ⟨by decide, quorumCommitIdx_order_statistic learnerQuorum (by decide)⟩

example : matchedIndexes learnerQuorum = [10, 10, 9, 8] ∧ quorumCommitIdx learnerQuorum = 9 := by
  decide

end NuRaft.Protocol

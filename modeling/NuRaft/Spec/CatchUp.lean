import NuRaft.Spec.Splice

/-!
# Requests read off one leader log

A request the leader builds carries the entries of its log `L` right after
`last_log_idx`. Spliced into a follower log `F` that agrees with `L` up to
`last_log_idx`, it leaves, up to terms, `catchUp F L n` for `n` its last index:
`F` itself where `F` already agrees with `L` up to `n`, `L`'s first `n` entries
otherwise (`splice_catchUp`). Two such requests compose to `catchUp` at the
larger of their last indices, in either order (`splice_splice_catchUp`).
-/
namespace NuRaft.Spec
open NuRaft.Source

/-- Same length and the same term at every index. -/
def SameTerms (G H : List LogEntry) : Prop := G.map LogEntry.term = H.map LogEntry.term

theorem SameTerms.symm {G H : List LogEntry} (h : SameTerms G H) : SameTerms H G := Eq.symm h

theorem SameTerms.trans {G H K : List LogEntry} (h : SameTerms G H) (h' : SameTerms H K) :
    SameTerms G K := Eq.trans h h'

theorem SameTerms.length_eq {G H : List LogEntry} (h : SameTerms G H) : G.length = H.length := by
  simpa using congrArg List.length h

theorem SameTerms.termOf_eq {G H : List LogEntry} (h : SameTerms G H) (i : Nat) :
    termOf G i = termOf H i := by
  cases i with
  | zero => rfl
  | succ i => simpa [termOf_succ] using congrArg (fun l => (l[i]?).getD 0) h

theorem sameTerms_of_termOf {G H : List LogEntry} (len : G.length = H.length)
    (terms : ∀ i, termOf G i = termOf H i) : SameTerms G H := by
  refine List.ext_getElem (by simpa using len) fun i hG hH => ?_
  simp only [List.length_map] at hG hH
  simpa [termOf_of_lt hG, termOf_of_lt hH] using terms (i + 1)

/-- `splice` reads the log's terms only. -/
theorem splice_sameTerms {G H : List LogEntry} (h : SameTerms G H) :
    ∀ (prev : Nat) (E : List LogEntry), SameTerms (splice G prev E) (splice H prev E)
  | _, [] => h
  | prev, e :: rest => by
    simp only [splice, h.length_eq, h.termOf_eq]
    split
    · exact splice_sameTerms h (prev + 1) rest
    · simp only [SameTerms, List.map_append, List.map_take]
      rw [show G.map LogEntry.term = H.map LogEntry.term from h]

theorem AgreeUpTo.succ {F L : List LogEntry} {k : Nat} (h : AgreeUpTo F L k)
    (hF : k < F.length) (hL : k < L.length) (same : termOf F (k + 1) = termOf L (k + 1)) :
    AgreeUpTo F L (k + 1) :=
  ⟨hF, hL, fun i hi => by
    rcases Nat.lt_or_ge i (k + 1) with lt | ge
    · exact h.2.2 i (by omega)
    · rwa [show i = k + 1 by omega]⟩

theorem AgreeUpTo.sameTerms_take {F L : List LogEntry} {k : Nat} (h : AgreeUpTo F L k) :
    SameTerms (F.take k) (L.take k) := by
  refine sameTerms_of_termOf (by simp [h.1, h.2.1]) fun i => ?_
  rcases Nat.lt_or_ge k i with lt | le
  · rw [termOf_of_length_lt (by simp; omega), termOf_of_length_lt (by simp; omega)]
  · rw [termOf_take le, termOf_take le, h.2.2 i le]

theorem agreeUpTo_take {L : List LogEntry} {n k : Nat} (within : n ≤ L.length) :
    AgreeUpTo (L.take n) L k ↔ k ≤ n := by
  refine ⟨fun h => by simpa [within] using h.1,
    fun le => ⟨by simp; omega, by omega, fun i hi => ?_⟩⟩
  exact termOf_take (by omega)

/-- `F`'s first `a` entries, agreeing with `L`, followed by entries of `L`
after `a`, have `L`'s terms. -/
theorem AgreeUpTo.sameTerms_take_append {F L X : List LogEntry} {a : Nat} (h : AgreeUpTo F L a)
    (pre : X <+: L.drop a) : SameTerms (F.take a ++ X) (L.take (a + X.length)) := by
  rw [List.take_add, ← List.prefix_iff_eq_take.mp pre]
  simp only [SameTerms, List.map_append]
  rw [show (F.take a).map LogEntry.term = (L.take a).map LogEntry.term from h.sameTerms_take]

theorem termOf_of_prefix_drop {E L : List LogEntry} {prev t : Nat} (pre : E <+: L.drop prev)
    (pos : 0 < t) (le : t ≤ E.length) : termOf E t = termOf L (prev + t) := by
  rw [List.prefix_iff_eq_take.mp pre, termOf_take le, termOf_drop _ _ pos]

/-- The entries of `L` after `prev`, as a request carries them. -/
theorem prefix_drop_cons {L rest : List LogEntry} {e : LogEntry} {prev : Nat}
    (h : e :: rest <+: L.drop prev) :
    prev < L.length ∧ termOf L (prev + 1) = e.term ∧ rest <+: L.drop (prev + 1) := by
  obtain ⟨t, ht⟩ := h
  have len := congrArg List.length ht
  simp only [List.length_append, List.length_cons, List.length_drop] at len
  refine ⟨by omega, termOf_of_drop ht.symm, t, ?_⟩
  rw [← List.drop_drop, ← ht]
  rfl

/-- What requests read off `L` up to index `n` leave of `F`, up to terms. -/
def catchUp (F L : List LogEntry) (n : Nat) : List LogEntry :=
  if AgreeUpTo F L n then F else L.take n

/-- A request read off `L`, spliced where `F` agrees with `L`, leaves `catchUp`. -/
theorem splice_catchUp (F L : List LogEntry) :
    ∀ (prev : Nat) (E : List LogEntry), AgreeUpTo F L prev → E <+: L.drop prev →
      SameTerms (splice F prev E) (catchUp F L (prev + E.length))
  | prev, [], agree, _ => by simp [splice, catchUp, agree, SameTerms]
  | prev, e :: rest, agree, pre => by
    obtain ⟨within, term, pre'⟩ := prefix_drop_cons pre
    unfold splice
    split
    next held =>
      have := splice_catchUp F L (prev + 1) rest (agree.succ held.1 within (by rw [held.2, term]))
        pre'
      rwa [show prev + 1 + rest.length = prev + (e :: rest).length by simp; omega] at this
    next conflict =>
      have apart : ¬ AgreeUpTo F L (prev + (e :: rest).length) := fun full =>
        conflict ⟨by have := full.1; simp at this; omega, by rw [full.2.2 _ (by simp), term]⟩
      rw [catchUp, if_neg apart]
      exact agree.sameTerms_take_append pre

theorem agreeUpTo_catchUp {F L : List LogEntry} {prev n : Nat} (agree : AgreeUpTo F L prev)
    (within : n ≤ L.length) : AgreeUpTo (catchUp F L n) L prev := by
  unfold catchUp
  split
  · exact agree
  · next apart =>
    exact (agreeUpTo_take within).mpr (Nat.not_lt.mp fun lt => apart (agree.mono lt.le))

theorem catchUp_catchUp (F L : List LogEntry) {n₁ : Nat} (n₂ : Nat)
    (within : n₁ ≤ L.length) :
    catchUp (catchUp F L n₁) L n₂ = catchUp F L (max n₁ n₂) := by
  by_cases h₁ : AgreeUpTo F L n₁
  · by_cases h₂ : AgreeUpTo F L n₂
    · have : AgreeUpTo F L (max n₁ n₂) := by
        rcases Nat.le_total n₁ n₂ with le | le
        · rwa [Nat.max_eq_right le]
        · rwa [Nat.max_eq_left le]
      simp [catchUp, h₁, h₂, this]
    · have lt : n₁ < n₂ := Nat.not_le.mp fun le => h₂ (h₁.mono le)
      simp [catchUp, h₁, h₂, Nat.max_eq_right lt.le]
  · rcases Nat.le_total n₂ n₁ with le | le
    · simp [catchUp, h₁, (agreeUpTo_take within).mpr le, Nat.max_eq_left le]
    · have h₂ : ¬ AgreeUpTo F L n₂ := fun h => h₁ (h.mono le)
      have apart : ¬ AgreeUpTo (L.take n₁) L n₂ ∨ n₁ = n₂ := by
        rcases Nat.eq_or_lt_of_le le with eq | lt
        · exact .inr eq
        · exact .inl fun h => by have := (agreeUpTo_take within).mp h; omega
      rcases apart with apart | rfl
      · simp [catchUp, h₁, h₂, apart, Nat.max_eq_right le]
      · simp [catchUp, h₁, (agreeUpTo_take within).mpr le]

/-- Two requests read off `L`, each starting where `F` agrees with `L`, handled
one after the other, leave `catchUp` at the larger last index. -/
theorem splice_splice_catchUp {F L E₁ E₂ : List LogEntry} {p₁ p₂ : Nat}
    (agree₁ : AgreeUpTo F L p₁) (agree₂ : AgreeUpTo F L p₂)
    (pre₁ : E₁ <+: L.drop p₁) (pre₂ : E₂ <+: L.drop p₂) :
    p₂ ≤ (splice F p₁ E₁).length ∧
      SameTerms (splice (splice F p₁ E₁) p₂ E₂)
        (catchUp F L (max (p₁ + E₁.length) (p₂ + E₂.length))) := by
  have within₁ : p₁ + E₁.length ≤ L.length := by
    have := pre₁.length_le; simp at this; have := agree₁.2.1; omega
  have first := splice_catchUp F L p₁ E₁ agree₁ pre₁
  have agree₂' := agreeUpTo_catchUp agree₂ within₁
  refine ⟨first.length_eq ▸ agree₂'.1, ?_⟩
  rw [← catchUp_catchUp F L _ within₁]
  exact (splice_sameTerms first p₂ E₂).trans (splice_catchUp _ L p₂ E₂ agree₂' pre₂)

/-- Every entry of term `term` in `F` is in `L`, at the same index. -/
def OwnTermFrom (F L : List LogEntry) (term : Nat) : Prop :=
  ∀ i, i ≤ F.length → termOf F i = term → i ≤ L.length ∧ termOf L i = term

instance (F L : List LogEntry) (term : Nat) : Decidable (OwnTermFrom F L term) :=
  inferInstanceAs (Decidable (∀ i, i ≤ F.length → _))

/-- What storing entries read off `L` leaves of a log `F`: `F`'s terms, or
`L`'s first `j` terms for a `j` up to which `F` does not agree with `L`. -/
def Advances (F L G : List LogEntry) : Prop :=
  SameTerms G F ∨ ∃ j, j ≤ L.length ∧ ¬ AgreeUpTo F L j ∧ SameTerms G (L.take j)

theorem AgreeUpTo.of_sameTerms {F G L : List LogEntry} {k : Nat} (h : AgreeUpTo F L k)
    (same : SameTerms G F) : AgreeUpTo G L k :=
  h.congr (by rw [same.length_eq]; exact h.1) h.2.1 (fun i _ => same.termOf_eq i) (fun _ _ => rfl)

namespace Advances

variable {F L G : List LogEntry}

theorem refl (F L : List LogEntry) : Advances F L F := .inl rfl

/-- Agreement with `L` is never lost. -/
theorem agree (adv : Advances F L G) {k : Nat} (h : AgreeUpTo F L k) : AgreeUpTo G L k := by
  rcases adv with same | ⟨j, within, apart, same⟩
  · exact h.of_sameTerms same
  · have below : k ≤ j := Nat.le_of_lt (Nat.not_le.mp fun le => apart (h.mono le))
    exact ((agreeUpTo_take within).mpr below).of_sameTerms same

theorem matching (adv : Advances F L G) (m : LogMatching F L) : LogMatching G L := by
  intro i hG hL eq
  rcases adv with same | ⟨j, within, -, same⟩
  · rw [same.termOf_eq] at eq
    exact (m i (by rwa [← same.length_eq]) hL eq).of_sameTerms same
  · have below : i ≤ j := by rw [same.length_eq] at hG; simpa [within] using hG
    exact ((agreeUpTo_take within).mpr below).of_sameTerms same

theorem ownTerm (adv : Advances F L G) {term : Nat} (own : OwnTermFrom F L term) :
    OwnTermFrom G L term := by
  intro i hi eq
  rcases adv with same | ⟨j, within, -, same⟩
  · rw [same.termOf_eq] at eq
    exact own i (by rwa [← same.length_eq]) eq
  · rw [same.length_eq] at hi
    simp only [List.length_take, Nat.min_eq_left within] at hi
    rw [same.termOf_eq, termOf_take hi] at eq
    exact ⟨by omega, eq⟩

end Advances

end NuRaft.Spec

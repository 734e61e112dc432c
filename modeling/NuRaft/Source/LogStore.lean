import Mathlib.Data.List.Basic

/-!
# Log entries, snapshots and the log store

The values `handle_append_entries.cxx` reads through `log_store_` and
`get_last_snapshot()`. The log store is a collaborator outside the source; it is
modelled from its contract: an ordered sequence of entries addressed from index
1, `next_slot` one past the last entry, `write_at(i, e)` a truncating overwrite
and `append` writing at `next_slot`.

`entries` is the sequence from index 1, the compacted entries below
`start_index` kept only to hold their places; `start_index` is at most
`next_slot`. Compacted entries are not retrievable: `term_at` answers 0 and
`entry_at` nothing below `start_index`. `log_entries` is read from
`start_index` on only (a well-formed leader falls back to its snapshot below
it, lines 201-203). Log indices are `ulong`: `ulongPred` is the one
subtraction that can wrap; `int32Of` is the narrowing of a timer or a count to
an `int32` local.
-/
namespace NuRaft.Source

/-- `log_val_type` of an entry; only `app_log` and `conf` are told apart by the source. -/
inductive LogValType where
  | appLog | conf | clusterServer | logPack | snpSyncReq | custom
  deriving DecidableEq, Repr

/-- A log entry: its term, its type and its payload buffer (opaque). -/
structure LogEntry where
  term : Nat
  valType : LogValType
  buf : Nat
  deriving DecidableEq, Repr

/-- The last snapshot: index and term of the last entry it covers. -/
structure Snapshot where
  lastLogIdx : Nat
  lastLogTerm : Nat
  deriving DecidableEq, Repr

structure LogStore where
  entries : List LogEntry
  startIndex : Nat
  startInside : startIndex ≤ entries.length + 1
  deriving DecidableEq, Repr

/-- `2^64 - 1`, the largest `ulong`. -/
def ulongMax : Nat := 18446744073709551615

/-- `x - 1` on a `ulong`: zero wraps to `ulongMax`. -/
def ulongPred (x : Nat) : Nat := if x = 0 then ulongMax else x - 1

@[simp] theorem ulongPred_of_pos {x : Nat} (h : 0 < x) : ulongPred x = x - 1 := by
  simp [ulongPred, Nat.pos_iff_ne_zero.mp h]

@[simp] theorem ulongPred_succ (x : Nat) : ulongPred (x + 1) = x := by
  simp [ulongPred]

/-- A `ulong` or an `int32` count narrowed to an `int32` local: its low 32 bits,
read in two's complement. -/
def int32Of (x : Nat) : Int := (BitVec.ofNat 32 x).toInt

@[simp] theorem int32Of_zero : int32Of 0 = 0 := rfl

theorem int32Of_of_lt {x : Nat} (h : x < 2147483648) : int32Of x = x := by
  rw [int32Of, BitVec.toInt_eq_toNat_cond, BitVec.toNat_ofNat,
    Nat.mod_eq_of_lt (by omega : x < 2 ^ 32), if_pos (by omega)]

/-- Term of the entry at a 1-based index of a sequence; 0 where there is none. -/
def termOf (log : List LogEntry) : Nat → Nat
  | 0 => 0
  | i + 1 => (log[i]?.map LogEntry.term).getD 0

@[simp] theorem termOf_zero (log : List LogEntry) : termOf log 0 = 0 := rfl

theorem termOf_succ (log : List LogEntry) (i : Nat) :
    termOf log (i + 1) = (log[i]?.map LogEntry.term).getD 0 := rfl

theorem termOf_of_lt {log : List LogEntry} {i : Nat} (h : i < log.length) :
    termOf log (i + 1) = (log.get ⟨i, h⟩).term := by
  simp [termOf, List.getElem?_eq_getElem h]

@[simp] theorem termOf_cons_one (e : LogEntry) (rest : List LogEntry) :
    termOf (e :: rest) 1 = e.term := by simp [termOf]

@[simp] theorem termOf_cons_add_two (e : LogEntry) (rest : List LogEntry) (i : Nat) :
    termOf (e :: rest) (i + 2) = termOf rest (i + 1) := by simp [termOf]

theorem termOf_append_length (front back : List LogEntry) {t : Nat} (ht : 0 < t) :
    termOf (front ++ back) (front.length + t) = termOf back t := by
  obtain ⟨u, rfl⟩ : ∃ u, t = u + 1 := ⟨t - 1, by omega⟩
  simp [termOf, ← Nat.add_assoc, List.getElem?_append_right]

theorem termOf_of_length_lt {log : List LogEntry} {i : Nat} (h : log.length < i) :
    termOf log i = 0 := by
  cases i with
  | zero => rfl
  | succ i => simp [termOf, List.getElem?_eq_none (by omega : log.length ≤ i)]

theorem termOf_append_left {log more : List LogEntry} {i : Nat} (h : i ≤ log.length) :
    termOf (log ++ more) i = termOf log i := by
  cases i with
  | zero => rfl
  | succ i => simp [termOf, List.getElem?_append_left (by omega : i < log.length)]

theorem termOf_take {log : List LogEntry} {n i : Nat} (h : i ≤ n) :
    termOf (log.take n) i = termOf log i := by
  cases i with
  | zero => rfl
  | succ i => simp [termOf, List.getElem?_take_of_lt (by omega : i < n)]

theorem termOf_drop (log : List LogEntry) (n : Nat) {t : Nat} (ht : 0 < t) :
    termOf (log.drop n) t = termOf log (n + t) := by
  obtain ⟨u, rfl⟩ : ∃ u, t = u + 1 := ⟨t - 1, by omega⟩
  rw [← Nat.add_assoc, termOf_succ, termOf_succ, List.getElem?_drop]

theorem termOf_of_drop {E rest : List LogEntry} {n : Nat} {e : LogEntry}
    (h : E.drop n = e :: rest) : termOf E (n + 1) = e.term := by
  have : E[n]? = some e := by
    have := List.getElem?_drop E n 0
    rw [h, Nat.add_zero] at this
    simpa using this.symm
  simp [termOf_succ, this]

/-- The entry at a 1-based index of a sequence. -/
def entryOf (log : List LogEntry) : Nat → Option LogEntry
  | 0 => none
  | i + 1 => log[i]?

namespace LogStore

def nextSlot (store : LogStore) : Nat := store.entries.length + 1

/-- `entry_at(i)`: nothing below `start_index`. -/
def entryAt (store : LogStore) (index : Nat) : Option LogEntry :=
  if index < store.startIndex then none else entryOf store.entries index

/-- `term_at(i)`: 0 below `start_index`. -/
def termAt (store : LogStore) (index : Nat) : Nat :=
  if index < store.startIndex then 0 else termOf store.entries index

/-- Truncating overwrite: every entry from `index` on is discarded. -/
def writeAt (store : LogStore) (index : Nat) (entry : LogEntry) : LogStore :=
  { entries := store.entries.take (index - 1) ++ [entry]
    startIndex := min store.startIndex index
    startInside := by have := store.startInside; simp only [List.length_append,
      List.length_take, List.length_singleton]; omega }

def append (store : LogStore) (entry : LogEntry) : LogStore :=
  { store with
    entries := store.entries ++ [entry]
    startInside := by have := store.startInside; simp only [List.length_append,
      List.length_singleton]; omega }

/-- `log_entries(lo, hi)`: the entries at indices `lo .. hi - 1`. -/
def logEntries (store : LogStore) (lo hi : Nat) : List LogEntry :=
  (store.entries.drop (lo - 1)).take (hi - lo)

@[simp] theorem nextSlot_pos (store : LogStore) : 0 < store.nextSlot := Nat.succ_pos _

@[simp] theorem writeAt_entries (store : LogStore) (index : Nat) (entry : LogEntry) :
    (store.writeAt index entry).entries = store.entries.take (index - 1) ++ [entry] := rfl

@[simp] theorem writeAt_startIndex (store : LogStore) (index : Nat) (entry : LogEntry) :
    (store.writeAt index entry).startIndex = min store.startIndex index := rfl

@[simp] theorem append_entries (store : LogStore) (entry : LogEntry) :
    (store.append entry).entries = store.entries ++ [entry] := rfl

@[simp] theorem append_startIndex (store : LogStore) (entry : LogEntry) :
    (store.append entry).startIndex = store.startIndex := rfl

theorem nextSlot_writeAt {store : LogStore} {index : Nat} (entry : LogEntry)
    (pos : 0 < index) (inside : index ≤ store.nextSlot) :
    (store.writeAt index entry).nextSlot = index + 1 := by
  simp only [nextSlot, writeAt_entries, List.length_append, List.length_take,
    List.length_singleton]
  unfold nextSlot at inside
  omega

@[simp] theorem nextSlot_append (store : LogStore) (entry : LogEntry) :
    (store.append entry).nextSlot = store.nextSlot + 1 := by
  simp [nextSlot]

theorem startIndex_le_nextSlot (store : LogStore) : store.startIndex ≤ store.nextSlot :=
  store.startInside

theorem termAt_of_le {store : LogStore} {index : Nat} (h : store.startIndex ≤ index) :
    store.termAt index = termOf store.entries index := if_neg (Nat.not_lt.mpr h)

theorem termAt_of_lt {store : LogStore} {index : Nat} (h : index < store.startIndex) :
    store.termAt index = 0 := if_pos h

theorem entryAt_of_le {store : LogStore} {index : Nat} (h : store.startIndex ≤ index) :
    store.entryAt index = entryOf store.entries index := if_neg (Nat.not_lt.mpr h)

theorem entryAt_of_lt {store : LogStore} {index : Nat} (h : index < store.startIndex) :
    store.entryAt index = none := if_pos h

/-- A store with nothing compacted answers from its whole sequence. -/
theorem termAt_of_whole {store : LogStore} (whole : store.startIndex ≤ 1) {index : Nat}
    (pos : 0 < index) : store.termAt index = termOf store.entries index :=
  termAt_of_le (by omega)

/-- A store cut after `m` entries and continued by `rest`, its start moved down
to `m + 1` at the latest, answers as before up to `m`, and with `rest` after. -/
theorem termAt_cut {store store' : LogStore} {m : Nat} {rest : List LogEntry}
    (within : m ≤ store.entries.length) (entries : store'.entries = store.entries.take m ++ rest)
    (start : store'.startIndex = min store.startIndex (m + 1)) :
    (∀ j ≤ m, store'.termAt j = store.termAt j) ∧
      ∀ u, 0 < u → store'.termAt (m + u) = termOf rest u := by
  have len : (store.entries.take m).length = m := by simp; omega
  refine ⟨fun j le => ?_, fun u pos => ?_⟩
  · unfold termAt
    rw [start, entries, termOf_append_left (by omega), termOf_take le]
    split_ifs <;> first | rfl | omega
  · rw [termAt_of_le (by rw [start]; omega), entries, ← termOf_append_length _ rest pos, len]

theorem entryAt_nextSlot (store : LogStore) : store.entryAt store.nextSlot = none := by
  unfold entryAt
  split
  · rfl
  · simp [nextSlot, entryOf]

/-- An index from `start_index` on inside the store holds an entry, with its term. -/
theorem entryAt_of_inside {store : LogStore} {index : Nat} (pos : 0 < index)
    (start : store.startIndex ≤ index) (inside : index < store.nextSlot) :
    ∃ e, store.entryAt index = some e ∧ store.termAt index = e.term := by
  obtain ⟨i, rfl⟩ : ∃ i, index = i + 1 := ⟨index - 1, by omega⟩
  have bound : i < store.entries.length := by unfold nextSlot at inside; omega
  rw [entryAt_of_le start, termAt_of_le start]
  exact ⟨_, by simp [entryOf, List.getElem?_eq_getElem bound], termOf_of_lt bound⟩

end LogStore

end NuRaft.Source

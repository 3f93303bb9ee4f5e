import Mathlib.Data.List.Induction
import WorkAtUPB.Lib.Sorting

namespace WorkAtUPB.FaultTolerantService

open Sorting

/-!
# FaultTolerantService — the tasks (`task_manager.cpp`)

A number of ints to sort is cut into tasks, which the workers solve:

* `Task` — a `SortTask` or a `MergeTask`, with its status, its operands and its result;
* `Task.numbers` — the numbers that a task stands for, solved or not;
* `insertionSort` — the loops of `SortTask::computeResult`, which sort in place;
* `insertionSort_spec` — they stay in bounds, and the array ends up sorted.

An array is the list of its elements, so that the size fields are lengths and a null pointer
with size 0 is the empty list.  `none` stands for an access out of the bounds of an array.
-/

/-! ### Tasks -/

/-- `TASK_NOT_SOLVED`. -/
def TASK_NOT_SOLVED : Int := 10

/-- `TASK_IN_PROGRESS`. -/
def TASK_IN_PROGRESS : Int := 11

/-- `TASK_SOLVED`. -/
def TASK_SOLVED : Int := 12

/-- `SORT_TASK`. -/
def SORT_TASK : Int := 111

/-- `MERGE_TASK`. -/
def MERGE_TASK : Int := 112

/-- The objects of the two classes that derive from `Task`.  A `MergeTask` has no data before
    its result is computed. -/
inductive Task where
  | sort (solved : Int) (data : List Int)
  | merge (solved : Int) (data data1 data2 : List Int)
  deriving DecidableEq, Repr

/-- `SortTask::SortTask`. -/
def sortTask (data : List Int) : Task := .sort TASK_NOT_SOLVED data

/-- `MergeTask::MergeTask`. -/
def mergeTask (data1 data2 : List Int) : Task := .merge TASK_NOT_SOLVED [] data1 data2

/-- `getData`, with `getSize` as its length. -/
def Task.getData : Task → List Int
  | .sort _ data => data
  | .merge _ data _ _ => data

/-- `setTaskStatus`. -/
def Task.setTaskStatus (status : Int) : Task → Task
  | .sort _ data => .sort status data
  | .merge _ data data1 data2 => .merge status data data1 data2

/-! ### The loops of the insertion sort -/

/-- The assignment `m_data[i] = x`. -/
def store (data : List Int) (i : Nat) (x : Int) : Option (List Int) :=
  if i < data.length then some (data.set i x) else none

/-- The inner loop of the insertion sort, where the index `j` of the source is `hole - 1`: it
    returns the last hole and the array. -/
def shift (value : Int) : Nat → List Int → Option (Nat × List Int)
  | 0, data => some (0, data)
  | hole + 1, data =>
    data[hole]?.bind fun x =>
      if x > value then (store data (hole + 1) x).bind (shift value hole)
      else some (hole + 1, data)

/-- One round of the outer loop of the insertion sort. -/
def insert (data : List Int) (i : Nat) : Option (List Int) :=
  data[i]?.bind fun value =>
    (shift value i data).bind fun (hole, data) => store data hole value

/-- The outer loop of the insertion sort. -/
def insertionSort (data : List Int) : Option (List Int) :=
  (List.range data.length).foldlM insert data

/-! ### What a task stands for -/

/-- The numbers of a task: those to be sorted, or those of both operands. -/
def Task.numbers : Task → List Int
  | .sort _ data => data
  | .merge _ _ data1 data2 => data1 ++ data2

/-- The operands of a merge are sorted, as the merge expects them. -/
def Task.OperandsSorted : Task → Prop
  | .sort _ _ => True
  | .merge _ _ data1 data2 => data1.Pairwise (· ≤ ·) ∧ data2.Pairwise (· ≤ ·)

/-- The status has nothing to do with the numbers. -/
@[simp] theorem numbers_setTaskStatus (status : Int) (t : Task) :
    (t.setTaskStatus status).numbers = t.numbers := by
  cases t <;> rfl

/-- Nor with their order. -/
@[simp] theorem operandsSorted_setTaskStatus (status : Int) (t : Task) :
    (t.setTaskStatus status).OperandsSorted ↔ t.OperandsSorted := by
  cases t <;> exact Iff.rfl

/-! ### What the insertion sort does -/

/-- A store that stays in bounds. -/
theorem store_eq_some {buffer buffer' : List Int} {i : Nat} {x : Int}
    (h : store buffer i x = some buffer') : i < buffer.length ∧ buffer'.length = buffer.length := by
  obtain ⟨hi, h⟩ := Option.ite_none_right_eq_some.mp h
  cases h
  exact ⟨hi, List.length_set⟩

/-- A store between two parts of a buffer. -/
theorem store_eq (pre post : List Int) (y x : Int) :
    store (pre ++ y :: post) pre.length x = some (pre ++ x :: post) := by
  have hlt : pre.length < (pre ++ y :: post).length := by simp
  rw [store, if_pos hlt, List.set_append_right _ _ (Nat.le_refl _), Nat.sub_self,
    List.set_cons_zero]

/-- The inner loop opens a hole in front of the elements that are greater than the value, by
    moving each of them into the hole behind it. -/
theorem shift_spec (value : Int) (pre : List Int) (h : Int) (post : List Int) :
    ∃ lo y hi, pre = lo ++ hi ∧
      shift value pre.length (pre ++ h :: post) = some (lo.length, lo ++ y :: (hi ++ post)) ∧
      (∀ x ∈ lo.getLast?, x ≤ value) ∧ ∀ x ∈ hi, value < x := by
  induction pre using List.reverseRecOn generalizing h post with
  | nil => exact ⟨[], h, [], rfl, rfl, by simp, by simp⟩
  | append_singleton pre x ih =>
    have hget : (pre ++ [x] ++ h :: post)[pre.length]? = some x := by simp
    have hstep : shift value (pre ++ [x]).length (pre ++ [x] ++ h :: post) =
        if x > value then (store (pre ++ [x] ++ h :: post) (pre.length + 1) x).bind
          (shift value pre.length)
        else some (pre.length + 1, pre ++ [x] ++ h :: post) := by
      rw [List.length_append, List.length_singleton, shift, hget, Option.bind_some]
    by_cases hx : x > value
    -- `x` moves into the hole, and its old place is the hole in front of the shorter prefix.
    · have hstore := store_eq (pre ++ [x]) post h x
      rw [List.length_append, List.length_singleton] at hstore
      obtain ⟨lo, y, hi, hpre, hshift, hlo, hhi⟩ := ih x (x :: post)
      refine ⟨lo, y, hi ++ [x], ?_, ?_, hlo, ?_⟩
      · rw [hpre, List.append_assoc]
      · rw [hstep, if_pos hx, hstore, Option.bind_some, List.append_assoc,
          List.singleton_append, hshift, List.append_assoc, List.singleton_append]
      · intro z hz
        rcases List.mem_append.mp hz with hz | hz
        · exact hhi z hz
        · exact List.mem_singleton.mp hz ▸ hx
    -- The loop stops behind `x`.
    · refine ⟨pre ++ [x], h, [], (List.append_nil _).symm, ?_, ?_, by simp⟩
      · rw [hstep, if_neg hx, List.length_append, List.length_singleton, List.nil_append]
      · simpa using hx

/-- One round of the outer loop puts the element behind a sorted prefix into it. -/
theorem insert_spec {pre xs : List Int} (hpre : SortedPerm pre xs) (value : Int)
    (post : List Int) :
    ∃ pre', insert (pre ++ value :: post) pre.length = some (pre' ++ post) ∧
      SortedPerm pre' (xs ++ [value]) := by
  obtain ⟨lo, y, hi, rfl, hshift, hlo, hhi⟩ := shift_spec value pre value post
  have hget : (lo ++ hi ++ value :: post)[(lo ++ hi).length]? = some value := by simp
  refine ⟨lo ++ value :: hi, ?_, hpre.insert hlo hhi⟩
  rw [insert, hget, Option.bind_some, hshift, Option.bind_some]
  show store (lo ++ y :: (hi ++ post)) lo.length value = _
  rw [store_eq, List.append_assoc, List.cons_append]

/-- After `n` rounds the first `n` elements are sorted, and the others as they were. -/
theorem foldlM_insert (data : List Int) (n : Nat) (hn : n ≤ data.length) :
    ∃ pre, (List.range n).foldlM insert data = some (pre ++ data.drop n) ∧
      SortedPerm pre (data.take n) := by
  induction n with
  | zero => exact ⟨[], rfl, SortedPerm.nil⟩
  | succ n ih =>
    obtain ⟨pre, hfold, hpre⟩ := ih (by omega)
    have hlen : pre.length = n := by
      rw [hpre.perm.length_eq, List.length_take, Nat.min_eq_left (by omega)]
    have hdrop : data.drop n = data[n] :: data.drop (n + 1) := List.drop_eq_getElem_cons hn
    obtain ⟨pre', hins, hpre'⟩ := insert_spec hpre data[n] (data.drop (n + 1))
    refine ⟨pre', ?_, ?_⟩
    · rw [List.range_succ, List.foldlM_append, hfold, hdrop]
      show (insert (pre ++ data[n] :: data.drop (n + 1)) n).bind some = _
      rw [hlen] at hins
      rw [hins, Option.bind_some]
    · rwa [List.take_succ_eq_append_getElem hn]

/-- **Insertion sort.**  No access is out of bounds, and the array ends up sorted. -/
theorem insertionSort_spec (data : List Int) :
    ∃ data', insertionSort data = some data' ∧ SortedPerm data' data := by
  obtain ⟨data', hfold, hdata'⟩ := foldlM_insert data data.length (Nat.le_refl _)
  rw [List.drop_length, List.append_nil] at hfold
  rw [List.take_length] at hdata'
  exact ⟨data', hfold, hdata'⟩

end WorkAtUPB.FaultTolerantService

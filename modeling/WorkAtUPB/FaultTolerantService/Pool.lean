import Mathlib.Algebra.Order.Group.Multiset
import Mathlib.Tactic.Abel
import WorkAtUPB.FaultTolerantService.ComputeResult

namespace WorkAtUPB.FaultTolerantService

/-!
# FaultTolerantService — a pool of tasks

What the master does, without the slaves, the messages and the counters: there is a queue of
tasks, at most one task in the hands of a worker, and at most one sorted array that waits for
a second one to be merged with.

* `Pool`, `Pool.Step` — a task is handed out, comes back unsolved, or comes back solved;
* `Pool.numbers` — all numbers in the pool, counted with multiplicity;
* `Pool.Step.numbers_eq` — no step loses or duplicates a number, of fewer than `2 ^ 31`;
* `Pool.Step.sorted`, `Pool.Step.nonempty` — the arrays to be merged stay sorted, and the
  queue never runs empty.
-/

/-- The tasks of a master. -/
structure Pool where
  queue : List Task
  pending : Option Task
  inFlight : Option Task

/-- What can happen to a pool.  The last task of the queue is never handed out. -/
inductive Pool.Step : Pool → Pool → Prop where
  | quiet (p : Pool) : Step p p
  | dispatch (task : Task) (queue : List Task) (pending : Option Task) (hqueue : queue ≠ []) :
      Step ⟨task :: queue, pending, none⟩
        ⟨queue, pending, some (task.setTaskStatus TASK_IN_PROGRESS)⟩
  | fail (task : Task) (queue : List Task) (pending : Option Task) :
      Step ⟨queue, pending, some task⟩
        ⟨queue ++ [task.setTaskStatus TASK_NOT_SOLVED], pending, none⟩
  | first (task : Task) (queue : List Task) (data : List Int) (hresult : task.result = some data) :
      Step ⟨queue, none, some task⟩ ⟨queue, some (sortTask data), none⟩
  | second (task : Task) (queue : List Task) (data1 data : List Int)
      (hresult : task.result = some data) :
      Step ⟨queue, some (sortTask data1), some task⟩
        ⟨queue ++ [mergeTask data1 data], none, none⟩

/-- The numbers of a list of tasks. -/
def numbersOf (tasks : List Task) : Multiset Int := (tasks.flatMap Task.numbers : List Int)

/-- All numbers in the pool. -/
def Pool.numbers (p : Pool) : Multiset Int :=
  numbersOf p.queue + numbersOf p.pending.toList + numbersOf p.inFlight.toList

/-- The operands of every merge are sorted, and so is the operand that waits for a second
    one. -/
structure Pool.Sorted (p : Pool) : Prop where
  queue : ∀ task ∈ p.queue, task.OperandsSorted
  inFlight : ∀ task ∈ p.inFlight, task.OperandsSorted
  pending : ∀ task ∈ p.pending, task.getData.Pairwise (· ≤ ·)

/-- No tasks have no numbers. -/
@[simp] theorem numbersOf_nil : numbersOf [] = 0 := rfl

/-- The numbers of the first task, and of the others. -/
@[simp] theorem numbersOf_cons (task : Task) (tasks : List Task) :
    numbersOf (task :: tasks) = (task.numbers : Multiset Int) + numbersOf tasks := by
  rw [numbersOf, List.flatMap_cons, ← Multiset.coe_add]
  rfl

/-- The numbers of two queues. -/
@[simp] theorem numbersOf_append (ts us : List Task) :
    numbersOf (ts ++ us) = numbersOf ts + numbersOf us := by
  rw [numbersOf, List.flatMap_append, ← Multiset.coe_add]
  rfl

/-- The numbers of a `SortTask`. -/
@[simp] theorem numbers_sortTask (data : List Int) : (sortTask data).numbers = data := rfl

/-- The numbers of a `MergeTask`. -/
@[simp] theorem numbers_mergeTask (data1 data2 : List Int) :
    ((mergeTask data1 data2).numbers : Multiset Int) = (data1 : Multiset Int) + data2 := rfl

/-- The numbers of the task that a slave has are in the pool. -/
theorem length_inFlight_le (task : Task) (queue : List Task) (pending : Option Task) :
    task.numbers.length ≤ (Pool.numbers ⟨queue, pending, some task⟩).card := by
  simp only [Pool.numbers, Option.toList_some, numbersOf_cons, numbersOf_nil, Multiset.card_add,
    Multiset.coe_card, Multiset.card_zero]
  omega

/-- **Conservation.**  A step moves numbers around; none is lost, and none is duplicated, as long as
    the size of an array of all numbers is an `int`. -/
theorem Pool.Step.numbers_eq {p p' : Pool} (h : p.Step p') (hsize : p.numbers.card < 2 ^ 31) :
    p'.numbers = p.numbers := by
  cases h with
  | quiet => rfl
  | dispatch task queue pending hqueue =>
    simp only [Pool.numbers, Option.toList_some, Option.toList_none, numbersOf_cons, numbersOf_nil,
      numbers_setTaskStatus]
    abel
  | fail task queue pending =>
    simp only [Pool.numbers, Option.toList_some, Option.toList_none, numbersOf_append,
      numbersOf_cons, numbersOf_nil, numbers_setTaskStatus]
    abel
  -- A worker returns the numbers it was sent, in another order.
  | first task queue data hresult =>
    have hle := length_inFlight_le task queue none
    have hperm := (perm_of_result hresult (hle.trans_lt hsize)).1
    have hdata : (data : Multiset Int) = task.numbers := Multiset.coe_eq_coe.mpr hperm
    simp only [Pool.numbers, Option.toList_some, Option.toList_none, numbersOf_cons, numbersOf_nil,
      numbers_sortTask, hdata]
    abel
  | second task queue data1 data hresult =>
    have hle := length_inFlight_le task queue (some (sortTask data1))
    have hperm := (perm_of_result hresult (hle.trans_lt hsize)).1
    have hdata : (data : Multiset Int) = task.numbers := Multiset.coe_eq_coe.mpr hperm
    simp only [Pool.numbers, Option.toList_some, Option.toList_none, numbersOf_append,
      numbersOf_cons, numbersOf_nil, numbers_sortTask, numbers_mergeTask, hdata]
    abel

/-- A queue with one more task. -/
theorem forall_mem_append_singleton {P : Task → Prop} {tasks : List Task} {task : Task}
    (htasks : ∀ t ∈ tasks, P t) (htask : P task) : ∀ t ∈ tasks ++ [task], P t := by
  intro t ht
  rcases List.mem_append.mp ht with ht | ht
  · exact htasks t ht
  · exact List.mem_singleton.mp ht ▸ htask

/-- **Order.**  Only sorted arrays are ever put up to be merged. -/
theorem Pool.Step.sorted {p p' : Pool} (h : p.Step p') (hsize : p.numbers.card < 2 ^ 31)
    (hp : p.Sorted) : p'.Sorted := by
  cases h with
  | quiet => exact hp
  | dispatch task queue pending hqueue =>
    refine ⟨fun t ht => hp.queue t (List.mem_cons_of_mem _ ht), ?_, hp.pending⟩
    rintro _ ⟨⟩
    exact (operandsSorted_setTaskStatus _ task).mpr (hp.queue task List.mem_cons_self)
  | fail task queue pending =>
    refine ⟨forall_mem_append_singleton hp.queue ?_, nofun, hp.pending⟩
    exact (operandsSorted_setTaskStatus _ task).mpr (hp.inFlight task rfl)
  | first task queue data hresult =>
    have hle := length_inFlight_le task queue none
    have hsorted := (perm_of_result hresult (hle.trans_lt hsize)).2
    refine ⟨hp.queue, nofun, ?_⟩
    rintro _ ⟨⟩
    exact hsorted (hp.inFlight task rfl)
  -- Both operands of the new merge are results, and sorted for that reason.
  | second task queue data1 data hresult =>
    have hle := length_inFlight_le task queue (some (sortTask data1))
    have hsorted := (perm_of_result hresult (hle.trans_lt hsize)).2
    have hmerge : (mergeTask data1 data).OperandsSorted :=
      ⟨hp.pending _ rfl, hsorted (hp.inFlight task rfl)⟩
    exact ⟨forall_mem_append_singleton hp.queue hmerge, nofun, nofun⟩

/-- The queue of a pool that had a task once always has one. -/
theorem Pool.Step.nonempty {p p' : Pool} (h : p.Step p') (hp : p.queue ≠ []) :
    p'.queue ≠ [] := by
  cases h with
  | quiet => exact hp
  | dispatch task queue pending hqueue => exact hqueue
  | fail task queue pending => exact List.append_ne_nil_of_right_ne_nil _ (List.cons_ne_nil _ _)
  | first => exact hp
  | second => exact List.append_ne_nil_of_right_ne_nil _ (List.cons_ne_nil _ _)

end WorkAtUPB.FaultTolerantService

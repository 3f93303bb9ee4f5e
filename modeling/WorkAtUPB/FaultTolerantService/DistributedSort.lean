import WorkAtUPB.FaultTolerantService.Schedule

namespace WorkAtUPB.FaultTolerantService

open Bytes Run

/-!
# FaultTolerantService — the distributed sort

The input is put into the queue in pieces, the main loop runs with slaves that reply or die,
and the master solves the last task:

* `putTasks` — the queue that `main` builds;
* `finishSolving_spec` — the last task and the operand that is left over, sorted;
* `finishSolving_length_lt` — the result has fewer than `2 ^ 31` numbers;
* `mainLoop_sorts_iff` — so whatever the slaves do, the result of a run that ends is the input,
  sorted, exactly if the input has fewer numbers, too.
-/

/-- The queue that `main` builds: a `SortTask` for every piece of the input. -/
def putTasks (pieces : List (List Int)) : TasksManager :=
  pieces.foldl (fun m piece => m.putTask (sortTask piece)) TasksManager.new

/-- The tasks are put behind those of the queue. -/
theorem foldl_putTask (pieces : List (List Int)) (m : TasksManager) :
    pieces.foldl (fun m piece => m.putTask (sortTask piece)) m =
      { m with tasks := m.tasks ++ pieces.map sortTask } := by
  induction pieces generalizing m with
  | nil => rw [List.foldl_nil, List.map_nil, List.append_nil]
  | cons piece pieces ih =>
    rw [List.foldl_cons, ih]
    show TasksManager.mk ((m.tasks ++ [sortTask piece]) ++ _) _ _ = _
    rw [List.append_assoc, List.singleton_append, List.map_cons]
    rfl

/-- A queue of `SortTask`s. -/
theorem putTasks_eq (pieces : List (List Int)) :
    putTasks pieces = { TasksManager.new with tasks := pieces.map sortTask } :=
  foldl_putTask pieces TasksManager.new

/-- None of them has been sent. -/
theorem fresh_putTasks (pieces : List (List Int)) : (putTasks pieces).Fresh := by
  rw [putTasks_eq]
  exact ⟨rfl, rfl⟩

/-- The queue holds the numbers of the input. -/
theorem numbersOf_map_sortTask (pieces : List (List Int)) :
    numbersOf (pieces.map sortTask) = (pieces.flatten : List Int) := by
  rw [numbersOf, List.flatMap_map]
  show ((pieces.flatMap fun piece => piece : List Int) : Multiset Int) = _
  rw [List.flatMap_id']

/-! ### What the main loop keeps -/

/-- The pool holds the numbers of `input`, the arrays to be merged are sorted, and there is a
    task in the queue. -/
structure Pool.Sorting (input : Multiset Int) (p : Pool) : Prop where
  numbers : p.numbers = input
  sorted : p.Sorted
  nonempty : p.queue ≠ []

/-- **Step.**  A pool keeps sorting the input. -/
theorem Pool.Sorting.step {input : Multiset Int} (hsize : input.card < 2 ^ 31) {p p' : Pool}
    (hp : p.Sorting input) (h : p.Step p') : p'.Sorting input := by
  have hcard : p.numbers.card < 2 ^ 31 := by rwa [hp.numbers]
  exact ⟨(h.numbers_eq hcard).trans hp.numbers, h.sorted hcard hp.sorted, h.nonempty hp.nonempty⟩

/-- The pool of the start-up sorts the input. -/
theorem sorting_mainLoop {pieces : List (List Int)} (hne : pieces ≠ []) :
    (mainLoop (putTasks pieces)).pool.Sorting (pieces.flatten : List Int) := by
  rw [putTasks_eq]
  refine ⟨?_, ⟨?_, nofun, nofun⟩, ?_⟩
  · show numbersOf (pieces.map sortTask) + 0 + 0 = _
    rw [numbersOf_map_sortTask, add_zero, add_zero]
  · intro task htask
    obtain ⟨piece, _, rfl⟩ := List.mem_map.mp htask
    trivial
  · exact fun h => hne (List.map_eq_nil_iff.mp h)

/-- The array of a task that is to be sorted has a size that is an `int`. -/
def Task.SizeInt : Task → Prop
  | .sort _ data => data.length < 2 ^ 31
  | .merge _ _ _ _ => True

/-- The status has nothing to do with the sizes. -/
theorem sizeInt_setTaskStatus (status : Int) (t : Task) :
    (t.setTaskStatus status).SizeInt ↔ t.SizeInt := by
  cases t <;> exact Iff.rfl

/-- The arrays that are to be sorted are those of the start. -/
structure Pool.SizesInt (p : Pool) : Prop where
  queue : ∀ task ∈ p.queue, task.SizeInt
  inFlight : ∀ task ∈ p.inFlight, task.SizeInt

/-- **Step.**  The sizes in a pool stay values of type `int`. -/
theorem Pool.SizesInt.step {p p' : Pool} (hp : p.SizesInt) (h : p.Step p') : p'.SizesInt := by
  cases h with
  | quiet => exact hp
  | dispatch task queue pending hqueue =>
    refine ⟨fun t ht => hp.queue t (List.mem_cons_of_mem _ ht), ?_⟩
    rintro _ ⟨⟩
    exact (sizeInt_setTaskStatus _ task).mpr (hp.queue task List.mem_cons_self)
  | fail task queue pending =>
    refine ⟨forall_mem_append_singleton hp.queue ?_, nofun⟩
    exact (sizeInt_setTaskStatus _ task).mpr (hp.inFlight task rfl)
  | first => exact ⟨hp.queue, nofun⟩
  | second => exact ⟨forall_mem_append_singleton hp.queue trivial, nofun⟩

/-! ### The end -/

/-- The last task is solved and merged with the operand that no second one came for. -/
theorem finishSolving_spec {m : TasksManager} {task : Task} (htasks : m.tasks = [task])
    (htask : task.OperandsSorted)
    (hpending : ∀ operand ∈ m.mergeTask1,
      operand.getData.Pairwise (· ≤ ·) ∧ ∃ data, operand = sortTask data)
    (hsize : ((task.numbers : Multiset Int) + numbersOf m.mergeTask1.toList).card < 2 ^ 31) :
    ∃ t, finishSolving m = some t ∧ t.getData.Pairwise (· ≤ ·) ∧
      (t.getData : Multiset Int) = task.numbers + numbersOf m.mergeTask1.toList := by
  rw [Multiset.card_add, Multiset.coe_card] at hsize
  obtain ⟨t, hres, hperm, hsorted⟩ :=
    (task.setTaskStatus TASK_IN_PROGRESS).computeResult_spec (by
      rw [numbers_setTaskStatus]
      omega)
  rw [numbers_setTaskStatus] at hperm
  have ht := hsorted ((operandsSorted_setTaskStatus _ task).mpr htask)
  rw [finishSolving, TasksManager.removeTask, htasks]
  dsimp only
  rw [Option.bind_some]
  dsimp only
  rw [hres, Option.bind_some]
  cases hm : m.mergeTask1 with
  -- No operand is left over, and the last task holds everything.
  | none =>
    refine ⟨t, rfl, ht, ?_⟩
    rw [Option.toList_none, numbersOf_nil, add_zero]
    exact Multiset.coe_eq_coe.mpr hperm
  | some operand =>
    -- The operand is sorted and the last result is, so their merge is.
    obtain ⟨hoperand, data, rfl⟩ := hpending operand hm
    rw [hm, Option.toList_some, numbersOf_cons, numbersOf_nil, add_zero, numbers_sortTask,
      Multiset.coe_card] at hsize
    obtain ⟨t', hmerge, hperm', hsorted'⟩ :=
      (mergeTask t.getData (sortTask data).getData).computeResult_spec (by
        show (t.getData ++ data).length < 2 ^ 31
        rw [List.length_append, hperm.length_eq]
        exact hsize)
    refine ⟨t', hmerge, hsorted' ⟨ht, hoperand⟩, ?_⟩
    rw [Option.toList_some, numbersOf_cons, numbersOf_nil, add_zero, numbers_sortTask,
      ← Multiset.coe_eq_coe.mpr hperm]
    exact Multiset.coe_eq_coe.mpr hperm'

/-- No result is larger than an `int` can say. -/
theorem finishSolving_length_lt {m : TasksManager} (hm : ∀ task ∈ m.tasks, task.SizeInt)
    {result : Task} (h : finishSolving m = some result) : result.getData.length < 2 ^ 31 := by
  obtain ⟨⟨task, rest⟩, hremove, h⟩ := Option.bind_eq_some_iff.mp h
  obtain ⟨t, hres, h⟩ := Option.bind_eq_some_iff.mp h
  have hmerge (data1 data2 : List Int) (hmerged : (mergeTask data1 data2).computeResult =
      some result) : result.getData.length < 2 ^ 31 := by
    refine Task.length_lt_of_result (t := mergeTask data1 data2) ?_ nofun
    rw [Task.result, hmerged, Option.map_some]
  split at h
  · rw [Option.some.injEq] at h
    subst h
    refine Task.length_lt_of_result (t := task) (by rw [Task.result, hres, Option.map_some]) ?_
    -- The task is the first one of the queue.
    cases htasks : m.tasks with
    | nil =>
      rw [TasksManager.removeTask, htasks] at hremove
      cases hremove
    | cons first tasks =>
      rw [TasksManager.removeTask, htasks, Option.some.injEq, Prod.mk.injEq] at hremove
      have hsize := (sizeInt_setTaskStatus TASK_IN_PROGRESS first).mpr
        (hm first (htasks ▸ List.mem_cons_self))
      rw [hremove.1] at hsize
      rintro solved data rfl
      exact hsize
  · exact hmerge _ _ h

/-! ### The runs that end -/

/-- The input is cut into tasks whose number and sizes are values of type `int`. -/
structure Cut (pieces : List (List Int)) : Prop where
  count : IsInt pieces.length
  sizes : ∀ piece ∈ pieces, IsInt piece.length

/-- The result of `finish_solving` holds the numbers of the input, sorted. -/
def Sorts (m : TasksManager) (input : List Int) : Prop :=
  ∃ task, finishSolving m = some task ∧ task.getData.Pairwise (· ≤ ·) ∧ task.getData.Perm input

section Ends

variable {pieces : List (List Int)} {slavesSize : Nat} {s : State}

/-- With fewer than `2 ^ 31` numbers the result is right. -/
theorem sorts_of_length_lt (hne : pieces.flatten ≠ []) (hsize : pieces.flatten.length < 2 ^ 31)
    (hs : Reachable (step slavesSize) (mainLoop (putTasks pieces)) s) (hdone : s.pc = .done) :
    Sorts s.manager pieces.flatten := by
  have hpieces : pieces ≠ [] := by
    rintro rfl
    exact hne rfl
  obtain ⟨hacc, hpool⟩ := reachable_accounted (fresh_putTasks pieces)
    (I := Pool.Sorting (pieces.flatten : List Int))
    (fun _ _ hp h => hp.step (by rwa [Multiset.coe_card]) h) (sorting_mainLoop hpieces) hs
  -- Behind the loop no slave has a task, and exactly one task is in the queue.
  have hplace := hacc.place
  rw [AtPc, hdone] at hplace
  obtain ⟨hquiet, hlen⟩ := hplace
  rw [hquiet.pool_eq] at hpool
  have hqueue : s.manager.tasks ≠ [] := hpool.nonempty
  obtain ⟨task, htasks⟩ : ∃ task, s.manager.tasks = [task] :=
    List.length_eq_one_iff.mp (Nat.le_antisymm hlen (List.length_pos_iff.mpr hqueue))
  have htask : task.OperandsSorted := hpool.sorted.queue task (htasks ▸ List.mem_singleton_self _)
  have hinput := hpool.numbers
  rw [Pool.numbers, htasks, numbersOf_cons, numbersOf_nil, Option.toList_none, numbersOf_nil,
    add_zero, add_zero] at hinput
  obtain ⟨t, hfinish, hsorted, hnumbers⟩ := finishSolving_spec htasks htask
    (fun operand hoperand =>
      ⟨hpool.sorted.pending operand hoperand, hacc.pending operand hoperand⟩)
    (by rwa [hinput, Multiset.coe_card])
  exact ⟨t, hfinish, hsorted, Multiset.coe_eq_coe.mp (hnumbers.trans hinput)⟩

/-- A right result has fewer than `2 ^ 31` numbers. -/
theorem length_lt_of_sorts (hcut : Cut pieces)
    (hs : Reachable (step slavesSize) (mainLoop (putTasks pieces)) s)
    (hsorts : Sorts s.manager pieces.flatten) : pieces.flatten.length < 2 ^ 31 := by
  have hstart : (mainLoop (putTasks pieces)).pool.SizesInt := by
    rw [putTasks_eq]
    refine ⟨fun task htask => ?_, nofun⟩
    obtain ⟨piece, hpiece, rfl⟩ := List.mem_map.mp htask
    have hsize := (hcut.sizes piece hpiece).2
    show piece.length < 2 ^ 31
    omega
  obtain ⟨-, hpool⟩ := reachable_accounted (fresh_putTasks pieces) (I := Pool.SizesInt)
    (fun _ _ hp h => hp.step h) hstart hs
  obtain ⟨task, hfinish, -, hperm⟩ := hsorts
  rw [← hperm.length_eq]
  exact finishSolving_length_lt hpool.queue hfinish

end Ends

/-- **Distributed sort.**  However the input is cut into pieces, and whatever slaves reply or
    die when the master asks them: if the main loop ends, the task of `finish_solving` holds
    the numbers of the input, sorted, exactly if there are fewer than `2 ^ 31` of them. -/
theorem mainLoop_sorts_iff (pieces : List (List Int)) (hcut : Cut pieces)
    (hne : pieces.flatten ≠ []) (slavesSize : Nat) (answers : List Bool) (s : State)
    (hrun : run (step slavesSize) (mainLoop (putTasks pieces)) answers = some s)
    (hdone : s.pc = .done) :
    (∃ task, finishSolving s.manager = some task ∧ task.getData.Pairwise (· ≤ ·) ∧
      task.getData.Perm pieces.flatten) ↔ pieces.flatten.length < 2 ^ 31 :=
  ⟨length_lt_of_sorts hcut ⟨answers, hrun⟩,
    fun hsize => sorts_of_length_lt hne hsize ⟨answers, hrun⟩ hdone⟩

/-- Two pieces, of which the first one is lost with a slave before the second one is sent. -/
theorem mainLoop_sorts_iff_death :
    ∃ s, run (step 4) (mainLoop (putTasks [[3, 1], [2]]))
        [true, true, false, true, true, true, true, true, true, true, true] = some s ∧
      ((∃ task, finishSolving s.manager = some task ∧ task.getData.Pairwise (· ≤ ·) ∧
        task.getData.Perm [3, 1, 2]) ↔ [3, 1, 2].length < 2 ^ 31) := by
  obtain ⟨s, hs, hdone⟩ := Option.map_eq_some_iff.mp
    (show (run (step 4) (mainLoop (putTasks [[3, 1], [2]]))
      [true, true, false, true, true, true, true, true, true, true, true]).map State.pc =
        some .done by decide)
  exact ⟨s, hs, mainLoop_sorts_iff [[3, 1], [2]] ⟨by decide, by decide⟩ (by decide) 4 _ s hs hdone⟩

/-- Two pieces of 2^30 zeros: the loop ends when the first one has come back, and the sizes of both
    add up to -2^31 in `finish_solving`. -/
theorem not_mainLoop_sorts :
    Cut [List.replicate (2 ^ 30) 0, List.replicate (2 ^ 30) 0] ∧
    ∃ s, run (step 4)
        (mainLoop (putTasks [List.replicate (2 ^ 30) 0, List.replicate (2 ^ 30) 0]))
        [true, true, true, true] = some s ∧ s.pc = .done ∧
      ¬ ∃ task, finishSolving s.manager = some task ∧ task.getData.Pairwise (· ≤ ·) ∧
        task.getData.Perm [List.replicate (2 ^ 30) 0, List.replicate (2 ^ 30) 0].flatten := by
  have hlength : (List.replicate (2 ^ 30) (0 : Int)).length = 2 ^ 30 := List.length_replicate
  generalize List.replicate (2 ^ 30) (0 : Int) = piece at hlength ⊢
  have hcut : Cut [piece, piece] := by
    refine ⟨show IsInt 2 by decide, fun p hp => ?_⟩
    obtain rfl : p = piece := by simpa using hp
    exact ⟨by omega, by omega⟩
  obtain ⟨data, hresult, -⟩ := (sortTask piece).result_spec (by
    show piece.length < 2 ^ 31
    omega)
  have hrun : run (step 4) (mainLoop (putTasks [piece, piece])) [true, true, true, true] =
      some { mainLoop (idle [sortTask piece] (some (sortTask data))) with pc := .done } := by
    have hsent := run_sent 4 (sortTask piece) (List.cons_ne_nil (sortTask piece) []) none
    have hstart : mainLoop (putTasks [piece, piece]) =
        mainLoop (idle [sortTask piece, sortTask piece] none) := rfl
    have hanswers : [true, true, true, true] = [true, true] ++ ([true] ++ [true]) := rfl
    rw [hstart, hanswers, run_append, hsent, Option.bind_some, run_append,
      (run_reply 4 hresult _).1, Option.bind_some, run_done]
  refine ⟨hcut, _, hrun, rfl, fun hsorts => ?_⟩
  have hlt := length_lt_of_sorts hcut ⟨_, hrun⟩ hsorts
  rw [List.length_flatten] at hlt
  simp [hlength] at hlt

end WorkAtUPB.FaultTolerantService

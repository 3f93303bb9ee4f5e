import WorkAtUPB.FaultTolerantService.CheckPoint

namespace WorkAtUPB.FaultTolerantService

open Bytes Codec

/-!
# FaultTolerantService — tasks in a buffer (`task_manager.cpp`)

The payloads of the messages are written into a buffer that is used over and over, and read from
it, by offsets that the writer and the reader compute each in their own way:

* `writeTaskInto`, `readTaskFrom` — `write_task` and `read_task` on such a buffer;
* `writeTaskInto_append` — what is written is the payload `writeTask`, with the rest of the buffer
  behind it, if the size of the payload is an `int`;
* `readTaskFrom_take` — the reader looks at the whole payload, and at nothing else;
* `readTaskFrom_writeTaskInto_iff` — so the task that is read is the one that was written, exactly
  for a payload of fewer than `2 ^ 31` ints.

`none` stands for an access out of the bounds of the buffer, or a failed assertion.
-/

/-! ### The buffer -/

/-- The assignment `buffer[i] = x`, with an index of type `int`. -/
def writeInt (buffer : List Int) (i x : Int) : Option (List Int) :=
  if 0 ≤ i then store buffer i.toNat x else none

/-- `memcpy` to `buffer + offset`. -/
def memcpy (buffer : List Int) (offset : Int) (data : List Int) : Option (List Int) :=
  if 0 ≤ offset ∧ offset + data.length ≤ buffer.length then
    some (buffer.take offset.toNat ++ data ++ buffer.drop (offset.toNat + data.length))
  else none

/-- `write_task`: the buffer and `*size`. -/
def writeTaskInto (buffer : List Int) : Task → Option (List Int × Int)
  | .sort _ data =>
    (store buffer 0 SORT_TASK).bind fun buffer =>
      (store buffer 1 data.length).bind fun buffer =>
        (memcpy buffer 2 data).bind fun buffer =>
          buffer[1]?.map fun size => (buffer, toInt (size + 2))
  | .merge _ _ data1 data2 =>
    (store buffer 0 MERGE_TASK).bind fun buffer =>
      let currentOffset := 2
      (store buffer 1 data1.length).bind fun buffer =>
        (memcpy buffer currentOffset data1).bind fun buffer =>
          let currentOffset := toInt (currentOffset + data1.length)
          (writeInt buffer currentOffset data2.length).bind fun buffer =>
            let currentOffset := toInt (currentOffset + 1)
            (memcpy buffer currentOffset data2).map fun buffer =>
              (buffer, toInt (currentOffset + data2.length))

/-- The int at `buffer[i]`. -/
def readInt (buffer : List Int) (i : Int) : Option Int :=
  if 0 ≤ i then buffer[i.toNat]? else none

/-- `copyData`, of the `size` ints at `buffer + offset`. -/
def copyData (buffer : List Int) (offset size : Int) : Option (List Int) :=
  if 0 ≤ offset ∧ 0 ≤ size ∧ offset + size ≤ buffer.length then
    some ((buffer.drop offset.toNat).take size.toNat)
  else none

/-- `read_task`. -/
def readTaskFrom (buffer : List Int) : Option Task :=
  (readInt buffer 0).bind fun header =>
    if header = SORT_TASK then
      (readInt buffer 1).bind fun size => (copyData buffer 2 size).map sortTask
    else if header = MERGE_TASK then
      (readInt buffer 1).bind fun size1 =>
        (readInt buffer (toInt (size1 + 2))).bind fun size2 =>
          (copyData buffer 2 size1).bind fun data1 =>
            (copyData buffer (size1 + 3) size2).map fun data2 => mergeTask data1 data2
    else none

/-- The operand arrays of a task. -/
def Task.operands : Task → List (List Int)
  | .sort _ data => [data]
  | .merge _ _ data1 data2 => [data1, data2]

/-- The task that is read from the buffer is of the kind of the task that was written, with its
    operand arrays; `*size` is one past the last int that the reader looks at, as it finds the task
    in the first `n` ints of the buffer exactly if these are `*size` at least; and the buffer beyond
    `*size` is unchanged. -/
def RoundTrips (t : Task) (buffer : List Int) : Prop :=
  ∃ (buffer' : List Int) (size : Nat), writeTaskInto buffer t = some (buffer', (size : Int)) ∧
    (∃ t', readTaskFrom buffer' = some t' ∧ t'.header = t.header ∧ t'.operands = t.operands) ∧
    (∀ n, (readTaskFrom (buffer'.take n)).isSome ↔ size ≤ n) ∧
    buffer'.length = buffer.length ∧ buffer'.drop size = buffer.drop size

/-! ### Writing -/

/-- A copy between two parts of a buffer. -/
theorem memcpy_eq (pre : List Int) {old data : List Int} (post : List Int)
    (h : old.length = data.length) {offset : Int} (hoffset : offset = pre.length) :
    memcpy (pre ++ (old ++ post)) offset data = some (pre ++ (data ++ post)) := by
  have hfits : 0 ≤ offset ∧ offset + data.length ≤ (pre ++ (old ++ post)).length := by
    simp only [List.length_append]
    omega
  have hdrop : (pre ++ (old ++ post)).drop (pre.length + data.length) = post := by
    rw [← List.append_assoc, List.drop_left' (by rw [List.length_append, h])]
  rw [memcpy, if_pos hfits, hoffset, Int.toNat_natCast, List.take_left, hdrop, List.append_assoc]

/-- A write at an index that is not negative. -/
theorem writeInt_natCast (buffer : List Int) (i : Nat) (x : Int) :
    writeInt buffer i x = store buffer i x := by
  rw [writeInt, if_pos (Int.natCast_nonneg i), Int.toNat_natCast]

/-- The first two ints of the buffer are replaced. -/
theorem store_two (a b x y : Int) (rest : List Int) :
    ((store (a :: b :: rest) 0 x).bind fun buffer => store buffer 1 y) = some (x :: y :: rest) := by
  have h0 : store (a :: b :: rest) 0 x = some (x :: b :: rest) := store_eq [] (b :: rest) a x
  rw [h0, Option.bind_some]
  exact store_eq [x] rest b y

/-- A list around one of its elements. -/
theorem exists_split {l : List Int} {n k : Nat} (h : l.length = n + (k + 1)) :
    ∃ l₁ c l₂, l = l₁ ++ c :: l₂ ∧ l₁.length = n ∧ l₂.length = k := by
  have hlt : n < l.length := by omega
  refine ⟨l.take n, l[n], l.drop (n + 1), ?_, ?_, ?_⟩
  · rw [← List.drop_eq_getElem_cons hlt, List.take_append_drop]
  · rw [List.length_take]
    omega
  · rw [List.length_drop]
    omega

/-- **Writing.**  The payload is at the front of the buffer, its length is `*size`, and the rest
    of the buffer is as it was. -/
theorem writeTaskInto_append (t : Task) {old : List Int} (rest : List Int)
    (h : old.length = (writeTask t).length) (hsize : (writeTask t).length < 2 ^ 31) :
    writeTaskInto (old ++ rest) t = some (writeTask t ++ rest, ((writeTask t).length : Int)) := by
  obtain ⟨a, b, old, rfl⟩ : ∃ a b old', old = a :: b :: old' := by
    cases t <;> match old, h with
      | a :: b :: old, _ => exact ⟨a, b, old, rfl⟩
  cases t with
  | sort solved data =>
    have hlen : old.length = data.length := by simpa [writeTask, writeArray] using h
    have hcopy : memcpy (SORT_TASK :: (data.length : Int) :: (old ++ rest)) 2 data = _ :=
      memcpy_eq [SORT_TASK, (data.length : Int)] rest hlen rfl
    have hint : toInt ((data.length : Int) + 2) =
        ((writeTask (.sort solved data)).length : Int) := by
      simp only [writeTask, writeArray, List.length_cons] at hsize ⊢
      rw [toInt_of_isInt ⟨by omega, by omega⟩]
      omega
    rw [writeTaskInto, List.cons_append, List.cons_append, ← Option.bind_assoc, store_two,
      Option.bind_some, hcopy, ← hint]
    rfl
  | merge solved data data1 data2 =>
    -- The old content under the first array, under the second length, and under the second array.
    have hlen : old.length = data1.length + (data2.length + 1) := by
      simp only [writeTask, writeArray, List.length_cons, List.length_append] at h
      omega
    simp only [writeTask, writeArray, List.length_cons, List.length_append] at hsize
    obtain ⟨old1, c, old2, rfl, hold1, hold2⟩ := exists_split hlen
    have hcopy1 : memcpy (MERGE_TASK :: (data1.length : Int) :: (old1 ++ (c :: (old2 ++ rest)))) 2
        data1 = _ := memcpy_eq [MERGE_TASK, (data1.length : Int)] (c :: (old2 ++ rest)) hold1 rfl
    -- The offsets are ints, so they are what they are added up to.
    have hoffset : toInt (2 + (data1.length : Int)) = (2 + data1.length : Nat) := by
      rw [toInt_of_isInt ⟨by omega, by omega⟩]
      omega
    have hoffset2 : toInt ((2 + data1.length : Nat) + 1) = (2 + data1.length + 1 : Nat) := by
      rw [toInt_of_isInt ⟨by omega, by omega⟩]
      omega
    have hint : toInt ((2 + data1.length + 1 : Nat) + (data2.length : Int)) =
        ((writeTask (.merge solved data data1 data2)).length : Int) := by
      simp only [writeTask, writeArray, List.length_cons, List.length_append]
      rw [toInt_of_isInt ⟨by omega, by omega⟩]
      omega
    have hstore : store (MERGE_TASK :: (data1.length : Int) :: (data1 ++ c :: (old2 ++ rest)))
        (2 + data1.length) data2.length =
          some (MERGE_TASK :: (data1.length : Int) ::
            (data1 ++ (data2.length : Int) :: (old2 ++ rest))) := by
      have hpre := store_eq (MERGE_TASK :: (data1.length : Int) :: data1) (old2 ++ rest) c
        data2.length
      rw [List.length_cons, List.length_cons, Nat.add_assoc, Nat.add_comm] at hpre
      exact hpre
    have hcopy2 : memcpy (MERGE_TASK :: (data1.length : Int) ::
        (data1 ++ (data2.length : Int) :: (old2 ++ rest))) (2 + data1.length + 1 : Nat) data2 =
          some (MERGE_TASK :: (data1.length : Int) ::
            (data1 ++ (data2.length : Int) :: (data2 ++ rest))) := by
      have hpre := memcpy_eq
        (MERGE_TASK :: (data1.length : Int) :: (data1 ++ [(data2.length : Int)])) rest hold2
        (show ((2 + data1.length + 1 : Nat) : Int) = _ by simp; omega)
      simpa only [List.cons_append, List.append_assoc, List.nil_append] using hpre
    rw [writeTaskInto, List.cons_append, List.cons_append, ← Option.bind_assoc, store_two,
      Option.bind_some, List.append_assoc, List.cons_append, hcopy1, Option.bind_some]
    dsimp only [List.cons_append, List.nil_append]
    rw [hoffset, writeInt_natCast, hstore, Option.bind_some, hoffset2, hcopy2, Option.map_some,
      hint, writeTask, writeArray, writeArray]
    simp only [List.cons_append, List.append_assoc]

/-- A write that stays in bounds. -/
theorem writeInt_eq_some {buffer buffer' : List Int} {i x : Int}
    (h : writeInt buffer i x = some buffer') :
    0 ≤ i ∧ i < buffer.length ∧ buffer'.length = buffer.length := by
  obtain ⟨hi, h⟩ := Option.ite_none_right_eq_some.mp h
  obtain ⟨hlt, hlength⟩ := store_eq_some h
  omega

/-- A copy that stays in bounds. -/
theorem memcpy_eq_some {buffer buffer' data : List Int} {offset : Int}
    (h : memcpy buffer offset data = some buffer') :
    0 ≤ offset ∧ offset + data.length ≤ buffer.length ∧ buffer'.length = buffer.length := by
  obtain ⟨⟨hoffset, hfits⟩, h⟩ := Option.ite_none_right_eq_some.mp h
  cases h
  refine ⟨hoffset, hfits, ?_⟩
  rw [List.length_append, List.length_append, List.length_take, List.length_drop]
  omega

/-- The write stays inside a buffer whose size is an `int` exactly if the payload fits into it. -/
theorem writeTaskInto_isSome_iff (t : Task) {buffer : List Int} (hbuffer : buffer.length < 2 ^ 31) :
    (writeTaskInto buffer t).isSome ↔ (writeTask t).length ≤ buffer.length := by
  constructor
  · intro h
    -- Every store was inside of the buffer, the last one behind all others.
    obtain ⟨r, hr⟩ := Option.isSome_iff_exists.mp h
    cases t with
    | sort solved data =>
      obtain ⟨buffer0, hstore0, hr⟩ := Option.bind_eq_some_iff.mp hr
      obtain ⟨buffer1, hstore1, hr⟩ := Option.bind_eq_some_iff.mp hr
      obtain ⟨buffer2, hcopy, -⟩ := Option.bind_eq_some_iff.mp hr
      have h0 := (store_eq_some hstore0).2
      have h1 := (store_eq_some hstore1).2
      have h2 := (memcpy_eq_some hcopy).2.1
      simp only [writeTask, writeArray, List.length_cons]
      omega
    | merge solved data data1 data2 =>
      obtain ⟨buffer0, hstore0, hr⟩ := Option.bind_eq_some_iff.mp hr
      obtain ⟨buffer1, hstore1, hr⟩ := Option.bind_eq_some_iff.mp hr
      obtain ⟨buffer2, hcopy1, hr⟩ := Option.bind_eq_some_iff.mp hr
      obtain ⟨buffer3, hstore2, hr⟩ := Option.bind_eq_some_iff.mp hr
      obtain ⟨buffer4, hcopy2, -⟩ := Option.map_eq_some_iff.mp hr
      have h0 := (store_eq_some hstore0).2
      have h1 := (store_eq_some hstore1).2
      have h2 := memcpy_eq_some hcopy1
      have h3 := writeInt_eq_some hstore2
      have h4 := memcpy_eq_some hcopy2
      simp only [toInt_eq] at h3 h4
      simp only [writeTask, writeArray, List.length_cons, List.length_append]
      omega
  · intro h
    have hwrite := writeTaskInto_append t (buffer.drop (writeTask t).length)
      (List.length_take_of_le h) (by omega)
    rw [List.take_append_drop] at hwrite
    rw [hwrite, Option.isSome_some]

/-- The size of a payload that has been written is an `int`. -/
theorem length_lt_of_writeTaskInto {t : Task} (hsizes : ∀ data ∈ t.operands, IsInt data.length)
    {buffer buffer' : List Int} {size : Nat}
    (h : writeTaskInto buffer t = some (buffer', (size : Int))) :
    (writeTask t).length < 2 ^ 31 := by
  cases t with
  | sort solved data =>
    have hdata := hsizes data (List.mem_singleton_self data)
    unfold IsInt at hdata
    obtain ⟨buffer0, hstore0, h⟩ := Option.bind_eq_some_iff.mp h
    obtain ⟨buffer1, hstore1, h⟩ := Option.bind_eq_some_iff.mp h
    obtain ⟨buffer2, hcopy, h⟩ := Option.bind_eq_some_iff.mp h
    obtain ⟨stored, hstored, h⟩ := Option.map_eq_some_iff.mp h
    -- What was stored at 1 is still there.
    have hlength : stored = data.length := by
      obtain ⟨hlt, hset⟩ := Option.ite_none_right_eq_some.mp hstore1
      obtain ⟨-, hcopied⟩ := Option.ite_none_right_eq_some.mp hcopy
      rw [Option.some.injEq] at hset hcopied
      rw [← hcopied, ← hset, List.append_assoc, List.getElem?_append_left (by simp; omega),
        List.getElem?_take_of_lt (by decide), List.getElem?_set_self hlt] at hstored
      exact (Option.some.inj hstored).symm
    have hsize := (Prod.mk.inj h).2
    rw [hlength, toInt_eq] at hsize
    simp only [writeTask, writeArray, List.length_cons]
    omega
  | merge solved data data1 data2 =>
    have hdata1 := hsizes data1 List.mem_cons_self
    have hdata2 := hsizes data2 (List.mem_cons_of_mem _ (List.mem_singleton_self data2))
    unfold IsInt at hdata1 hdata2
    obtain ⟨buffer0, hstore0, h⟩ := Option.bind_eq_some_iff.mp h
    obtain ⟨buffer1, hstore1, h⟩ := Option.bind_eq_some_iff.mp h
    obtain ⟨buffer2, hcopy1, h⟩ := Option.bind_eq_some_iff.mp h
    obtain ⟨buffer3, hstore2, h⟩ := Option.bind_eq_some_iff.mp h
    obtain ⟨buffer4, hcopy2, h⟩ := Option.map_eq_some_iff.mp h
    have h2 := (writeInt_eq_some hstore2).1
    have h3 := (memcpy_eq_some hcopy2).1
    have hsize := (Prod.mk.inj h).2
    simp only [toInt_eq] at h2 h3 hsize
    simp only [writeTask, writeArray, List.length_cons, List.length_append]
    omega

/-! ### Reading -/

/-- A read at an index that is not negative. -/
theorem readInt_natCast (buffer : List Int) (i : Nat) : readInt buffer i = buffer[i]? := by
  rw [readInt, if_pos (Int.natCast_nonneg i), Int.toNat_natCast]

/-- An array that starts inside the buffer is read if it ends there, too. -/
theorem copyData_take (pre data rest : List Int) (k : Nat) {offset : Int}
    (hoffset : offset = pre.length) :
    copyData (pre ++ (data ++ rest).take k) offset data.length =
      if data.length ≤ k then some data else none := by
  have hbound : 0 ≤ offset ∧ (0 : Int) ≤ data.length ∧
      offset + data.length ≤ (pre ++ (data ++ rest).take k).length ↔ data.length ≤ k := by
    rw [List.length_append, List.length_take, List.length_append]
    omega
  by_cases hk : data.length ≤ k
  · rw [copyData, if_pos (hbound.mpr hk), if_pos hk, hoffset, Int.toNat_natCast, Int.toNat_natCast,
      List.drop_left, List.take_take, Nat.min_eq_left hk, List.take_left]
  · rw [copyData, if_neg (mt hbound.mp hk), if_neg hk]

/-- How a `MergeTask` is read. -/
theorem readTaskFrom_merge (size1 : Int) (ws : List Int) :
    readTaskFrom (MERGE_TASK :: size1 :: ws) =
      (readInt (MERGE_TASK :: size1 :: ws) (toInt (size1 + 2))).bind fun size2 =>
        (copyData (MERGE_TASK :: size1 :: ws) 2 size1).bind fun data1 =>
          (copyData (MERGE_TASK :: size1 :: ws) (size1 + 3) size2).map (mergeTask data1) := rfl

/-- In the first `n` ints of a buffer that begins with a payload. -/
theorem readTaskFrom_take_sort (solved : Int) (data rest : List Int) (n : Nat) :
    readTaskFrom ((writeTask (.sort solved data) ++ rest).take (n + 2)) =
      if data.length ≤ n then some (sortTask data) else none := by
  have hcopy := copyData_take [SORT_TASK, (data.length : Int)] data rest n
    (show (2 : Int) = _ from rfl)
  show (copyData ([SORT_TASK, (data.length : Int)] ++ (data ++ rest).take n) 2
    data.length).map sortTask = _
  rw [hcopy]
  split <;> rfl

/-- A `MergeTask` is not read from less than its payload. -/
theorem readTaskFrom_take_merge (solved : Int) (data : List Int) {data1 : List Int}
    (hsize : data1.length + 2 < 2 ^ 31) (data2 rest : List Int) (n : Nat) :
    readTaskFrom ((writeTask (.merge solved data data1 data2) ++ rest).take (n + 2)) =
      if data1.length + 1 + data2.length ≤ n then some (mergeTask data1 data2) else none := by
  have hbuffer : (writeTask (.merge solved data data1 data2) ++ rest).take (n + 2) =
      MERGE_TASK :: (data1.length : Int) ::
        (data1 ++ (data2.length : Int) :: (data2 ++ rest)).take n := by
    simp [writeTask, writeArray]
  have hcopy1 : copyData (MERGE_TASK :: (data1.length : Int) ::
      (data1 ++ (data2.length : Int) :: (data2 ++ rest)).take n) 2 data1.length = _ :=
    copyData_take [MERGE_TASK, (data1.length : Int)] data1
      ((data2.length : Int) :: (data2 ++ rest)) n rfl
  have hindex : toInt ((data1.length : Int) + 2) = (data1.length + 2 : Nat) :=
    toInt_of_isInt ⟨by omega, by omega⟩
  rw [hbuffer, readTaskFrom_merge, hcopy1, hindex, readInt_natCast, List.getElem?_cons_succ,
    List.getElem?_cons_succ]
  rcases Nat.lt_or_ge data1.length n with hlt | hge
  -- The second length is there, so it depends on the second array.
  · obtain ⟨k, rfl⟩ := Nat.exists_eq_add_of_lt hlt
    have hcopy2 : copyData (MERGE_TASK :: (data1.length : Int) ::
        (data1 ++ (data2.length : Int) :: (data2 ++ rest)).take (data1.length + k + 1))
          (data1.length + 3) data2.length = if data2.length ≤ k then some data2 else none := by
      have hpre := copyData_take
        (MERGE_TASK :: (data1.length : Int) :: (data1 ++ [(data2.length : Int)])) data2 rest k
        (show (data1.length : Int) + 3 = _ by simp; omega)
      rw [← hpre, Nat.add_assoc, List.take_length_add_append, List.take_succ_cons]
      simp
    have hsize2 : ((data1 ++ (data2.length : Int) :: (data2 ++ rest)).take
        (data1.length + k + 1))[data1.length]? = some (data2.length : Int) := by
      rw [List.getElem?_take_of_lt hlt]
      simp
    rw [hsize2, Option.bind_some, if_pos (by omega), Option.bind_some, hcopy2]
    by_cases hk : data2.length ≤ k
    · rw [if_pos hk, if_pos (by omega), Option.map_some]
    · rw [if_neg hk, if_neg (by omega), Option.map_none]
  · have hnone : ((data1 ++ (data2.length : Int) :: (data2 ++ rest)).take n)[data1.length]? =
        none := by
      rw [List.getElem?_eq_none]
      rw [List.length_take]
      omega
    rw [hnone, Option.bind_none, if_neg (by omega)]

/-- **Reading.**  In the first `n` ints of a buffer with a payload in front, the task is found
    exactly if the payload is among them; `none` is a look at an int behind them. -/
theorem readTaskFrom_take (t : Task) (hsize : (writeTask t).length < 2 ^ 31) (rest : List Int)
    (n : Nat) :
    readTaskFrom ((writeTask t ++ rest).take n) =
      if (writeTask t).length ≤ n then some t.received else none := by
  match n with
  | 0 => cases t <;> rfl
  | 1 => cases t <;> rfl
  | n + 2 =>
    cases t with
    | sort solved data =>
      rw [readTaskFrom_take_sort]
      exact if_congr (Nat.add_le_add_iff_right (n := 2)).symm rfl rfl
    | merge solved data data1 data2 =>
      simp only [writeTask, writeArray, List.length_cons, List.length_append] at hsize
      rw [readTaskFrom_take_merge _ _ (by omega)]
      refine if_congr ?_ rfl rfl
      simp only [writeTask, writeArray, List.length_cons, List.length_append]
      omega

/-- **The wire format.**  Whatever a buffer that is large enough held before: the task that is read
    from it is the one that was written, `*size` is where the reader stops, and the rest of the
    buffer is left, exactly if the payload has fewer than `2 ^ 31` ints.  The sizes of the arrays
    are values of type `int`, in which the objects hold them. -/
theorem readTaskFrom_writeTaskInto_iff (t : Task) (hsizes : ∀ data ∈ t.operands, IsInt data.length)
    (buffer : List Int) (h : (writeTask t).length ≤ buffer.length) :
    RoundTrips t buffer ↔ (writeTask t).length < 2 ^ 31 := by
  constructor
  · rintro ⟨buffer', size, hwrite, -⟩
    exact length_lt_of_writeTaskInto hsizes hwrite
  · intro hsize
    have hwrite := writeTaskInto_append t (buffer.drop (writeTask t).length)
      (List.length_take_of_le h) hsize
    rw [List.take_append_drop] at hwrite
    refine ⟨_, _, hwrite, ?_, fun n => ?_, ?_, ?_⟩
    · -- A buffer is its own beginning of its own length.
      have hread := readTaskFrom_take t hsize (buffer.drop (writeTask t).length) buffer.length
      rw [if_pos h, List.take_of_length_le (by simp; omega)] at hread
      exact ⟨t.received, hread, by cases t <;> rfl, by cases t <;> rfl⟩
    · rw [readTaskFrom_take t hsize]
      split
      · next hle => exact iff_of_true rfl hle
      · next hle => exact iff_of_false Bool.false_ne_true hle
    · rw [List.length_append, List.length_drop]
      omega
    · rw [List.drop_left]

/-- A merge of an empty array and one of two ints, in a buffer with other content. -/
theorem readTaskFrom_writeTaskInto_iff_stale :
    RoundTrips (mergeTask [] [5, 7]) [9, 8, 7, 6, 5, 4] ↔
      (writeTask (mergeTask [] [5, 7])).length < 2 ^ 31 :=
  readTaskFrom_writeTaskInto_iff (mergeTask [] [5, 7]) (by decide) [9, 8, 7, 6, 5, 4] (by decide)

/-- A `SortTask` of 2^31 - 1 ints: `*size` is -2^31 + 1. -/
theorem not_readTaskFrom_writeTaskInto :
    ¬ ∀ (t : Task) (buffer : List Int), (∀ data ∈ t.operands, IsInt data.length) →
      (writeTask t).length ≤ buffer.length → RoundTrips t buffer := by
  intro h
  obtain ⟨data, hlength⟩ : ∃ data : List Int, data.length = 2 ^ 31 - 1 :=
    ⟨List.replicate _ 0, List.length_replicate⟩
  obtain ⟨buffer, hbuffer⟩ : ∃ buffer : List Int, buffer.length = 2 ^ 31 + 1 :=
    ⟨List.replicate _ 0, List.length_replicate⟩
  have hsizes : ∀ operand ∈ (sortTask data).operands, IsInt operand.length := by
    intro operand hoperand
    obtain rfl : operand = data := by simpa [sortTask, Task.operands] using hoperand
    exact ⟨by omega, by omega⟩
  have hpayload : (writeTask (sortTask data)).length = data.length + 2 := rfl
  obtain ⟨buffer', size, hwrite, -⟩ := h (sortTask data) buffer hsizes (by omega)
  have hlt := length_lt_of_writeTaskInto hsizes hwrite
  omega

end WorkAtUPB.FaultTolerantService

import WorkAtUPB.Lib.CharArray
import WorkAtUPB.Lib.Decimal
import WorkAtUPB.Lib.Stdio

namespace WorkAtUPB.FilesServer

open Bytes CharArray Decimal

/-!
# FilesServerLinux — packets (`common.h`)

A packet is an array of `MAX_PACKET_SIZE` characters.  Its fields are strings behind their
lengths, which are single signed characters; a number is the string that `%d` prints.  The macros
that write and read them are functions here; an access outside of an array is `none`.

* `stringConvert`, `numberConvert`, `commandGeneric` — writing;
* `stringConvertReverse`, `numberConvertReverse`, `commandGenericReverse` — reading;
* `stringConvert_eq` and its companions — what they do with strings of at most 127 characters;
* `le_of_stringConvert` — a string that could be written is no longer than that.
-/

/-- `LS`. -/
def LS : UInt8 := 3

/-- `MAX_PACKET_SIZE`. -/
def MAX_PACKET_SIZE : Nat := 4096

/-- `MAX_STRING_SIZE`. -/
def MAX_STRING_SIZE : Nat := 128

/-- `STRING_CONVERT`. -/
def stringConvert (buffer : List UInt8) (currentSize : Nat) (string : List UInt8) :
    Option (List UInt8 × Nat) := do
  let length ← strlen string
  let buffer ← store buffer currentSize (UInt8.ofNat length)
  -- a negative length becomes a huge number of bytes to fill
  let buffer ← strncpy buffer (currentSize + 1) string (toSize (UInt8.ofNat length))
  let size ← buffer[currentSize]?
  some (buffer, currentSize + size.toNat + 1)

/-- `NUMBER_CONVERT`; the array `__buffer` is `scratch`. -/
def numberConvert (buffer : List UInt8) (currentSize : Nat) (number : Int32)
    (scratch : List UInt8) : Option (List UInt8 × Nat × List UInt8) := do
  let scratch ← sprintf scratch (intText number.toInt)
  let (buffer, currentSize) ← stringConvert buffer currentSize scratch
  some (buffer, currentSize, scratch)

/-- `STRING_CONVERT_REVERSE`: the new `offset`, `size` and the array `string`. -/
def stringConvertReverse (buffer : List UInt8) (offset : Nat) (string : List UInt8) :
    Option (Nat × Int × List UInt8) := do
  let size ← buffer[offset]?
  let string ← strncpy string 0 (buffer.drop (offset + 1)) (toSize size)
  let string ← store string size.toNat 0
  some (offset + size.toNat + 1, size.toInt8.toInt, string)

/-- `atoi`: the number as a `long`, at its bounds where it is too large, cut to an `int`. -/
def atoi (s : List UInt8) : Int32 :=
  Int32.ofInt (max (-2 ^ 63) (min (2 ^ 63 - 1) (readInt s)))

/-- `NUMBER_CONVERT_REVERSE`: the new `offset`, `size`, `number` and the array `__buffer`. -/
def numberConvertReverse (buffer : List UInt8) (offset : Nat) (scratch : List UInt8) :
    Option (Nat × Int × Int32 × List UInt8) := do
  let (offset, size, scratch) ← stringConvertReverse buffer offset scratch
  some (offset, size, atoi (contents scratch), scratch)

/-- `COMMAND_GENERIC`. -/
def commandGeneric (buffer : List UInt8) (currentSize : Nat) (fisier : List UInt8)
    (offset len : Int32) (scratch : List UInt8) : Option (List UInt8 × Nat × List UInt8) := do
  let (buffer, currentSize) ← stringConvert buffer currentSize fisier
  let (buffer, currentSize, scratch) ← numberConvert buffer currentSize offset scratch
  numberConvert buffer currentSize len scratch

/-- The arguments of `COMMAND_GENERIC_REVERSE`, which are variables of the server; its `len` is a
    `socklen_t`. -/
structure Variables where
  buffer : List UInt8
  currentSize : Nat
  size : Int
  fisier : List UInt8
  offset : Int32
  len : UInt32
  scratch : List UInt8
  deriving DecidableEq, Repr

/-- `COMMAND_GENERIC_REVERSE`. -/
def commandGenericReverse (v : Variables) : Option Variables := do
  let (currentSize, size, fisier) ← stringConvertReverse v.buffer v.currentSize v.fisier
  -- The numbers are written into the packet by `NUMBER_CONVERT`, not read from it.
  let (buffer, currentSize, scratch) ← numberConvert v.buffer currentSize v.offset v.scratch
  let (buffer, currentSize, scratch) ← numberConvert buffer currentSize v.len.toInt32 scratch
  some { v with buffer, currentSize, size, fisier, scratch }

/-! ### Fields -/

/-- A string behind its length. -/
def field (w : List UInt8) : List UInt8 := UInt8.ofNat w.length :: w

@[simp] theorem length_field (w : List UInt8) : (field w).length = w.length + 1 := rfl

/-- The text of a number. -/
def numberText (number : Int32) : List UInt8 := intText number.toInt

theorem length_numberText_le (number : Int32) : (numberText number).length ≤ 11 := by
  have hlo := number.minValue_le_toInt
  have hhi := number.toInt_lt
  refine length_intText_le (k := 10) (by omega) ?_
  simp only [Int32.toInt_minValue] at hlo
  omega

theorem zero_notMem_numberText (number : Int32) : 0 ∉ numberText number := zero_notMem_intText _

/-- An `int` is read back from its text. -/
theorem atoi_numberText (number : Int32) : atoi (numberText number) = number := by
  show Stdio.toInt (readInt (numberText number)) = number
  rw [numberText, readInt_intText, Stdio.toInt_toInt]

variable {buffer w rest : List UInt8} {p : Nat}

/-- Writing a string of at most 127 characters. -/
theorem stringConvert_eq (hw : 0 ∉ w) (hlen : w.length ≤ 127)
    (hfit : p + w.length < buffer.length) :
    stringConvert buffer p (w ++ 0 :: rest) =
      some (splice buffer p (field w), p + (field w).length) := by
  have hstore : store buffer p (UInt8.ofNat w.length) =
      some (buffer.set p (UInt8.ofNat w.length)) := if_pos (by omega)
  have hcopy : strncpy (buffer.set p (UInt8.ofNat w.length)) (p + 1) (w ++ 0 :: rest)
      (toSize (UInt8.ofNat w.length)) = some (splice buffer p (field w)) := by
    rw [toSize_ofNat hlen, strncpy_eq hw (by rw [List.length_set]; omega), splice_set hfit, field]
  have hsize : (splice buffer p (field w))[p]? = some (UInt8.ofNat w.length) := by
    rw [splice, List.append_assoc, List.getElem?_append_right (by simp), field]
    have hp : p - (buffer.take p).length = 0 := by simp; omega
    rw [hp]
    rfl
  have htoNat : (UInt8.ofNat w.length).toNat = w.length := by
    rw [UInt8.toNat_ofNat']
    omega
  simp only [stringConvert, strlen_terminated hw, hstore, hcopy, hsize, Option.bind_eq_bind,
    Option.bind_some, htoNat, length_field, Nat.add_assoc]

/-- A string that could be written had at most 127 characters, and fitted. -/
theorem le_of_stringConvert {r : List UInt8 × Nat} (hw : 0 ∉ w) (hlen : w.length < 256)
    (hbuffer : buffer.length < 2 ^ 63)
    (h : stringConvert buffer p (w ++ 0 :: rest) = some r) :
    w.length ≤ 127 ∧ p + w.length < buffer.length := by
  simp only [stringConvert, strlen_terminated hw, Option.bind_eq_bind, Option.bind_some,
    Option.bind_eq_some_iff] at h
  obtain ⟨stored, hstore, copied, hcopy, -⟩ := h
  have hstored : stored.length = buffer.length := by
    unfold store at hstore
    split at hstore
    · rw [← Option.some.inj hstore, List.length_set]
    · cases hstore
  -- The copy stayed inside of the packet.
  have hfit : p + 1 + toSize (UInt8.ofNat w.length) ≤ buffer.length := by
    by_contra hnot
    rw [strncpy_eq_none (by omega)] at hcopy
    cases hcopy
  by_cases hshort : w.length ≤ 127
  · rw [toSize_ofNat hshort] at hfit
    exact ⟨hshort, by omega⟩
  · have hhuge := le_toSize_ofNat (Nat.not_le.mp hshort) hlen
    omega

/-- Writing a number. -/
theorem numberConvert_eq {scratch : List UInt8} {number : Int32}
    (hscratch : scratch.length = MAX_STRING_SIZE)
    (hfit : p + (numberText number).length < buffer.length) :
    numberConvert buffer p number scratch =
      some (splice buffer p (field (numberText number)), p + (field (numberText number)).length,
        splice scratch 0 (numberText number ++ [0])) := by
  have hlen := length_numberText_le number
  simp only [MAX_STRING_SIZE] at hscratch
  have hprint : sprintf scratch (intText number.toInt) =
      some (splice scratch 0 (numberText number ++ [0])) := by
    rw [← numberText]
    exact if_pos (by omega)
  have hstring : splice scratch 0 (numberText number ++ [0]) =
      numberText number ++ 0 :: scratch.drop ((numberText number).length + 1) := by
    rw [splice_zero, List.append_assoc, List.singleton_append, List.length_append,
      List.length_singleton]
  have hconvert : stringConvert buffer p (splice scratch 0 (numberText number ++ [0])) =
      some (splice buffer p (field (numberText number)),
        p + (field (numberText number)).length) := by
    rw [hstring]
    exact stringConvert_eq (zero_notMem_numberText number) (by omega) hfit
  simp only [numberConvert, hprint, Option.bind_eq_bind, Option.bind_some, hconvert]

/-- The array that a number is printed to keeps its length. -/
theorem length_printed {scratch : List UInt8} (number : Int32)
    (hscratch : scratch.length = MAX_STRING_SIZE) :
    (splice scratch 0 (numberText number ++ [0])).length = MAX_STRING_SIZE := by
  have hdigits := length_numberText_le number
  rw [length_splice, hscratch]
  simp only [hscratch, MAX_STRING_SIZE, List.length_append, List.length_singleton]
  omega

/-- Writing a number behind what was written before. -/
theorem numberConvert_behind {scratch : List UInt8} (w : List UInt8) (number : Int32)
    (hscratch : scratch.length = MAX_STRING_SIZE)
    (hfit : p + w.length + (numberText number).length < buffer.length) :
    numberConvert (splice buffer p w) (p + w.length) number scratch =
      some (splice buffer p (w ++ field (numberText number)),
        p + (w ++ field (numberText number)).length,
        splice scratch 0 (numberText number ++ [0])) := by
  have hlen : (splice buffer p w).length = buffer.length := length_splice (by omega)
  rw [numberConvert_eq hscratch (by rw [hlen]; exact hfit), splice_splice (by omega),
    Nat.add_assoc, ← List.length_append]

/-- A number that could be written fitted. -/
theorem le_of_numberConvert {scratch : List UInt8} {number : Int32}
    {r : List UInt8 × Nat × List UInt8} (hbuffer : buffer.length < 2 ^ 63)
    (h : numberConvert buffer p number scratch = some r) :
    p + (numberText number).length < buffer.length := by
  have hlen := length_numberText_le number
  simp only [numberConvert, Option.bind_eq_bind, Option.bind_eq_some_iff, sprintf] at h
  obtain ⟨printed, hprint, r', hconvert, -⟩ := h
  split at hprint
  · have hstring := Option.some.inj hprint
    rw [splice_zero, List.append_assoc, List.singleton_append, ← numberText] at hstring
    rw [← hstring] at hconvert
    exact (le_of_stringConvert (zero_notMem_numberText number) (by omega) hbuffer hconvert).2
  · cases hprint

/-- Reading a string of at most 127 characters. -/
theorem stringConvertReverse_eq {string : List UInt8} (hw : 0 ∉ w) (hlen : w.length ≤ 127)
    (hstring : string.length = MAX_STRING_SIZE) (hat : buffer.drop p = field w ++ rest) :
    stringConvertReverse buffer p string =
      some (p + (field w).length, (w.length : Int), splice string 0 (w ++ [0])) := by
  have hsize : buffer[p]? = some (UInt8.ofNat w.length) := by
    have hhead := congrArg List.head? hat
    rwa [List.head?_drop] at hhead
  have hdrop : buffer.drop (p + 1) = w ++ rest := by
    rw [← List.drop_drop, hat]
    rfl
  have htoNat : (UInt8.ofNat w.length).toNat = w.length := by
    rw [UInt8.toNat_ofNat']
    omega
  have htoInt : (UInt8.ofNat w.length).toInt8.toInt = w.length := by
    have hval : (UInt8.ofNat w.length).toInt8.toInt =
        ((UInt8.ofNat w.length).toNat : Int).bmod 256 :=
      BitVec.toInt_eq_toNat_bmod _
    rw [hval, htoNat, Int.bmod_def]
    omega
  simp only [MAX_STRING_SIZE] at hstring
  have hcopy : strncpy string 0 (w ++ rest) w.length = some (splice string 0 w) :=
    strncpy_eq hw (by omega)
  simp only [stringConvertReverse, hsize, hdrop, toSize_ofNat hlen, htoNat, htoInt, hcopy,
    store_splice (show w.length < string.length by omega), Option.bind_eq_bind, Option.bind_some,
    length_field, Nat.add_assoc]

/-- Reading a number. -/
theorem numberConvertReverse_eq {scratch : List UInt8} {number : Int32}
    (hscratch : scratch.length = MAX_STRING_SIZE)
    (hat : buffer.drop p = field (numberText number) ++ rest) :
    numberConvertReverse buffer p scratch =
      some (p + (field (numberText number)).length, ((numberText number).length : Int), number,
        splice scratch 0 (numberText number ++ [0])) := by
  have hlen := length_numberText_le number
  simp only [numberConvertReverse, stringConvertReverse_eq (zero_notMem_numberText number)
    (by omega) hscratch hat, Option.bind_eq_bind, Option.bind_some,
    contents_splice (zero_notMem_numberText number), atoi_numberText]

end WorkAtUPB.FilesServer

import WorkAtUPB.FilesServer.Listing
import WorkAtUPB.FilesServer.Requests
import WorkAtUPB.Lib.Cursor

namespace WorkAtUPB.FilesServer

open Bytes CharArray Cursor

/-!
# FilesServerLinux — sequences of fields

A packet is built by `STRING_CONVERT` and `NUMBER_CONVERT`, one after the other, and taken apart by
their reverse macros.  Those are given arrays to read into, and may be given the same one again:

* `Argument`, `writeFields` — the calls that write, with one `__buffer` for the numbers;
* `Target`, `readFields` — the calls that read, and the fields that they find;
* `writes_writeField`, `reads_readField` — one call of either kind;
* `readFields_writeFields` — the fields are read back, and nothing else of the packet is changed;
* `commandGeneric_eq_writeFields`, `addDirents_eq_writeFields` — requests and listings are written
  so.
-/

/-! ### Writing -/

/-- What a macro that writes is given: the array with the string, or the number. -/
inductive Argument where
  | string (array : List UInt8)
  | number (number : Int32)
  deriving DecidableEq, Repr

/-- What a field holds. -/
inductive Value where
  | string (text : List UInt8)
  | number (number : Int32)
  deriving DecidableEq, Repr

/-- `STRING_CONVERT` or `NUMBER_CONVERT`; the array `__buffer` is `scratch`. -/
def writeField : Argument → List UInt8 → Nat → List UInt8 → Option (List UInt8 × Nat × List UInt8)
  | .string array, buffer, currentSize, scratch => do
    let (buffer, currentSize) ← stringConvert buffer currentSize array
    some (buffer, currentSize, scratch)
  | .number n, buffer, currentSize, scratch => numberConvert buffer currentSize n scratch

/-- The macros, one after the other. -/
def writeFields (arguments : List Argument) (buffer : List UInt8) (currentSize : Nat)
    (scratch : List UInt8) : Option (List UInt8 × Nat × List UInt8) :=
  writeEach writeField arguments buffer currentSize scratch

/-- The field that is written. -/
def Argument.value : Argument → Value
  | .string array => .string (contents array)
  | .number n => .number n

/-- The characters of the field. -/
def Argument.text : Argument → List UInt8
  | .string array => contents array
  | .number n => numberText n

/-- The number of bytes that the field takes. -/
def Argument.size (argument : Argument) : Nat := argument.text.length + 1

/-- The array has a string, of at most 127 characters. -/
def Argument.Short : Argument → Prop
  | .string array => 0 ∈ array ∧ (contents array).length ≤ 127
  | .number _ => True

instance : DecidablePred Argument.Short
  | .string _ => inferInstanceAs (Decidable (_ ∧ _))
  | .number _ => inferInstanceAs (Decidable True)

/-! ### Reading -/

/-- What a reverse macro is given besides the packet: the array for the string, or the one for the
    digits of the number. -/
inductive Target (ι : Type*) where
  | string (i : ι)
  | number (i : ι)

/-- The reverse macro reads the kind of field that the macro writes. -/
inductive Argument.Matches {ι : Type*} : Argument → Target ι → Prop
  | string (array : List UInt8) (i : ι) : Matches (.string array) (.string i)
  | number (n : Int32) (i : ι) : Matches (.number n) (.number i)

variable {ι : Type*} [DecidableEq ι]

/-- `STRING_CONVERT_REVERSE` or `NUMBER_CONVERT_REVERSE`: the field that is then in the array, or in
    the variable for the number, the new `offset`, and the arrays. -/
def readField : Target ι → List UInt8 → Nat → (ι → List UInt8) →
    Option (Value × Nat × (ι → List UInt8))
  | .string i, buffer, offset, arrays =>
    (stringConvertReverse buffer offset (arrays i)).map fun (offset, _, string) =>
      (.string (contents string), offset, Function.update arrays i string)
  | .number i, buffer, offset, arrays =>
    (numberConvertReverse buffer offset (arrays i)).map fun (offset, _, number, scratch) =>
      (.number number, offset, Function.update arrays i scratch)

/-- The reverse macros, one after the other. -/
def readFields (targets : List (Target ι)) (buffer : List UInt8) (offset : Nat)
    (arrays : ι → List UInt8) : Option (List Value × Nat × (ι → List UInt8)) :=
  readEach readField targets buffer offset arrays

/-! ### One field -/

/-- The array has the size that the macros expect. -/
def StringArray (array : List UInt8) : Prop := array.length = MAX_STRING_SIZE

/-- All arrays have it. -/
def StringArrays (arrays : ι → List UInt8) : Prop := ∀ i, StringArray (arrays i)

theorem StringArrays.update {arrays : ι → List UInt8} (h : StringArrays arrays) (i : ι)
    {array : List UInt8} (harray : StringArray array) :
    StringArrays (Function.update arrays i array) := by
  intro i'
  rw [Function.update_apply]
  split
  · exact harray
  · exact h i'

/-- A string that is put into an array with its terminator leaves the size of the array. -/
theorem StringArray.splice {array w : List UInt8} (h : StringArray array) (hw : w.length ≤ 127) :
    StringArray (splice array 0 (w ++ [0])) := by
  unfold StringArray MAX_STRING_SIZE at h ⊢
  have hfit : 0 + (w ++ [0]).length ≤ array.length := by
    rw [List.length_append, List.length_singleton]
    omega
  rw [length_splice hfit, h]

/-- A field is written behind its length. -/
theorem writes_writeField {argument : Argument} (h : argument.Short) :
    Writes writeField StringArray argument (field argument.text) := by
  intro buffer p scratch hscratch hfit
  rw [length_field] at hfit
  cases argument with
  | string array =>
    obtain ⟨hzero, hlen⟩ := h
    obtain ⟨w, rest, rfl, hw⟩ := List.eq_append_cons_of_mem hzero
    simp only [Argument.text, contents_terminated hw] at hlen hfit ⊢
    have hwrite : stringConvert buffer p (w ++ 0 :: rest) =
        some (splice buffer p (field w), p + (field w).length) :=
      stringConvert_eq hw hlen (by omega)
    refine ⟨scratch, hscratch, ?_⟩
    simp only [writeField, hwrite, Option.bind_eq_bind, Option.bind_some]
  | number n =>
    exact ⟨_, length_printed n hscratch,
      numberConvert_eq hscratch (show p + (numberText n).length < buffer.length from hfit)⟩

/-- A field is read from behind its length. -/
theorem reads_readField {argument : Argument} {target : Target ι} (h : argument.Short)
    (hmatches : argument.Matches target) :
    Reads readField StringArrays target (field argument.text) argument.value := by
  intro buffer p arrays rest harrays hat
  cases hmatches with
  | string array i =>
    obtain ⟨-, hlen⟩ := h
    have hread := stringConvertReverse_eq zero_notMem_contents hlen (harrays i) hat
    refine ⟨_, harrays.update i ((harrays i).splice hlen), ?_⟩
    simp only [readField, hread, Option.map_some, contents_splice zero_notMem_contents]
    rfl
  | number n i =>
    have hread := numberConvertReverse_eq (harrays i) hat
    refine ⟨_, harrays.update i (length_printed n (harrays i)), ?_⟩
    simp only [readField, hread, Option.map_some]
    rfl

/-! ### Sequences of fields -/

/-- What a sequence of fields takes in the packet. -/
theorem length_fields (arguments : List Argument) :
    (arguments.flatMap fun argument => field argument.text).length =
      (arguments.map Argument.size).sum := by
  rw [List.length_flatMap]
  rfl

/-- **Fields compose.**  Strings of at most 127 characters and numbers, written one after the other
    from any position on, are read back in the same order into arrays with any content, and the
    reader ends where the writer has ended.  The other bytes of the packet are as before. -/
theorem readFields_writeFields {arguments : List Argument} {targets : List (Target ι)}
    (hmatches : List.Forall₂ Argument.Matches arguments targets)
    (hshort : ∀ argument ∈ arguments, argument.Short) {buffer scratch : List UInt8} {start : Nat}
    {arrays : ι → List UInt8} (hscratch : StringArray scratch) (harrays : StringArrays arrays)
    (hfit : start + (arguments.map Argument.size).sum ≤ buffer.length) :
    ∃ packet last scratch' arrays',
      writeFields arguments buffer start scratch = some (packet, last, scratch') ∧
      readFields targets packet start arrays = some (arguments.map Argument.value, last, arrays') ∧
      packet.length = buffer.length ∧
      last = start + (arguments.map Argument.size).sum ∧
      ∀ i, i < start ∨ last ≤ i → packet[i]? = buffer[i]? := by
  have hwrites : ∀ argument ∈ arguments,
      Writes writeField StringArray argument (field argument.text) :=
    fun argument hargument => writes_writeField (hshort argument hargument)
  have hreads : List.Forall₂ (fun (argument : Argument) target =>
      Reads readField StringArrays target (field argument.text) argument.value) arguments targets :=
    ((List.forall₂_and_left _ _).mpr ⟨hshort, hmatches⟩).imp
      fun _ _ h => reads_readField h.1 h.2
  rw [← length_fields] at hfit ⊢
  obtain ⟨packet, scratch', arrays', hwrite, hread, hlength, houtside⟩ :=
    readEach_writeEach hwrites hreads hscratch harrays hfit
  exact ⟨packet, _, scratch', arrays', hwrite, hread, hlength, rfl, houtside⟩

/-- A string of three characters and a number, written from position 5 on, and read back into one
    array. -/
theorem readFields_writeFields_two :
    ∃ packet last scratch' arrays',
      writeFields [.string [97, 98, 99, 0], .number (-42)] (List.replicate 20 1) 5
        (List.replicate MAX_STRING_SIZE 2) = some (packet, last, scratch') ∧
      readFields [.string (), .number ()] packet 5 (fun _ => List.replicate MAX_STRING_SIZE 3) =
        some ([.string [97, 98, 99], .number (-42)], last, arrays') ∧
      packet.length = 20 ∧ last = 13 ∧
      ∀ i, i < 5 ∨ last ≤ i → packet[i]? = (List.replicate 20 1)[i]? := by
  have hsize : ([.string [97, 98, 99, 0], .number (-42)].map Argument.size).sum = 8 := by decide
  have hfit : 5 + ([.string [97, 98, 99, 0], .number (-42)].map Argument.size).sum ≤
      (List.replicate 20 (1 : UInt8)).length := by
    rw [hsize, List.length_replicate]
    decide
  have hround := readFields_writeFields
    (.cons (.string [97, 98, 99, 0] ()) (.cons (.number (-42) ()) .nil)) (by decide)
    (show StringArray (List.replicate MAX_STRING_SIZE 2) from List.length_replicate)
    (show StringArrays fun _ : Unit => List.replicate MAX_STRING_SIZE 3 from
      fun _ => List.length_replicate) hfit
  rw [hsize, List.length_replicate] at hround
  exact hround

/-! ### What the program writes -/

/-- `COMMAND_GENERIC` writes three fields. -/
theorem commandGeneric_eq_writeFields (buffer : List UInt8) (currentSize : Nat)
    (fisier : List UInt8) (offset len : Int32) (scratch : List UInt8) :
    commandGeneric buffer currentSize fisier offset len scratch =
      writeFields [.string fisier, .number offset, .number len] buffer currentSize scratch := by
  simp [commandGeneric, writeFields, writeEach, writeField, Option.bind_assoc]

/-- The server writes two fields for each entry of a directory. -/
theorem addDirents_eq_writeFields {director : List UInt8} {stat : List UInt8 → Option Int64}
    {entries : List Dirent} (hsized : Sized director stat entries) (buffer : List UInt8)
    (currentSize : Nat) (blockSize : List UInt8) :
    addDirents director stat (entries.map Dirent.dName) buffer currentSize blockSize =
      writeFields (entries.flatMap fun ep => [.string (ep.dName ++ [0]), .number ep.stSize]) buffer
        currentSize blockSize := by
  induction entries generalizing buffer currentSize blockSize with
  | nil => rfl
  | cons ep entries ih =>
    have hsize := hsized ep List.mem_cons_self
    have hrest := ih fun e he => hsized e (List.mem_cons_of_mem _ he)
    simp [addDirents, writeFields, writeEach, writeField, hsize, hrest, Option.bind_assoc]

end WorkAtUPB.FilesServer

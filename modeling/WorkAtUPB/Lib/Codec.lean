import Mathlib.Data.List.Basic

namespace WorkAtUPB.Codec

/-!
# Encodings in a stream of words

A writer appends the words of a value to a stream, and a reader takes a value off the front of
the stream and leaves the rest, or fails:

* `RoundTrip` — the reader takes exactly what the writer appended, whatever follows;
* `RoundTripOn` — it does so for the values with a property;
* `writeArray`, `readArray` — an array behind its length;
* `readMany` — a known number of values, one after the other.
-/

variable {ω α : Type*}

/-- `read` takes back what `write` appends, and leaves what follows. -/
def RoundTrip (write : α → List ω) (read : List ω → Option (α × List ω)) : Prop :=
  ∀ a rest, read (write a ++ rest) = some (a, rest)

/-- `read` takes back what `write` appends for the values with `P`. -/
def RoundTripOn (P : α → Prop) (write : α → List ω) (read : List ω → Option (α × List ω)) :
    Prop :=
  ∀ a, P a → ∀ rest, read (write a ++ rest) = some (a, rest)

/-- A stream that ends behind the value is used up. -/
theorem RoundTrip.read_write {write : α → List ω} {read : List ω → Option (α × List ω)}
    (h : RoundTrip write read) (a : α) : read (write a) = some (a, []) := by
  have hread := h a []
  rwa [List.append_nil] at hread

/-- An array behind its length. -/
def writeArray (data : List Int) : List Int := (data.length : Int) :: data

/-- Takes a length and as many elements. -/
def readArray : List Int → Option (List Int × List Int)
  | [] => none
  | size :: ws =>
    if 0 ≤ size ∧ size.toNat ≤ ws.length then some (ws.take size.toNat, ws.drop size.toNat)
    else none

/-- Takes `n` values. -/
def readMany (read : List ω → Option (α × List ω)) : Nat → List ω → Option (List α × List ω)
  | 0, ws => some ([], ws)
  | n + 1, ws => (read ws).bind fun (a, ws) =>
      (readMany read n ws).map fun (as, ws) => (a :: as, ws)

theorem readArray_roundTrip : RoundTrip writeArray readArray := by
  intro data rest
  have hsize : 0 ≤ (data.length : Int) ∧
      (data.length : Int).toNat ≤ (data ++ rest).length := by
    rw [Int.toNat_natCast, List.length_append]
    omega
  rw [writeArray, List.cons_append, readArray, if_pos hsize, Int.toNat_natCast,
    List.take_left, List.drop_left]

/-- **Sequence rule.**  Values that are read back one by one are read back in sequence. -/
theorem RoundTripOn.readMany {P : α → Prop} {write : α → List ω}
    {read : List ω → Option (α × List ω)} (h : RoundTripOn P write read) {as : List α}
    (has : ∀ a ∈ as, P a) (rest : List ω) :
    readMany read as.length (as.flatMap write ++ rest) = some (as, rest) := by
  induction as with
  | nil => rfl
  | cons a as ih =>
    rw [List.flatMap_cons, List.append_assoc, List.length_cons, Codec.readMany,
      h a (has a List.mem_cons_self), Option.bind_some]
    dsimp only
    rw [ih fun b hb => has b (List.mem_cons_of_mem a hb), Option.map_some]

theorem RoundTrip.readMany {write : α → List ω} {read : List ω → Option (α × List ω)}
    (h : RoundTrip write read) (as : List α) (rest : List ω) :
    readMany read as.length (as.flatMap write ++ rest) = some (as, rest) :=
  RoundTripOn.readMany (P := fun _ => True) (fun a _ => h a) (fun _ _ => trivial) rest

end WorkAtUPB.Codec

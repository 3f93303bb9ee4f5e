import Mathlib.Data.List.Forall2
import WorkAtUPB.Lib.Bytes

namespace WorkAtUPB.Cursor

open Bytes

/-!
# Writing and reading at a position of a buffer

Calls that write take a buffer and a position, and go on to the position behind what they have
written; calls that read do so on what is there.  Both have a state of their own, such as the
buffers that they work with:

* `writeEach`, `readEach` — calls one after the other;
* `Writes`, `Reads` — a call writes some bytes, or reads a value from them, and keeps an invariant
  of the state;
* `writeEach_eq`, `readEach_eq` — so do calls one after the other;
* `readEach_writeEach` — what has been written is read back, up to where the writer ended.
-/

variable {α β τ σ ρ : Type*}

/-- Calls that write, one after the other. -/
def writeEach (write : α → List UInt8 → Nat → σ → Option (List UInt8 × Nat × σ)) :
    List α → List UInt8 → Nat → σ → Option (List UInt8 × Nat × σ)
  | [], buffer, p, s => some (buffer, p, s)
  | a :: as, buffer, p, s => do
    let (buffer, p, s) ← write a buffer p s
    writeEach write as buffer p s

/-- Calls that read, one after the other. -/
def readEach (read : τ → List UInt8 → Nat → ρ → Option (β × Nat × ρ)) :
    List τ → List UInt8 → Nat → ρ → Option (List β × Nat × ρ)
  | [], _, p, r => some ([], p, r)
  | t :: ts, buffer, p, r => do
    let (b, p, r) ← read t buffer p r
    let (bs, p, r) ← readEach read ts buffer p r
    some (b :: bs, p, r)

/-- The call writes these bytes, where they fit. -/
def Writes (write : α → List UInt8 → Nat → σ → Option (List UInt8 × Nat × σ)) (I : σ → Prop)
    (a : α) (bytes : List UInt8) : Prop :=
  ∀ buffer p s, I s → p + bytes.length ≤ buffer.length →
    ∃ s', I s' ∧ write a buffer p s = some (splice buffer p bytes, p + bytes.length, s')

/-- The call reads the value from these bytes, whatever follows them. -/
def Reads (read : τ → List UInt8 → Nat → ρ → Option (β × Nat × ρ)) (I : ρ → Prop) (t : τ)
    (bytes : List UInt8) (b : β) : Prop :=
  ∀ buffer p r rest, I r → buffer.drop p = bytes ++ rest →
    ∃ r', I r' ∧ read t buffer p r = some (b, p + bytes.length, r')

variable {write : α → List UInt8 → Nat → σ → Option (List UInt8 × Nat × σ)}
  {read : τ → List UInt8 → Nat → ρ → Option (β × Nat × ρ)} {I : σ → Prop} {J : ρ → Prop}
  {bytes : α → List UInt8} {value : α → β} {as : List α} {ts : List τ} {buffer : List UInt8}
  {p : Nat} {s : σ} {r : ρ}

/-- **Writers in sequence.**  The bytes of the calls are behind one another. -/
theorem writeEach_eq (h : ∀ a ∈ as, Writes write I a (bytes a)) (hs : I s)
    (hfit : p + (as.flatMap bytes).length ≤ buffer.length) :
    ∃ s', I s' ∧ writeEach write as buffer p s =
      some (splice buffer p (as.flatMap bytes), p + (as.flatMap bytes).length, s') := by
  induction as generalizing buffer p s with
  | nil => exact ⟨s, hs, by simp [writeEach, splice]⟩
  | cons a as ih =>
    rw [List.flatMap_cons, List.length_append] at hfit
    obtain ⟨s₁, hs₁, hfirst⟩ := h a List.mem_cons_self buffer p s hs (by omega)
    have hlen : (splice buffer p (bytes a)).length = buffer.length := length_splice (by omega)
    obtain ⟨s₂, hs₂, hothers⟩ := ih (fun b hb => h b (List.mem_cons_of_mem a hb)) hs₁
      (show p + (bytes a).length + (as.flatMap bytes).length ≤ (splice buffer p (bytes a)).length by
        omega)
    refine ⟨s₂, hs₂, ?_⟩
    simp only [writeEach, hfirst, hothers, Option.bind_eq_bind, Option.bind_some]
    rw [splice_splice (by omega), List.flatMap_cons, List.length_append, Nat.add_assoc]

/-- **Readers in sequence.**  The values are read from bytes that are behind one another. -/
theorem readEach_eq (h : List.Forall₂ (fun a t => Reads read J t (bytes a) (value a)) as ts)
    (hr : J r) {rest : List UInt8} (hat : buffer.drop p = as.flatMap bytes ++ rest) :
    ∃ r', J r' ∧ readEach read ts buffer p r =
      some (as.map value, p + (as.flatMap bytes).length, r') := by
  induction h generalizing p r with
  | nil => exact ⟨r, hr, rfl⟩
  | @cons a t as ts hread _ ih =>
    rw [List.flatMap_cons, List.append_assoc] at hat
    obtain ⟨r₁, hr₁, hfirst⟩ := hread buffer p r _ hr hat
    have hbehind : buffer.drop (p + (bytes a).length) = as.flatMap bytes ++ rest := by
      rw [← List.drop_drop, hat, List.drop_left' rfl]
    obtain ⟨r₂, hr₂, hothers⟩ := ih hr₁ hbehind
    refine ⟨r₂, hr₂, ?_⟩
    simp only [readEach, hfirst, hothers, Option.bind_eq_bind, Option.bind_some]
    rw [List.map_cons, List.flatMap_cons, List.length_append, Nat.add_assoc]

/-- **Sequences compose.**  What calls have written is read back by calls of the same kinds, and the
    reader ends where the writer has ended.  The buffer is as before outside of what was written. -/
theorem readEach_writeEach (hwrites : ∀ a ∈ as, Writes write I a (bytes a))
    (hreads : List.Forall₂ (fun a t => Reads read J t (bytes a) (value a)) as ts)
    (hs : I s) (hr : J r) (hfit : p + (as.flatMap bytes).length ≤ buffer.length) :
    ∃ written s' r',
      writeEach write as buffer p s = some (written, p + (as.flatMap bytes).length, s') ∧
      readEach read ts written p r = some (as.map value, p + (as.flatMap bytes).length, r') ∧
      written.length = buffer.length ∧
      ∀ i, i < p ∨ p + (as.flatMap bytes).length ≤ i → written[i]? = buffer[i]? := by
  obtain ⟨s', -, hwrite⟩ := writeEach_eq hwrites hs hfit
  have hat : (splice buffer p (as.flatMap bytes)).drop p =
      as.flatMap bytes ++ buffer.drop (p + (as.flatMap bytes).length) := drop_splice (by omega)
  obtain ⟨r', -, hread⟩ := readEach_eq hreads hr hat
  exact ⟨_, s', r', hwrite, hread, length_splice hfit,
    fun i hi => getElem?_splice_of_outside (by omega) hi⟩

end WorkAtUPB.Cursor

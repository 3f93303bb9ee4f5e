import Mathlib.Data.BitVec
import Mathlib.Logic.Function.Basic

namespace WorkAtUPB.Flags

/-!
# Flags in a word

`c & m` tests the flags of the mask `m` in the word `c`, `c | m` sets them and `c & ~m` clears
them:

* `test` — some flag of the mask is set;
* `test_set`, `test_clear` — a flag that has just been set or cleared;
* `test_set_of_disjoint`, `test_clear_of_disjoint` — the other flags do not change;
* `update_component`, `update_true`, `update_false` — a table of records with flags, one of which
  is changed.
-/

variable {w : Nat} (c : BitVec w) {m n : BitVec w}

/-- Some flag of the mask is set in the word. -/
def test (m : BitVec w) : Bool := c &&& m != 0

@[simp] theorem test_zero (m : BitVec w) : test 0#w m = false := by
  rw [test, BitVec.zero_and]
  exact bne_self_eq_false _

/-- Flags that have been set are set. -/
theorem test_set (hm : m ≠ 0) : test (c ||| m) m = true := by
  have habsorb : (c ||| m) &&& m = m := by
    ext i hi
    rw [BitVec.getElem_and, BitVec.getElem_or]
    cases m[i] <;> simp
  rw [test, habsorb]
  exact bne_iff_ne.mpr hm

/-- Flags that have been cleared are not set. -/
theorem test_clear : test (c &&& ~~~m) m = false := by
  have hzero : c &&& ~~~m &&& m = 0 := by
    ext i hi
    simp
  rw [test, hzero]
  exact bne_self_eq_false _

/-- Two masks without a common flag. -/
theorem getElem_of_disjoint (h : m &&& n = 0) {i : Nat} (hi : i < w) : (m[i] && n[i]) = false := by
  rw [← BitVec.getElem_and, h, BitVec.ofNat_eq_ofNat, BitVec.getElem_zero]

/-- To set the flags of one mask does not change those of another one. -/
theorem test_set_of_disjoint (h : m &&& n = 0) : test (c ||| m) n = test c n := by
  have hmask : (c ||| m) &&& n = c &&& n := by
    ext i hi
    simp [Bool.and_or_distrib_right, getElem_of_disjoint h hi]
  rw [test, test, hmask]

/-- To clear the flags of one mask does not change those of another one. -/
theorem test_clear_of_disjoint (h : m &&& n = 0) : test (c &&& ~~~m) n = test c n := by
  have hmask : c &&& ~~~m &&& n = c &&& n := by
    ext i hi
    have hi' := getElem_of_disjoint h hi
    cases hm : m[i] <;> simp_all
  rw [test, test, hmask]

/-! ### Tables -/

section Tables

variable {ι α β : Type*} [DecidableEq ι] {table : ι → α} {i : ι} {a : α}

/-- A component that an entry keeps when it is changed is the same in the whole table. -/
theorem update_component (f : α → β) (h : f a = f (table i)) (j : ι) :
    f (Function.update table i a j) = f (table j) := by
  rw [Function.apply_update fun _ => f, h, Function.update_eq_self i fun k => f (table k)]

/-- One entry gets a flag. -/
theorem update_true (f : α → Bool) (h : f a = true) (j : ι) :
    f (Function.update table i a j) = (decide (j = i) || f (table j)) := by
  by_cases hji : j = i
  · subst hji
    simp [h]
  · simp [hji]

/-- One entry loses a flag. -/
theorem update_false (f : α → Bool) (h : f a = false) (j : ι) :
    f (Function.update table i a j) = (!decide (j = i) && f (table j)) := by
  by_cases hji : j = i
  · subst hji
    simp [h]
  · simp [hji]

end Tables

end WorkAtUPB.Flags

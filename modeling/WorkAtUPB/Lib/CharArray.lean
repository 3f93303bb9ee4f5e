import Mathlib.Algebra.Group.Nat.Defs
import Mathlib.Data.List.TakeWhile
import WorkAtUPB.Lib.Bytes

namespace WorkAtUPB.CharArray

open Bytes

/-!
# Arrays of characters with bounds

An array of characters has a fixed length; a string in it ends at the first zero byte.  The
functions of `string.h` here are partial: `none` is an access outside of an array.

* `contents`, `strlen` — the string in an array;
* `store`, `strncpy`, `strcat`, `sprintf`, `snprintf` — what writes into an array;
* `strncpy_eq`, `strcat_eq`, `contents_splice` — the effect of these on the strings.

A string is copied out of the array that begins with it, so `strncpy` takes the rest of the
source array.
-/

/-- The string in an array: what lies before the first zero byte. -/
def contents (a : List UInt8) : List UInt8 := a.takeWhile (· ≠ 0)

/-- `strlen`. -/
def strlen (a : List UInt8) : Option Nat := if 0 ∈ a then some (contents a).length else none

/-- `a[i] = c`. -/
def store (a : List UInt8) (i : Nat) (c : UInt8) : Option (List UInt8) :=
  if i < a.length then some (a.set i c) else none

/-- The `n` bytes that `strncpy` takes from a source: its string, cut or filled up with zeros. -/
def padded (src : List UInt8) (n : Nat) : Option (List UInt8) :=
  if n ≤ (contents src).length then some ((contents src).take n)
  else if 0 ∈ src then some (contents src ++ List.replicate (n - (contents src).length) 0)
  else none

/-- `strncpy` to position `pos` of an array. -/
def strncpy (dest : List UInt8) (pos : Nat) (src : List UInt8) (n : Nat) : Option (List UInt8) :=
  if pos + n ≤ dest.length then (padded src n).map (splice dest pos) else none

/-- `sprintf` of a text, with its terminator. -/
def sprintf (dest text : List UInt8) : Option (List UInt8) :=
  if text.length < dest.length then some (splice dest 0 (text ++ [0])) else none

/-- `snprintf` of a text: at most `n` bytes, with the terminator. -/
def snprintf (dest : List UInt8) (n : Nat) (text : List UInt8) : Option (List UInt8) :=
  sprintf dest (text.take (n - 1))

/-- `strcat`: the string of a source is written behind the one in an array. -/
def strcat (dest src : List UInt8) : Option (List UInt8) := do
  let pos ← strlen dest
  let n ← strlen src
  if pos + n < dest.length then some (splice dest pos (contents src ++ [0])) else none

/-- A signed character as a `size_t`. -/
def toSize (c : UInt8) : Nat := if c < 128 then c.toNat else 2 ^ 64 - (256 - c.toNat)

/-! ### Strings without zero bytes -/

variable {a b w rest : List UInt8} {pos : Nat}

theorem contents_append (hw : 0 ∉ w) : contents (w ++ rest) = w ++ contents rest :=
  List.takeWhile_append_of_pos fun _ hc => decide_eq_true fun h => hw (h ▸ hc)

theorem contents_terminated (hw : 0 ∉ w) : contents (w ++ 0 :: rest) = w := by
  rw [contents_append hw, contents, List.takeWhile_cons_of_neg (by simp), List.append_nil]

theorem strlen_terminated (hw : 0 ∉ w) : strlen (w ++ 0 :: rest) = some w.length := by
  rw [strlen, if_pos (List.mem_append_right _ List.mem_cons_self), contents_terminated hw]

/-- What is behind a terminator is not seen. -/
theorem contents_append_zero (w rest : List UInt8) : contents (w ++ 0 :: rest) = contents w := by
  induction w with
  | nil => rfl
  | cons c w ih =>
    unfold contents at ih ⊢
    rw [List.cons_append, List.takeWhile_cons, List.takeWhile_cons, ih]

/-- A text is the string in it if it has no zero byte. -/
theorem contents_eq_self_iff : contents w = w ↔ 0 ∉ w := by
  rw [contents, List.takeWhile_eq_self_iff]
  refine ⟨fun h hw => of_decide_eq_true (h 0 hw) rfl, fun h c hc => decide_eq_true ?_⟩
  rintro rfl
  exact h hc

theorem zero_notMem_contents : 0 ∉ contents w := by
  intro h
  unfold contents at h
  simpa using List.mem_takeWhile_imp h

theorem length_contents_lt (h : 0 ∈ a) : (contents a).length < a.length := by
  refine lt_of_le_of_ne (List.takeWhile_prefix _).length_le fun heq => ?_
  have hself : contents a = a := (List.takeWhile_prefix _).eq_of_length heq
  exact contents_eq_self_iff.mp hself h

/-- **Concatenation.**  If the strings fit, both are in the array, one behind the other. -/
theorem strcat_eq (ha : 0 ∈ a) (hb : 0 ∈ b)
    (hfit : (contents a).length + (contents b).length < a.length) :
    ∃ c, strcat a b = some c ∧ c.length = a.length ∧ 0 ∈ c ∧
      contents c = contents a ++ contents b := by
  have hlen : (contents a).length + (contents b ++ [0]).length ≤ a.length := by
    rw [List.length_append, List.length_singleton]
    omega
  have htake : a.take (contents a).length = contents a :=
    (List.prefix_iff_eq_take.mp (List.takeWhile_prefix _)).symm
  refine ⟨splice a (contents a).length (contents b ++ [0]), ?_, length_splice hlen, ?_, ?_⟩
  · rw [strcat, strlen, if_pos ha, strlen, if_pos hb, Option.bind_eq_bind, Option.bind_some,
      Option.bind_some, if_pos hfit]
  · rw [splice]
    simp
  · rw [splice, htake, List.append_assoc, List.append_assoc, contents_append zero_notMem_contents,
      List.singleton_append, contents_terminated zero_notMem_contents]

/-- Strings that do not fit are not concatenated. -/
theorem strcat_eq_none (h : a.length ≤ (contents a).length + (contents b).length) :
    strcat a b = none := by
  unfold strcat strlen
  split
  · split
    · show (if _ then _ else none) = none
      rw [if_neg (Nat.not_lt.mpr h)]
    · rfl
  · rfl

/-- A copy of as many bytes as the string has. -/
theorem strncpy_eq (hw : 0 ∉ w) (hfit : pos + w.length ≤ a.length) :
    strncpy a pos (w ++ rest) w.length = some (splice a pos w) := by
  have hlen : w.length ≤ (contents (w ++ rest)).length := by
    rw [contents_append hw, List.length_append]
    exact Nat.le_add_right _ _
  rw [strncpy, if_pos hfit, padded, if_pos hlen, contents_append hw, List.take_left' rfl,
    Option.map_some]

/-- A copy that does not fit is not made. -/
theorem strncpy_eq_none {src : List UInt8} {n : Nat} (h : a.length < pos + n) :
    strncpy a pos src n = none := if_neg (Nat.not_le.mpr h)

/-- The string that is in an array after it has been written there with a terminator. -/
theorem contents_splice (hw : 0 ∉ w) : contents (splice a 0 (w ++ [0])) = w := by
  rw [splice_zero, List.append_assoc, List.singleton_append, contents_terminated hw]

/-- **Formatting.**  A text that fits is the string in the array. -/
theorem sprintf_eq (hw : 0 ∉ w) (hfit : w.length < a.length) :
    ∃ b, sprintf a w = some b ∧ b.length = a.length ∧ 0 ∈ b ∧ contents b = w := by
  have hlen : 0 + (w ++ [0]).length ≤ a.length := by
    rw [Nat.zero_add, List.length_append, List.length_singleton]
    exact hfit
  refine ⟨splice a 0 (w ++ [0]), if_pos hfit, length_splice hlen, ?_, contents_splice hw⟩
  rw [splice_zero]
  simp

/-- Storing the terminator behind the characters. -/
theorem store_splice (h : w.length < a.length) :
    store (splice a 0 w) w.length 0 = some (splice a 0 (w ++ [0])) := by
  have hlen : (splice a 0 w).length = a.length := length_splice (by omega)
  obtain ⟨c, tail, htail⟩ : ∃ c tail, a.drop w.length = c :: tail :=
    List.exists_cons_of_ne_nil (by rw [Ne, List.drop_eq_nil_iff]; omega)
  have hdrop : a.drop (w.length + 1) = tail := by
    rw [← List.drop_drop, htail]
    rfl
  rw [store, hlen, if_pos h, splice_zero, splice_zero, htail, List.length_append,
    List.length_singleton, hdrop, List.set_append_right _ _ (Nat.le_refl _), Nat.sub_self,
    List.set_cons_zero, List.append_assoc, List.singleton_append]

/-- Storing a character in front of a copy. -/
theorem splice_set (hfit : pos + w.length < a.length) (c : UInt8) :
    splice (a.set pos c) (pos + 1) w = splice a pos (c :: w) := by
  have htake : (a.set pos c).take (pos + 1) = a.take pos ++ [c] := by
    rw [List.take_add_one, List.take_set_of_le (Nat.le_refl _), List.getElem?_set_self (by omega),
      Option.toList_some]
  have hdrop : (a.set pos c).drop (pos + 1 + w.length) = a.drop (pos + (c :: w).length) := by
    rw [List.drop_set_of_lt (by omega), List.length_cons, Nat.add_assoc, Nat.add_comm 1]
  rw [splice, splice, htake, hdrop, List.append_assoc (List.take pos a), List.singleton_append]

/-- A string of at most 127 characters has its length as a size. -/
theorem toSize_ofNat {n : Nat} (h : n ≤ 127) : toSize (UInt8.ofNat n) = n := by
  have hn : (UInt8.ofNat n).toNat = n := by
    rw [UInt8.toNat_ofNat']
    omega
  have hlt : UInt8.ofNat n < 128 := by
    rw [UInt8.lt_iff_toNat_lt, hn]
    exact Nat.lt_succ_of_le h
  rw [toSize, if_pos hlt, hn]

/-- A longer one, of up to 255 characters, has a negative length, which is a huge size. -/
theorem le_toSize_ofNat {n : Nat} (h : 127 < n) (h' : n < 256) :
    2 ^ 63 ≤ toSize (UInt8.ofNat n) := by
  have hn : (UInt8.ofNat n).toNat = n := by
    rw [UInt8.toNat_ofNat']
    omega
  have hle : ¬ UInt8.ofNat n < 128 := by
    rw [UInt8.lt_iff_toNat_lt, hn]
    exact Nat.not_lt.mpr h
  rw [toSize, if_neg hle, hn]
  omega

end WorkAtUPB.CharArray

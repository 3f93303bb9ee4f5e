import Mathlib.Data.List.Basic
import Mathlib.Logic.Function.Iterate

namespace WorkAtUPB.Crc

/-!
# Cyclic redundancy checks

A register of `w` bits takes in a message bit by bit, the lowest bit of the register first; `p` is
the reflected generator polynomial:

* `shift`, `feed` — the register after one bit, and after a message;
* `shift_xor`, `shift_eq_zero` — a shift is linear, and loses nothing if `p` has its top bit set;
* `feed_eq_iterate` — up to `w` bits are taken in at once, as a word;
* `iterate_shift_eq` — `n` shifts in terms of the `n` lowest bits, which is what a table holds;
* `Burst`, `feed_ne_of_burst` — messages that differ within `w` consecutive bits leave different
  registers.
-/

variable {w : Nat}

/-- The register after a bit that is zero. -/
def shift (p s : BitVec w) : BitVec w := if s.getLsbD 0 then s >>> 1 ^^^ p else s >>> 1

/-- A bit as a register. -/
def bit (w : Nat) (b : Bool) : BitVec w := if b then 1#w else 0#w

/-- The register after the bits of a message. -/
def feed (p s : BitVec w) (message : List Bool) : BitVec w :=
  message.foldl (fun s b => shift p (s ^^^ bit w b)) s

/-- Without a message the register stays. -/
@[simp] theorem feed_nil (p s : BitVec w) : feed p s [] = s := rfl

/-- The first bit, and the others. -/
@[simp] theorem feed_cons (p s : BitVec w) (b : Bool) (message : List Bool) :
    feed p s (b :: message) = feed p (shift p (s ^^^ bit w b)) message := rfl

/-- One message behind another. -/
theorem feed_append (p s : BitVec w) (xs ys : List Bool) :
    feed p s (xs ++ ys) = feed p (feed p s xs) ys := List.foldl_append

/-- Zeros only shift the register. -/
theorem feed_replicate_false (p s : BitVec w) (n : Nat) :
    feed p s (List.replicate n false) = (shift p)^[n] s := by
  induction n generalizing s with
  | zero => rfl
  | succ n ih =>
    have hbit : s ^^^ bit w false = s := BitVec.xor_zero
    rw [List.replicate_succ, feed_cons, hbit, ih, Function.iterate_succ_apply]

/-! ### Linearity -/

/-- Bits are added like registers. -/
theorem bit_xor (b c : Bool) : bit w (b ^^ c) = bit w b ^^^ bit w c := by
  cases b <;> cases c <;> simp [bit]

/-- Four summands in another order. -/
theorem xor_xor_xor_comm (a b c d : BitVec w) : a ^^^ b ^^^ (c ^^^ d) = a ^^^ c ^^^ (b ^^^ d) := by
  ac_rfl

/-- A shift is linear. -/
theorem shift_xor (p a b : BitVec w) : shift p (a ^^^ b) = shift p a ^^^ shift p b := by
  unfold shift
  rw [BitVec.getLsbD_xor, BitVec.ushiftRight_xor_distrib]
  cases a.getLsbD 0 <;> cases b.getLsbD 0
  · simp
  · simp [BitVec.xor_assoc]
  · simp only [Bool.xor_false, if_true, Bool.false_eq_true, if_false]
    ac_rfl
  · -- the polynomial comes in twice
    simp [xor_xor_xor_comm _ p _ p]

/-- A shift of zero. -/
theorem shift_zero (p : BitVec w) : shift p 0#w = 0#w := by simp [shift]

/-- The difference of two registers is the register of the difference of the messages. -/
theorem feed_xor (p : BitVec w) {xs ys : List Bool} (hlen : xs.length = ys.length)
    (a b : BitVec w) :
    feed p a xs ^^^ feed p b ys = feed p (a ^^^ b) (List.zipWith (· ^^ ·) xs ys) := by
  induction xs generalizing ys a b with
  | nil => rw [List.length_eq_zero_iff.mp hlen.symm]; rfl
  | cons x xs ih =>
    cases ys with
    | nil => cases hlen
    | cons y ys =>
      rw [feed_cons, feed_cons, ih (Nat.succ.inj hlen), List.zipWith_cons_cons, feed_cons,
        ← shift_xor, bit_xor, xor_xor_xor_comm]

/-! ### Nothing is lost -/

/-- The bits behind a shift. -/
theorem getLsbD_shift (p s : BitVec w) (i : Nat) :
    (shift p s).getLsbD i = (s.getLsbD (1 + i) ^^ (s.getLsbD 0 && p.getLsbD i)) := by
  unfold shift
  cases s.getLsbD 0 <;> simp

/-- With the top bit of the polynomial set, only zero is shifted to zero. -/
theorem shift_eq_zero {p s : BitVec w} (hp : p.getLsbD (w - 1) = true) (h : shift p s = 0#w) :
    s = 0#w := by
  have hbit : ∀ i, (s.getLsbD (1 + i) ^^ (s.getLsbD 0 && p.getLsbD i)) = false := by
    intro i
    rw [← getLsbD_shift, h]
    exact BitVec.getLsbD_zero
  -- The top bit of the shifted register is the lowest one of `s`.
  have hlow : s.getLsbD 0 = false := by
    by_cases hw : w = 0
    · exact BitVec.getLsbD_of_ge s 0 (by omega)
    · have htop := hbit (w - 1)
      rw [BitVec.getLsbD_of_ge s (1 + (w - 1)) (by omega), hp] at htop
      simpa using htop
  apply BitVec.eq_of_getLsbD_eq
  intro i hi
  rw [BitVec.getLsbD_zero]
  cases i with
  | zero => exact hlow
  | succ i => simpa [hlow, Nat.add_comm] using hbit i

/-- Many shifts are linear. -/
theorem iterate_shift_xor (p : BitVec w) (n : Nat) (a b : BitVec w) :
    (shift p)^[n] (a ^^^ b) = (shift p)^[n] a ^^^ (shift p)^[n] b := by
  induction n generalizing a b with
  | zero => rfl
  | succ n ih => rw [Function.iterate_succ_apply, shift_xor, ih]; rfl

/-- Shifts lose no register if the polynomial has its top bit. -/
theorem iterate_shift_eq_zero {p : BitVec w} (hp : p.getLsbD (w - 1) = true) {n : Nat}
    {s : BitVec w} (h : (shift p)^[n] s = 0#w) : s = 0#w := by
  induction n generalizing s with
  | zero => exact h
  | succ n ih => exact shift_eq_zero hp (ih h)

/-! ### Many bits at once -/

/-- The word with the bits of a list, lowest first. -/
def word (w : Nat) : List Bool → BitVec w
  | [] => 0#w
  | b :: bits => bit w b ^^^ word w bits <<< 1

/-- The bits of a register with one bit. -/
theorem getLsbD_bit (b : Bool) {i : Nat} (hi : i < w) :
    (bit w b).getLsbD i = (decide (i = 0) && b) := by
  cases b
  · simp [bit]
  · have hw : 0 < w := by omega
    simp [bit, hw]

/-- The bits of a register with a word. -/
theorem getLsbD_word (bits : List Bool) {i : Nat} (hi : i < w) :
    (word w bits).getLsbD i = bits.getD i false := by
  induction bits generalizing i with
  | nil => simp [word]
  | cons b bits ih =>
    rw [word, BitVec.getLsbD_xor, getLsbD_bit b hi, BitVec.getLsbD_shiftLeft]
    cases i with
    | zero => simp
    | succ i => simp [hi, ih (show i < w by omega)]

/-- A register moved up by one place comes down again, if nothing was lost. -/
theorem shift_shiftLeft (p : BitVec w) {s : BitVec w} (hs : s.getLsbD (w - 1) = false) :
    shift p (s <<< 1) = s := by
  have hlow : (s <<< 1).getLsbD 0 = false := by simp
  rw [shift, hlow, if_neg Bool.false_ne_true]
  apply BitVec.eq_of_getLsbD_eq
  intro i hi
  rw [BitVec.getLsbD_ushiftRight, BitVec.getLsbD_shiftLeft]
  by_cases hlast : i = w - 1
  · rw [hlast, hs]
    simp only [show ¬ 1 + (w - 1) < w by omega, decide_false, Bool.false_and]
  · simp [show 1 + i < w by omega]

/-- **A word at once.**  Taking in up to `w` bits is the same as adding them to the register as a
    word and shifting. -/
theorem feed_eq_iterate (p s : BitVec w) {bits : List Bool} (hlen : bits.length ≤ w) :
    feed p s bits = (shift p)^[bits.length] (s ^^^ word w bits) := by
  induction bits generalizing s with
  | nil => simp [word]
  | cons b bits ih =>
    rw [List.length_cons] at hlen
    -- The top bit of the word of the other bits is not among them.
    have htop : (word w bits).getLsbD (w - 1) = false := by
      rw [getLsbD_word bits (by omega), List.getD_eq_getElem?_getD,
        List.getElem?_eq_none (by omega), Option.getD_none]
    rw [feed_cons, ih _ (by omega), List.length_cons, Function.iterate_succ_apply, word,
      ← BitVec.xor_assoc, shift_xor p (s ^^^ bit w b), shift_shiftLeft p htop]

/-- The bits of a register below place `n`. -/
def low (n : Nat) (s : BitVec w) : BitVec w := s ^^^ s >>> n <<< n

/-- Shifts without a feedback. -/
theorem iterate_shift_shiftLeft (p : BitVec w) (n : Nat) {s : BitVec w}
    (hs : ∀ i, w ≤ i + n → s.getLsbD i = false) : (shift p)^[n] (s <<< n) = s := by
  induction n generalizing s with
  | zero => simp
  | succ n ih =>
    have htop : (s <<< n).getLsbD (w - 1) = false := by
      rw [BitVec.getLsbD_shiftLeft]
      by_cases hn : w - 1 < n
      · simp [hn]
      · simp [hs (w - 1 - n) (by omega)]
    rw [Function.iterate_succ_apply, BitVec.shiftLeft_add, shift_shiftLeft p htop,
      ih fun i hi => hs i (by omega)]

/-- **The table.**  Of `n` shifts only those of the `n` lowest bits have to be looked up. -/
theorem iterate_shift_eq (p s : BitVec w) (n : Nat) :
    (shift p)^[n] s = (shift p)^[n] (low n s) ^^^ s >>> n := by
  have hhigh : (shift p)^[n] (s >>> n <<< n) = s >>> n := by
    apply iterate_shift_shiftLeft p n
    intro i hi
    rw [BitVec.getLsbD_ushiftRight]
    exact BitVec.getLsbD_of_ge s _ (by omega)
  have hsplit : s = low n s ^^^ s >>> n <<< n := by
    rw [low, BitVec.xor_assoc, BitVec.xor_self, BitVec.xor_zero]
  calc (shift p)^[n] s = (shift p)^[n] (low n s ^^^ s >>> n <<< n) := by rw [← hsplit]
    _ = (shift p)^[n] (low n s) ^^^ s >>> n := by rw [iterate_shift_xor, hhigh]

/-! ### Bursts -/

/-- Two messages of one length that differ, but only within `n` consecutive bits. -/
def Burst (n : Nat) (xs ys : List Bool) : Prop :=
  xs.length = ys.length ∧ xs ≠ ys ∧ ∃ k, ∀ i, xs[i]? ≠ ys[i]? → k ≤ i ∧ i < k + n

/-- A register other than zero is not taken to zero by zeros. -/
theorem feed_ne_zero {p : BitVec w} (hp : p.getLsbD (w - 1) = true) {s : BitVec w} (hs : s ≠ 0#w)
    (n : Nat) : feed p s (List.replicate n false) ≠ 0#w := by
  induction n generalizing s with
  | zero => exact hs
  | succ n ih =>
    have hbit : s ^^^ bit w false = s := BitVec.xor_zero
    rw [List.replicate_succ, feed_cons, hbit]
    exact ih fun h => hs (shift_eq_zero hp h)

/-- Zeros leave the register zero. -/
theorem feed_zero (p : BitVec w) (n : Nat) : feed p 0#w (List.replicate n false) = 0#w := by
  induction n with
  | zero => rfl
  | succ n ih =>
    have hbit : 0#w ^^^ bit w false = 0#w := BitVec.xor_zero
    rw [List.replicate_succ, feed_cons, hbit, shift_zero, ih]

/-- Bits that are not set. -/
theorem eq_replicate_false {bits : List Bool} (h : ∀ i : Nat, bits[i]? ≠ some true) :
    bits = List.replicate bits.length false := by
  rw [List.eq_replicate_iff]
  refine ⟨rfl, fun b hb => ?_⟩
  obtain ⟨i, hi⟩ := List.getElem?_of_mem hb
  cases b with
  | false => rfl
  | true => exact absurd hi (h i)

/-- The bits of a sum of messages. -/
theorem getElem?_zipWith_xor {xs ys : List Bool} (hlen : xs.length = ys.length) (i : Nat) :
    (List.zipWith (· ^^ ·) xs ys)[i]? = some true ↔ xs[i]? ≠ ys[i]? := by
  by_cases hi : i < xs.length
  · have hi' : i < ys.length := hlen ▸ hi
    rw [List.getElem?_eq_getElem (by rw [List.length_zipWith]; omega), List.getElem?_eq_getElem hi,
      List.getElem?_eq_getElem hi', List.getElem_zipWith]
    cases xs[i] <;> cases ys[i] <;> simp
  · rw [List.getElem?_eq_none (by rw [List.length_zipWith]; omega),
      List.getElem?_eq_none (by omega),
      List.getElem?_eq_none (by omega)]
    simp

/-- **Bursts are detected.**  Two messages that differ, but only within as many consecutive bits as
    the register has, leave different registers, whatever it held before. -/
theorem feed_ne_of_burst {p : BitVec w} (hp : p.getLsbD (w - 1) = true) {xs ys : List Bool}
    (h : Burst w xs ys) (s : BitVec w) : feed p s xs ≠ feed p s ys := by
  obtain ⟨hlen, hne, k, hk⟩ := h
  set d := List.zipWith (· ^^ ·) xs ys with hd
  have hdiff : ∀ i : Nat, d[i]? = some true ↔ xs[i]? ≠ ys[i]? := getElem?_zipWith_xor hlen
  -- The difference is zeros, the burst, and zeros again.
  set burst := (d.drop k).take w with hburst
  have hhead : d.take k = List.replicate (d.take k).length false := by
    apply eq_replicate_false
    intro i hi
    rw [List.getElem?_take] at hi
    split at hi
    · next hik => exact absurd (hk i ((hdiff i).mp hi)).1 (by omega)
    · cases hi
  have htail : (d.drop k).drop w = List.replicate ((d.drop k).drop w).length false := by
    apply eq_replicate_false
    intro i hi
    rw [List.getElem?_drop, List.getElem?_drop] at hi
    exact absurd (hk _ ((hdiff _).mp hi)).2 (by omega)
  have hword : word w burst ≠ 0#w := by
    obtain ⟨i, hi⟩ : ∃ i : Nat, xs[i]? ≠ ys[i]? :=
      not_forall.mp fun hall => hne (List.ext_getElem? hall)
    obtain ⟨hki, hiw⟩ := hk i hi
    intro hzero
    have hbit := getLsbD_word burst (show i - k < w by omega)
    rw [hzero, BitVec.getLsbD_zero, List.getD_eq_getElem?_getD, hburst, List.getElem?_take,
      if_pos (by omega), List.getElem?_drop, show k + (i - k) = i by omega,
      (hdiff i).mpr hi] at hbit
    cases hbit
  have hsplit : d = d.take k ++ (burst ++ (d.drop k).drop w) := by
    rw [hburst, List.take_append_drop, List.take_append_drop]
  intro heq
  have hzero : feed p 0#w d = 0#w := by
    have hxor := feed_xor p hlen s s
    rw [heq, BitVec.xor_self, BitVec.xor_self] at hxor
    exact hxor.symm
  rw [hsplit, hhead, feed_append, feed_append, feed_zero, htail,
    feed_eq_iterate p 0#w (List.length_take_le _ _), BitVec.zero_xor] at hzero
  exact feed_ne_zero hp (fun h => hword (iterate_shift_eq_zero hp h)) _ hzero

end WorkAtUPB.Crc

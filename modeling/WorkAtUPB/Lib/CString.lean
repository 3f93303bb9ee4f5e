import WorkAtUPB.Lib.Bytes

namespace WorkAtUPB.CString

open Bytes

/-!
# C strings in a memory, and tables of slots of a fixed size

A C string is what lies between an address and the next zero byte.  The file has the functions
of `string.h` that matter for a table of strings (`stringAt`, `strcpy`, `memset`), and what
they do to a memory that is divided into slots of `n` bytes:

* `Holds` — the slots have these contents, padded with zeros;
* `Holds.strcpy` — a string of full length puts its terminator into the next slot;
* `Holds.memset` — a slot is emptied;
* `Holds.stringAt_eq` and `Holds.eq_of_stringAt` — when the string at a slot is its content.
-/

/-- The bytes from address `p` on, up to the first zero byte and at most `fuel` of them. -/
def untilNul (m : Mem) : Nat → Nat → List UInt8
  | 0, _ => []
  | fuel + 1, p => if m p = 0 then [] else m p :: untilNul m fuel (p + 1)

/-- The C string at address `p` of a memory of `size` bytes. -/
def stringAt (m : Mem) (size p : Nat) : List UInt8 := untilNul m (size - p) p

/-- `strlen`. -/
def strlen (m : Mem) (size p : Nat) : Nat := (stringAt m size p).length

/-- `strcpy`: the characters and their terminator. -/
def strcpy (m : Mem) (p : Nat) (w : List UInt8) : Mem := writeBytes m p (w ++ [0])

/-- `memset`. -/
def memset (m : Mem) (p : Nat) (c : UInt8) (len : Nat) : Mem :=
  fun a => if p ≤ a ∧ a < p + len then c else m a

variable {m : Mem} {size : Nat}

/-- Strings end at a zero byte: a string without zeros that lies at `p` is the one there. -/
theorem stringAt_eq {w : List UInt8} (hw : 0 ∉ w) {p : Nat} (hbytes : readBytes m p w.length = w)
    (hend : m (p + w.length) = 0) (hsize : p + w.length < size) : stringAt m size p = w := by
  unfold stringAt
  induction w generalizing p with
  | nil =>
    obtain ⟨fuel, hfuel⟩ : ∃ fuel, size - p = fuel + 1 := ⟨size - p - 1, by simp at hsize; omega⟩
    have hnul : m p = 0 := hend
    rw [hfuel, untilNul, if_pos hnul]
  | cons c w ih =>
    rw [List.length_cons] at hend hsize
    obtain ⟨fuel, hfuel⟩ : ∃ fuel, size - p = fuel + 1 := ⟨size - p - 1, by omega⟩
    have hread : m p = c ∧ readBytes m (p + 1) w.length = w := by
      simpa [readBytes, List.range_succ_eq_map, Function.comp_def, Nat.add_assoc,
        Nat.add_comm 1] using hbytes
    have hc : m p ≠ 0 := by
      rw [hread.1]
      rintro rfl
      exact hw List.mem_cons_self
    have hrest := ih (fun h => hw (List.mem_cons_of_mem c h)) hread.2
      (by rwa [show p + 1 + w.length = p + (w.length + 1) by omega]) (by omega)
    rw [hfuel, untilNul, if_neg hc, hread.1, ← hrest]
    congr 2
    omega

/-- Bytes that are not zero belong to the string. -/
theorem le_strlen {n p : Nat} (hne : ∀ i < n, m (p + i) ≠ 0) (hsize : p + n ≤ size) :
    n ≤ strlen m size p := by
  unfold strlen stringAt
  induction n generalizing p with
  | zero => exact Nat.zero_le _
  | succ n ih =>
    obtain ⟨fuel, hfuel⟩ : ∃ fuel, size - p = fuel + 1 := ⟨size - p - 1, by omega⟩
    have hrest := ih (p := p + 1) (fun i hi => by
      rw [show p + 1 + i = p + (i + 1) by omega]
      exact hne (i + 1) (by omega)) (by omega)
    have hp : m p ≠ 0 := hne 0 (Nat.succ_pos n)
    rw [hfuel, untilNul, if_neg hp, List.length_cons]
    rw [show size - (p + 1) = fuel by omega] at hrest
    omega

/-- The bytes of the string are not zero. -/
theorem ne_zero_of_lt_strlen {p i : Nat} (hi : i < strlen m size p) : m (p + i) ≠ 0 := by
  unfold strlen stringAt at hi
  generalize size - p = fuel at hi
  induction fuel generalizing p i with
  | zero => cases hi
  | succ fuel ih =>
    rw [untilNul] at hi
    split at hi
    next => cases hi
    next hp =>
      rcases i with - | i
      · exact hp
      · have hrest := ih (p := p + 1) (i := i) (Nat.lt_of_succ_lt_succ hi)
        rwa [Nat.add_assoc, Nat.add_comm 1 i] at hrest

/-- A zero byte ends the string, if it did not end before. -/
theorem strlen_le {n p : Nat} (h : m (p + n) = 0) : strlen m size p ≤ n :=
  Nat.le_of_not_lt fun hlt => ne_zero_of_lt_strlen hlt h

/-- Behind the string there is a zero byte. -/
theorem eq_zero_of_strlen {p : Nat} (h : p + strlen m size p < size) :
    m (p + strlen m size p) = 0 := by
  by_contra hne
  have hlong : strlen m size p + 1 ≤ strlen m size p := by
    refine le_strlen (fun i hi => ?_) (by omega)
    rcases Nat.lt_or_eq_of_le (Nat.le_of_lt_succ hi) with hlt | rfl
    · exact ne_zero_of_lt_strlen hlt
    · exact hne
  omega

/-- The string depends on its bytes and the one behind them. -/
theorem stringAt_congr {m' : Mem} {p : Nat}
    (h : ∀ i ≤ strlen m size p, m' (p + i) = m (p + i)) :
    stringAt m' size p = stringAt m size p := by
  unfold strlen stringAt at *
  generalize size - p = fuel at h ⊢
  induction fuel generalizing p with
  | zero => rfl
  | succ fuel ih =>
    have hp : m' p = m p := h 0 (Nat.zero_le _)
    rw [untilNul, untilNul, hp]
    rw [untilNul] at h
    split
    next => rfl
    next hne =>
      rw [if_neg hne, List.length_cons] at h
      rw [ih fun i hi => ?_]
      have hnext := h (i + 1) (Nat.succ_le_succ hi)
      rwa [Nat.add_assoc, Nat.add_comm 1 i]

/-- The empty string. -/
theorem strlen_eq_zero_iff {p : Nat} (hp : p < size) : strlen m size p = 0 ↔ m p = 0 := by
  obtain ⟨fuel, hfuel⟩ : ∃ fuel, size - p = fuel + 1 := ⟨size - p - 1, by omega⟩
  by_cases h : m p = 0 <;> simp [strlen, stringAt, hfuel, untilNul, h]

/-- A string that was copied. -/
theorem stringAt_strcpy {w : List UInt8} (hw : 0 ∉ w) {p : Nat} (hsize : p + w.length < size) :
    stringAt (strcpy m p w) size p = w := by
  have hbytes := readBytes_writeBytes_self m p (w ++ [0])
  rw [List.length_append, List.length_singleton, readBytes_succ] at hbytes
  obtain ⟨hword, hnul⟩ := List.append_inj' hbytes rfl
  exact stringAt_eq hw hword (List.cons.inj hnul).1 hsize

/-! ### Slots -/

/-- The memory consists of slots of `n` bytes with these contents, padded with zeros. -/
def Holds (n : Nat) (m : Mem) (slot : Nat → List UInt8) : Prop :=
  ∀ k, ∀ i < n, m (n * k + i) = (slot k).getD i 0

variable {n : Nat} {slot : Nat → List UInt8}

/-- The first byte of a slot. -/
theorem Holds.head (h : Holds n m slot) (hn : 0 < n) (k : Nat) :
    m (n * k) = (slot k).getD 0 0 := h k 0 hn

/-- Contents with the same bytes. -/
theorem Holds.congr {slot' : Nat → List UInt8} (h : Holds n m slot)
    (heq : ∀ k, ∀ i < n, (slot k).getD i 0 = (slot' k).getD i 0) : Holds n m slot' :=
  fun k i hi => (h k i hi).trans (heq k i hi)

/-- The address of a byte determines its slot. -/
theorem slot_ne {k l i j : Nat} (hi : i < n) (hj : j < n) (hne : k ≠ l) :
    n * k + i ≠ n * l + j := by
  intro heq
  apply hne
  have hk : (n * k + i) / n = k := by
    rw [Nat.mul_add_div (by omega), Nat.div_eq_of_lt hi, Nat.add_zero]
  have hl : (n * l + j) / n = l := by
    rw [Nat.mul_add_div (by omega), Nat.div_eq_of_lt hj, Nat.add_zero]
  rw [← hk, ← hl, heq]

/-- The contents after `w` has been copied to slot `k`: if it takes the whole slot, its
    terminator is the first byte of the next one. -/
def copied (n : Nat) (slot : Nat → List UInt8) (k : Nat) (w : List UInt8) (l : Nat) :
    List UInt8 :=
  if l = k then w else if l = k + 1 ∧ w.length = n then 0 :: (slot l).tail else slot l

@[simp] theorem copied_self (k : Nat) (w : List UInt8) : copied n slot k w k = w := if_pos rfl

theorem copied_next {k : Nat} {w : List UInt8} (hw : w.length = n) :
    copied n slot k w (k + 1) = 0 :: (slot (k + 1)).tail := by
  simp [copied, hw]

theorem copied_of_ne {k l : Nat} {w : List UInt8} (hl : l ≠ k)
    (hnext : ¬ (l = k + 1 ∧ w.length = n)) : copied n slot k w l = slot l := by
  rw [copied, if_neg hl, if_neg hnext]

/-- A string that is copied to an empty slot. -/
theorem Holds.strcpy (h : Holds n m slot) (hn : 0 < n) {k : Nat} (hfree : slot k = [])
    {w : List UInt8} (hw : w.length ≤ n) :
    Holds n (strcpy m (n * k) w) (copied n slot k w) := by
  intro l i hi
  have hlen : (w ++ [0]).length = w.length + 1 := by simp
  unfold CString.strcpy
  by_cases hl : l = k
  · subst hl
    rw [copied_self]
    rcases Nat.lt_trichotomy i w.length with hlt | heq | hgt
    · rw [writeBytes_of_mem (by omega) (by omega)]
      simp [List.getElem_append_left hlt, hlt]
    · rw [writeBytes_of_mem (by omega) (by omega)]
      simp [heq]
    · rw [writeBytes_of_not_mem (by omega), h l i hi, hfree]
      simp [Nat.le_of_lt hgt]
  by_cases hnext : l = k + 1 ∧ w.length = n
  · obtain ⟨rfl, hfull⟩ := hnext
    rw [copied_next hfull]
    have haddr : n * (k + 1) = n * k + n := Nat.mul_succ n k
    cases i with
    | zero =>
      rw [writeBytes_of_mem (by omega) (by omega)]
      simp [haddr, hfull]
    | succ i =>
      rw [writeBytes_of_not_mem (by omega), h (k + 1) (i + 1) hi]
      cases slot (k + 1) <;> simp
  · -- The bytes written are those of slot `k`, or end where the next slot begins.
    rw [copied_of_ne hl hnext, writeBytes_of_not_mem, h l i hi]
    rw [hlen]
    rcases Nat.lt_or_gt_of_ne hl with hlt | hgt
    · left
      have hle : n * (l + 1) ≤ n * k := Nat.mul_le_mul_left n hlt
      rw [Nat.mul_succ] at hle
      omega
    · right
      have hle : n * (k + 1) ≤ n * l := Nat.mul_le_mul_left n hgt
      rw [Nat.mul_succ] at hle
      by_cases hfull : w.length = n
      · have hl2 : k + 2 ≤ l := by
          have hne : l ≠ k + 1 := fun heq => hnext ⟨heq, hfull⟩
          omega
        have hle2 : n * (k + 2) ≤ n * l := Nat.mul_le_mul_left n hl2
        rw [Nat.mul_succ, Nat.mul_succ] at hle2
        omega
      · omega

/-- Clearing the bytes of its content empties a slot. -/
theorem Holds.memset (h : Holds n m slot) {k : Nat} (hfits : (slot k).length ≤ n) :
    Holds n (memset m (n * k) 0 (slot k).length) (Function.update slot k []) := by
  intro l i hi
  unfold CString.memset
  by_cases hl : l = k
  · subst hl
    rw [Function.update_self]
    split
    · simp
    · next hout =>
      rw [h l i hi]
      simp [List.getElem?_eq_none (show (slot l).length ≤ i by omega)]
  · rw [Function.update_of_ne hl, if_neg, h l i hi]
    rintro ⟨hle, hlt⟩
    obtain ⟨j, hj⟩ := Nat.exists_eq_add_of_le hle
    exact slot_ne hi (show j < n by omega) hl hj

/-- The string at a slot is its content, if a content that takes the whole slot is followed by
    an empty slot. -/
theorem Holds.stringAt_eq (h : Holds n m slot) (hn : 0 < n) {k : Nat} (hw : 0 ∉ slot k)
    (hfits : (slot k).length ≤ n)
    (hnext : (slot k).length = n → (slot (k + 1)).getD 0 0 = 0)
    (hsize : n * k + n < size) : stringAt m size (n * k) = slot k := by
  refine CString.stringAt_eq hw ?_ ?_ (by omega)
  · apply List.ext_getElem (by simp)
    intro i _ hi
    simp only [readBytes, List.getElem_map, List.getElem_range]
    rw [h k i (by omega)]
    simp [hi]
  · rcases Nat.eq_or_lt_of_le hfits with hfull | hlt
    · rw [hfull, ← Nat.mul_succ, h.head hn]
      exact hnext hfull
    · rw [h k _ hlt]
      simp

/-- A short string at a slot is the content of the slot, and if it takes the whole slot, the
    next byte is zero. -/
theorem Holds.eq_of_stringAt (h : Holds n m slot) (hn : 0 < n) {k : Nat} (hw : 0 ∉ slot k)
    (hfits : (slot k).length ≤ n) (hsize : n * k + n < size)
    (hshort : strlen m size (n * k) ≤ n) :
    stringAt m size (n * k) = slot k ∧
      ((slot k).length = n → (slot (k + 1)).getD 0 0 = 0) := by
  have hnext : (slot k).length = n → (slot (k + 1)).getD 0 0 = 0 := by
    intro hfull
    by_contra hne
    -- The content goes on in the next slot, so the string is longer than a slot.
    have hlong : n + 1 ≤ strlen m size (n * k) := by
      refine le_strlen (fun i hi => ?_) (by omega)
      rcases Nat.lt_or_ge i n with hlt | hge
      · rw [h k i hlt]
        have hi' : i < (slot k).length := by omega
        simp only [List.getD_eq_getElem?_getD, List.getElem?_eq_getElem hi', Option.getD_some]
        exact fun h0 => hw (h0 ▸ List.getElem_mem hi')
      · rw [show i = n by omega, ← Nat.mul_succ, h.head hn]
        exact hne
    omega
  exact ⟨h.stringAt_eq hn hw hfits hnext hsize, hnext⟩

end WorkAtUPB.CString

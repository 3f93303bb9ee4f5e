import Mathlib.Data.List.TakeWhile
import Mathlib.Data.Nat.Digits.Lemmas
import WorkAtUPB.Lib.Tokens

namespace WorkAtUPB.Decimal

/-!
# Decimal numbers as text

Integers as `printf` writes them with `%d`, in ASCII, and the reading of a number off the front of
a text, as `strtol` does in base 10:

* `natText`, `intText` — the digits, with a sign in front of a negative number;
* `readInt` — blanks, a sign, and the digits up to the first other character;
* `readInt_intText` — reading gives back the number that was written.
-/

/-- The character of a digit. -/
def digitChar (d : Nat) : UInt8 := UInt8.ofNat (48 + d)

/-- The character is a digit. -/
def isDigit (c : UInt8) : Bool := decide (48 ≤ c) && decide (c ≤ 57)

/-- The character is a blank or one of the control characters that separate. -/
def isSpace (c : UInt8) : Bool := c == 32 || (decide (9 ≤ c) && decide (c ≤ 13))

/-- A natural number. -/
def natText (n : Nat) : List UInt8 :=
  if n = 0 then [digitChar 0] else ((Nat.digits 10 n).map digitChar).reverse

/-- An integer: `%d`. -/
def intText (n : Int) : List UInt8 :=
  if n < 0 then 45 :: natText n.natAbs else natText n.natAbs

/-- The value of digits, the most significant first. -/
def ofDigitChars (s : List UInt8) : Nat := s.foldl (fun n c => (c.toNat - 48) + 10 * n) 0

/-- The number that the digits at the front of a text are. -/
def readNat (s : List UInt8) : Nat := ofDigitChars (s.takeWhile isDigit)

/-- The number behind blanks and an optional sign. -/
def readInt (s : List UInt8) : Int :=
  match s.dropWhile isSpace with
  | 45 :: s => -(readNat s : Int)
  | 43 :: s => readNat s
  | s => readNat s

/-! ### Natural numbers -/

theorem digitChar_toNat {d : Nat} (h : d < 10) : (digitChar d).toNat = 48 + d := by
  rw [digitChar, UInt8.toNat_ofNat']
  omega

theorem isDigit_digitChar {d : Nat} (h : d < 10) : isDigit (digitChar d) = true := by
  rw [isDigit, Bool.and_eq_true, decide_eq_true_eq, decide_eq_true_eq, UInt8.le_iff_toNat_le,
    UInt8.le_iff_toNat_le, digitChar_toNat h]
  exact ⟨by simp, by simp; omega⟩

/-- A number is written with digits only. -/
theorem isDigit_of_mem_natText {n : Nat} {c : UInt8} (hc : c ∈ natText n) : isDigit c = true := by
  unfold natText at hc
  split at hc
  · rw [List.mem_singleton.mp hc]
    exact isDigit_digitChar (by omega)
  · obtain ⟨d, hd, rfl⟩ := List.mem_map.mp (List.mem_reverse.mp hc)
    exact isDigit_digitChar (Nat.digits_lt_base (by omega) hd)

theorem natText_ne_nil (n : Nat) : natText n ≠ [] := by
  unfold natText
  split
  · exact List.cons_ne_nil _ _
  · rename_i hn
    rw [Ne, List.reverse_eq_nil_iff, List.map_eq_nil_iff]
    exact Nat.digits_ne_nil_iff_ne_zero.mpr hn

/-- The digits of a number have its value. -/
theorem ofDigitChars_natText (n : Nat) : ofDigitChars (natText n) = n := by
  unfold natText
  split
  · subst n
    rfl
  · have hdigit : ∀ d ∈ Nat.digits 10 n, (digitChar d).toNat - 48 = d := by
      intro d hd
      rw [digitChar_toNat (Nat.digits_lt_base (by omega) hd)]
      omega
    rw [ofDigitChars, List.foldl_reverse, List.foldr_map]
    conv_rhs => rw [← Nat.ofDigits_digits 10 n, Nat.ofDigits_eq_foldr]
    refine List.foldr_ext _ _ _ fun d hd m => ?_
    rw [hdigit d hd]
    rfl

/-- A number ends where no digit follows. -/
theorem takeWhile_natText {rest : List UInt8} (hrest : ∀ c ∈ rest.head?, isDigit c = false)
    (n : Nat) :
    (natText n ++ rest).takeWhile isDigit = natText n ∧
      (natText n ++ rest).dropWhile isDigit = rest :=
  Tokens.takeWhile_run (fun _ => isDigit_of_mem_natText) hrest

theorem readNat_natText_append {rest : List UInt8} (hrest : ∀ c ∈ rest.head?, isDigit c = false)
    (n : Nat) : readNat (natText n ++ rest) = n := by
  rw [readNat, (takeWhile_natText hrest n).1, ofDigitChars_natText]

/-- A number below a power of ten has at most as many digits. -/
theorem length_natText_le {n k : Nat} (hk : 0 < k) (h : n < 10 ^ k) : (natText n).length ≤ k := by
  unfold natText
  split
  · exact hk
  · rw [List.length_reverse, List.length_map]
    exact (Nat.digits_length_le_iff (by omega) n).mpr h

/-! ### Integers -/

/-- A digit is no blank and no sign. -/
theorem isDigit_ne {c : UInt8} (h : isDigit c = true) :
    isSpace c = false ∧ c ≠ 45 ∧ c ≠ 43 ∧ c ≠ 0 := by
  rw [isDigit, Bool.and_eq_true, decide_eq_true_eq, decide_eq_true_eq] at h
  obtain ⟨hlo, hhi⟩ := h
  have hne : ∀ d : UInt8, d < 48 → c ≠ d := by
    rintro d hd rfl
    exact absurd hlo (UInt8.not_le.mpr hd)
  refine ⟨?_, hne 45 (by decide), hne 43 (by decide), hne 0 (by decide)⟩
  have hle : ¬ c ≤ 13 := fun h => absurd (UInt8.le_trans hlo h) (by decide)
  rw [isSpace, beq_false_of_ne (hne 32 (by decide)), decide_eq_false hle, Bool.and_false,
    Bool.or_false]

/-- A text that begins with a digit is read from there on. -/
theorem readInt_of_isDigit {c : UInt8} {s : List UInt8} (h : isDigit c = true) :
    readInt (c :: s) = readNat (c :: s) := by
  obtain ⟨hspace, hminus, hplus, -⟩ := isDigit_ne h
  rw [readInt, List.dropWhile_cons_of_neg (by rw [hspace]; exact Bool.false_ne_true)]
  split
  · rename_i heq
    exact absurd (List.cons.inj heq).1 hminus
  · rename_i heq
    exact absurd (List.cons.inj heq).1 hplus
  · rfl

/-- **Decimal round trip.**  A number is read back, whatever but a digit follows. -/
theorem readInt_intText_append {rest : List UInt8} (hrest : ∀ c ∈ rest.head?, isDigit c = false)
    (n : Int) : readInt (intText n ++ rest) = n := by
  have hnat := readNat_natText_append hrest n.natAbs
  obtain ⟨c, s, hs⟩ := List.exists_cons_of_ne_nil (natText_ne_nil n.natAbs)
  unfold intText
  split
  · show -(readNat (natText n.natAbs ++ rest) : Int) = n
    rw [hnat]
    omega
  · have hdigit : isDigit c = true := isDigit_of_mem_natText (hs ▸ List.mem_cons_self)
    rw [hs, List.cons_append, readInt_of_isDigit hdigit, ← List.cons_append, ← hs, hnat]
    omega

theorem readInt_intText (n : Int) : readInt (intText n) = n := by
  have hread := readInt_intText_append
    (show ∀ c ∈ ([] : List UInt8).head?, isDigit c = false by simp) n
  rwa [List.append_nil] at hread

/-- The characters of a number are digits or the sign. -/
theorem of_mem_intText {n : Int} {c : UInt8} (hc : c ∈ intText n) : isDigit c = true ∨ c = 45 := by
  unfold intText at hc
  split at hc
  · rcases List.mem_cons.mp hc with rfl | hc
    · exact .inr rfl
    · exact .inl (isDigit_of_mem_natText hc)
  · exact .inl (isDigit_of_mem_natText hc)

theorem intText_ne_nil (n : Int) : intText n ≠ [] := by
  unfold intText
  split
  · exact List.cons_ne_nil _ _
  · exact natText_ne_nil _

/-- The text of a number has no zero byte. -/
theorem zero_notMem_intText (n : Int) : 0 ∉ intText n := by
  have hnat : 0 ∉ natText n.natAbs := fun h => (isDigit_ne (isDigit_of_mem_natText h)).2.2.2 rfl
  unfold intText
  split
  · exact List.not_mem_cons_of_ne_of_not_mem (by decide) hnat
  · exact hnat

/-- A number below a power of ten has at most as many digits, and a sign. -/
theorem length_intText_le {n : Int} {k : Nat} (hk : 0 < k) (h : n.natAbs < 10 ^ k) :
    (intText n).length ≤ k + 1 := by
  have hnat := length_natText_le hk h
  unfold intText
  split
  · exact Nat.succ_le_succ hnat
  · exact Nat.le_succ_of_le hnat

end WorkAtUPB.Decimal

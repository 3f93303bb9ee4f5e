import Mathlib.Tactic.TypeStar
import WorkAtUPB.Lib.Decimal

namespace WorkAtUPB.Stdio

open Decimal

/-!
# Reading a stream of characters

What is left of a stream is the list of its bytes:

* `fgets` — a line, or as much of it as a buffer holds; `pieces` — what it gives again and again;
* `scanInt` — `fscanf` with `%d`; `toInt` — the `int` that such a number is stored as;
* `Ahead` — the next thing in a stream, behind blanks;
* `fold_reads` — the rule for a loop that reads one thing in each round.
-/

/-- The bytes of a text in ASCII. -/
def ascii (s : String) : List UInt8 := s.toList.map fun c => UInt8.ofNat c.toNat

/-! ### Lines -/

/-- At most `n` bytes, up to the end of a line, and what is behind them. -/
def line : Nat → List UInt8 → List UInt8 × List UInt8
  | 0, s => ([], s)
  | _ + 1, [] => ([], [])
  | n + 1, c :: s => if c = 10 then ([c], s) else (c :: (line n s).1, (line n s).2)

/-- `fgets` into a buffer of `n` bytes: the bytes in front of the terminator; `none` is `NULL`, at
    the end of the stream. -/
def fgets (n : Nat) (s : List UInt8) : Option (List UInt8 × List UInt8) :=
  if s = [] then none else some (line (n - 1) s)

/-- The line and what is left make the input. -/
theorem line_append (n : Nat) (s : List UInt8) : (line n s).1 ++ (line n s).2 = s := by
  fun_induction line n s with
  | case1 => rfl
  | case2 => rfl
  | case3 => rfl
  | case4 n c s hc ih => rw [List.cons_append, ih]

/-- A line is no longer than asked for. -/
theorem length_line_le (n : Nat) (s : List UInt8) : (line n s).1.length ≤ n := by
  fun_induction line n s with
  | case1 => simp
  | case2 => simp
  | case3 => simp
  | case4 n c s hc ih => simpa using ih

/-- A line has something of the input. -/
theorem length_line_pos {n : Nat} {s : List UInt8} (hn : 0 < n) (hs : s ≠ []) :
    0 < (line n s).1.length := by
  obtain ⟨m, rfl⟩ : ∃ m, n = m + 1 := ⟨n - 1, by omega⟩
  obtain ⟨c, t, rfl⟩ := List.exists_cons_of_ne_nil hs
  rw [line]
  split <;> simp

/-- A line that fits is read as a whole. -/
theorem line_eq {n : Nat} {w : List UInt8} (hw : 10 ∉ w) (hn : w.length < n) (rest : List UInt8) :
    line n (w ++ 10 :: rest) = (w ++ [10], rest) := by
  induction w generalizing n with
  | nil =>
    obtain ⟨m, rfl⟩ : ∃ m, n = m + 1 := ⟨n - 1, by simp at hn; omega⟩
    rfl
  | cons c w ih =>
    obtain ⟨m, rfl⟩ : ∃ m, n = m + 1 := ⟨n - 1, by simp at hn; omega⟩
    obtain ⟨hc, hw⟩ := not_or.mp (fun h => hw (List.mem_cons.mpr h))
    rw [List.length_cons] at hn
    rw [List.cons_append, line, if_neg (Ne.symm hc), ih hw (by omega), List.cons_append]

/-- A whole line is read. -/
theorem fgets_eq {n : Nat} {w : List UInt8} (hw : 10 ∉ w) (hn : w.length + 1 < n)
    (rest : List UInt8) : fgets n (w ++ 10 :: rest) = some (w ++ [10], rest) := by
  rw [fgets, if_neg (by simp), line_eq hw (by omega)]

/-- What `fgets` gives up to the end of a stream, at most `fuel` times. -/
def piecesN (n : Nat) : Nat → List UInt8 → List (List UInt8)
  | 0, _ => []
  | fuel + 1, s =>
    match fgets n s with
    | none => []
    | some (w, rest) => w :: piecesN n fuel rest

/-- What `fgets` gives up to the end of a stream. -/
def pieces (n : Nat) (s : List UInt8) : List (List UInt8) := piecesN n s.length s

/-- A piece fits into the buffer. -/
theorem length_le_of_mem_pieces {n : Nat} {s w : List UInt8} (hw : w ∈ pieces n s) :
    w.length ≤ n - 1 := by
  unfold pieces at hw
  generalize s.length = fuel at hw
  induction fuel generalizing s with
  | zero => cases hw
  | succ fuel ih =>
    rw [piecesN, fgets] at hw
    by_cases hs : s = []
    · rw [if_pos hs] at hw
      cases hw
    · rw [if_neg hs] at hw
      rcases List.mem_cons.mp hw with rfl | hw
      · exact length_line_le (n - 1) s
      · exact ih hw

/-- The pieces of a stream are all of it. -/
theorem flatten_pieces {n : Nat} (hn : 2 ≤ n) (s : List UInt8) : (pieces n s).flatten = s := by
  have hfuel : ∀ fuel (s : List UInt8), s.length ≤ fuel → (piecesN n fuel s).flatten = s := by
    intro fuel
    induction fuel with
    | zero =>
      intro s hs
      rw [List.length_eq_zero_iff.mp (Nat.le_zero.mp hs)]
      rfl
    | succ fuel ih =>
      intro s hs
      rw [piecesN, fgets]
      by_cases hnil : s = []
      · rw [if_pos hnil, hnil]
        rfl
      · rw [if_neg hnil]
        have happend := line_append (n - 1) s
        have hpos := length_line_pos (n := n - 1) (by omega) hnil
        have hlength := congrArg List.length happend
        rw [List.length_append] at hlength
        show (line (n - 1) s).1 ++ (piecesN n fuel (line (n - 1) s).2).flatten = s
        rw [ih _ (by omega), happend]
  exact hfuel s.length s (Nat.le_refl _)

/-! ### Numbers -/

/-- What `atoi` and `fscanf` make of a number: a `long`, which is cut to an `int`. -/
def toInt (n : Int) : Int32 := Int32.ofInt (max (-2 ^ 63) (min (2 ^ 63 - 1) n))

/-- The number of the digits in front, if there are any, and what is behind them. -/
def scanDigits (s : List UInt8) : Option Int × List UInt8 :=
  (if s.takeWhile isDigit = [] then none else some (readNat s : Int), s.dropWhile isDigit)

/-- `fscanf` with `%d`: the number, if there is one, and what is left of the stream. -/
def scanInt (s : List UInt8) : Option Int × List UInt8 :=
  match s.dropWhile isSpace with
  | 45 :: s => ((scanDigits s).1.map Neg.neg, (scanDigits s).2)
  | 43 :: s => scanDigits s
  | s => scanDigits s

/-- An `int` is converted to itself. -/
theorem toInt_toInt (n : Int32) : toInt n.toInt = n := by
  have hlo := n.le_toInt
  have hhi := n.toInt_lt
  rw [toInt, min_eq_right (by omega), max_eq_right (by omega), Int32.ofInt_toInt]

/-- A whole number in range is converted to itself. -/
theorem toInt_of_int {n : Int} (hlo : -2 ^ 31 ≤ n) (hhi : n < 2 ^ 31) : (toInt n).toInt = n := by
  rw [toInt, min_eq_right (by omega), max_eq_right (by omega), Int32.toInt_ofInt_of_le hlo hhi]

/-- What is left of a stream is `rest`, behind blanks. -/
def Ahead (s rest : List UInt8) : Prop :=
  ∃ blanks, (∀ c ∈ blanks, isSpace c = true) ∧ s = blanks ++ rest

/-- Nothing is ahead. -/
theorem Ahead.refl (s : List UInt8) : Ahead s s := ⟨[], by simp, rfl⟩

/-- One white space is ahead. -/
theorem ahead_cons {c : UInt8} (hc : isSpace c = true) (s : List UInt8) : Ahead (c :: s) s :=
  ⟨[c], by simpa using hc, rfl⟩

/-- A number is read up to the next character that is no digit. -/
theorem scanDigits_natText {rest : List UInt8} (hrest : ∀ c ∈ rest.head?, isDigit c = false)
    (n : Nat) : scanDigits (natText n ++ rest) = (some (n : Int), rest) := by
  rw [scanDigits, (takeWhile_natText hrest n).1, (takeWhile_natText hrest n).2,
    readNat_natText_append hrest, if_neg (natText_ne_nil n)]

/-- **Scanning.**  A number is read off a stream, behind blanks, up to the next character that is no
    digit. -/
theorem scanInt_intText {s rest : List UInt8} (hrest : ∀ c ∈ rest.head?, isDigit c = false)
    {n : Int}
    (h : Ahead s (intText n ++ rest)) : scanInt s = (some n, rest) := by
  obtain ⟨blanks, hblanks, rfl⟩ := h
  have hnat := scanDigits_natText hrest n.natAbs
  rw [scanInt, List.dropWhile_append_of_pos hblanks, intText]
  by_cases hn : n < 0
  · rw [if_pos hn]
    show ((scanDigits (natText n.natAbs ++ rest)).1.map Neg.neg,
      (scanDigits (natText n.natAbs ++ rest)).2) = _
    rw [hnat]
    have habs : -(n.natAbs : Int) = n := by omega
    simp only [Option.map_some, habs]
  · rw [if_neg hn]
    obtain ⟨c, t, hc⟩ := List.exists_cons_of_ne_nil (natText_ne_nil n.natAbs)
    have hdigit : isDigit c = true := isDigit_of_mem_natText (hc ▸ List.mem_cons_self)
    obtain ⟨hspace, hminus, hplus, -⟩ := isDigit_ne hdigit
    have hdrop : (natText n.natAbs ++ rest).dropWhile isSpace = natText n.natAbs ++ rest := by
      rw [hc, List.cons_append, List.dropWhile_cons_of_neg (by simp [hspace])]
    rw [hdrop]
    -- The first character is a digit, so neither of the signs.
    split
    · next heq =>
      rw [hc] at heq
      exact absurd (List.cons.inj heq).1 hminus
    · next heq =>
      rw [hc] at heq
      exact absurd (List.cons.inj heq).1 hplus
    · have habs : (n.natAbs : Int) = n := by omega
      rw [hnat, habs]

/-! ### Loops -/

/-- **Loop rule.**  A loop whose rounds read one text each reads all of them one after the other. -/
theorem fold_reads {σ : Type*} {n : Nat}
    {body : (i : Nat) → i < n → σ × List UInt8 → σ × List UInt8} {text : Nat → List UInt8}
    (I : Nat → σ → Prop) {s : σ} (h : I 0 s)
    (hbody : ∀ i (hi : i < n) s stream rest, I i s → Ahead stream (text i ++ rest) →
      ∃ s' stream', body i hi (s, stream) = (s', stream') ∧ Ahead stream' rest ∧ I (i + 1) s')
    {stream rest : List UInt8} (hstream : Ahead stream ((List.range n).flatMap text ++ rest)) :
    ∃ s' stream', Nat.fold n body (s, stream) = (s', stream') ∧ Ahead stream' rest ∧ I n s' := by
  induction n generalizing rest with
  | zero => exact ⟨s, stream, rfl, hstream, h⟩
  | succ n ih =>
    rw [List.range_succ, List.flatMap_append, List.append_assoc, List.flatMap_singleton] at hstream
    have hinit : ∃ s' stream', Nat.fold n (fun i hi => body i (Nat.lt_succ_of_lt hi)) (s, stream) =
        (s', stream') ∧ Ahead stream' (text n ++ rest) ∧ I n s' :=
      ih (fun i hi => hbody i (Nat.lt_succ_of_lt hi)) hstream
    obtain ⟨s₁, stream₁, hfold, hstream₁, h₁⟩ := hinit
    obtain ⟨s₂, stream₂, hlast, hstream₂, h₂⟩ :=
      hbody n (Nat.lt_succ_self n) s₁ stream₁ rest h₁ hstream₁
    exact ⟨s₂, stream₂, by rw [Nat.fold_succ, hfold, hlast], hstream₂, h₂⟩

end WorkAtUPB.Stdio

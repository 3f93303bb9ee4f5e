import Mathlib.Data.List.Basic

namespace WorkAtUPB.CharStream

/-!
# Streams of 16-bit characters

Programs that exchange text and bytes over one stream of 16-bit characters (UTF-16 code units):

* `carry` — what a Unicode charset makes of the characters: all arrive but surrogates without
  their other half, for each of which a question mark does;
* `charOfByte`, `byteOfChar` — a signed byte as a character, and the low byte of a character;
* `readLine`, `readArray` — a line off the front of a stream, and a number of characters;
* `utf16`, `ofUtf16` — a text as 16-bit characters, and back.
-/

/-- A 16-bit character. -/
abbrev CodeUnit := UInt16

/-- `\n`. -/
def newline : CodeUnit := 10

/-- `\r`. -/
def carriageReturn : CodeUnit := 13

/-- `?`. -/
def questionMark : CodeUnit := 63

/-- The first half of a pair. -/
def isHigh (c : CodeUnit) : Bool := 0xD800 ≤ c && c ≤ 0xDBFF

/-- The second half of a pair. -/
def isLow (c : CodeUnit) : Bool := 0xDC00 ≤ c && c ≤ 0xDFFF

def isSurrogate (c : CodeUnit) : Bool := isHigh c || isLow c

/-! ### The charset -/

/-- A character that is not half of a pair. -/
def carryOne (c : CodeUnit) : CodeUnit := if isSurrogate c then questionMark else c

/-- The characters that arrive. -/
def carry : List CodeUnit → List CodeUnit
  | [] => []
  | [c] => [carryOne c]
  | c :: d :: cs =>
    if isHigh c && isLow d then c :: d :: carry cs else carryOne c :: carry (d :: cs)

/-- All surrogates are in pairs. -/
def WellPaired : List CodeUnit → Prop
  | [] => True
  | [c] => isSurrogate c = false
  | c :: d :: cs =>
    if isHigh c && isLow d then WellPaired cs else isSurrogate c = false ∧ WellPaired (d :: cs)

theorem carryOne_eq_self_iff (c : CodeUnit) : carryOne c = c ↔ isSurrogate c = false := by
  unfold carryOne
  split
  · next h =>
    refine iff_of_false ?_ (by simp [h])
    rintro rfl
    exact absurd h (by decide)
  · next h => simp [h]

/-- **The charset.**  A text arrives as it is exactly if its surrogates are in pairs. -/
theorem carry_eq_self_iff (cs : List CodeUnit) : carry cs = cs ↔ WellPaired cs := by
  induction cs using carry.induct with
  | case1 => simp [carry, WellPaired]
  | case2 c => simp [carry, WellPaired, carryOne_eq_self_iff]
  | case3 c d cs hpair ih => simp [carry, WellPaired, hpair, ih]
  | case4 c d cs hpair ih => simp [carry, WellPaired, hpair, ih, carryOne_eq_self_iff]

/-- A character that is no first half is carried on its own. -/
theorem carry_cons {c : CodeUnit} (hc : isHigh c = false) (cs : List CodeUnit) :
    carry (c :: cs) = carryOne c :: carry cs := by
  cases cs with
  | nil => rfl
  | cons d cs => simp [carry, hc]

/-- A character that is followed by no second half is carried on its own. -/
theorem carry_cons_of_not_low (c : CodeUnit) {d : CodeUnit} (hd : isLow d = false)
    (cs : List CodeUnit) : carry (c :: d :: cs) = carryOne c :: carry (d :: cs) := by
  simp [carry, hd]

/-- Two texts are carried one after the other, if no pair is across their border. -/
theorem carry_append {d : CodeUnit} (hd : isLow d = false) (cs ds : List CodeUnit) :
    carry (cs ++ d :: ds) = carry cs ++ carry (d :: ds) := by
  induction cs using carry.induct with
  | case1 => rfl
  | case2 c => simp [carry_cons_of_not_low c hd, carry]
  | case3 c e cs hpair ih => simp [carry, hpair, ih]
  | case4 c e cs hpair ih =>
    simp only [List.cons_append] at ih ⊢
    simp [carry, hpair, ih]

/-- The charset makes no line breaks. -/
theorem notMem_carry {b : CodeUnit} (hb : b ≠ questionMark) {cs : List CodeUnit} (h : b ∉ cs) :
    b ∉ carry cs := by
  have hone : ∀ c, b ≠ c → b ≠ carryOne c := by
    intro c hc
    unfold carryOne
    split
    · exact hb
    · exact hc
  induction cs using carry.induct with
  | case1 => exact List.not_mem_nil
  | case2 c =>
    simp only [List.mem_singleton] at h
    simpa [carry] using hone c h
  | case3 c d cs hpair ih =>
    simp only [List.mem_cons, not_or] at h
    simp only [carry, hpair, if_true, List.mem_cons, not_or]
    exact ⟨h.1, h.2.1, ih h.2.2⟩
  | case4 c d cs hpair ih =>
    rw [List.mem_cons, not_or] at h
    simp only [carry, hpair, if_neg, Bool.false_eq_true, not_false_eq_true, List.mem_cons, not_or]
    exact ⟨hone c h.1, ih h.2⟩

/-! ### Bytes as characters -/

/-- A byte is signed, and its sign is extended. -/
def charOfByte (b : UInt8) : CodeUnit := if b < 128 then b.toUInt16 else b.toUInt16 + 0xFF00

/-- The low byte. -/
def byteOfChar (c : CodeUnit) : UInt8 := c.toUInt8

@[simp] theorem byteOfChar_charOfByte (b : UInt8) : byteOfChar (charOfByte b) = b := by
  unfold byteOfChar charOfByte
  split
  · simp
  · rw [← UInt8.toNat_inj]
    simp

theorem isSurrogate_charOfByte (b : UInt8) : isSurrogate (charOfByte b) = false := by
  have hb := b.toNat_lt
  unfold isSurrogate isHigh isLow charOfByte
  split
  · simp [UInt16.le_iff_toNat_le]
    omega
  · simp [UInt16.le_iff_toNat_le]
    omega

/-- Bytes that are sent as characters arrive, behind whatever character. -/
theorem carry_cons_map_charOfByte (c : CodeUnit) (bs : List UInt8) :
    carry (c :: bs.map charOfByte) = carryOne c :: bs.map charOfByte := by
  induction bs generalizing c with
  | nil => rfl
  | cons b bs ih =>
    have hb := isSurrogate_charOfByte b
    have hlow : isLow (charOfByte b) = false := (Bool.or_eq_false_iff.mp hb).2
    rw [List.map_cons, carry_cons_of_not_low c hlow, ih, (carryOne_eq_self_iff _).mpr hb]

/-! ### Reading -/

/-- The characters up to the next line break (`\n`, `\r` or both), and those behind it. -/
def takeLine : List CodeUnit → List CodeUnit × List CodeUnit
  | [] => ([], [])
  | c :: cs =>
    if c = newline then ([], cs)
    else if c = carriageReturn then ([], if cs.head? = some newline then cs.tail else cs)
    else (c :: (takeLine cs).1, (takeLine cs).2)

/-- A line off the front of the stream, if it has not ended. -/
def readLine (cs : List CodeUnit) : Option (List CodeUnit × List CodeUnit) :=
  if cs = [] then none else some (takeLine cs)

/-- `n` characters off the front of the stream into an array of zeros. -/
def readArray (n : Nat) (cs : List CodeUnit) : List CodeUnit × List CodeUnit :=
  (cs.take n ++ List.replicate (n - cs.length) 0, cs.drop n)

/-- A text without line breaks is read back from the line it was written to. -/
theorem readLine_append {line : List CodeUnit} (hnewline : newline ∉ line)
    (hreturn : carriageReturn ∉ line) (rest : List CodeUnit) :
    readLine (line ++ newline :: rest) = some (line, rest) := by
  have htake : takeLine (line ++ newline :: rest) = (line, rest) := by
    induction line with
    | nil => simp [takeLine]
    | cons c line ih =>
      simp only [List.mem_cons, not_or] at hnewline hreturn
      simp [takeLine, Ne.symm hnewline.1, Ne.symm hreturn.1, ih hnewline.2 hreturn.2]
  rw [readLine, if_neg (by simp), htake]

theorem length_readArray (n : Nat) (cs : List CodeUnit) : (readArray n cs).1.length = n := by
  simp [readArray]
  omega

/-- As many characters as were written are read back. -/
theorem readArray_append (cs rest : List CodeUnit) :
    readArray cs.length (cs ++ rest) = (cs, rest) := by
  simp [readArray]

/-! ### Texts -/

/-- The code units of a character: one, or a pair. -/
def utf16Char (c : Char) : List CodeUnit :=
  if c.toNat < 0x10000 then [UInt16.ofNat c.toNat]
  else
    [UInt16.ofNat (0xD800 + (c.toNat - 0x10000) / 0x400),
      UInt16.ofNat (0xDC00 + (c.toNat - 0x10000) % 0x400)]

/-- The code units of a text. -/
def utf16 (text : List Char) : List CodeUnit := text.flatMap utf16Char

/-- The character of a pair. -/
def ofPair (c d : CodeUnit) : Char :=
  Char.ofNat (0x10000 + (c.toNat - 0xD800) * 0x400 + (d.toNat - 0xDC00))

/-- The text of what the charset has carried. -/
def ofUtf16 : List CodeUnit → List Char
  | [] => []
  | [c] => [Char.ofNat c.toNat]
  | c :: d :: cs =>
    if isHigh c && isLow d then ofPair c d :: ofUtf16 cs
    else Char.ofNat c.toNat :: ofUtf16 (d :: cs)

@[simp] theorem utf16_nil : utf16 [] = [] := rfl

@[simp] theorem utf16_append (text more : List Char) :
    utf16 (text ++ more) = utf16 text ++ utf16 more :=
  List.flatMap_append

/-- A character is one code unit that is no surrogate, or a pair. -/
theorem utf16Char_cases (c : Char) :
    (∃ u, utf16Char c = [u] ∧ isSurrogate u = false ∧ u.toNat = c.toNat) ∨
    ∃ u v, utf16Char c = [u, v] ∧ isHigh u = true ∧ isLow v = true ∧ ofPair u v = c := by
  have hvalid : c.toNat < 0xD800 ∨ (0xDFFF < c.toNat ∧ c.toNat < 0x110000) := c.valid
  unfold utf16Char
  by_cases hsmall : c.toNat < 0x10000
  · have hnat : (UInt16.ofNat c.toNat).toNat = c.toNat := by
      rw [UInt16.toNat_ofNat']
      omega
    refine .inl ⟨_, if_pos hsmall, ?_, hnat⟩
    simp [isSurrogate, isHigh, isLow, UInt16.le_iff_toNat_le, hnat]
    omega
  -- Ten bits go into either surrogate.
  · have hhigh : (UInt16.ofNat (0xD800 + (c.toNat - 0x10000) / 0x400)).toNat =
        0xD800 + (c.toNat - 0x10000) / 0x400 := by
      rw [UInt16.toNat_ofNat']
      omega
    have hlow : (UInt16.ofNat (0xDC00 + (c.toNat - 0x10000) % 0x400)).toNat =
        0xDC00 + (c.toNat - 0x10000) % 0x400 := by
      rw [UInt16.toNat_ofNat']
      omega
    refine .inr ⟨_, _, if_neg hsmall, ?_, ?_, ?_⟩
    · simp only [isHigh, UInt16.le_iff_toNat_le, hhigh]
      simp
      omega
    · simp only [isLow, UInt16.le_iff_toNat_le, hlow]
      simp
      omega
    · have hcode : 0x10000 + (0xD800 + (c.toNat - 0x10000) / 0x400 - 0xD800) * 0x400 +
          (0xDC00 + (c.toNat - 0x10000) % 0x400 - 0xDC00) = c.toNat := by omega
      rw [ofPair, hhigh, hlow, hcode, Char.ofNat_toNat]

/-- A code unit that is no first half of a pair is a character. -/
theorem ofUtf16_cons {u : CodeUnit} (hu : isHigh u = false) (cs : List CodeUnit) :
    ofUtf16 (u :: cs) = Char.ofNat u.toNat :: ofUtf16 cs := by
  cases cs with
  | nil => rfl
  | cons d cs => simp [ofUtf16, hu]

theorem utf16_cons (c : Char) (text : List Char) : utf16 (c :: text) = utf16Char c ++ utf16 text :=
  rfl

/-- **Texts.**  The code units of a text are read as it. -/
@[simp] theorem ofUtf16_utf16 (text : List Char) : ofUtf16 (utf16 text) = text := by
  induction text with
  | nil => rfl
  | cons c text ih =>
    rcases utf16Char_cases c with ⟨u, hu, hone, hnat⟩ | ⟨u, v, huv, hhigh, hlow, hpair⟩
    · have hnot : isHigh u = false := (Bool.or_eq_false_iff.mp hone).1
      rw [utf16_cons, hu, List.singleton_append, ofUtf16_cons hnot, ih, hnat, Char.ofNat_toNat]
    · rw [utf16_cons, huv]
      simp [ofUtf16, hhigh, hlow, hpair, ih]

/-- The charset carries the code units of a text. -/
@[simp] theorem carry_utf16 (text : List Char) : carry (utf16 text) = utf16 text := by
  induction text with
  | nil => rfl
  | cons c text ih =>
    rcases utf16Char_cases c with ⟨u, hu, hone, -⟩ | ⟨u, v, huv, hhigh, hlow, -⟩
    · have hnot : isHigh u = false := (Bool.or_eq_false_iff.mp hone).1
      rw [utf16_cons, hu, List.singleton_append, carry_cons hnot, (carryOne_eq_self_iff u).mpr hone,
        ih]
    · rw [utf16_cons, huv]
      simp [carry, hhigh, hlow, ih]

/-- A code unit that is no surrogate is in the text only as a character. -/
theorem notMem_utf16 {b : CodeUnit} (hb : isSurrogate b = false) {text : List Char}
    (h : ∀ c ∈ text, c.toNat ≠ b.toNat) : b ∉ utf16 text := by
  intro hmem
  obtain ⟨c, hc, hbc⟩ := List.mem_flatMap.mp hmem
  rcases utf16Char_cases c with ⟨u, hu, -, hnat⟩ | ⟨u, v, huv, hhigh, hlow, -⟩
  · rw [hu, List.mem_singleton] at hbc
    exact h c hc (hbc ▸ hnat.symm)
  · rw [huv, List.mem_pair] at hbc
    obtain ⟨hnothigh, hnotlow⟩ := Bool.or_eq_false_iff.mp hb
    rcases hbc with rfl | rfl
    · exact absurd hhigh (by simp [hnothigh])
    · exact absurd hlow (by simp [hnotlow])

end WorkAtUPB.CharStream

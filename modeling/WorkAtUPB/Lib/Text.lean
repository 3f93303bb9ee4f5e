import Mathlib.Data.List.Basic

namespace WorkAtUPB.Text

/-!
# Text files

A text is a list of characters and a file is a list of bytes; a charset goes from one to the
other:

* `Charset` — what is written is read back, whatever comes behind it; `utf8` is one;
* `readText` — the beginning of a file, read as text through a buffer of zeros;
* `infix_readText_iff` — what is seen of a text at the end of a file does not depend on what is
  written behind it;
* `tokens` — the words between the blanks of a line.
-/

/-- How characters are written as bytes. -/
structure Charset where
  encode : Char → List UInt8
  decode : List UInt8 → List Char
  decode_nil : decode [] = []
  decode_encode : ∀ c bytes, decode (encode c ++ bytes) = c :: decode bytes

/-! ### UTF-8 -/

/-- What stands for bytes that are no character. -/
def replacement : Char := Char.ofNat 0xFFFD

/-- Not the first byte of a character. -/
def isContinuation (b : UInt8) : Bool := 0x80 ≤ b && b < 0xC0

/-- At most `n` characters: bytes that are none stand for a replacement character. -/
def utf8DecodeN : Nat → List UInt8 → List Char
  | 0, _ => []
  | _ + 1, [] => []
  | n + 1, b :: bytes =>
    match (b :: bytes).toByteArray.utf8DecodeChar? 0 with
    | some c => c :: utf8DecodeN n ((b :: bytes).drop c.utf8Size)
    | none => replacement :: utf8DecodeN n (bytes.dropWhile isContinuation)

/-- Fuel for all the bytes is enough. -/
theorem utf8DecodeN_congr {n m : Nat} {bytes : List UInt8} (hn : bytes.length ≤ n)
    (hm : bytes.length ≤ m) : utf8DecodeN n bytes = utf8DecodeN m bytes := by
  induction n generalizing m bytes with
  | zero =>
    rw [List.length_eq_zero_iff.mp (Nat.le_zero.mp hn)]
    cases m <;> rfl
  | succ n ih =>
    cases bytes with
    | nil => cases m <;> rfl
    | cons b bytes =>
      cases m with
      | zero => simp at hm
      | succ m =>
        rw [List.length_cons] at hn hm
        rw [utf8DecodeN, utf8DecodeN]
        split
        · next c _ =>
          have hpos := c.utf8Size_pos
          have hdrop : ((b :: bytes).drop c.utf8Size).length ≤ bytes.length := by
            simp
            omega
          exact congrArg (c :: ·) (ih (by omega) (by omega))
        · have hdrop := (List.dropWhile_sublist isContinuation (l := bytes)).length_le
          exact congrArg (replacement :: ·) (ih (by omega) (by omega))

/-- UTF-8. -/
def utf8 : Charset where
  encode := String.utf8EncodeChar
  decode := fun bytes => utf8DecodeN bytes.length bytes
  decode_nil := rfl
  decode_encode := fun c bytes => by
    have hlength := String.length_utf8EncodeChar c
    have hpos := c.utf8Size_pos
    obtain ⟨b, bs, hencode⟩ := List.exists_cons_of_length_pos (hlength ▸ hpos)
    have hdecode : (b :: (bs ++ bytes)).toByteArray.utf8DecodeChar? 0 = some c := by
      rw [← List.cons_append, ← hencode, List.toByteArray_append]
      exact ByteArray.utf8DecodeChar?_utf8EncodeChar_append
    have hdrop : (b :: (bs ++ bytes)).drop c.utf8Size = bytes := by
      rw [← List.cons_append, ← hencode, ← hlength, List.drop_left]
    rw [hencode, List.cons_append, List.length_cons, utf8DecodeN]
    simp only [hdecode, hdrop]
    exact congrArg (c :: ·) (utf8DecodeN_congr (by simp) (Nat.le_refl _))

namespace Charset

variable (charset : Charset)

/-! ### Text and bytes -/

/-- The bytes of a text. -/
def getBytes (text : List Char) : List UInt8 := text.flatMap charset.encode

@[simp] theorem getBytes_nil : charset.getBytes [] = [] := rfl

@[simp] theorem getBytes_append (text more : List Char) :
    charset.getBytes (text ++ more) = charset.getBytes text ++ charset.getBytes more :=
  List.flatMap_append

/-- What has been written is read back, whatever is behind it. -/
theorem decode_getBytes_append (text : List Char) (bytes : List UInt8) :
    charset.decode (charset.getBytes text ++ bytes) = text ++ charset.decode bytes := by
  induction text with
  | nil => rfl
  | cons c text ih =>
    rw [getBytes, List.flatMap_cons, List.append_assoc, charset.decode_encode]
    exact congrArg (c :: ·) ih

/-! ### Reading through a buffer -/

/-- The text of a buffer of `n` zeros into which the beginning of a file has been read. -/
def readText (n : Nat) (file : List UInt8) : List Char :=
  charset.decode (file.take n ++ List.replicate (n - file.length) 0)

/-- A file that fits is in the buffer, whatever is behind it. -/
theorem readText_of_le {n : Nat} {text : List Char} (h : (charset.getBytes text).length ≤ n)
    (more : List UInt8) : text <+: charset.readText n (charset.getBytes text ++ more) := by
  rw [readText, List.take_append, List.take_of_length_le h, List.append_assoc,
    decode_getBytes_append]
  exact List.prefix_append _ _

/-- Behind a full buffer nothing is read. -/
theorem readText_append_of_le {n : Nat} {file : List UInt8} (h : n ≤ file.length)
    (more : List UInt8) : charset.readText n (file ++ more) = charset.readText n file := by
  have hempty : n - file.length = 0 := Nat.sub_eq_zero_of_le h
  have hempty' : n - (file ++ more).length = 0 := by
    rw [List.length_append]
    omega
  rw [readText, readText, List.take_append_of_le_length h, hempty, hempty']

/-- A buffer that is full of a text. -/
theorem readText_of_length_eq {n : Nat} {text : List Char}
    (h : (charset.getBytes text).length = n) (more : List UInt8) :
    charset.readText n (charset.getBytes text ++ more) = text := by
  have hread := charset.decode_getBytes_append text []
  rw [List.append_nil, charset.decode_nil, List.append_nil] at hread
  rw [readText_append_of_le charset (Nat.le_of_eq h.symm), readText, h, Nat.sub_self,
    List.replicate_zero, List.append_nil, List.take_of_length_le (Nat.le_of_eq h), hread]

/-- **Reading a file that grows.**  Whether a word at the end of a text is seen through the buffer
    does not depend on what is written behind it. -/
theorem infix_readText_iff (n : Nat) (text word : List Char) (more : List UInt8) :
    word <:+: charset.readText n (charset.getBytes (text ++ word) ++ more) ↔
      word <:+: charset.readText n (charset.getBytes (text ++ word)) := by
  rcases Nat.le_total (charset.getBytes (text ++ word)).length n with h | h
  · have hword : word <:+: text ++ word := List.infix_append_right
    have hshort := charset.readText_of_le h []
    rw [List.append_nil] at hshort
    exact iff_of_true (hword.trans (charset.readText_of_le h more).isInfix)
      (hword.trans hshort.isInfix)
  · rw [readText_append_of_le charset h]

end Charset

/-! ### Words -/

/-- The words between the blanks of a line. -/
def tokens (line : List Char) : List (List Char) := (line.splitOn ' ').filter (· ≠ [])

theorem notMem_of_mem_splitOn {line word : List Char} (h : word ∈ line.splitOn ' ') :
    ' ' ∉ word := by
  induction line generalizing word with
  | nil =>
    rw [List.splitOn_nil, List.mem_singleton] at h
    rw [h]
    exact List.not_mem_nil
  | cons c line ih =>
    rw [List.splitOn_cons_eq_if_modifyHead] at h
    split at h
    · rcases List.mem_cons.mp h with rfl | h
      · exact List.not_mem_nil
      · exact ih h
    · next hc =>
      cases hsplit : line.splitOn ' ' with
      | nil => simp [hsplit] at h
      | cons first rest =>
        rw [hsplit, List.modifyHead_cons] at h
        rw [hsplit] at ih
        rcases List.mem_cons.mp h with rfl | h
        · rw [List.mem_cons, not_or]
          exact ⟨fun hblank => hc (by simp [← hblank]), ih (List.mem_cons_self ..)⟩
        · exact ih (List.mem_cons_of_mem _ h)

theorem of_mem_tokens {line word : List Char} (h : word ∈ tokens line) :
    word ≠ [] ∧ ' ' ∉ word := by
  obtain ⟨hmem, hne⟩ := List.mem_filter.mp h
  exact ⟨of_decide_eq_true hne, notMem_of_mem_splitOn hmem⟩

/-- The first word of a line. -/
theorem tokens_append {word : List Char} (hne : word ≠ []) (hblank : ' ' ∉ word)
    (line : List Char) : tokens (word ++ ' ' :: line) = word :: tokens line := by
  rw [tokens, List.splitOn_append_cons_self_of_not_mem hblank]
  simp [hne, tokens]

/-- A line of one word. -/
theorem tokens_self {word : List Char} (hne : word ≠ []) (hblank : ' ' ∉ word) :
    tokens word = [word] := by
  rw [tokens, List.splitOn_eq_singleton hblank]
  simp [hne]

end WorkAtUPB.Text

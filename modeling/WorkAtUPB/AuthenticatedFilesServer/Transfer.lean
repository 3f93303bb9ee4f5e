import WorkAtUPB.Lib.CharStream
import Mathlib.Data.List.Infix
import Mathlib.Tactic.NormNum

namespace WorkAtUPB.AuthenticatedFilesServer

open CharStream

/-!
# AuthenticatedFilesServer — files between client and server (`Client.java`, `Server.java`)

A file goes over the connection as a line with its name, one character with its length, and one
character for each byte:

* `loadFile`, `uploadFile` — the characters that are written (on both sides);
* `readUpload` — what `sendMessage` and `downloadFile` read;
* `illegalStrings` — what the server does not keep;
* `framed_iff` — when the server reads what the client has written.
-/

/-! ### Writing -/

/-- A file as characters: its length is cast to `int`, and there is no array of a negative
    length. -/
def loadFile (content : List UInt8) : Option (List CodeUnit) :=
  let length := Int.bmod content.length (2 ^ 32)
  if length < 0 then none else some ((content.take length.toNat).map charOfByte)

/-- `uploadFile`: the name, a line break, the length (of which `write` sends the low 16 bits) and
    the characters. -/
def uploadFile (filename : List CodeUnit) (content : List UInt8) : Option (List CodeUnit) :=
  (loadFile content).map fun cbuf => filename ++ newline :: UInt16.ofNat cbuf.length :: cbuf

/-! ### Reading -/

/-- The beginning of `downloadFile`: the length, and as many characters. -/
def readText : List CodeUnit → Option (List CodeUnit × List CodeUnit)
  | [] => none
  | len :: stream => some (readArray len.toNat stream)

/-- What `sendMessage` reads for an upload: the name, the text, and the rest of the stream. -/
def readUpload (stream : List CodeUnit) :
    Option (List CodeUnit × List CodeUnit × List CodeUnit) :=
  (readLine stream).bind fun (filename, stream) =>
    (readText stream).map fun (text, rest) => (filename, text, rest)

/-- The length of a text that is read is one character. -/
theorem length_of_readUpload {stream filename text rest : List CodeUnit}
    (h : readUpload stream = some (filename, text, rest)) : text.length < 65536 := by
  obtain ⟨⟨line, stream'⟩, -, hline⟩ := Option.bind_eq_some_iff.mp h
  obtain ⟨⟨text', rest'⟩, htext, heq⟩ := Option.map_eq_some_iff.mp hline
  cases stream' with
  | nil => simp [readText] at htext
  | cons len stream =>
    simp only [readText, Option.some.injEq] at htext
    obtain rfl : text' = text := (Prod.mk.inj (Prod.mk.inj heq).2).1
    have hlength := length_readArray len.toNat stream
    rw [htext] at hlength
    rw [hlength]
    exact len.toNat_lt

/-! ### The filter -/

/-- `ILLEGAL_STRINGS`. -/
def illegalStrings : List String := ["greva", "bomba"]

/-- The characters of a string. -/
def codeUnits (s : String) : List CodeUnit := s.toList.map fun c => UInt16.ofNat c.toNat

/-- `indexOf` finds an illegal string. -/
def containsIllegal (str : List CodeUnit) : Bool :=
  illegalStrings.any fun s => decide (codeUnits s <:+: str)

/-- An illegal string is in the bytes of a file. -/
def IllegalBytes (content : List UInt8) : Prop :=
  ∃ s ∈ illegalStrings, (codeUnits s).map byteOfChar <:+: content

instance : DecidablePred IllegalBytes := fun content =>
  inferInstanceAs (Decidable (∃ s ∈ illegalStrings, (codeUnits s).map byteOfChar <:+: content))

/-! ### Lengths -/

/-- A length that fits into an `int` is not changed by the cast. -/
theorem bmod_of_lt {n m : Nat} (h : 2 * n < m) : Int.bmod n m = n :=
  Int.bmod_eq_of_le (by omega) (by omega)

theorem loadFile_of_lt {content : List UInt8} (h : content.length < 2 ^ 31) :
    loadFile content = some (content.map charOfByte) := by
  have hlength : Int.bmod content.length (2 ^ 32) = content.length := bmod_of_lt (by omega)
  unfold loadFile
  simp only [hlength]
  simp

/-- Of bytes with something behind them, the bytes are loaded exactly if the cast cuts off the
    rest. -/
theorem loadFile_append_iff {bytes : List UInt8} (h : bytes.length < 65536) (tail : List UInt8) :
    loadFile (bytes ++ tail) = some (bytes.map charOfByte) ↔ 2 ^ 32 ∣ tail.length := by
  have hcast : Int.bmod (bytes ++ tail).length (2 ^ 32) = bytes.length ↔ 2 ^ 32 ∣ tail.length := by
    rw [List.length_append, Int.bmod_def]
    norm_num
    omega
  rw [← hcast]
  unfold loadFile
  constructor
  · intro hload
    simp only at hload
    split at hload
    · cases hload
    · next hnonneg =>
      have hlength := congrArg List.length (Option.some.inj hload)
      rw [List.length_map, List.length_map, List.length_take] at hlength
      by_cases htail : tail.length = 0
      · exact hcast.mpr (by simp [htail])
      · rw [List.length_append] at hlength hnonneg ⊢
        omega
  · intro hlength
    simp only [hlength]
    simp

/-- The length that arrives is the length of the file exactly if it is a character, and none of
    the surrogates. -/
theorem toNat_carryOne_ofNat (n : Nat) :
    (carryOne (UInt16.ofNat n)).toNat = n ↔ n < 65536 ∧ ¬ (0xD800 ≤ n ∧ n ≤ 0xDFFF) := by
  have hlow : (UInt16.ofNat n).toNat = n % 65536 := UInt16.toNat_ofNat'
  have hsurrogate : isSurrogate (UInt16.ofNat n) = true ↔
      0xD800 ≤ n % 65536 ∧ n % 65536 ≤ 0xDFFF := by
    simp [isSurrogate, isHigh, isLow, UInt16.le_iff_toNat_le]
    omega
  unfold carryOne
  split
  · next h =>
    rw [hsurrogate] at h
    simp [questionMark]
    omega
  · next h =>
    rw [hsurrogate] at h
    rw [hlow]
    omega

/-! ### Framing -/

/-- The server reads what the client has written, keeps it, and goes on behind it: whatever
    follows is left for the next `readLine`. -/
def Framed (filename : List CodeUnit) (content : List UInt8) : Prop :=
  ∃ cs, uploadFile filename content = some cs ∧
    ∀ rest, ∃ text, readUpload (carry cs ++ rest) = some (filename, text, rest) ∧
      text.map byteOfChar = content ∧ containsIllegal text = false

/-- What the server reads: the name as the charset has carried it, and as many characters as the
    one behind the line break says. -/
theorem readUpload_carry {filename : List CodeUnit} (hnewline : newline ∉ filename)
    (hreturn : carriageReturn ∉ filename) (len : CodeUnit) (bytes : List UInt8)
    (rest : List CodeUnit) :
    readUpload (carry (filename ++ newline :: len :: bytes.map charOfByte) ++ rest)
      = some (carry filename,
          readArray (carryOne len).toNat (bytes.map charOfByte ++ rest)) := by
  have hcarry : carry (filename ++ newline :: len :: bytes.map charOfByte)
      = carry filename ++ newline :: carryOne len :: bytes.map charOfByte := by
    rw [carry_append (by decide), carry_cons (by decide), carry_cons_map_charOfByte]
    rfl
  have hline := readLine_append (notMem_carry (by decide) hnewline)
    (notMem_carry (by decide) hreturn) (carryOne len :: (bytes.map charOfByte ++ rest))
  rw [hcarry, List.append_assoc, List.cons_append, List.cons_append, readUpload, hline]
  rfl

/-- What becomes of an upload of less than 2^31 bytes. -/
theorem readUpload_uploadFile {filename cs : List CodeUnit} (hnewline : newline ∉ filename)
    (hreturn : carriageReturn ∉ filename) {content : List UInt8} (h : content.length < 2 ^ 31)
    (hcs : uploadFile filename content = some cs) (rest : List CodeUnit) :
    readUpload (carry cs ++ rest)
      = some (carry filename, readArray (carryOne (UInt16.ofNat content.length)).toNat
          (content.map charOfByte ++ rest)) := by
  simp only [uploadFile, loadFile_of_lt h, Option.map_some, Option.some.injEq,
    List.length_map] at hcs
  rw [← hcs, readUpload_carry hnewline hreturn]

/-- The length of a file whose upload is read is a character. -/
theorem Framed.length_lt {filename : List CodeUnit} {content : List UInt8}
    (h : Framed filename content) : content.length < 65536 := by
  obtain ⟨cs, -, hread⟩ := h
  obtain ⟨text, htext, hcontent, -⟩ := hread []
  rw [← hcontent, List.length_map]
  exact length_of_readUpload htext

/-- No illegal string is in the characters of a file if none is in its bytes. -/
theorem containsIllegal_of_bytes {text : List CodeUnit}
    (h : ¬ IllegalBytes (text.map byteOfChar)) : containsIllegal text = false := by
  rw [Bool.eq_false_iff]
  intro hillegal
  obtain ⟨s, hs, hpart⟩ := List.any_eq_true.mp hillegal
  exact h ⟨s, hs, (of_decide_eq_true hpart).map byteOfChar⟩

/-- **Framing.**  The server reads an upload as the client has meant it, and goes on behind it,
    exactly if the charset carries the name and the length of the file is a character that the
    charset carries. -/
theorem framed_iff (filename : List CodeUnit) (content : List UInt8) (hnewline : newline ∉ filename)
    (hreturn : carriageReturn ∉ filename) (hlegal : ¬ IllegalBytes content) :
    Framed filename content ↔ WellPaired filename ∧ content.length < 65536 ∧
      ¬ (0xD800 ≤ content.length ∧ content.length ≤ 0xDFFF) := by
  rw [← carry_eq_self_iff, ← toNat_carryOne_ofNat]
  constructor
  · intro hframed
    have hlt := hframed.length_lt
    obtain ⟨cs, hcs, hread⟩ := hframed
    obtain ⟨text, htext, hcontent, -⟩ := hread []
    rw [readUpload_uploadFile hnewline hreturn (by omega) hcs] at htext
    simp only [Option.some.injEq, Prod.mk.injEq] at htext
    refine ⟨htext.1, ?_⟩
    rw [← length_readArray (carryOne _).toNat, htext.2, ← hcontent, List.length_map]
  · rintro ⟨hname, hlength⟩
    have hlt := ((toNat_carryOne_ofNat _).mp hlength).1
    refine ⟨_, by rw [uploadFile, loadFile_of_lt (by omega), Option.map_some], fun rest => ?_⟩
    have hbytes : (content.map charOfByte).map byteOfChar = content := by
      simp [Function.comp_def]
    refine ⟨content.map charOfByte, ?_, hbytes, containsIllegal_of_bytes (by rwa [hbytes])⟩
    have hread := readArray_append (content.map charOfByte) rest
    rw [List.length_map] at hread
    rw [readUpload_carry hnewline hreturn, hname, List.length_map, hlength, hread]

theorem framed_iff_hi : Framed (codeUnits "a.txt") [104, 105] ↔ WellPaired (codeUnits "a.txt") ∧
    [104, 105].length < 65536 ∧ ¬ (0xD800 ≤ [104, 105].length ∧ [104, 105].length ≤ 0xDFFF) :=
  framed_iff (codeUnits "a.txt") [104, 105] (by decide) (by decide) (by decide)

/-- A file of zeros has no illegal string. -/
theorem not_illegalBytes_replicate (n : Nat) : ¬ IllegalBytes (List.replicate n 0) := by
  rintro ⟨s, hs, hpart⟩
  have hnonzero : ∀ s ∈ illegalStrings, ∃ b ∈ (codeUnits s).map byteOfChar, b ≠ 0 := by decide
  obtain ⟨b, hb, hne⟩ := hnonzero s hs
  exact hne (List.eq_of_mem_replicate (hpart.subset hb))

/-- The length of a file of 2^16 bytes is sent as 0: the file is left in the stream. -/
theorem not_framed : ∃ filename content, newline ∉ filename ∧ carriageReturn ∉ filename ∧
    ¬ IllegalBytes content ∧ ¬ Framed filename content := by
  refine ⟨codeUnits "a.txt", List.replicate 65536 0, by decide, by decide,
    not_illegalBytes_replicate _, fun h => ?_⟩
  have hlt := h.length_lt
  rw [List.length_replicate] at hlt
  exact lt_irrefl _ hlt

end WorkAtUPB.AuthenticatedFilesServer

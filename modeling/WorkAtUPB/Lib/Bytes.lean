import Mathlib.Data.List.Basic
import Mathlib.Logic.Function.Basic
import Mathlib.Tactic.TypeStar

namespace WorkAtUPB.Bytes

/-!
# Byte-addressed storage and byte buffers

A device or an address space is a function from addresses to bytes (`Mem`); a buffer is a
list of bytes.  The file has the transfers between the two (`readBytes`, `writeBytes`), the
overwriting of a part of a buffer (`splice`, `slice`), and little-endian words (`le32`,
`ofLE32`, `le16`, `ofLE16`, and `leInt`, `ofLEInt` for signed ones, with `toInt`), each with
its read-after-write and frame lemmas.  16-bit words in the other byte order (`swap16`) compare
as they did, unless their two bytes compare in opposite ways (`Opposed`).
-/

/-- The content of a byte-addressed device. -/
abbrev Mem := Nat → UInt8

/-- The `len` bytes of `m` from address `off` on. -/
def readBytes (m : Mem) (off len : Nat) : List UInt8 :=
  (List.range len).map fun i => m (off + i)

/-- `m` with the bytes `bs` stored from address `off` on. -/
def writeBytes (m : Mem) (off : Nat) (bs : List UInt8) : Mem :=
  fun a => if off ≤ a then bs[a - off]?.getD (m a) else m a

/-- As many bytes are read as asked for. -/
@[simp] theorem length_readBytes (m : Mem) (off len : Nat) :
    (readBytes m off len).length = len := by
  simp [readBytes]

/-- What is written. -/
theorem writeBytes_of_mem {m : Mem} {off a : Nat} {bs : List UInt8} (h : off ≤ a)
    (hlt : a - off < bs.length) : writeBytes m off bs a = bs[a - off] := by
  simp [writeBytes, h, List.getElem?_eq_getElem hlt]

/-- What is left around it. -/
theorem writeBytes_of_not_mem {m : Mem} {off a : Nat} {bs : List UInt8}
    (h : a < off ∨ off + bs.length ≤ a) : writeBytes m off bs a = m a := by
  rcases h with h | h
  · simp [writeBytes, Nat.not_le.mpr h]
  · simp [writeBytes, List.getElem?_eq_none (show bs.length ≤ a - off by omega)]

/-- Reading back what was written. -/
theorem readBytes_writeBytes_self (m : Mem) (off : Nat) (bs : List UInt8) :
    readBytes (writeBytes m off bs) off bs.length = bs := by
  apply List.ext_getElem (by simp)
  intro i _ hi
  have hmem : off + i - off < bs.length := by omega
  simp [readBytes, writeBytes_of_mem (Nat.le_add_right off i) hmem]

/-- A write leaves a disjoint range alone. -/
theorem readBytes_writeBytes_disjoint {m : Mem} {off off' len : Nat} {bs : List UInt8}
    (h : off' + len ≤ off ∨ off + bs.length ≤ off') :
    readBytes (writeBytes m off bs) off' len = readBytes m off' len := by
  refine List.map_congr_left fun i hi => writeBytes_of_not_mem ?_
  have hi' : i < len := List.mem_range.mp hi
  omega

/-- Two adjacent ranges. -/
theorem readBytes_add (m : Mem) (off len len' : Nat) :
    readBytes m off (len + len') = readBytes m off len ++ readBytes m (off + len) len' := by
  simp [readBytes, List.range_add, Nat.add_assoc, Function.comp_def]

/-- Bytes written behind others. -/
theorem readBytes_writeBytes_append (m : Mem) (off len : Nat) (bs : List UInt8) :
    readBytes (writeBytes m (off + len) bs) off (len + bs.length) =
      readBytes m off len ++ bs := by
  rw [readBytes_add, readBytes_writeBytes_self,
    readBytes_writeBytes_disjoint (Or.inl (Nat.le_refl _))]

/-- Nothing is written. -/
@[simp] theorem writeBytes_nil (m : Mem) (off : Nat) : writeBytes m off [] = m := by
  funext a
  simp [writeBytes]

/-- A write as one of its first byte and one of the others. -/
theorem writeBytes_cons (m : Mem) (off : Nat) (b : UInt8) (bs : List UInt8) :
    writeBytes m off (b :: bs) = writeBytes (Function.update m off b) (off + 1) bs := by
  funext a
  rcases Nat.lt_trichotomy a off with hlt | rfl | hgt
  · rw [writeBytes_of_not_mem (Or.inl hlt), writeBytes_of_not_mem (Or.inl (by omega)),
      Function.update_of_ne (by omega)]
  · rw [writeBytes_of_not_mem (Or.inl (Nat.lt_succ_self a)), Function.update_self]
    simp [writeBytes]
  · have hsub : a - off = a - (off + 1) + 1 := by omega
    have hle : off + 1 ≤ a := hgt
    have hle' : off ≤ a := by omega
    simp only [writeBytes, if_pos hle, if_pos hle', hsub, List.getElem?_cons_succ]
    rw [Function.update_of_ne (by omega)]

/-- One more byte. -/
theorem readBytes_succ (m : Mem) (off len : Nat) :
    readBytes m off (len + 1) = readBytes m off len ++ [m (off + len)] := by
  simp [readBytes, List.range_succ]

/-- A byte stored behind those that are read. -/
theorem readBytes_update_succ (m : Mem) (len : Nat) (c : UInt8) :
    readBytes (Function.update m len c) 0 (len + 1) = readBytes m 0 len ++ [c] := by
  rw [readBytes_succ, Nat.zero_add, Function.update_self]
  congr 1
  refine List.map_congr_left fun i hi => Function.update_of_ne ?_ c m
  have hi' : i < len := List.mem_range.mp hi
  omega

/-- One more byte of a text that is copied byte by byte. -/
theorem readBytes_update_take {m : Mem} {bs : List UInt8} {len : Nat} {c : UInt8}
    (h : readBytes m 0 len = bs.take len) (hc : bs[len]? = some c) :
    readBytes (Function.update m len c) 0 (len + 1) = bs.take (len + 1) := by
  rw [readBytes_update_succ, h, List.take_add_one, hc, Option.toList_some]

/-- A block sent behind others, with only one block left to be sent. -/
theorem sent_append_iff {sent block owed : List UInt8} {idle : Prop} (hidle : idle) :
    (sent ++ block <+: sent ++ owed ∧ (idle → sent ++ block = sent ++ owed)) ↔ block = owed := by
  constructor
  · intro hsent
    exact List.append_cancel_left (hsent.2 hidle)
  · rintro rfl
    exact ⟨List.prefix_rfl, fun _ => rfl⟩

/-! ### Buffers -/

/-- `buf` with the bytes from position `off` on overwritten by `bs`. -/
def splice (buf : List UInt8) (off : Nat) (bs : List UInt8) : List UInt8 :=
  buf.take off ++ bs ++ buf.drop (off + bs.length)

/-- The `len` bytes of `buf` from position `off` on. -/
def slice (buf : List UInt8) (off len : Nat) : List UInt8 := (buf.drop off).take len

/-- A splice that fits keeps the length. -/
theorem length_splice {buf bs : List UInt8} {off : Nat} (h : off + bs.length ≤ buf.length) :
    (splice buf off bs).length = buf.length := by
  simp [splice]
  omega

/-- The front of a splice. -/
@[simp] theorem splice_zero_take (buf bs : List UInt8) :
    (splice buf 0 bs).take bs.length = bs := by
  simp [splice]

/-- Bytes written over the beginning of a buffer: what is behind them stays. -/
theorem splice_zero (buf bs : List UInt8) : splice buf 0 bs = bs ++ buf.drop bs.length := by
  simp [splice]

/-- Two adjacent pieces, written one after the other. -/
theorem splice_splice {buf : List UInt8} {off : Nat} {bs cs : List UInt8}
    (h : off + bs.length ≤ buf.length) :
    splice (splice buf off bs) (off + bs.length) cs = splice buf off (bs ++ cs) := by
  have htake : (splice buf off bs).take (off + bs.length) = buf.take off ++ bs := by
    rw [splice, List.take_left' (by simp; omega)]
  have hdrop : (splice buf off bs).drop (off + bs.length + cs.length) =
      buf.drop (off + (bs ++ cs).length) := by
    rw [splice, List.drop_append, List.drop_eq_nil_of_le (by simp; omega), List.nil_append,
      List.drop_drop]
    congr 1
    simp
    omega
  rw [splice, htake, hdrop, splice, List.append_assoc (buf.take off)]

/-- What is behind a piece that was written. -/
theorem drop_splice {buf : List UInt8} {off : Nat} {bs : List UInt8} (h : off ≤ buf.length) :
    (splice buf off bs).drop off = bs ++ buf.drop (off + bs.length) := by
  rw [splice, List.append_assoc, List.drop_left' (List.length_take_of_le h)]

/-- What is outside of a piece that was written stays. -/
theorem getElem?_splice_of_outside {buf bs : List UInt8} {off i : Nat} (h : off ≤ buf.length)
    (hi : i < off ∨ off + bs.length ≤ i) : (splice buf off bs)[i]? = buf[i]? := by
  have hlen : (buf.take off).length = off := List.length_take_of_le h
  rw [splice]
  rcases hi with hi | hi
  · rw [List.append_assoc, List.getElem?_append_left (by omega), List.getElem?_take_of_lt hi]
  · rw [List.getElem?_append_right (by rw [List.length_append]; omega), List.getElem?_drop,
      List.length_append, hlen, Nat.add_sub_cancel' hi]

/-- Writing what is there already. -/
theorem splice_of_drop {buf : List UInt8} {off : Nat} {bs rest : List UInt8}
    (h : buf.drop off = bs ++ rest) : splice buf off bs = buf := by
  have hrest : buf.drop (off + bs.length) = rest := by
    rw [← List.drop_drop, h, List.drop_left' rfl]
  rw [splice, hrest, List.append_assoc, ← h, List.take_append_drop]

/-- A slice of the bytes read from a device is a shorter read. -/
theorem slice_readBytes {m : Mem} {off len k n : Nat} (h : k + n ≤ len) :
    slice (readBytes m off len) k n = readBytes m (off + k) n := by
  apply List.ext_getElem
  · simp [slice]; omega
  · intro i _ _
    simp [slice, readBytes, Nat.add_assoc]

/-- **Read-modify-write.**  Reading `len` bytes, overwriting some of them and writing all of
    them back is the same as writing the new bytes only. -/
theorem writeBytes_splice_readBytes {m : Mem} {base len off : Nat} {bs : List UInt8}
    (h : off + bs.length ≤ len) :
    writeBytes m base (splice (readBytes m base len) off bs) = writeBytes m (base + off) bs := by
  funext a
  have hlen : (splice (readBytes m base len) off bs).length = len := by
    rw [length_splice (by simpa using h), length_readBytes]
  by_cases hin : base ≤ a ∧ a < base + len
  · obtain ⟨hlo, hhi⟩ := hin
    rw [writeBytes_of_mem hlo (by omega)]
    have htake : ((readBytes m base len).take off).length = off := by simp; omega
    by_cases hpre : a < base + off
    · -- before the new bytes
      rw [writeBytes_of_not_mem (Or.inl hpre)]
      simp only [splice]
      rw [List.getElem_append_left (by simp; omega), List.getElem_append_left (by simp; omega)]
      simp [readBytes, Nat.add_sub_cancel' hlo]
    · by_cases hmid : a < base + off + bs.length
      · -- inside the new bytes
        rw [writeBytes_of_mem (by omega) (by omega)]
        simp only [splice]
        rw [List.getElem_append_left (by simp; omega), List.getElem_append_right (by omega)]
        congr 1
        omega
      · -- after the new bytes
        rw [writeBytes_of_not_mem (Or.inr (by omega))]
        simp only [splice]
        rw [List.getElem_append_right (by simp; omega)]
        simp only [readBytes, List.getElem_drop, List.getElem_map, List.getElem_range]
        congr 1
        simp
        omega
  · rw [writeBytes_of_not_mem (by omega), writeBytes_of_not_mem (by omega)]

/-! ### Little-endian words -/

/-- The four bytes of a 32-bit word, least significant first. -/
def le32 (w : UInt32) : List UInt8 :=
  [UInt8.ofNat w.toNat, UInt8.ofNat (w.toNat / 256), UInt8.ofNat (w.toNat / 65536),
    UInt8.ofNat (w.toNat / 16777216)]

/-- The 32-bit word whose bytes, least significant first, are the first four of `bs`. -/
def ofLE32 (bs : List UInt8) : UInt32 :=
  UInt32.ofNat ((bs.getD 0 0).toNat + 256 * (bs.getD 1 0).toNat + 65536 * (bs.getD 2 0).toNat
    + 16777216 * (bs.getD 3 0).toNat)

/-- Four bytes. -/
@[simp] theorem length_le32 (w : UInt32) : (le32 w).length = 4 := rfl

/-- Decoding inverts encoding. -/
@[simp] theorem ofLE32_le32 (w : UInt32) : ofLE32 (le32 w) = w := by
  apply UInt32.toNat_inj.mp
  have hw : w.toNat < 4294967296 := w.toNat_lt
  simp only [ofLE32, le32, List.getD_cons_zero, List.getD_cons_succ, UInt8.toNat_ofNat',
    UInt32.toNat_ofNat']
  omega

/-- A word is restored from its bytes, whatever follows. -/
@[simp] theorem ofLE32_le32_append (w : UInt32) (bs : List UInt8) : ofLE32 (le32 w ++ bs) = w :=
  ofLE32_le32 w

/-- The two bytes of a 16-bit word, least significant first. -/
def le16 (w : UInt16) : List UInt8 := [UInt8.ofNat w.toNat, UInt8.ofNat (w.toNat / 256)]

/-- The 16-bit word whose bytes, least significant first, are the first two of `bs`. -/
def ofLE16 (bs : List UInt8) : UInt16 :=
  UInt16.ofNat ((bs.getD 0 0).toNat + 256 * (bs.getD 1 0).toNat)

/-- Two bytes. -/
@[simp] theorem length_le16 (w : UInt16) : (le16 w).length = 2 := rfl

/-- Two bytes are read as they were written. -/
@[simp] theorem ofLE16_le16_append (w : UInt16) (bs : List UInt8) :
    ofLE16 (le16 w ++ bs) = w := by
  apply UInt16.toNat_inj.mp
  have hw : w.toNat < 65536 := w.toNat_lt
  simp only [ofLE16, le16, List.cons_append, List.getD_cons_zero, List.getD_cons_succ,
    UInt8.toNat_ofNat', UInt16.toNat_ofNat']
  omega

/-- The four bytes of a C `int`. -/
def leInt (x : Int) : List UInt8 := le32 (Int32.ofInt x).toUInt32

/-- The C `int` whose bytes are the first four of `bs`. -/
def ofLEInt (bs : List UInt8) : Int := (ofLE32 bs).toInt32.toInt

/-- Four bytes. -/
@[simp] theorem length_leInt (x : Int) : (leInt x).length = 4 := rfl

/-- The range of a C `int`. -/
def IsInt (x : Int) : Prop := -2147483648 ≤ x ∧ x < 2147483648

instance (x : Int) : Decidable (IsInt x) := inferInstanceAs (Decidable (_ ∧ _))

/-- The conversion to `int`: the value of this type that is the same modulo `2 ^ 32`, which for
    a small number is the number itself. -/
def toInt (x : Int) : Int :=
  if x.natAbs < 2147483648 then x else (x + 2147483648) % 4294967296 - 2147483648

/-- The conversion to `int`, in whole numbers. -/
theorem toInt_eq (x : Int) : toInt x = (x + 2147483648) % 4294967296 - 2147483648 := by
  unfold toInt
  split <;> omega

/-- A number in the range of `int` is not changed by the conversion. -/
theorem toInt_of_isInt {x : Int} (h : IsInt x) : toInt x = x := by
  obtain ⟨hlo, hhi⟩ := h
  rw [toInt_eq]
  omega

/-- A C `int` is restored from its bytes. -/
theorem ofLEInt_leInt {x : Int} (h : IsInt x) : ofLEInt (leInt x) = x := by
  have hx : (Int32.ofInt x).toInt = x := Int32.toInt_ofInt_of_le h.1 h.2
  rw [ofLEInt, leInt, ofLE32_le32, Int32.toInt32_toUInt32, hx]

/-! ### The other byte order -/

/-- The 16-bit word with the two bytes of `n` exchanged. -/
def swap16 (n : Nat) : Nat := n % 256 * 256 + n / 256

/-- The two bytes of `m` and of `n` compare in opposite ways. -/
def Opposed (m n : Nat) : Prop :=
  m / 256 < n / 256 ∧ n % 256 < m % 256 ∨ n / 256 < m / 256 ∧ m % 256 < n % 256

instance (m n : Nat) : Decidable (Opposed m n) := inferInstanceAs (Decidable (_ ∨ _))

/-- Where the bytes do not compare in opposite ways, the words compare as they did. -/
theorem swap16_le_iff {m n : Nat} (h : ¬ Opposed m n) : swap16 m ≤ swap16 n ↔ m ≤ n := by
  unfold Opposed at h
  unfold swap16
  omega

/-- Otherwise they compare the other way around. -/
theorem swap16_le_iff_of_opposed {m n : Nat} (hm : m < 65536) (hn : n < 65536)
    (h : Opposed m n) : swap16 m ≤ swap16 n ↔ ¬ m ≤ n := by
  unfold Opposed at h
  unfold swap16
  omega

/-- Both bytes change their places. -/
theorem swap16_digits {a b : Nat} (hb : b < 256) : swap16 (a * 256 + b) = b * 256 + a := by
  unfold swap16
  omega

/-- A range has the same words in both byte orders only if it has one word, all words, or none
    in either order. -/
theorem swap16_range_iff {lo hi : Nat} (hlo : lo < 65536) (hhi : hi < 65536) :
    (∀ n < 65536, lo ≤ n ∧ n ≤ hi ↔ swap16 lo ≤ swap16 n ∧ swap16 n ≤ swap16 hi) ↔
      lo = hi ∨ lo = 0 ∧ hi = 65535 ∨ hi < lo ∧ swap16 hi < swap16 lo := by
  constructor
  · intro h
    obtain ⟨a, b, ha, hb, rfl⟩ : ∃ a b, a < 256 ∧ b < 256 ∧ lo = a * 256 + b :=
      ⟨lo / 256, lo % 256, by omega, by omega, by omega⟩
    obtain ⟨c, d, hc, hd, rfl⟩ : ∃ c d, c < 256 ∧ d < 256 ∧ hi = c * 256 + d :=
      ⟨hi / 256, hi % 256, by omega, by omega, by omega⟩
    clear hlo hhi
    have hword : ∀ x y, x < 256 → y < 256 →
        (a * 256 + b ≤ x * 256 + y ∧ x * 256 + y ≤ c * 256 + d ↔
          b * 256 + a ≤ y * 256 + x ∧ y * 256 + x ≤ d * 256 + c) := by
      intro x y hx hy
      have hxy := h (x * 256 + y) (by omega)
      rwa [swap16_digits hb, swap16_digits hd, swap16_digits hy] at hxy
    rw [swap16_digits hb, swap16_digits hd]
    -- the bounds themselves, and the words that share one byte with a bound
    have h₁ := hword a b ha hb
    have h₂ := hword c d hc hd
    have h₃ := hword a 255 ha (by decide)
    have h₄ := hword c 0 hc (by decide)
    have h₅ := hword 255 b (by decide) hb
    have h₆ := hword 0 d (by decide) hd
    clear h hword
    rcases Nat.lt_trichotomy a c with hac | hac | hac <;>
      rcases Nat.lt_trichotomy b d with hbd | hbd | hbd <;> omega
  · rintro (rfl | ⟨rfl, rfl⟩ | ⟨h, hswap⟩) n hn
    · unfold swap16
      omega
    · unfold swap16
      omega
    · omega

end WorkAtUPB.Bytes

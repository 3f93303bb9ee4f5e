import WorkAtUPB.Lib.Crc

namespace WorkAtUPB.SimpleRAID

open Crc

/-!
# SimpleRAIDDriverWindows — the CRC of a buffer (`crc32.c`)

`update_crc` takes a byte in with one look-up in a table, eight bytes to a round of its loop:

* `crcTable`, `do1`, …, `do8`, `updateCrc` — the table, the macros and the function;
* `crc32` — the same CRC bit by bit, from the generator polynomial alone;
* `updateCrc_eq` — the function computes it, and reads as many bytes as it is told to;
* `updateCrc_append` — a buffer can be taken in piece by piece;
* `crcOf`, `crc32_zeros` — the CRC of a buffer of its own size, and that of a sector of zeros;
* `updateCrc_ne_of_burst` — damage within 32 consecutive bits changes the CRC.

A read beyond the end of the buffer is `none`.
-/

/-! ### The function -/

/-- `crc_table`. -/
def crcTable : List UInt32 :=
  [0x00000000, 0x77073096, 0xee0e612c, 0x990951ba, 0x076dc419, 0x706af48f, 0xe963a535,
   0x9e6495a3, 0x0edb8832, 0x79dcb8a4, 0xe0d5e91e, 0x97d2d988, 0x09b64c2b, 0x7eb17cbd,
   0xe7b82d07, 0x90bf1d91, 0x1db71064, 0x6ab020f2, 0xf3b97148, 0x84be41de, 0x1adad47d,
   0x6ddde4eb, 0xf4d4b551, 0x83d385c7, 0x136c9856, 0x646ba8c0, 0xfd62f97a, 0x8a65c9ec,
   0x14015c4f, 0x63066cd9, 0xfa0f3d63, 0x8d080df5, 0x3b6e20c8, 0x4c69105e, 0xd56041e4,
   0xa2677172, 0x3c03e4d1, 0x4b04d447, 0xd20d85fd, 0xa50ab56b, 0x35b5a8fa, 0x42b2986c,
   0xdbbbc9d6, 0xacbcf940, 0x32d86ce3, 0x45df5c75, 0xdcd60dcf, 0xabd13d59, 0x26d930ac,
   0x51de003a, 0xc8d75180, 0xbfd06116, 0x21b4f4b5, 0x56b3c423, 0xcfba9599, 0xb8bda50f,
   0x2802b89e, 0x5f058808, 0xc60cd9b2, 0xb10be924, 0x2f6f7c87, 0x58684c11, 0xc1611dab,
   0xb6662d3d, 0x76dc4190, 0x01db7106, 0x98d220bc, 0xefd5102a, 0x71b18589, 0x06b6b51f,
   0x9fbfe4a5, 0xe8b8d433, 0x7807c9a2, 0x0f00f934, 0x9609a88e, 0xe10e9818, 0x7f6a0dbb,
   0x086d3d2d, 0x91646c97, 0xe6635c01, 0x6b6b51f4, 0x1c6c6162, 0x856530d8, 0xf262004e,
   0x6c0695ed, 0x1b01a57b, 0x8208f4c1, 0xf50fc457, 0x65b0d9c6, 0x12b7e950, 0x8bbeb8ea,
   0xfcb9887c, 0x62dd1ddf, 0x15da2d49, 0x8cd37cf3, 0xfbd44c65, 0x4db26158, 0x3ab551ce,
   0xa3bc0074, 0xd4bb30e2, 0x4adfa541, 0x3dd895d7, 0xa4d1c46d, 0xd3d6f4fb, 0x4369e96a,
   0x346ed9fc, 0xad678846, 0xda60b8d0, 0x44042d73, 0x33031de5, 0xaa0a4c5f, 0xdd0d7cc9,
   0x5005713c, 0x270241aa, 0xbe0b1010, 0xc90c2086, 0x5768b525, 0x206f85b3, 0xb966d409,
   0xce61e49f, 0x5edef90e, 0x29d9c998, 0xb0d09822, 0xc7d7a8b4, 0x59b33d17, 0x2eb40d81,
   0xb7bd5c3b, 0xc0ba6cad, 0xedb88320, 0x9abfb3b6, 0x03b6e20c, 0x74b1d29a, 0xead54739,
   0x9dd277af, 0x04db2615, 0x73dc1683, 0xe3630b12, 0x94643b84, 0x0d6d6a3e, 0x7a6a5aa8,
   0xe40ecf0b, 0x9309ff9d, 0x0a00ae27, 0x7d079eb1, 0xf00f9344, 0x8708a3d2, 0x1e01f268,
   0x6906c2fe, 0xf762575d, 0x806567cb, 0x196c3671, 0x6e6b06e7, 0xfed41b76, 0x89d32be0,
   0x10da7a5a, 0x67dd4acc, 0xf9b9df6f, 0x8ebeeff9, 0x17b7be43, 0x60b08ed5, 0xd6d6a3e8,
   0xa1d1937e, 0x38d8c2c4, 0x4fdff252, 0xd1bb67f1, 0xa6bc5767, 0x3fb506dd, 0x48b2364b,
   0xd80d2bda, 0xaf0a1b4c, 0x36034af6, 0x41047a60, 0xdf60efc3, 0xa867df55, 0x316e8eef,
   0x4669be79, 0xcb61b38c, 0xbc66831a, 0x256fd2a0, 0x5268e236, 0xcc0c7795, 0xbb0b4703,
   0x220216b9, 0x5505262f, 0xc5ba3bbe, 0xb2bd0b28, 0x2bb45a92, 0x5cb36a04, 0xc2d7ffa7,
   0xb5d0cf31, 0x2cd99e8b, 0x5bdeae1d, 0x9b64c2b0, 0xec63f226, 0x756aa39c, 0x026d930a,
   0x9c0906a9, 0xeb0e363f, 0x72076785, 0x05005713, 0x95bf4a82, 0xe2b87a14, 0x7bb12bae,
   0x0cb61b38, 0x92d28e9b, 0xe5d5be0d, 0x7cdcefb7, 0x0bdbdf21, 0x86d3d2d4, 0xf1d4e242,
   0x68ddb3f8, 0x1fda836e, 0x81be16cd, 0xf6b9265b, 0x6fb077e1, 0x18b74777, 0x88085ae6,
   0xff0f6a70, 0x66063bca, 0x11010b5c, 0x8f659eff, 0xf862ae69, 0x616bffd3, 0x166ccf45,
   0xa00ae278, 0xd70dd2ee, 0x4e048354, 0x3903b3c2, 0xa7672661, 0xd06016f7, 0x4969474d,
   0x3e6e77db, 0xaed16a4a, 0xd9d65adc, 0x40df0b66, 0x37d83bf0, 0xa9bcae53, 0xdebb9ec5,
   0x47b2cf7f, 0x30b5ffe9, 0xbdbdf21c, 0xcabac28a, 0x53b39330, 0x24b4a3a6, 0xbad03605,
   0xcdd70693, 0x54de5729, 0x23d967bf, 0xb3667a2e, 0xc4614ab8, 0x5d681b02, 0x2a6f2b94,
   0xb40bbe37, 0xc30c8ea1, 0x5a05df1b, 0x2d02ef8d]

/-- `DO1`: the next byte of the buffer. -/
def do1 (crc : UInt32) : List UInt8 → Option (UInt32 × List UInt8)
  | [] => none
  | b :: buf =>
    some (crcTable.getD ((crc ^^^ b.toUInt32) &&& 0xff).toNat 0 ^^^ (crc >>> 8), buf)

/-- `DO2`. -/
def do2 (crc : UInt32) (buf : List UInt8) : Option (UInt32 × List UInt8) :=
  (do1 crc buf).bind fun (crc, buf) => do1 crc buf

/-- `DO4`. -/
def do4 (crc : UInt32) (buf : List UInt8) : Option (UInt32 × List UInt8) :=
  (do2 crc buf).bind fun (crc, buf) => do2 crc buf

/-- `DO8`. -/
def do8 (crc : UInt32) (buf : List UInt8) : Option (UInt32 × List UInt8) :=
  (do4 crc buf).bind fun (crc, buf) => do4 crc buf

/-- `while (len >= 8)`: the CRC, the rest of the buffer and the last value of `len`. -/
def whileDo8 (crc : UInt32) (buf : List UInt8) (len : Nat) :
    Option (UInt32 × List UInt8 × Nat) :=
  if 8 ≤ len then (do8 crc buf).bind fun (crc, buf) => whileDo8 crc buf (len - 8)
  else some (crc, buf, len)
termination_by len

/-- `if (len) do { DO1(buf); } while (--len)`. -/
def doWhile1 : Nat → UInt32 → List UInt8 → Option (UInt32 × List UInt8)
  | 0, crc, buf => some (crc, buf)
  | len + 1, crc, buf => (do1 crc buf).bind fun (crc, buf) => doWhile1 len crc buf

/-- `update_crc`, where `none` is the buffer `NULL`. -/
def updateCrc (crc : UInt32) (buf : Option (List UInt8)) (len : Nat) : Option UInt32 :=
  match buf with
  | none => some 0
  | some buf =>
    (whileDo8 (crc ^^^ 0xffffffff) buf len).bind fun (crc, buf, len) =>
      (doWhile1 len crc buf).map fun (crc, _) => crc ^^^ 0xffffffff

/-! ### The rounds of the loops -/

/-- The loop runs in two parts. -/
theorem doWhile1_add (m n : Nat) (crc : UInt32) (buf : List UInt8) :
    doWhile1 (m + n) crc buf =
      (doWhile1 m crc buf).bind fun (crc, buf) => doWhile1 n crc buf := by
  induction m generalizing crc buf with
  | zero => rw [Nat.zero_add]; rfl
  | succ m ih =>
    rw [Nat.succ_add, doWhile1, doWhile1, Option.bind_assoc]
    congr 1
    funext p
    exact ih p.1 p.2

/-- One byte. -/
theorem do1_eq (crc : UInt32) (buf : List UInt8) : do1 crc buf = doWhile1 1 crc buf :=
  (Option.bind_fun_some (do1 crc buf)).symm

/-- Eight bytes. -/
theorem do8_eq (crc : UInt32) (buf : List UInt8) : do8 crc buf = doWhile1 8 crc buf := by
  simp only [do8, do4, do2, do1_eq, ← doWhile1_add]

/-- The unrolled loop takes in the same bytes as the plain one. -/
theorem whileDo8_eq (crc : UInt32) (buf : List UInt8) (len : Nat) :
    (whileDo8 crc buf len).bind (fun (crc, buf, len) => doWhile1 len crc buf) =
      doWhile1 len crc buf := by
  induction len using Nat.strongRecOn generalizing crc buf with
  | ind len ih =>
    rw [whileDo8]
    split
    next h =>
      have hround : ∀ p : UInt32 × List UInt8,
          (whileDo8 p.1 p.2 (len - 8)).bind (fun (crc, buf, len) => doWhile1 len crc buf) =
            doWhile1 (len - 8) p.1 p.2 := fun p => ih (len - 8) (by omega) p.1 p.2
      rw [do8_eq, Option.bind_assoc]
      simp only [hround]
      rw [← doWhile1_add, show 8 + (len - 8) = len by omega]
    next => rfl

/-! ### Bit by bit -/

/-- The generator polynomial, the lowest power at the top bit. -/
def polynomial : BitVec 32 := 0xedb88320

/-- The bits of a byte, the lowest first. -/
def byteBits (b : UInt8) : List Bool := (List.range 8).map b.toBitVec.getLsbD

/-- The bits of a buffer. -/
def bits (buf : List UInt8) : List Bool := buf.flatMap byteBits

/-- The CRC of a buffer that follows bytes with the CRC `crc`. -/
def crc32 (crc : UInt32) (buf : List UInt8) : UInt32 :=
  ⟨~~~feed polynomial (~~~crc.toBitVec) (bits buf)⟩

/-- A byte has eight bits. -/
@[simp] theorem length_byteBits (b : UInt8) : (byteBits b).length = 8 := rfl

/-- The word of the bits of a byte is the byte. -/
theorem word_byteBits (b : UInt8) : word 32 (byteBits b) = b.toUInt32.toBitVec := by
  apply BitVec.eq_of_getLsbD_eq
  intro i hi
  rw [getLsbD_word _ hi, List.getD_eq_getElem?_getD, byteBits, List.getElem?_map]
  by_cases h8 : i < 8
  · rw [List.getElem?_range h8]
    simp [hi]
  · rw [List.getElem?_eq_none (by simp; omega)]
    simp [BitVec.getLsbD_of_ge b.toBitVec i (by omega)]

/-- Every entry of the table is what eight shifts of its index give. -/
theorem crcTable_eq : ∀ i < 256,
    (crcTable.getD i 0).toBitVec = (shift polynomial)^[8] (BitVec.ofNat 32 i) := by
  decide +kernel

/-- The index in the table is made of the eight lowest bits. -/
theorem low_eight (x : BitVec 32) : low 8 x = x &&& 0xff#32 := by
  apply BitVec.eq_of_getLsbD_eq
  intro i hi
  have hmask : (0xff#32).getLsbD i = decide (i < 8) := by
    rw [show (0xff#32) = BitVec.ofNat 32 (2 ^ 8 - 1) from rfl, BitVec.getLsbD_ofNat,
      Nat.testBit_two_pow_sub_one]
    simp [hi]
  rw [low, BitVec.getLsbD_xor, BitVec.getLsbD_shiftLeft, BitVec.getLsbD_ushiftRight,
    BitVec.getLsbD_and, hmask]
  by_cases h8 : i < 8
  · simp [h8]
  · simp [h8, hi, show 8 + (i - 8) = i by omega]

/-- A byte is shifted out by eight places. -/
theorem shiftRight_xor_byte (crc : UInt32) (b : UInt8) :
    (crc ^^^ b.toUInt32).toBitVec >>> 8 = (crc >>> 8).toBitVec := by
  have hbyte : b.toUInt32.toBitVec >>> 8 = 0#32 := by
    apply BitVec.eq_of_getLsbD_eq
    intro i _
    rw [BitVec.getLsbD_ushiftRight, BitVec.getLsbD_zero]
    simp
  rw [UInt32.toBitVec_xor, BitVec.ushiftRight_xor_distrib, hbyte, BitVec.xor_zero]
  simp

/-- **One byte.**  The look-up does the eight shifts for the bits of the byte. -/
theorem do1_cons (crc : UInt32) (b : UInt8) (buf : List UInt8) :
    do1 crc (b :: buf) = some (⟨feed polynomial crc.toBitVec (byteBits b)⟩, buf) := by
  set index := ((crc ^^^ b.toUInt32) &&& 0xff).toNat with hindex
  have hlt : index < 256 := by
    rw [hindex, UInt32.toNat_and]
    exact Nat.and_lt_two_pow _ (n := 8) (by decide)
  have hlow : low 8 (crc ^^^ b.toUInt32).toBitVec = BitVec.ofNat 32 index := by
    rw [low_eight]
    exact BitVec.eq_of_toNat_eq (by simp [hindex])
  have hfeed : feed polynomial crc.toBitVec (byteBits b) =
      (crcTable.getD index 0).toBitVec ^^^ (crc >>> 8).toBitVec := by
    rw [feed_eq_iterate polynomial _ (show (byteBits b).length ≤ 32 by simp), length_byteBits,
      word_byteBits, ← UInt32.toBitVec_xor, iterate_shift_eq, hlow, crcTable_eq index hlt,
      shiftRight_xor_byte]
  rw [do1, hfeed, ← UInt32.toBitVec_xor]

/-! ### A buffer -/

/-- The loop stops at the end of the buffer, if it gets there. -/
theorem doWhile1_eq (len : Nat) (crc : UInt32) (buf : List UInt8) :
    doWhile1 len crc buf = if len ≤ buf.length then
      some (⟨feed polynomial crc.toBitVec (bits (buf.take len))⟩, buf.drop len) else none := by
  induction len generalizing crc buf with
  | zero => simp [doWhile1, bits]
  | succ len ih =>
    cases buf with
    | nil => simp [doWhile1, do1]
    | cons b buf =>
      rw [doWhile1, do1_cons, Option.bind_some]
      simp only [ih, List.length_cons, Nat.add_le_add_iff_right, List.take_succ_cons,
        List.drop_succ_cons, bits, List.flatMap_cons, feed_append]

/-- **The table agrees with the polynomial.**  For every buffer, every length and every CRC to
    start from, `update_crc` computes the CRC of the first `len` bytes that the generator polynomial
    gives bit by bit; it reads beyond the buffer exactly when there are fewer. -/
theorem updateCrc_eq (crc : UInt32) (buf : List UInt8) (len : Nat) :
    updateCrc crc (some buf) len =
      if len ≤ buf.length then some (crc32 crc (buf.take len)) else none := by
  have hnot : ∀ x : UInt32, x ^^^ 0xffffffff = ⟨~~~x.toBitVec⟩ := by
    intro x
    rw [← UInt32.toBitVec_inj, UInt32.toBitVec_xor]
    exact BitVec.xor_allOnes
  have hloops : updateCrc crc (some buf) len =
      (doWhile1 len (crc ^^^ 0xffffffff) buf).map fun (crc, _) => crc ^^^ 0xffffffff := by
    rw [← whileDo8_eq]
    simp only [updateCrc, Option.map_bind]
    rfl
  rw [hloops, doWhile1_eq]
  split
  · simp only [Option.map_some, hnot]
    rfl
  · rfl

/-- The CRC of two pieces is that of the second one, started with the CRC of the first. -/
theorem updateCrc_append (crc : UInt32) (xs ys : List UInt8) :
    updateCrc crc (some (xs ++ ys)) (xs ++ ys).length =
      (updateCrc crc (some xs) xs.length).bind fun crc => updateCrc crc (some ys) ys.length := by
  have hbits : bits (xs ++ ys) = bits xs ++ bits ys := List.flatMap_append
  simp only [updateCrc_eq, Nat.le_refl, if_true, List.take_length, Option.bind_some, crc32, hbits,
    feed_append, BitVec.not_not]

/-- `update_crc(crc, buf, size)`, as the driver calls it on a buffer of the size. -/
def crcOf (crc : UInt32) (buf : List UInt8) : UInt32 :=
  (updateCrc crc (some buf) buf.length).getD 0

/-- The call does not fail, and gives the CRC of the bits of the buffer. -/
theorem crcOf_eq (crc : UInt32) (buf : List UInt8) : crcOf crc buf = crc32 crc buf := by
  rw [crcOf, updateCrc_eq, if_pos (Nat.le_refl _), List.take_length, Option.getD_some]

/-! ### Zeros -/

/-- The bits of zero bytes. -/
theorem bits_replicate_zero (n : Nat) :
    bits (List.replicate n 0) = List.replicate (8 * n) false := by
  have hbyte : byteBits 0 = List.replicate 8 false := by decide
  induction n with
  | zero => rfl
  | succ n ih =>
    rw [List.replicate_succ, bits, List.flatMap_cons, ← bits, ih, hbyte, ← List.replicate_add,
      Nat.mul_succ, Nat.add_comm]

/-- The register after every 64 bytes of zeros. -/
def zeroRegisters : List (BitVec 32) :=
  [0xffffffff, 0x8a729cc9, 0x3d570562, 0x7400f70d, 0xf2697aa7, 0x5238a8b2, 0x77452eb8, 0xb975e9bc,
   0x4d558a87]

/-- A sector of zeros has the CRC `0xb2aa7578`. -/
theorem crc32_zeros : crc32 0 (List.replicate 512 0) = 0xb2aa7578 := by
  have hround : ∀ i < 8, (shift polynomial)^[8 * 64] (zeroRegisters.getD i 0) =
      zeroRegisters.getD (i + 1) 0 := by decide +kernel
  -- The rounds one after the other, since the kernel cannot unfold 4096 shifts at once.
  have hrounds : ∀ i ≤ 8, (shift polynomial)^[8 * 64 * i] 0xffffffff = zeroRegisters.getD i 0 := by
    intro i hi
    induction i with
    | zero => rfl
    | succ i ih =>
      rw [Nat.mul_succ, Nat.add_comm, Function.iterate_add_apply, ih (by omega), hround i hi]
  have hlast := hrounds 8 (Nat.le_refl 8)
  rw [crc32, bits_replicate_zero, feed_replicate_false]
  exact congrArg (fun r => UInt32.ofBitVec (~~~r)) hlast

/-! ### Damaged buffers -/

/-- The polynomial has its top bit. -/
theorem polynomial_top : polynomial.getLsbD (32 - 1) = true := by decide

/-- The CRCs of two buffers that differ, but only within 32 consecutive bits, are not the same. -/
theorem crc32_ne_of_burst {xs ys : List UInt8} (h : Burst 32 (bits xs) (bits ys)) (crc : UInt32) :
    crc32 crc xs ≠ crc32 crc ys := by
  intro heq
  have hnot := congrArg (fun c : UInt32 => ~~~c.toBitVec) heq
  simp only [crc32, BitVec.not_not] at hnot
  exact feed_ne_of_burst polynomial_top h _ hnot

/-- **Bursts change the CRC.**  Two buffers that differ, but only within 32 consecutive bits
    (wherever these begin in a byte), have different CRCs, from whatever CRC `update_crc`
    starts. -/
theorem updateCrc_ne_of_burst (crc : UInt32) (xs ys : List UInt8)
    (h : Burst 32 (bits xs) (bits ys)) :
    updateCrc crc (some xs) xs.length ≠ updateCrc crc (some ys) ys.length := by
  simp only [updateCrc_eq, Nat.le_refl, if_true, List.take_length, ne_eq, Option.some.injEq]
  exact crc32_ne_of_burst h crc

/-- Five bytes, of which 32 bits are damaged from the last bit of the first byte on. -/
theorem updateCrc_ne_of_burst_unaligned :
    updateCrc 7 (some [0x80, 0xff, 0xff, 0xff, 0x7f]) 5 ≠ updateCrc 7 (some [0, 0, 0, 0, 0]) 5 := by
  have hwithin : ∀ i < 40, (bits [0x80, 0xff, 0xff, 0xff, 0x7f])[i]? ≠ (bits [0, 0, 0, 0, 0])[i]? →
      7 ≤ i ∧ i < 7 + 32 := by decide
  refine updateCrc_ne_of_burst 7 [0x80, 0xff, 0xff, 0xff, 0x7f] [0, 0, 0, 0, 0]
    ⟨by decide, by decide, 7, fun i hi => ?_⟩
  by_cases hlt : i < 40
  · exact hwithin i hlt hi
  · have hend : ∀ b : UInt8, (bits [b, 0xff, 0xff, 0xff, 0x7f])[i]? = none := fun b =>
      List.getElem?_eq_none (Nat.le_of_not_lt hlt)
    exact absurd ((hend 0x80).trans (List.getElem?_eq_none (Nat.le_of_not_lt hlt)).symm) hi

end WorkAtUPB.SimpleRAID

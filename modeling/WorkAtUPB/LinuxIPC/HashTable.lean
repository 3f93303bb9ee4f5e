import WorkAtUPB.Lib.CString

namespace WorkAtUPB.LinuxIPC

open Bytes CString

/-!
# LinuxIPC — the hash table in shared memory (`server.c`, `hash.c`, `common.h`)

The server keeps a set of words in a block of shared memory: 256 buckets of 256 slots of 16
bytes, each word a C string in a slot of the bucket of its hash.  The clients send it messages
and read the block themselves.  The model has

* `hash`, `positionAt` — where a word belongs;
* `addWord`, `removeWord`, `clearTable` — what the server does for `A`, `R` and `C`;
* `printBucket` — what a client prints of a bucket for `P`.

An access beyond the block is a fault of the server (`none`).
-/

/-- `MAX_WORD_SIZE`. -/
def maxWordSize : Nat := 16

/-- `BUCKET_COUNT`. -/
def bucketCount : Nat := 256

/-- `MAX_WORDS_PER_BUCKET`. -/
def maxWordsPerBucket : Nat := 256

/-- `SHARED_MEMORY_SIZE`. -/
def sharedMemorySize : Nat := (maxWordSize + 1) * bucketCount * maxWordsPerBucket

/-- The index of a bucket. -/
abbrev Bucket := Fin bucketCount

/-- `POSITION_AT`: the address of slot `j` of bucket `i`. -/
def positionAt (i : Bucket) (j : Nat) : Nat :=
  i * maxWordsPerBucket * maxWordSize + j * maxWordSize

/-- A `char` as an `int`, converted to `unsigned int`. -/
def charToUInt32 (c : UInt8) : UInt32 := if c < 128 then c.toUInt32 else c.toUInt32 - 256

/-- `hash`: the djb2 function, modulo the number of buckets. -/
def hash (w : List UInt8) : Bucket :=
  ⟨(w.foldl (fun (hash : UInt32) c => ((hash <<< 5) + hash) + charToUInt32 c) 5381).toNat
    % bucketCount,
    Nat.mod_lt _ (by decide)⟩

/-- `data` of a packet: a C string of at most `MAX_WORD_SIZE` characters. -/
structure Word where
  chars : List UInt8
  noNul : 0 ∉ chars
  fits : chars.length ≤ maxWordSize
  deriving DecidableEq

/-- The word `p`, whose hash is 21. -/
def shortWord : Word := ⟨[112], by decide, by decide⟩

/-- The messages of the clients. -/
inductive Message where
  | add (w : Word)
  | remove (w : Word)
  | clear
  | print
  | exit
  deriving DecidableEq

/-! ### The server's operations -/

/-- The loop that looks for the word: `strcmp` with the slots of the bucket. -/
def findWord (m : Mem) (b : Bucket) (w : List UInt8) : Option Nat :=
  (List.range maxWordsPerBucket).find? fun pos =>
    stringAt m sharedMemorySize (positionAt b pos) == w

/-- The loop that looks for a free slot, from slot `pos` of the bucket on; it does not stop at
    the end of the bucket. -/
def freeSlot (m : Mem) (b : Bucket) : Nat → Nat → Option Nat
  | 0, _ => none
  | fuel + 1, pos =>
    if sharedMemorySize ≤ positionAt b pos then none
    else if 0 < strlen m sharedMemorySize (positionAt b pos) then freeSlot m b fuel (pos + 1)
    else some pos

/-- The server's branch for `A`. -/
def addWord (m : Mem) (w : List UInt8) : Option Mem :=
  let rezumat := hash w
  match findWord m rezumat w with
  | some _ => some m
  | none =>
    (freeSlot m rezumat sharedMemorySize 0).bind fun pos =>
      if positionAt rezumat pos + w.length < sharedMemorySize then
        some (strcpy m (positionAt rezumat pos) w)
      else none

/-- The server's branch for `R`. -/
def removeWord (m : Mem) (w : List UInt8) : Mem :=
  let rezumat := hash w
  match findWord m rezumat w with
  | some pos => memset m (positionAt rezumat pos) 0 w.length
  | none => m

/-- The server's branch for `C`. -/
def clearTable (m : Mem) : Mem := memset m 0 0 sharedMemorySize

/-- What the server does to the table for a message. -/
def serveTable (m : Mem) : Message → Option Mem
  | .add w => addWord m w.chars
  | .remove w => some (removeWord m w.chars)
  | .clear => some (clearTable m)
  | .print | .exit => some m

/-- The client's loop over the slots of a bucket: the strings that it prints. -/
def printBucket (m : Mem) (b : Bucket) : List (List UInt8) :=
  (List.range maxWordsPerBucket).filterMap fun j =>
    if m (positionAt b j) = 0 then none
    else some (stringAt m sharedMemorySize (positionAt b j))

/-- There is one first number with a property. -/
theorem first_unique {P : Nat → Prop} {j k : Nat} (hj : P j) (hjmin : ∀ i < j, ¬ P i) (hk : P k)
    (hkmin : ∀ i < k, ¬ P i) : j = k := by
  rcases Nat.lt_trichotomy j k with hlt | heq | hgt
  · exact absurd hj (hkmin j hlt)
  · exact heq
  · exact absurd hk (hjmin k hgt)

/-! ### Slots of the whole table -/

/-- The number of slot `pos` of a bucket in the whole table. -/
def slotIndex (b : Bucket) (pos : Nat) : Nat := b * maxWordsPerBucket + pos

theorem positionAt_eq (b : Bucket) (pos : Nat) :
    positionAt b pos = maxWordSize * slotIndex b pos := by
  simp only [positionAt, slotIndex, maxWordsPerBucket, maxWordSize]
  omega

theorem positionAt_succ (b : Bucket) (j : Nat) :
    positionAt b (j + 1) = positionAt b j + maxWordSize := by
  simp only [positionAt, maxWordSize]
  omega

theorem positionAt_mono (b : Bucket) {j k : Nat} (h : j ≤ k) : positionAt b j ≤ positionAt b k := by
  simp only [positionAt, maxWordSize]
  omega

/-- A slot ends before the later ones begin. -/
theorem positionAt_add_le (b : Bucket) {j k : Nat} (h : j < k) :
    positionAt b j + maxWordSize ≤ positionAt b k := by
  rw [← positionAt_succ]
  exact positionAt_mono b h

theorem slotIndex_succ (b : Bucket) (pos : Nat) : slotIndex b (pos + 1) = slotIndex b pos + 1 := by
  simp only [slotIndex, Nat.add_assoc]

theorem slotIndex_div {b : Bucket} {pos : Nat} (h : pos < maxWordsPerBucket) :
    slotIndex b pos / maxWordsPerBucket = b := by
  simp only [slotIndex, maxWordsPerBucket] at h ⊢
  omega

/-- The slots of the buckets are those below 65536. -/
theorem slotIndex_lt (b : Bucket) {pos : Nat} (h : pos < maxWordsPerBucket) :
    slotIndex b pos < bucketCount * maxWordsPerBucket := by
  have hb := b.isLt
  simp only [slotIndex, bucketCount, maxWordsPerBucket] at h hb ⊢
  omega

/-- A slot whose number divided by 256 is a bucket is one of that bucket. -/
theorem eq_slotIndex {b : Bucket} {k : Nat} (h : k / maxWordsPerBucket = b) :
    ∃ pos < maxWordsPerBucket, k = slotIndex b pos := by
  refine ⟨k % maxWordsPerBucket, Nat.mod_lt _ (by decide), ?_⟩
  rw [slotIndex, ← h]
  exact (Nat.div_add_mod' k maxWordsPerBucket).symm

/-- The slots of the buckets, and one slot more, are inside of the block. -/
theorem slot_inside {k : Nat} (h : k ≤ bucketCount * maxWordsPerBucket) :
    maxWordSize * k + maxWordSize < sharedMemorySize := by
  simp only [sharedMemorySize, bucketCount, maxWordsPerBucket, maxWordSize] at h ⊢
  omega

theorem mem_printBucket {m : Mem} {b : Bucket} {w : List UInt8} :
    w ∈ printBucket m b ↔ ∃ pos < maxWordsPerBucket, m (positionAt b pos) ≠ 0 ∧
      stringAt m sharedMemorySize (positionAt b pos) = w := by
  simp [printBucket]

/-- The word is in the first slot found, and in none if no slot is found. -/
theorem findWord_eq_some {m : Mem} {b : Bucket} {w : List UInt8} {pos : Nat}
    (h : findWord m b w = some pos) :
    pos < maxWordsPerBucket ∧ stringAt m sharedMemorySize (positionAt b pos) = w := by
  have hmem := List.mem_of_find?_eq_some h
  have hp := List.find?_some h
  exact ⟨List.mem_range.mp hmem, by simpa using hp⟩

/-- It is in no slot before. -/
theorem findWord_first {m : Mem} {b : Bucket} {w : List UInt8} {pos : Nat}
    (h : findWord m b w = some pos) {j : Nat} (hj : j < pos) :
    stringAt m sharedMemorySize (positionAt b j) ≠ w := by
  have hbefore := (List.find?_range_eq_some.mp h).2.2 j hj
  simpa using hbefore

theorem findWord_eq_none {m : Mem} {b : Bucket} {w : List UInt8} :
    findWord m b w = none ↔
      ∀ pos < maxWordsPerBucket, stringAt m sharedMemorySize (positionAt b pos) ≠ w := by
  simp [findWord]

/-- The loop for a free slot ends at the first slot from `pos` on that begins with a zero. -/
theorem freeSlot_eq {m : Mem} {b : Bucket} {fuel pos free : Nat} (hle : pos ≤ free)
    (hfuel : free < pos + fuel) (hsize : positionAt b free < sharedMemorySize)
    (hfree : m (positionAt b free) = 0)
    (hfull : ∀ j, pos ≤ j → j < free → m (positionAt b j) ≠ 0) :
    freeSlot m b fuel pos = some free := by
  induction fuel generalizing pos with
  | zero => omega
  | succ fuel ih =>
    have hpos : positionAt b pos < sharedMemorySize :=
      Nat.lt_of_le_of_lt (positionAt_mono b hle) hsize
    have hstrlen : 0 < strlen m sharedMemorySize (positionAt b pos) ↔ m (positionAt b pos) ≠ 0 :=
      Nat.pos_iff_ne_zero.trans (not_congr (strlen_eq_zero_iff hpos))
    rw [freeSlot, if_neg (Nat.not_le.mpr hpos)]
    rcases Nat.eq_or_lt_of_le hle with rfl | hlt
    · rw [if_neg fun h => hstrlen.mp h hfree]
    · rw [if_pos (hstrlen.mpr (hfull pos (Nat.le_refl pos) hlt))]
      exact ih hlt (by omega) fun j hj => hfull j (Nat.le_of_succ_le hj)

/-- Where the loop for a free slot ends, a slot begins with a zero, and no other from `pos` on
    does. -/
theorem freeSlot_eq_some {m : Mem} {b : Bucket} {fuel pos free : Nat}
    (h : freeSlot m b fuel pos = some free) :
    pos ≤ free ∧ positionAt b free < sharedMemorySize ∧ m (positionAt b free) = 0 ∧
      ∀ j, pos ≤ j → j < free → m (positionAt b j) ≠ 0 := by
  induction fuel generalizing pos with
  | zero => cases h
  | succ fuel ih =>
    rw [freeSlot] at h
    split at h
    next => cases h
    next hinside =>
      have hpos := Nat.lt_of_not_le hinside
      split at h
      next hstrlen =>
        have hne : m (positionAt b pos) ≠ 0 := fun hzero =>
          Nat.ne_of_gt hstrlen ((strlen_eq_zero_iff hpos).mpr hzero)
        obtain ⟨hle, hsize, hfree, hfull⟩ := ih h
        refine ⟨Nat.le_of_succ_le hle, hsize, hfree, fun j hj hlt => ?_⟩
        rcases Nat.eq_or_lt_of_le hj with rfl | hj
        · exact hne
        · exact hfull j hj hlt
      next hstrlen =>
        obtain rfl := Option.some.inj h
        have hzero := Nat.eq_zero_of_not_pos hstrlen
        exact ⟨Nat.le_refl _, hpos, (strlen_eq_zero_iff hpos).mp hzero,
          fun j hj hlt => absurd hlt (Nat.not_lt.mpr hj)⟩

end WorkAtUPB.LinuxIPC

import Mathlib.Data.Finset.Basic
import Mathlib.Data.Nat.Find
import WorkAtUPB.Lib.Run
import WorkAtUPB.LinuxIPC.HashTable

namespace WorkAtUPB.LinuxIPC

open Bytes CString Run

/-!
# The table as a set of words

`POSITION_AT` leaves 16 bytes for a word and none for its terminator, and the loop that looks
for a free slot runs on into the next bucket:

* `PrintsWords` — the clients read from each bucket the words that belong there, once each;
* `RoomFor` — a new word finds a free slot in its bucket, and no word of 16 bytes touches
  another one;
* `Slots` — the contents of the slots while the table is in order;
* `always_printsWords_iff` — the table is the set of the words exactly while there is room for
  the words that are added.
-/

/-- The table, and the words that were added and not since removed or cleared. -/
structure Table where
  memory : Mem
  words : Finset (List UInt8)

/-- The table after `memset`, before the first message. -/
def Table.empty : Table := ⟨fun _ => 0, ∅⟩

/-- What a message means for the set of words. -/
def Message.apply (words : Finset (List UInt8)) : Message → Finset (List UInt8)
  | .add w => insert w.chars words
  | .remove w => words.erase w.chars
  | .clear => ∅
  | .print | .exit => words

/-- The server processes a message. -/
def process (s : Table) (msg : Message) : Option Table :=
  (serveTable s.memory msg).map fun m => ⟨m, msg.apply s.words⟩

/-- What a client reads from a bucket are the words of the set with its hash, once each. -/
def PrintsWords (s : Table) : Prop :=
  ∀ b, (printBucket s.memory b).Nodup ∧
    ∀ w, w ∈ printBucket s.memory b ↔ w ∈ s.words ∧ hash w = b

/-- The word is in its bucket, or the first free slot is one of the bucket; the slot before that
    one (in the whole table) does not hold a word of full length, and if the word has full
    length, the slot after it is free. -/
def RoomFor (m : Mem) (w : List UInt8) : Prop :=
  (∃ j < maxWordsPerBucket, stringAt m sharedMemorySize (positionAt (hash w) j) = w) ∨
  ∃ pos < maxWordsPerBucket, m (positionAt (hash w) pos) = 0 ∧
    (∀ j < pos, m (positionAt (hash w) j) ≠ 0) ∧
    (w.length = maxWordSize → m (positionAt (hash w) (pos + 1)) = 0) ∧
    ∀ p, positionAt (hash w) pos = p + maxWordSize → strlen m sharedMemorySize p ≠ maxWordSize

/-- There is room for a word that is added. -/
def HasRoom (s : Table) : Message → Prop
  | .add w => RoomFor s.memory w.chars
  | _ => True

/-- The word of the message is not empty, and the message does not end the server. -/
def Message.Proper : Message → Prop
  | .add w | .remove w => w.chars ≠ []
  | .clear | .print => True
  | .exit => False

/-! ### The slots of a table in order -/

/-- The contents of the slots, while the table is in order. -/
structure Slots (s : Table) (slot : Nat → List UInt8) : Prop where
  holds : Holds maxWordSize s.memory slot
  noNul : ∀ k, 0 ∉ slot k
  fits : ∀ k, (slot k).length ≤ maxWordSize
  bucket : ∀ k, slot k ≠ [] → k / maxWordsPerBucket = hash (slot k)
  unique : ∀ k l, slot k ≠ [] → slot k = slot l → k = l
  words : ∀ w, w ∈ s.words ↔ w ≠ [] ∧ ∃ k, slot k = w
  apart : ∀ k, (slot k).length = maxWordSize → slot (k + 1) = []

theorem slots_empty : Slots .empty fun _ => [] where
  holds := fun _ _ _ => rfl
  noNul := fun _ => List.not_mem_nil
  fits := fun _ => Nat.zero_le _
  bucket := fun _ h => absurd rfl h
  unique := fun _ _ h => absurd rfl h
  words := fun w => by simp [Table.empty, eq_comm]
  apart := fun _ _ => rfl

section Contents

variable {s : Table} {slot : Nat → List UInt8}

/-- A list without zeros begins with a zero only if it is empty. -/
theorem getD_zero_iff {w : List UInt8} (hw : 0 ∉ w) : w.getD 0 0 = 0 ↔ w = [] := by
  cases w with
  | nil => simp
  | cons c w =>
    simp only [List.getD_cons_zero, List.cons_ne_nil, iff_false]
    rintro rfl
    exact hw List.mem_cons_self

theorem Slots.free_iff (hs : Slots s slot) (k : Nat) :
    s.memory (maxWordSize * k) = 0 ↔ slot k = [] := by
  rw [hs.holds.head (by decide), getD_zero_iff (hs.noNul k)]

/-- Only the slots of the buckets are in use. -/
theorem Slots.lt (hs : Slots s slot) {k : Nat} (hk : slot k ≠ []) :
    k < bucketCount * maxWordsPerBucket := by
  have hbucket := hs.bucket k hk
  have hlt := (hash (slot k)).isLt
  rw [← hbucket] at hlt
  exact (Nat.div_lt_iff_lt_mul (by decide)).mp hlt

/-- The string at a slot is its content. -/
theorem Slots.stringAt_eq (hs : Slots s slot) {k : Nat}
    (hk : k ≤ bucketCount * maxWordsPerBucket) :
    stringAt s.memory sharedMemorySize (maxWordSize * k) = slot k :=
  hs.holds.stringAt_eq (by decide) (hs.noNul k) (hs.fits k)
    (fun hfull => by rw [hs.apart k hfull]; rfl) (slot_inside hk)

/-- A word is in a slot of its bucket. -/
theorem Slots.home (hs : Slots s slot) {k : Nat} (hk : slot k ≠ []) :
    ∃ pos < maxWordsPerBucket, k = slotIndex (hash (slot k)) pos := eq_slotIndex (hs.bucket k hk)

/-- What a table in order has in a bucket. -/
theorem Slots.mem_printBucket (hs : Slots s slot) {b : Bucket} {w : List UInt8} :
    w ∈ printBucket s.memory b ↔
      ∃ pos < maxWordsPerBucket, slot (slotIndex b pos) = w ∧ w ≠ [] := by
  rw [LinuxIPC.mem_printBucket]
  refine exists_congr fun pos => and_congr_right fun hpos => ?_
  rw [positionAt_eq, Ne, hs.free_iff, hs.stringAt_eq (slotIndex_lt b hpos).le, and_comm]
  exact and_congr_right fun hw => by rw [hw]

/-- A table in order prints its words. -/
theorem Slots.printsWords (hs : Slots s slot) : PrintsWords s := by
  intro b
  constructor
  · -- The same word is not in two slots.
    refine List.Nodup.filterMap ?_ List.nodup_range
    intro j j' w hj hj'
    simp only [Option.mem_def, Option.ite_none_left_eq_some, Option.some.injEq, positionAt_eq,
      hs.free_iff] at hj hj'
    rw [hs.stringAt_eq (hs.lt hj.1).le] at hj
    rw [hs.stringAt_eq (hs.lt hj'.1).le] at hj'
    exact Nat.add_left_cancel (hs.unique _ _ hj.1 (hj.2.trans hj'.2.symm))
  · intro w
    rw [hs.mem_printBucket, hs.words]
    constructor
    · rintro ⟨pos, hpos, rfl, hne⟩
      have hbucket := hs.bucket _ hne
      rw [slotIndex_div hpos] at hbucket
      exact ⟨⟨hne, _, rfl⟩, Fin.ext hbucket.symm⟩
    · rintro ⟨⟨hne, k, rfl⟩, rfl⟩
      obtain ⟨pos, hpos, hk⟩ := hs.home hne
      exact ⟨pos, hpos, by rw [← hk], hne⟩

/-! ### Searching -/

/-- The word is found exactly if it is one of the set. -/
theorem Slots.findWord_eq_none (hs : Slots s slot) {w : List UInt8} (hw : w ≠ []) :
    findWord s.memory (hash w) w = none ↔ w ∉ s.words := by
  rw [LinuxIPC.findWord_eq_none, hs.words]
  constructor
  · rintro hnone ⟨-, k, rfl⟩
    obtain ⟨pos, hpos, hk⟩ := hs.home hw
    refine hnone pos hpos ?_
    rw [positionAt_eq, ← hk, hs.stringAt_eq (hs.lt hw).le]
  · intro hnot pos hpos hstring
    rw [positionAt_eq, hs.stringAt_eq (slotIndex_lt _ hpos).le] at hstring
    exact hnot ⟨hw, _, hstring⟩

/-- A word that is found is in the slot. -/
theorem Slots.findWord_eq_some (hs : Slots s slot) {w : List UInt8} {pos : Nat}
    (h : findWord s.memory (hash w) w = some pos) : slot (slotIndex (hash w) pos) = w := by
  obtain ⟨hpos, hstring⟩ := LinuxIPC.findWord_eq_some h
  rwa [positionAt_eq, hs.stringAt_eq (slotIndex_lt _ hpos).le] at hstring

/-- The first free slot, from the beginning of a bucket on, is the one that the loop finds. -/
theorem Slots.freeSlot (hs : Slots s slot) (b : Bucket) :
    ∃ pos, freeSlot s.memory b sharedMemorySize 0 = some pos ∧
      slotIndex b pos ≤ bucketCount * maxWordsPerBucket ∧ slot (slotIndex b pos) = [] ∧
      ∀ j < pos, slot (slotIndex b j) ≠ [] := by
  -- There is one, at the latest behind the last bucket.
  have hlast :
      slot (slotIndex b (bucketCount * maxWordsPerBucket - b * maxWordsPerBucket)) = [] := by
    by_contra hne
    have hlt := hs.lt hne
    simp only [slotIndex] at hlt
    omega
  have hex : ∃ pos, slot (slotIndex b pos) = [] := ⟨_, hlast⟩
  obtain ⟨pos, hfree, hmin⟩ : ∃ pos, slot (slotIndex b pos) = [] ∧
      ∀ j < pos, slot (slotIndex b j) ≠ [] :=
    ⟨Nat.find hex, Nat.find_spec hex, fun _ => Nat.find_min hex⟩
  have hinside : slotIndex b pos ≤ bucketCount * maxWordsPerBucket := by
    have hle := Nat.le_of_not_lt fun hlt => hmin _ hlt hlast
    have hb := b.isLt
    simp only [slotIndex, bucketCount, maxWordsPerBucket] at hle hb ⊢
    omega
  refine ⟨pos, ?_, hinside, hfree, hmin⟩
  have haddr := slot_inside hinside
  refine freeSlot_eq (Nat.zero_le _) ?_ ?_ ?_ fun j _ hj => ?_
  · simp only [slotIndex, maxWordSize] at haddr
    omega
  · rw [positionAt_eq]
    omega
  · rw [positionAt_eq, hs.free_iff]
    exact hfree
  · rw [positionAt_eq, Ne, hs.free_iff]
    exact hmin j hj

/-! ### Changing a slot -/

/-- A slot gets another content, which is in no other slot and touches no word of full length. -/
theorem Slots.update (hs : Slots s slot) {m : Mem} {words : Finset (List UInt8)} {k : Nat}
    {w : List UInt8} (hholds : Holds maxWordSize m (Function.update slot k w))
    (hnoNul : 0 ∉ w) (hfits : w.length ≤ maxWordSize)
    (hbucket : w ≠ [] → k / maxWordsPerBucket = hash w)
    (hnew : ∀ l, l ≠ k → slot l ≠ [] → slot l ≠ w)
    (hwords : ∀ x, x ∈ words ↔ x ≠ [] ∧ ∃ l, Function.update slot k w l = x)
    (hnext : w.length = maxWordSize → slot (k + 1) = [])
    (hprev : w ≠ [] → ∀ l, k = l + 1 → (slot l).length ≠ maxWordSize) :
    Slots ⟨m, words⟩ (Function.update slot k w) := by
  have hupdate : ∀ l, Function.update slot k w l = if l = k then w else slot l :=
    fun l => Function.update_apply slot k w l
  refine ⟨hholds, fun l => ?_, fun l => ?_, fun l hl => ?_, fun l l' hl heq => ?_, hwords,
    fun l hfull => ?_⟩
  · rw [hupdate]
    split
    · exact hnoNul
    · exact hs.noNul l
  · rw [hupdate]
    split
    · exact hfits
    · exact hs.fits l
  · rw [hupdate] at hl ⊢
    split at hl
    · next hlk => simpa [hlk] using hbucket hl
    · next hlk => simpa [hlk] using hs.bucket l hl
  -- A slot that holds the same word is the new one, or it was the same slot before.
  · simp only [hupdate] at hl heq
    by_cases hlk : l = k <;> by_cases hlk' : l' = k
    · exact hlk.trans hlk'.symm
    · simp only [hlk, hlk', if_true, if_false] at hl heq
      exact absurd heq.symm (hnew l' hlk' (heq ▸ hl))
    · simp only [hlk, hlk', if_true, if_false] at hl heq
      exact absurd heq (hnew l hlk hl)
    · simp only [hlk, hlk', if_false] at hl heq
      exact hs.unique l l' hl heq
  · rw [hupdate] at hfull ⊢
    -- Behind a word of full length comes an empty slot.
    by_cases hlk : l = k
    · subst hlk
      rw [if_pos rfl] at hfull
      rw [if_neg (Nat.succ_ne_self l)]
      exact hnext hfull
    · rw [if_neg hlk] at hfull
      split
      · next hl =>
        by_contra hw
        exact hprev hw l hl.symm hfull
      · exact hs.apart l hfull

/-! ### Adding a word -/

/-- A new word goes to the first free slot from the beginning of its bucket on. -/
theorem Slots.addWord (hs : Slots s slot) {w : List UInt8} (hne : w ≠ []) (hnew : w ∉ s.words)
    (hfits : w.length ≤ maxWordSize) :
    ∃ pos, slot (slotIndex (hash w) pos) = [] ∧ (∀ j < pos, slot (slotIndex (hash w) j) ≠ []) ∧
      addWord s.memory w =
        some (strcpy s.memory (maxWordSize * slotIndex (hash w) pos) w) := by
  obtain ⟨pos, hfound, hinside, hfree, hmin⟩ := hs.freeSlot (hash w)
  refine ⟨pos, hfree, hmin, ?_⟩
  have haddr := slot_inside hinside
  unfold LinuxIPC.addWord
  simp only [(hs.findWord_eq_none hne).mpr hnew, hfound, Option.bind_some, positionAt_eq]
  rw [if_pos (by omega)]

/-- If the free slot is one of the word's bucket and no word of full length touches another one,
    the table with the new word is in order. -/
theorem Slots.add (hs : Slots s slot) {w : List UInt8} {k : Nat} (hne : w ≠ []) (hnoNul : 0 ∉ w)
    (hfits : w.length ≤ maxWordSize) (hnew : w ∉ s.words) (hfree : slot k = [])
    (hbucket : k / maxWordsPerBucket = hash w)
    (hnext : w.length = maxWordSize → slot (k + 1) = [])
    (hprev : ∀ l, k = l + 1 → (slot l).length ≠ maxWordSize) :
    Slots ⟨strcpy s.memory (maxWordSize * k) w, insert w s.words⟩ (Function.update slot k w) := by
  have hslot : ∀ l, slot l ≠ w := fun l hl => hnew ((hs.words w).mpr ⟨hne, l, hl⟩)
  refine hs.update ?_ hnoNul hfits (fun _ => hbucket) (fun l _ _ => hslot l) (fun x => ?_) hnext
    fun _ => hprev
  · -- The terminator of a word of full length goes to a free slot.
    refine (hs.holds.strcpy (by decide) hfree hfits).congr fun l i _ => ?_
    by_cases hl : l = k
    · subst hl
      rw [copied_self, Function.update_self]
    · rw [Function.update_of_ne hl]
      by_cases hfull : l = k + 1 ∧ w.length = maxWordSize
      · obtain ⟨rfl, hfull⟩ := hfull
        rw [copied_next hfull, hnext hfull]
        cases i <;> rfl
      · rw [copied_of_ne hl hfull]
  · rw [Finset.mem_insert, hs.words]
    constructor
    · rintro (rfl | ⟨hx, l, hl⟩)
      · exact ⟨hne, k, Function.update_self ..⟩
      · have hlk : l ≠ k := by
          rintro rfl
          exact hx (hl ▸ hfree)
        exact ⟨hx, l, (Function.update_of_ne hlk ..).trans hl⟩
    · rintro ⟨hx, l, hl⟩
      rw [Function.update_apply] at hl
      split at hl
      · exact Or.inl hl.symm
      · exact Or.inr ⟨hx, l, hl⟩

/-- A word that is printed after a copy is the content of a slot of the bucket, and if it has
    full length, the next slot begins with a zero. -/
theorem Slots.copied_of_printed (hs : Slots s slot) {w : List UInt8} {k : Nat} (hnoNul : 0 ∉ w)
    (hfits : w.length ≤ maxWordSize) (hfree : slot k = []) {b : Bucket} {x : List UInt8}
    (hx : x ∈ printBucket (strcpy s.memory (maxWordSize * k) w) b)
    (hshort : x.length ≤ maxWordSize) :
    ∃ l, l / maxWordsPerBucket = b ∧ ¬ (l = k + 1 ∧ w.length = maxWordSize) ∧
      copied maxWordSize slot k w l = x ∧
      (x.length = maxWordSize → (copied maxWordSize slot k w (l + 1)).getD 0 0 = 0) := by
  obtain ⟨pos, hpos, hhead, hstring⟩ := LinuxIPC.mem_printBucket.mp hx
  have hholds := hs.holds.strcpy (by decide) hfree hfits
  have hinside := slot_inside (slotIndex_lt b hpos).le
  rw [positionAt_eq] at hhead hstring
  rw [hholds.head (by decide)] at hhead
  have hcut : ¬ (slotIndex b pos = k + 1 ∧ w.length = maxWordSize) := by
    rintro ⟨hl, hfull⟩
    rw [hl, copied_next hfull] at hhead
    exact hhead rfl
  -- So there is no zero in the slot.
  have hcontent : 0 ∉ copied maxWordSize slot k w (slotIndex b pos) ∧
      (copied maxWordSize slot k w (slotIndex b pos)).length ≤ maxWordSize := by
    by_cases hl : slotIndex b pos = k
    · rw [hl, copied_self]
      exact ⟨hnoNul, hfits⟩
    · rw [copied_of_ne hl hcut]
      exact ⟨hs.noNul _, hs.fits _⟩
  obtain ⟨hcopied, hnext⟩ := hholds.eq_of_stringAt (by decide) hcontent.1 hcontent.2 hinside
    (by rw [strlen, hstring]; exact hshort)
  rw [hstring] at hcopied
  exact ⟨_, slotIndex_div hpos, hcut, hcopied.symm, fun hfull => hnext (by rw [← hcopied, hfull])⟩

/-- If the table with the new word prints its words, there was room for the word. -/
theorem Slots.room_of_printsWords (hs : Slots s slot) {w : List UInt8} {k : Nat} (hne : w ≠ [])
    (hnoNul : 0 ∉ w) (hfits : w.length ≤ maxWordSize) (hnew : w ∉ s.words) (hfree : slot k = [])
    (hprints : PrintsWords ⟨strcpy s.memory (maxWordSize * k) w, insert w s.words⟩) :
    k / maxWordsPerBucket = hash w ∧ (w.length = maxWordSize → slot (k + 1) = []) ∧
      ∀ l, k = l + 1 → (slot l).length ≠ maxWordSize := by
  have hslot : ∀ l, slot l ≠ w := fun l hl => hnew ((hs.words w).mpr ⟨hne, l, hl⟩)
  have hfound : ∀ x ∈ insert w s.words, x.length ≤ maxWordSize →
      ∃ l, l / maxWordsPerBucket = hash x ∧ ¬ (l = k + 1 ∧ w.length = maxWordSize) ∧
        copied maxWordSize slot k w l = x ∧
        (x.length = maxWordSize → (copied maxWordSize slot k w (l + 1)).getD 0 0 = 0) :=
    fun x hx hshort => hs.copied_of_printed hnoNul hfits hfree
      (((hprints (hash x)).2 x).mpr ⟨hx, rfl⟩) hshort
  -- A word that was there before is printed from its old slot.
  have hold : ∀ l, slot l ≠ [] → ¬ (l = k + 1 ∧ w.length = maxWordSize) ∧
      ((slot l).length = maxWordSize →
        (copied maxWordSize slot k w (l + 1)).getD 0 0 = 0) := by
    intro l hl
    obtain ⟨l', -, hcut, hcopied, hnext⟩ := hfound (slot l)
      (Finset.mem_insert_of_mem ((hs.words _).mpr ⟨hl, l, rfl⟩)) (hs.fits l)
    have hlk : l' ≠ k := by
      rintro rfl
      rw [copied_self] at hcopied
      exact hslot l hcopied.symm
    rw [copied_of_ne hlk hcut] at hcopied
    obtain rfl := hs.unique l l' hl hcopied.symm
    exact ⟨hcut, hnext⟩
  refine ⟨?_, ?_, ?_⟩
  · obtain ⟨l, hbucket, hcut, hcopied, -⟩ := hfound w (Finset.mem_insert_self w s.words) hfits
    by_cases hlk : l = k
    · exact hlk ▸ hbucket
    · rw [copied_of_ne hlk hcut] at hcopied
      exact absurd hcopied (hslot l)
  · intro hfull
    by_contra hnext
    exact (hold (k + 1) hnext).1 ⟨rfl, hfull⟩
  · rintro l rfl hfull
    have hl : slot l ≠ [] := by
      intro hnil
      rw [hnil] at hfull
      cases hfull
    have hzero := (hold l hl).2 hfull
    rw [copied_self] at hzero
    exact hne ((getD_zero_iff hnoNul).mp hzero)

/-- The room for a new word, in terms of the slots. -/
theorem Slots.roomFor_iff (hs : Slots s slot) {w : List UInt8} {pos : Nat} (hne : w ≠ [])
    (hnew : w ∉ s.words) (hfree : slot (slotIndex (hash w) pos) = [])
    (hmin : ∀ j < pos, slot (slotIndex (hash w) j) ≠ []) :
    RoomFor s.memory w ↔
      slotIndex (hash w) pos / maxWordsPerBucket = hash w ∧
      (w.length = maxWordSize → slot (slotIndex (hash w) pos + 1) = []) ∧
      ∀ l, slotIndex (hash w) pos = l + 1 → (slot l).length ≠ maxWordSize := by
  have hzero : ∀ j, s.memory (positionAt (hash w) j) = 0 ↔ slot (slotIndex (hash w) j) = [] :=
    fun j => by rw [positionAt_eq, hs.free_iff]
  have hafter := hzero (pos + 1)
  rw [slotIndex_succ] at hafter
  have hprev : pos < maxWordsPerBucket → ((∀ p, positionAt (hash w) pos = p + maxWordSize →
      strlen s.memory sharedMemorySize p ≠ maxWordSize) ↔
        ∀ l, slotIndex (hash w) pos = l + 1 → (slot l).length ≠ maxWordSize) := by
    intro hpos
    have hinside := slotIndex_lt (hash w) hpos
    have hstrlen : ∀ l, slotIndex (hash w) pos = l + 1 →
        strlen s.memory sharedMemorySize (maxWordSize * l) = (slot l).length := fun l hl => by
      have hle : l ≤ bucketCount * maxWordsPerBucket := by
        rw [hl] at hinside
        exact (Nat.lt_of_succ_lt hinside).le
      rw [strlen, hs.stringAt_eq hle]
    rw [positionAt_eq]
    constructor
    · intro h l hl
      rw [← hstrlen l hl]
      exact h (maxWordSize * l) (by rw [hl, Nat.mul_succ])
    · intro h p hp
      have hne0 : slotIndex (hash w) pos ≠ 0 := by
        intro h0
        rw [h0] at hp
        simp only [maxWordSize] at hp
        omega
      obtain ⟨l, hl⟩ := Nat.exists_eq_succ_of_ne_zero hne0
      rw [hl, Nat.mul_succ] at hp
      have hpl : p = maxWordSize * l := (Nat.add_right_cancel hp).symm
      rw [hpl, hstrlen l hl]
      exact h l hl
  constructor
  · rintro (⟨j, hj, hstring⟩ | ⟨pos', hpos', hfree', hmin', hnext', hprev'⟩)
    · rw [positionAt_eq, hs.stringAt_eq (slotIndex_lt _ hj).le] at hstring
      exact absurd ((hs.words w).mpr ⟨hne, _, hstring⟩) hnew
    · -- Both are the first free slot.
      obtain rfl : pos' = pos := first_unique ((hzero pos').mp hfree')
        (fun j hj h => hmin' j hj ((hzero j).mpr h)) hfree hmin
      exact ⟨slotIndex_div hpos', fun hfull => hafter.mp (hnext' hfull),
        (hprev hpos').mp hprev'⟩
  · rintro ⟨hbucket, hnext, hprev'⟩
    have hpos : pos < maxWordsPerBucket := by
      simp only [slotIndex, maxWordsPerBucket] at hbucket ⊢
      omega
    exact Or.inr ⟨pos, hpos, (hzero pos).mpr hfree, fun j hj h => hmin j hj ((hzero j).mp h),
      fun hfull => hafter.mpr (hnext hfull), (hprev hpos).mpr hprev'⟩

/-! ### The messages -/

/-- Removing a word empties its slot. -/
theorem Slots.remove (hs : Slots s slot) {w : List UInt8} (hne : w ≠ []) :
    ∃ slot', Slots ⟨removeWord s.memory w, s.words.erase w⟩ slot' := by
  cases hfind : findWord s.memory (hash w) w with
  -- The word is in no slot, and the set does not have it either.
  | none =>
    have hnot := (hs.findWord_eq_none hne).mp hfind
    have hsame : removeWord s.memory w = s.memory := by simp [removeWord, hfind]
    rw [hsame, Finset.erase_eq_of_notMem hnot]
    exact ⟨slot, hs⟩
  | some pos =>
    have hslot := hs.findWord_eq_some hfind
    have hremove : removeWord s.memory w =
        memset s.memory (maxWordSize * slotIndex (hash w) pos) 0 w.length := by
      simp [removeWord, hfind, positionAt_eq]
    rw [hremove]
    generalize slotIndex (hash w) pos = k at hslot
    subst hslot
    refine ⟨Function.update slot k [], hs.update (hs.holds.memset (hs.fits k)) List.not_mem_nil
      (Nat.zero_le _) (absurd rfl) (fun _ _ hl => hl) (fun x => ?_) nofun (absurd rfl)⟩
    rw [Finset.mem_erase, hs.words]
    constructor
    · rintro ⟨hx, hxne, l, rfl⟩
      have hlk : l ≠ k := fun hlk => hx (by rw [hlk])
      exact ⟨hxne, l, Function.update_of_ne hlk ..⟩
    -- No other slot holds the word, so what is left is not the word.
    · rintro ⟨hxne, l, hl⟩
      rw [Function.update_apply] at hl
      split at hl
      · exact absurd hl.symm hxne
      · next hlk =>
        refine ⟨fun hx => hlk ?_, hxne, l, hl⟩
        exact hs.unique l k (hl ▸ hxne) (hl.trans hx)

/-- Clearing empties all slots. -/
theorem Slots.clear (hs : Slots s slot) : Slots ⟨clearTable s.memory, ∅⟩ fun _ => [] := by
  refine { slots_empty with holds := fun k i hi => ?_ }
  show (if 0 ≤ maxWordSize * k + i ∧ maxWordSize * k + i < 0 + sharedMemorySize then 0
    else s.memory (maxWordSize * k + i)) = 0
  split
  · rfl
  · next hout =>
    -- Behind the block there is nothing but zeros.
    have hfree : slot k = [] := by
      by_contra hne
      have haddr := slot_inside (hs.lt hne).le
      omega
    rw [hs.holds k i hi, hfree]
    rfl

/-- The server always processes a message with a word, and then the table is in order, if there
    was room, or does not print its words. -/
theorem Slots.process (hs : Slots s slot) {msg : Message} (hmsg : msg.Proper) :
    ∃ s', process s msg = some s' ∧ (HasRoom s msg → ∃ slot', Slots s' slot') ∧
      (PrintsWords s' → HasRoom s msg) := by
  cases msg with
  | add w =>
    by_cases hnew : w.chars ∈ s.words
    · -- A word of the set is found, and nothing changes.
      have hfound : findWord s.memory (hash w.chars) w.chars ≠ none :=
        fun h => (hs.findWord_eq_none hmsg).mp h hnew
      obtain ⟨pos, hpos⟩ := Option.ne_none_iff_exists'.mp hfound
      refine ⟨s, ?_, fun _ => ⟨slot, hs⟩, fun _ => Or.inl ⟨pos, LinuxIPC.findWord_eq_some hpos⟩⟩
      simp [LinuxIPC.process, serveTable, LinuxIPC.addWord, hpos, Message.apply, hnew]
    · obtain ⟨pos, hfree, hmin, hadd⟩ := hs.addWord hmsg hnew w.fits
      have hroom := hs.roomFor_iff hmsg hnew hfree hmin
      refine ⟨_, by rw [LinuxIPC.process, serveTable, hadd]; rfl, fun h => ?_, fun h => ?_⟩
      · obtain ⟨hbucket, hnext, hprev⟩ := hroom.mp h
        exact ⟨_, hs.add hmsg w.noNul w.fits hnew hfree hbucket hnext hprev⟩
      · exact hroom.mpr (hs.room_of_printsWords hmsg w.noNul w.fits hnew hfree h)
  | remove w => exact ⟨_, rfl, fun _ => hs.remove hmsg, fun _ => trivial⟩
  | clear => exact ⟨_, rfl, fun _ => ⟨_, hs.clear⟩, fun _ => trivial⟩
  | print => exact ⟨s, rfl, fun _ => ⟨slot, hs⟩, fun _ => trivial⟩
  | exit => exact hmsg.elim

end Contents

/-- **A set of words.**  For every sequence of messages with words that are not empty: after each
    of them what the clients read from each bucket are the words of the set that belong there, once
    each, exactly when there is room for each word that is added. -/
theorem always_printsWords_iff (msgs : List Message) (hmsgs : ∀ msg ∈ msgs, msg.Proper) :
    Always process PrintsWords .empty msgs ↔ EachStep process HasRoom .empty msgs := by
  refine always_iff_eachStep_budget
    (J := fun s msgs => (∃ slot, Slots s slot) ∧ ∀ msg ∈ msgs, msg.Proper) ?_ ?_ ?_
    ⟨⟨_, slots_empty⟩, hmsgs⟩ slots_empty.printsWords
  · rintro s msg msgs s' ⟨⟨slot, hs⟩, hproper⟩ - hstep hprints
    obtain ⟨t, ht, hslots, hroom⟩ := hs.process (hproper msg List.mem_cons_self)
    obtain rfl := Option.some.inj (hstep.symm.trans ht)
    exact ⟨hslots (hroom hprints), fun m hm => hproper m (List.mem_cons_of_mem msg hm)⟩
  · rintro s msg msgs s' ⟨⟨slot, hs⟩, hproper⟩ - hstep
    obtain ⟨t, ht, hslots, hroom⟩ := hs.process (hproper msg List.mem_cons_self)
    obtain rfl := Option.some.inj (hstep.symm.trans ht)
    exact ⟨hroom, fun h => (hslots h).elim fun _ hs' => hs'.printsWords⟩
  · rintro s msg msgs ⟨⟨slot, hs⟩, hproper⟩ - hstuck
    obtain ⟨t, ht, -⟩ := hs.process (hproper msg List.mem_cons_self)
    rw [hstuck] at ht
    cases ht

/-- Sixteen times the letter `a`, whose hash is that of the word `p`. -/
def longWord : Word := ⟨List.replicate maxWordSize 97, by decide, by decide⟩

/-- There is room for a word in the empty table. -/
theorem always_printsWords_one :
    Always process PrintsWords .empty [.add shortWord, .remove shortWord, .print] := by
  refine (always_printsWords_iff _ (by simp [Message.Proper, shortWord])).mpr
    ⟨Or.inr ⟨0, by decide, rfl, nofun, nofun, fun p hp => ?_⟩, fun _ _ => ⟨trivial, fun _ _ =>
      ⟨trivial, fun _ _ => trivial⟩⟩⟩
  have hinside : p < sharedMemorySize := by
    have haddr : positionAt (hash shortWord.chars) 0 < sharedMemorySize := by decide
    omega
  rw [(strlen_eq_zero_iff hinside).mpr rfl]
  decide

/-- **Two words in one.**  A word of full length has no terminator once another word comes to
    the slot behind it: the clients read both as one word. -/
theorem not_printsWords : ¬ ∀ msgs : List Message, (∀ msg ∈ msgs, msg.Proper) →
    Always process PrintsWords .empty msgs := by
  intro h
  have hall := h [.add longWord, .add shortWord]
    (by simp [Message.Proper, longWord, shortWord, maxWordSize])
  have hbad : (run process .empty [.add longWord, .add shortWord]).any (fun s =>
      decide (longWord.chars ∈ s.words ∧
        longWord.chars ∉ printBucket s.memory (hash longWord.chars))) = true := by
    decide +kernel
  obtain ⟨s, hrun, hs⟩ := (Option.any_eq_true _ _).mp hbad
  obtain ⟨hmem, hnot⟩ := of_decide_eq_true hs
  exact hnot (((hall.last hrun _).2 _).mpr ⟨hmem, rfl⟩)

end WorkAtUPB.LinuxIPC

import WorkAtUPB.LinuxIPC.WordSet

namespace WorkAtUPB.LinuxIPC

open Bytes CString Run

/-!
# The buckets of the table

An operation on a bucket is done under the semaphore of that bucket alone, so it is to leave the
other buckets as they are:

* `Isolated` — a message about a bucket changes no byte outside of it, and the clients read from
  the others what they did;
* `Apart` — no string of another bucket runs up to a slot;
* `Confined` — a new word finds a free slot in its bucket, and its terminator changes nothing
  behind the bucket; and the slot that is written or emptied is apart;
* `isolated_iff` — whatever the table holds, a message is isolated exactly if it is confined;
* `eachStep_isolated_iff` — the same for whole runs;
* `not_isolated` — two words of full length, added in turn, fill a bucket and go on in the next.
-/

/-- The bytes that `POSITION_AT` assigns to a bucket. -/
def InBucket (b : Bucket) (a : Nat) : Prop :=
  positionAt b 0 ≤ a ∧ a < positionAt b maxWordsPerBucket

/-- The bucket that a message is about. -/
def Message.bucket : Message → Option Bucket
  | .add w | .remove w => some (hash w.chars)
  | _ => none

/-- The server processes the message, changes no byte outside of its bucket, and nothing that the
    clients read from another one. -/
def Isolated (s : Table) (msg : Message) : Prop :=
  ∀ b, msg.bucket = some b → ∃ s', process s msg = some s' ∧
    (∀ a, ¬ InBucket b a → s'.memory a = s.memory a) ∧
    ∀ b', b' ≠ b → printBucket s'.memory b' = printBucket s.memory b'

/-- Every string of another bucket that begins before the slot ends before it. -/
def Apart (m : Mem) (b : Bucket) (pos : Nat) : Prop :=
  ∀ b', b' ≠ b → ∀ j < maxWordsPerBucket, positionAt b' j < positionAt b pos →
    positionAt b' j + strlen m sharedMemorySize (positionAt b' j) < positionAt b pos

/-- A word that is added is in its bucket, or its first free slot is one of the bucket, apart, and
    if it is the last one and the word has full length, the byte behind the bucket is zero.  A
    word that is removed is not in its bucket, or its slot is apart. -/
def Confined (s : Table) : Message → Prop
  | .add w =>
    (∃ j < maxWordsPerBucket,
      stringAt s.memory sharedMemorySize (positionAt (hash w.chars) j) = w.chars) ∨
    ∃ pos < maxWordsPerBucket, s.memory (positionAt (hash w.chars) pos) = 0 ∧
      (∀ j < pos, s.memory (positionAt (hash w.chars) j) ≠ 0) ∧
      (pos + 1 = maxWordsPerBucket → w.chars.length = maxWordSize →
        s.memory (positionAt (hash w.chars) (pos + 1)) = 0) ∧
      Apart s.memory (hash w.chars) pos
  | .remove w =>
    ∀ pos < maxWordsPerBucket,
      stringAt s.memory sharedMemorySize (positionAt (hash w.chars) pos) = w.chars →
      (∀ j < pos, stringAt s.memory sharedMemorySize (positionAt (hash w.chars) j) ≠ w.chars) →
        Apart s.memory (hash w.chars) pos
  | _ => True

/-! ### What the readers of the other buckets see -/

variable {m m' : Mem} {b : Bucket}

/-- A slot of another bucket is outside. -/
theorem not_inBucket_of_ne {b' : Bucket} (hb : b' ≠ b) {j : Nat} (hj : j < maxWordsPerBucket) :
    ¬ InBucket b (positionAt b' j) := by
  have hne : (b' : Nat) ≠ b := fun h => hb (Fin.ext h)
  simp only [InBucket, positionAt, maxWordsPerBucket, maxWordSize] at hj ⊢
  omega

/-- A slot of another bucket that is not before a slot of this one is behind the bucket. -/
theorem behind_of_ne {b' : Bucket} (hb : b' ≠ b) {j pos : Nat} (hj : j < maxWordsPerBucket)
    (hpos : pos < maxWordsPerBucket) (hle : positionAt b pos ≤ positionAt b' j) :
    positionAt b maxWordsPerBucket ≤ positionAt b' j := by
  have hne : (b' : Nat) ≠ b := fun h => hb (Fin.ext h)
  simp only [positionAt, maxWordsPerBucket, maxWordSize] at hj hpos hle ⊢
  omega

theorem position_inside {pos : Nat} (hpos : pos < maxWordsPerBucket) :
    positionAt b pos + maxWordSize < sharedMemorySize := by
  rw [positionAt_eq]
  exact slot_inside (slotIndex_lt b hpos).le

theorem filterMap_inj {α β : Type*} {f g : α → Option β} {l : List α}
    (hsome : ∀ x ∈ l, (f x).isSome = (g x).isSome) (h : l.filterMap f = l.filterMap g) :
    ∀ x ∈ l, f x = g x := by
  induction l with
  | nil => exact fun _ hx => absurd hx List.not_mem_nil
  | cons x l ih =>
    have hhead := hsome x List.mem_cons_self
    have htail := fun y hy => hsome y (List.mem_cons_of_mem x hy)
    intro y hy
    cases hf : f x with
    | none =>
      have hg : g x = none := by rwa [hf, Option.isSome_none, eq_comm,
        Option.isSome_eq_false_iff, Option.isNone_iff_eq_none] at hhead
      rw [List.filterMap_cons_none hf, List.filterMap_cons_none hg] at h
      rcases List.mem_cons.mp hy with rfl | hy
      · rw [hf, hg]
      · exact ih htail h y hy
    | some c =>
      obtain ⟨d, hg⟩ : ∃ d, g x = some d := by
        rw [hf, Option.isSome_some, eq_comm] at hhead
        exact Option.isSome_iff_exists.mp hhead
      rw [List.filterMap_cons_some hf, List.filterMap_cons_some hg] at h
      obtain ⟨hcd, h⟩ := List.cons.inj h
      rcases List.mem_cons.mp hy with rfl | hy
      · rw [hf, hg, hcd]
      · exact ih htail h y hy

/-- With the same slots in use, the same is printed only if the same strings are in them. -/
theorem stringAt_of_printBucket (hhead : ∀ j < maxWordsPerBucket,
      m' (positionAt b j) = 0 ↔ m (positionAt b j) = 0)
    (h : printBucket m' b = printBucket m b) {j : Nat} (hj : j < maxWordsPerBucket)
    (hne : m (positionAt b j) ≠ 0) :
    stringAt m' sharedMemorySize (positionAt b j) =
      stringAt m sharedMemorySize (positionAt b j) := by
  have hne' : m' (positionAt b j) ≠ 0 := fun hzero => hne ((hhead j hj).mp hzero)
  have heq := filterMap_inj (fun i hi => ?_) h j (List.mem_range.mpr hj)
  · rwa [if_neg hne, if_neg hne', Option.some.injEq] at heq
  · have hi' := hhead i (List.mem_range.mp hi)
    by_cases hzero : m (positionAt b i) = 0
    · rw [if_pos hzero, if_pos (hi'.mpr hzero)]
    · rw [if_neg hzero, if_neg fun hzero' => hzero (hi'.mp hzero')]
      rfl

/-- A change from a slot on to the end of the bucket is not seen from the other buckets if the
    slot is apart. -/
theorem printBucket_of_apart {pos : Nat} (hpos : pos < maxWordsPerBucket)
    (hout : ∀ a, ¬ InBucket b a → m' a = m a) (hbefore : ∀ a < positionAt b pos, m' a = m a)
    (hapart : Apart m b pos) {b' : Bucket} (hb : b' ≠ b) :
    printBucket m' b' = printBucket m b' := by
  refine List.filterMap_congr fun j hj => ?_
  have hj' := List.mem_range.mp hj
  have hstring : stringAt m' sharedMemorySize (positionAt b' j) =
      stringAt m sharedMemorySize (positionAt b' j) := by
    refine stringAt_congr fun i hi => ?_
    rcases Nat.lt_or_ge (positionAt b' j) (positionAt b pos) with hlt | hge
    · have hend := hapart b' hb j hj' hlt
      exact hbefore _ (by omega)
    · have hbehind := behind_of_ne hb hj' hpos hge
      refine hout _ fun hin => ?_
      have hlt := hin.2
      omega
  rw [hstring, hout _ (not_inBucket_of_ne hb hj')]

/-- If the first byte of the slot becomes zero, or is not zero any more, the change is seen unless
    the slot is apart. -/
theorem apart_of_printBucket {pos : Nat} (hpos : pos < maxWordsPerBucket)
    (hout : ∀ a, ¬ InBucket b a → m' a = m a)
    (hfirst : m (positionAt b pos) = 0 ↔ m' (positionAt b pos) ≠ 0)
    (hprint : ∀ b', b' ≠ b → printBucket m' b' = printBucket m b') : Apart m b pos := by
  intro b' hb j hj hlt
  by_contra hlong
  have hinside := @position_inside b pos hpos
  have hhead : ∀ i < maxWordsPerBucket, m' (positionAt b' i) = 0 ↔ m (positionAt b' i) = 0 :=
    fun i hi => by rw [hout _ (not_inBucket_of_ne hb hi)]
  obtain ⟨n, hn⟩ : ∃ n, positionAt b pos = positionAt b' j + n :=
    Nat.exists_eq_add_of_le hlt.le
  have hne : m (positionAt b' j) ≠ 0 :=
    @ne_zero_of_lt_strlen m sharedMemorySize (positionAt b' j) 0 (by omega)
  have hsame : strlen m' sharedMemorySize (positionAt b' j) =
      strlen m sharedMemorySize (positionAt b' j) :=
    congrArg List.length (stringAt_of_printBucket hhead (hprint b' hb) hj hne)
  rw [hn] at hfirst hinside
  -- The string ends at the slot where its first byte is zero, and does not end there otherwise.
  by_cases hzero : m (positionAt b' j + n) = 0
  · have hle := @strlen_le m sharedMemorySize n (positionAt b' j) hzero
    have hend : strlen m' sharedMemorySize (positionAt b' j) = n := by omega
    have hbyte := @eq_zero_of_strlen m' sharedMemorySize (positionAt b' j) (by omega)
    rw [hend] at hbyte
    exact hfirst.mp hzero hbyte
  · have hzero' : m' (positionAt b' j + n) = 0 := by
      by_contra hne'
      exact hzero (hfirst.mpr hne')
    have hle := @strlen_le m' sharedMemorySize n (positionAt b' j) hzero'
    have hend : strlen m sharedMemorySize (positionAt b' j) = n := by omega
    have hbyte := @eq_zero_of_strlen m sharedMemorySize (positionAt b' j) (by omega)
    rw [hend] at hbyte
    exact hzero hbyte

/-- So a change from a slot on, to its first byte at least, is not seen from the other buckets
    exactly if the slot is apart. -/
theorem printBucket_iff_apart {pos : Nat} (hpos : pos < maxWordsPerBucket)
    (hout : ∀ a, ¬ InBucket b a → m' a = m a) (hbefore : ∀ a < positionAt b pos, m' a = m a)
    (hfirst : m (positionAt b pos) = 0 ↔ m' (positionAt b pos) ≠ 0) :
    (∀ b', b' ≠ b → printBucket m' b' = printBucket m b') ↔ Apart m b pos := by
  constructor
  · exact apart_of_printBucket hpos hout hfirst
  · intro hapart b' hb
    exact printBucket_of_apart hpos hout hbefore hapart hb

/-! ### Adding and removing -/

/-- The word is copied to the slot: what changes is from its first byte to its terminator. -/
theorem strcpy_of_lt {w : List UInt8} {p a : Nat} (h : a < p ∨ p + w.length < a) :
    strcpy m p w a = m a := by
  refine writeBytes_of_not_mem ?_
  rw [List.length_append, List.length_singleton]
  omega

theorem strcpy_first {w : List UInt8} {p : Nat} (hne : w ≠ []) (hnoNul : 0 ∉ w) :
    strcpy m p w p ≠ 0 := by
  obtain ⟨c, w, rfl⟩ := List.exists_cons_of_ne_nil hne
  have hbyte : strcpy m p (c :: w) p = c := by
    simp [CString.strcpy, writeBytes]
  rw [hbyte]
  exact fun hzero => hnoNul (hzero ▸ List.mem_cons_self)

theorem strcpy_terminator {w : List UInt8} {p : Nat} : strcpy m p w (p + w.length) = 0 := by
  simp [CString.strcpy, writeBytes]

/-- A new word whose first free slot is `pos` is copied there. -/
theorem addWord_of_free {w : List UInt8} {pos : Nat}
    (hinside : positionAt (hash w) pos + maxWordSize < sharedMemorySize)
    (hfits : w.length ≤ maxWordSize) (hfind : findWord m (hash w) w = none)
    (hfree : m (positionAt (hash w) pos) = 0)
    (hfull : ∀ j < pos, m (positionAt (hash w) j) ≠ 0) :
    addWord m w = some (strcpy m (positionAt (hash w) pos) w) := by
  have hfuel : pos < 0 + sharedMemorySize := by
    simp only [positionAt, maxWordSize] at hinside
    omega
  have hslot := freeSlot_eq (Nat.zero_le pos) hfuel (by omega) hfree fun j _ => hfull j
  unfold addWord
  dsimp only
  rw [hfind, hslot]
  dsimp only [Option.bind_some]
  rw [if_pos (by omega)]

/-- With the bucket full, a new word goes to another one, if anywhere. -/
theorem addWord_of_full {w : List UInt8} (hne : w ≠ []) (hnoNul : 0 ∉ w)
    (hfind : findWord m (hash w) w = none)
    (hfull : ∀ j < maxWordsPerBucket, m (positionAt (hash w) j) ≠ 0)
    (hadd : addWord m w = some m') : ∃ a, ¬ InBucket (hash w) a ∧ m' a ≠ m a := by
  unfold addWord at hadd
  dsimp only at hadd
  rw [hfind] at hadd
  obtain ⟨pos, hslot, hcopy⟩ := Option.bind_eq_some_iff.mp hadd
  obtain ⟨-, -, hfree, -⟩ := freeSlot_eq_some hslot
  have hpos : maxWordsPerBucket ≤ pos := Nat.le_of_not_lt fun hlt => hfull pos hlt hfree
  split at hcopy
  next =>
    refine ⟨positionAt (hash w) pos, fun hin => ?_, ?_⟩
    · exact Nat.not_lt.mpr (positionAt_mono (hash w) hpos) hin.2
    · rw [← Option.some.inj hcopy, hfree]
      exact strcpy_first hne hnoNul
  next => cases hcopy

/-- The copy of a word to a slot of its bucket stays in the bucket, but for the terminator of a
    word of full length in the last slot. -/
theorem strcpy_outside_iff {w : List UInt8} {pos : Nat} (hpos : pos < maxWordsPerBucket)
    (hfits : w.length ≤ maxWordSize) :
    (∀ a, ¬ InBucket b a → strcpy m (positionAt b pos) w a = m a) ↔
      (pos + 1 = maxWordsPerBucket → w.length = maxWordSize → m (positionAt b (pos + 1)) = 0) := by
  have hnext := positionAt_succ b pos
  constructor
  · intro hout hlast hlong
    have hbyte := hout (positionAt b (pos + 1)) fun hin => by
      have hlt := hin.2
      rw [hlast] at hlt
      exact Nat.lt_irrefl _ hlt
    rw [← hbyte, hnext, ← hlong]
    exact strcpy_terminator
  · intro hterminator a ha
    by_cases hin : a < positionAt b pos ∨ positionAt b pos + w.length < a
    · exact strcpy_of_lt hin
    -- a byte of the copy that is outside is the terminator
    have hsub : a = positionAt b pos + w.length ∧ pos + 1 = maxWordsPerBucket ∧
        w.length = maxWordSize := by
      simp only [InBucket, positionAt, maxWordsPerBucket, maxWordSize] at ha hin hpos hfits ⊢
      omega
    obtain ⟨rfl, hlast, hlong⟩ := hsub
    rw [strcpy_terminator, hlong, ← hnext]
    exact (hterminator hlast hlong).symm

/-- A message that is processed, by the table that it leads to. -/
theorem isolated_iff_of_process {s s' : Table} {msg : Message} (hb : msg.bucket = some b)
    (hs' : process s msg = some s') :
    Isolated s msg ↔ (∀ a, ¬ InBucket b a → s'.memory a = s.memory a) ∧
      ∀ b', b' ≠ b → printBucket s'.memory b' = printBucket s.memory b' := by
  constructor
  · intro h
    obtain ⟨t, ht, hkeeps⟩ := h b hb
    obtain rfl := Option.some.inj (hs'.symm.trans ht)
    exact hkeeps
  · intro hkeeps c hc
    obtain rfl := Option.some.inj (hb.symm.trans hc)
    exact ⟨s', hs', hkeeps⟩

/-- A message that changes nothing in the table. -/
theorem isolated_of_unchanged {s s' : Table} {msg : Message} (hs' : process s msg = some s')
    (hsame : s'.memory = s.memory) : Isolated s msg := by
  intro b _
  refine ⟨s', hs', fun _ _ => by rw [hsame], fun _ _ => by rw [hsame]⟩

theorem process_add {s : Table} {w : Word} (hadd : addWord s.memory w.chars = some m') :
    process s (.add w) = some ⟨m', insert w.chars s.words⟩ := by
  rw [process, serveTable, hadd]
  rfl

/-- Adding a new word, with its first free slot in the bucket. -/
theorem isolated_add_of_free {s : Table} {w : Word} {pos : Nat} (hne : w.chars ≠ [])
    (hfind : findWord s.memory (hash w.chars) w.chars = none) (hpos : pos < maxWordsPerBucket)
    (hfree : s.memory (positionAt (hash w.chars) pos) = 0)
    (hbefore : ∀ j < pos, s.memory (positionAt (hash w.chars) j) ≠ 0) :
    Isolated s (.add w) ↔
      (pos + 1 = maxWordsPerBucket → w.chars.length = maxWordSize →
        s.memory (positionAt (hash w.chars) (pos + 1)) = 0) ∧
      Apart s.memory (hash w.chars) pos := by
  have hadd := addWord_of_free (position_inside hpos) w.fits hfind hfree hbefore
  have hfirst := @strcpy_first s.memory w.chars (positionAt (hash w.chars) pos) hne w.noNul
  rw [isolated_iff_of_process rfl (process_add hadd), ← strcpy_outside_iff hpos w.fits]
  refine and_congr_right fun hout => ?_
  exact printBucket_iff_apart hpos hout (fun a ha => strcpy_of_lt (Or.inl ha))
    (iff_of_true hfree hfirst)

/-- Adding a word is isolated exactly if it is confined. -/
theorem isolated_add_iff (s : Table) {w : Word} (hne : w.chars ≠ []) :
    Isolated s (.add w) ↔ Confined s (.add w) := by
  cases hfind : findWord s.memory (hash w.chars) w.chars with
  | some j =>
    -- The word is there already, and nothing is written.
    have hadd : addWord s.memory w.chars = some s.memory := by
      unfold addWord
      dsimp only
      rw [hfind]
    exact iff_of_true (isolated_of_unchanged (process_add hadd) rfl)
      (Or.inl ⟨j, findWord_eq_some hfind⟩)
  | none =>
    have hnone := findWord_eq_none.mp hfind
    by_cases hfull : ∀ j < maxWordsPerBucket, s.memory (positionAt (hash w.chars) j) ≠ 0
    -- A full bucket: the word is written behind it.
    · refine iff_of_false (fun h => ?_) ?_
      · obtain ⟨s', hs', hout, -⟩ := h (hash w.chars) rfl
        obtain ⟨m', hadd, rfl⟩ := Option.map_eq_some_iff.mp hs'
        obtain ⟨a, ha, hchanged⟩ := addWord_of_full hne w.noNul hfind hfull hadd
        exact hchanged (hout a ha)
      · rintro (⟨j, hj, hstring⟩ | ⟨pos, hpos, hzero, -⟩)
        · exact hnone j hj hstring
        · exact hfull pos hpos hzero
    · push Not at hfull
      -- The first free slot takes the word.
      obtain ⟨pos, ⟨hpos, hfree⟩, hmin⟩ : ∃ pos,
          (pos < maxWordsPerBucket ∧ s.memory (positionAt (hash w.chars) pos) = 0) ∧
            ∀ j < pos, ¬ (j < maxWordsPerBucket ∧
              s.memory (positionAt (hash w.chars) j) = 0) :=
        ⟨Nat.find hfull, Nat.find_spec hfull, fun _ => Nat.find_min hfull⟩
      have hbefore : ∀ j < pos, s.memory (positionAt (hash w.chars) j) ≠ 0 :=
        fun j hj hzero => hmin j hj ⟨Nat.lt_trans hj hpos, hzero⟩
      rw [isolated_add_of_free hne hfind hpos hfree hbefore]
      constructor
      · rintro ⟨hterminator, hapart⟩
        exact Or.inr ⟨pos, hpos, hfree, hbefore, hterminator, hapart⟩
      · rintro (⟨j, hj, hstring⟩ | ⟨pos', hpos', hfree', hbefore', hterminator, hapart⟩)
        · exact absurd hstring (hnone j hj)
        · obtain rfl : pos' = pos := first_unique
            (P := fun j => s.memory (positionAt (hash w.chars) j) = 0)
            hfree' hbefore' hfree hbefore
          exact ⟨hterminator, hapart⟩

/-- Removing a word that is found in a slot. -/
theorem isolated_remove_of_found {s : Table} {w : Word} {pos : Nat} (hne : w.chars ≠ [])
    (hfind : findWord s.memory (hash w.chars) w.chars = some pos) :
    Isolated s (.remove w) ↔ Apart s.memory (hash w.chars) pos := by
  obtain ⟨hpos, hstring⟩ := findWord_eq_some hfind
  have hremove : removeWord s.memory w.chars =
      memset s.memory (positionAt (hash w.chars) pos) 0 w.chars.length := by
    unfold removeWord
    dsimp only
    rw [hfind]
  have hprocess : process s (.remove w) =
      some ⟨removeWord s.memory w.chars, s.words.erase w.chars⟩ := rfl
  rw [hremove] at hprocess
  have hlen : 0 < w.chars.length := List.length_pos_iff.mpr hne
  have hslot := positionAt_add_le (hash w.chars) hpos
  have hfits := w.fits
  -- the first byte of the slot is that of the word, and then zero
  have hfirst : s.memory (positionAt (hash w.chars) pos) ≠ 0 :=
    @ne_zero_of_lt_strlen s.memory sharedMemorySize (positionAt (hash w.chars) pos) 0
      (by rw [strlen, hstring]; exact hlen)
  have hcleared : memset s.memory (positionAt (hash w.chars) pos) 0 w.chars.length
      (positionAt (hash w.chars) pos) = 0 := if_pos ⟨Nat.le_refl _, by omega⟩
  have hbefore : ∀ a < positionAt (hash w.chars) pos,
      memset s.memory (positionAt (hash w.chars) pos) 0 w.chars.length a = s.memory a :=
    fun a ha => if_neg fun hin => Nat.not_le.mpr ha hin.1
  have hout : ∀ a, ¬ InBucket (hash w.chars) a →
      memset s.memory (positionAt (hash w.chars) pos) 0 w.chars.length a = s.memory a := by
    intro a ha
    refine if_neg fun hin => ha ⟨?_, by omega⟩
    exact Nat.le_trans (positionAt_mono _ (Nat.zero_le pos)) hin.1
  rw [isolated_iff_of_process rfl hprocess, and_iff_right hout]
  exact printBucket_iff_apart hpos hout hbefore (iff_of_false hfirst (not_not.mpr hcleared))

/-- Removing a word is isolated exactly if it is confined. -/
theorem isolated_remove_iff (s : Table) {w : Word} (hne : w.chars ≠ []) :
    Isolated s (.remove w) ↔ Confined s (.remove w) := by
  cases hfind : findWord s.memory (hash w.chars) w.chars with
  | none =>
    have hremove : removeWord s.memory w.chars = s.memory := by
      unfold removeWord
      dsimp only
      rw [hfind]
    refine iff_of_true (isolated_of_unchanged rfl hremove) ?_
    exact fun pos hpos hstring => absurd hstring (findWord_eq_none.mp hfind pos hpos)
  | some pos =>
    obtain ⟨hpos, hstring⟩ := findWord_eq_some hfind
    rw [isolated_remove_of_found hne hfind]
    constructor
    · intro hapart pos' _ hstring' hbefore'
      obtain rfl : pos' = pos := first_unique hstring' hbefore' hstring
        fun j hj => findWord_first hfind hj
      exact hapart
    · exact fun h => h pos hpos hstring fun j hj => findWord_first hfind hj

/-- **One message.**  Whatever the table holds, a message with a word that is not empty is isolated
    exactly if it is confined. -/
theorem isolated_iff (s : Table) {msg : Message} (hmsg : msg.Proper) :
    Isolated s msg ↔ Confined s msg := by
  cases msg with
  | add w => exact isolated_add_iff s hmsg
  | remove w => exact isolated_remove_iff s hmsg
  | clear => exact iff_of_true (fun b hb => by cases hb) trivial
  | print => exact iff_of_true (fun b hb => by cases hb) trivial
  | exit => exact hmsg.elim

/-- **Buckets.**  In every run of messages with words that are not empty each message leaves the
    other buckets as they are exactly if each is confined. -/
theorem eachStep_isolated_iff (msgs : List Message) (hmsgs : ∀ msg ∈ msgs, msg.Proper) :
    EachStep process Isolated .empty msgs ↔ EachStep process Confined .empty msgs := by
  have hproper : EachStep process (fun _ msg => msg.Proper) .empty msgs :=
    EachStep.of_forall_mem hmsgs Table.empty
  constructor
  · intro h
    refine EachStep.of_invariant (I := fun _ => True) (fun _ _ _ _ _ _ => trivial)
      (fun s msg _ hboth => (isolated_iff s hboth.2).mp hboth.1) trivial (h.and hproper)
  · intro h
    refine EachStep.of_invariant (I := fun _ => True) (fun _ _ _ _ _ _ => trivial)
      (fun s msg _ hboth => (isolated_iff s hboth.2).mpr hboth.1) trivial (h.and hproper)

/-- The first word of a run goes to the first slot of its bucket. -/
theorem eachStep_isolated_one : EachStep process Isolated .empty [.add shortWord] := by
  refine (eachStep_isolated_iff _ (by simp [Message.Proper, shortWord])).mpr
    ⟨Or.inr ⟨0, by decide, rfl, nofun, nofun, fun b' _ j hj hlt => ?_⟩, fun _ _ => trivial⟩
  have hinside := @position_inside b' j hj
  have hempty : strlen Table.empty.memory sharedMemorySize (positionAt b' j) = 0 :=
    (strlen_eq_zero_iff (by omega)).mpr rfl
  rw [hempty]
  exact hlt

/-! ### A bucket that is full -/

/-- A word of full length with the hash of `longWord`. -/
def otherWord : Word := ⟨List.replicate 14 97 ++ [98, 64], by decide, by decide⟩

/-- The words that are added, in turn. -/
def inTurn (k : Nat) : Word := if k % 2 = 0 then longWord else otherWord

theorem hash_inTurn (k : Nat) : hash (inTurn k).chars = hash longWord.chars := by
  unfold inTurn
  split
  · rfl
  · decide

theorem length_inTurn (k : Nat) : (inTurn k).chars.length = maxWordSize := by
  unfold inTurn
  split <;> rfl

theorem inTurn_succ_ne (k : Nat) : (inTurn k).chars ≠ (inTurn (k + 1)).chars := by
  unfold inTurn
  rcases Nat.mod_two_eq_zero_or_one k with h | h
  · rw [if_pos h, if_neg (by omega)]
    decide
  · rw [if_neg (by omega), if_pos (by omega)]
    decide

/-- The first `n` slots of the bucket are full, and behind them there are only zeros. -/
structure Packed (s : Table) (n : Nat) : Prop where
  full : ∀ a, positionAt (hash longWord.chars) 0 ≤ a → a < positionAt (hash longWord.chars) n →
    s.memory a ≠ 0
  free : ∀ a, positionAt (hash longWord.chars) n ≤ a → s.memory a = 0
  last : ∀ k, n = k + 1 →
    stringAt s.memory sharedMemorySize (positionAt (hash longWord.chars) k) = (inTurn k).chars

theorem packed_empty : Packed .empty 0 where
  full := fun _ hle hlt => absurd hlt (Nat.not_lt.mpr hle)
  free := fun _ _ => rfl
  last := nofun

/-- None of the full slots ends in time for the word to be found, and the last one holds the
    other word. -/
theorem Packed.findWord_eq_none {s : Table} {n : Nat} (h : Packed s n)
    (hn : n ≤ maxWordsPerBucket) :
    findWord s.memory (hash longWord.chars) (inTurn n).chars = none := by
  refine LinuxIPC.findWord_eq_none.mpr fun pos hpos hstring => ?_
  have hlen := congrArg List.length hstring
  rw [length_inTurn] at hlen
  have hinside := @position_inside (hash longWord.chars) pos hpos
  rcases Nat.lt_trichotomy (pos + 1) n with hlt | rfl | hgt
  · have hlong : maxWordSize + 1 ≤
        strlen s.memory sharedMemorySize (positionAt (hash longWord.chars) pos) := by
      -- the slot and the one behind it are before slot `n`
      have hfirst := positionAt_mono (hash longWord.chars) (Nat.zero_le pos)
      have hnext := positionAt_succ (hash longWord.chars) pos
      have hlast := positionAt_add_le (hash longWord.chars) hlt
      have hsize : 1 ≤ maxWordSize := by decide
      exact le_strlen (fun i hi => h.full _ (by omega) (by omega)) (by omega)
    rw [strlen] at hlong
    omega
  · exact inTurn_succ_ne pos ((h.last pos rfl).symm.trans hstring)
  · have hzero : s.memory (positionAt (hash longWord.chars) pos) = 0 :=
      h.free _ (positionAt_mono _ (Nat.le_of_lt_succ hgt))
    have hempty := (@strlen_eq_zero_iff s.memory sharedMemorySize _ (by omega)).mpr hzero
    rw [strlen, hlen] at hempty
    cases hempty

/-- The next word goes behind the full slots, in or out of the bucket. -/
theorem Packed.process {s : Table} {n : Nat} (h : Packed s n) (hn : n ≤ maxWordsPerBucket) :
    ∃ s', process s (.add (inTurn n)) = some s' ∧ Packed s' (n + 1) := by
  have hfind := h.findWord_eq_none hn
  have hbucket := (hash longWord.chars).isLt
  have hnext := positionAt_succ (hash longWord.chars) n
  have hinside : positionAt (hash longWord.chars) n + maxWordSize < sharedMemorySize := by
    simp only [positionAt, sharedMemorySize, bucketCount, maxWordsPerBucket, maxWordSize]
      at hn hbucket ⊢
    omega
  have hlen := length_inTurn n
  have hadd : addWord s.memory (inTurn n).chars =
      some (strcpy s.memory (positionAt (hash longWord.chars) n) (inTurn n).chars) := by
    rw [← hash_inTurn n] at hfind hinside ⊢
    refine addWord_of_free hinside hlen.le hfind ?_ fun j hj => ?_
    · rw [hash_inTurn n]
      exact h.free _ (Nat.le_refl _)
    · rw [hash_inTurn n]
      have hbefore := positionAt_add_le (hash longWord.chars) hj
      have hsize : 1 ≤ maxWordSize := by decide
      exact h.full _ (positionAt_mono _ (Nat.zero_le j)) (by omega)
  have hstring : stringAt (strcpy s.memory (positionAt (hash longWord.chars) n) (inTurn n).chars)
      sharedMemorySize (positionAt (hash longWord.chars) n) = (inTurn n).chars :=
    stringAt_strcpy (inTurn n).noNul (by rw [hlen]; exact hinside)
  have hterminator := @strcpy_terminator s.memory (inTurn n).chars
    (positionAt (hash longWord.chars) n)
  have hother := fun a => @strcpy_of_lt s.memory (inTurn n).chars
    (positionAt (hash longWord.chars) n) a
  rw [hlen] at hterminator hother
  -- From here on the new memory is known by these facts.
  generalize strcpy s.memory (positionAt (hash longWord.chars) n) (inTurn n).chars = m'
    at hadd hstring hterminator hother
  refine ⟨⟨m', insert (inTurn n).chars s.words⟩, ?_, fun a hle hlt => ?_, fun a hle => ?_,
    fun k hk => ?_⟩
  · rw [LinuxIPC.process, serveTable, hadd]
    rfl
  · rw [hnext] at hlt
    rcases Nat.lt_or_ge a (positionAt (hash longWord.chars) n) with hbefore | hbehind
    · show m' a ≠ 0
      rw [hother a (Or.inl hbefore)]
      exact h.full a hle hbefore
    · -- a byte of the word
      obtain ⟨i, rfl⟩ := Nat.exists_eq_add_of_le hbehind
      refine @ne_zero_of_lt_strlen m' sharedMemorySize _ i ?_
      rw [strlen, hstring, hlen]
      omega
  · rw [hnext] at hle
    show m' a = 0
    rcases Nat.eq_or_lt_of_le hle with rfl | hlt
    · exact hterminator
    · rw [hother a (Or.inr hlt)]
      exact h.free a (by omega)
  · obtain rfl := Nat.succ.inj hk
    exact hstring

/-- So the bucket is filled, and one word more is added. -/
theorem run_inTurn (n : Nat) (hn : n ≤ maxWordsPerBucket + 1) :
    ∃ s, run process .empty ((List.range n).map fun k => .add (inTurn k)) = some s ∧
      Packed s n := by
  induction n with
  | zero => exact ⟨.empty, rfl, packed_empty⟩
  | succ n ih =>
    obtain ⟨s, hrun, hpacked⟩ := ih (Nat.le_of_succ_le hn)
    obtain ⟨s', hs', hpacked'⟩ := hpacked.process (Nat.le_of_succ_le_succ hn)
    refine ⟨s', ?_, hpacked'⟩
    rw [List.range_succ, List.map_append, run_append, hrun, Option.bind_some, List.map_singleton,
      run_cons, hs']
    rfl

/-- **One word too many.**  Two words of full length, added in turn, fill their bucket; the next
    one goes to the first slot of the bucket behind it. -/
theorem not_isolated :
    (∃ s s', run process .empty ((List.range maxWordsPerBucket).map fun k => .add (inTurn k)) =
        some s ∧ process s (.add (inTurn maxWordsPerBucket)) = some s' ∧
      ¬ InBucket (hash longWord.chars) (positionAt (hash longWord.chars) maxWordsPerBucket) ∧
      s.memory (positionAt (hash longWord.chars) maxWordsPerBucket) = 0 ∧
      s'.memory (positionAt (hash longWord.chars) maxWordsPerBucket) ≠ 0) ∧
    ¬ EachStep process Isolated .empty
      ((List.range (maxWordsPerBucket + 1)).map fun k => .add (inTurn k)) := by
  obtain ⟨s, hrun, hpacked⟩ := run_inTurn maxWordsPerBucket (Nat.le_succ _)
  obtain ⟨s', hs', hpacked'⟩ := hpacked.process (Nat.le_refl _)
  have hout : ¬ InBucket (hash longWord.chars)
      (positionAt (hash longWord.chars) maxWordsPerBucket) :=
    fun hin => Nat.lt_irrefl _ hin.2
  have hzero := hpacked.free _ (Nat.le_refl _)
  have hchanged : s'.memory (positionAt (hash longWord.chars) maxWordsPerBucket) ≠ 0 := by
    refine hpacked'.full _ (positionAt_mono _ (Nat.zero_le _)) ?_
    rw [positionAt_succ]
    exact Nat.lt_add_of_pos_right (by decide)
  refine ⟨⟨s, s', hrun, hs', hout, hzero, hchanged⟩, fun h => ?_⟩
  rw [List.range_succ, List.map_append, List.map_singleton] at h
  obtain ⟨t, ht, hsame, -⟩ := h.of_append hrun (hash longWord.chars)
    (congrArg some (hash_inTurn maxWordsPerBucket))
  obtain rfl := Option.some.inj (hs'.symm.trans ht)
  exact hchanged ((hsame _ hout).trans hzero)

end WorkAtUPB.LinuxIPC

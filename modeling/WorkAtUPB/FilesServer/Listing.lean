import WorkAtUPB.FilesServer.Packet

namespace WorkAtUPB.FilesServer

open Bytes CharArray Decimal

/-!
# FilesServerLinux — the listing of a directory

The server answers `LS` with the names and sizes of the entries, one behind the other in a packet
filled with zeros; the client reads entries up to a length of zero.  Neither side looks at the
size of the packet, lengths are signed characters, and the server joins the name of the directory
and that of an entry in an array of 128 characters, without a slash between them:

* `fileSize`, `lsReply`, `commandLs` — the size of a file, the answer, and what the client shows
  of it;
* `addDirents_eq`, `le_of_addDirents` — when the entries fit, and what is then in the packet;
* `listLoop_entries` — the client's loop takes the entries off the packet;
* `listing_iff` — the client shows the entries exactly if `stat` finds their sizes under the joined
  names, which have at most 127 characters, and a byte of the packet is left free.
-/

/-- An entry of a directory, with its size. -/
structure Dirent where
  dName : List UInt8
  stSize : Int32
  deriving DecidableEq, Repr

/-! ### The server -/

/-- `(int)__buf.st_size`, where `stat` gives `st_size` for a path; `__full_name` is an array of
    `MAX_STRING_SIZE` zeros. -/
def fileSize (director : List UInt8) (stat : List UInt8 → Option Int64) (dName : List UInt8) :
    Option Int32 := do
  let fullName ← sprintf (List.replicate MAX_STRING_SIZE 0) (director ++ dName)
  -- `assert(stat(__full_name, &__buf) == 0)`
  let stSize ← stat (contents fullName)
  some stSize.toInt32

/-- The loop over `readdir`; `blockSize` is the array `__block_size`. -/
def addDirents (director : List UInt8) (stat : List UInt8 → Option Int64) :
    List (List UInt8) → List UInt8 → Nat → List UInt8 → Option (List UInt8 × Nat × List UInt8)
  | [], buffer, currentSize, blockSize => some (buffer, currentSize, blockSize)
  | dName :: names, buffer, currentSize, blockSize => do
    let (buffer, currentSize) ← stringConvert buffer currentSize (dName ++ [0])
    let stSize ← fileSize director stat dName
    let (buffer, currentSize, blockSize) ← numberConvert buffer currentSize stSize blockSize
    addDirents director stat names buffer currentSize blockSize

/-- The answer to `LS` for the directory with the name `director`; `dir` has the names that
    `readdir` gives, and is `none` if the directory cannot be opened. -/
def lsReply (director : List UInt8) (stat : List UInt8 → Option Int64)
    (dir : Option (List (List UInt8))) (blockSize : List UInt8) : Option (List UInt8) :=
  let buffer := (List.replicate MAX_PACKET_SIZE 0).set 1 1
  match dir with
  | none => some (buffer.set 0 LS)
  | some names =>
    (addDirents director stat names (buffer.set 1 0) 2 blockSize).map fun r => r.1.set 0 LS

/-! ### The client -/

/-- What `command_ls` prints. -/
inductive Shown where
  | message
  | entries (list : List Dirent)
  deriving DecidableEq, Repr

/-- The loop of `command_ls`; `scratch` is the array `__buffer`. -/
def listLoop : Nat → List UInt8 → Nat → List UInt8 → List UInt8 → Option (List Dirent)
  | 0, _, _, _, _ => none
  | fuel + 1, buffer, off, numeFisier, scratch => do
    let size ← buffer[off]?
    if size = 0 then
      some []
    else
      let (off, _, numeFisier) ← stringConvertReverse buffer off numeFisier
      let (off, _, dimensiuneFisier, scratch) ← numberConvertReverse buffer off scratch
      let list ← listLoop fuel buffer off numeFisier scratch
      some (⟨contents numeFisier, dimensiuneFisier⟩ :: list)

/-- `command_ls`, from the answer on. -/
def commandLs (buffer numeFisier scratch : List UInt8) : Option Shown :=
  if buffer[0]? ≠ some LS then none
  else if buffer[1]? = some 1 then some .message
  else (listLoop MAX_PACKET_SIZE buffer 2 numeFisier scratch).map .entries

/-! ### The sizes of the files -/

variable {director : List UInt8} {stat : List UInt8 → Option Int64}

/-- The size that the server sends is the one of the joined name, if that has at most 127
    characters. -/
theorem fileSize_eq_some_iff {dName : List UInt8} {stSize : Int32} (hdirector : 0 ∉ director)
    (hname : 0 ∉ dName) :
    fileSize director stat dName = some stSize ↔
      director.length + dName.length < MAX_STRING_SIZE ∧
        (stat (director ++ dName)).map Int64.toInt32 = some stSize := by
  have hjoined : 0 ∉ director ++ dName := by
    rw [List.mem_append]
    exact fun h => h.elim hdirector hname
  simp only [fileSize, sprintf, List.length_replicate, List.length_append]
  split
  next hfit => simp [hfit, contents_splice hjoined, Option.bind_eq_some_iff, -List.append_assoc]
  next hfit => simp [hfit]

/-- The size of each entry is what the server sends. -/
def Sized (director : List UInt8) (stat : List UInt8 → Option Int64) (entries : List Dirent) :
    Prop :=
  ∀ ep ∈ entries, fileSize director stat ep.dName = some ep.stSize

/-- A loop that came to its end has found the sizes of all files. -/
theorem exists_sized_of_addDirents {names buffer blockSize} {p : Nat}
    {r : List UInt8 × Nat × List UInt8}
    (h : addDirents director stat names buffer p blockSize = some r) :
    ∃ entries, entries.map Dirent.dName = names ∧ Sized director stat entries := by
  induction names generalizing buffer p blockSize with
  | nil => exact ⟨[], rfl, nofun⟩
  | cons dName names ih =>
    simp only [addDirents, Option.bind_eq_bind, Option.bind_eq_some_iff] at h
    obtain ⟨r₁, -, stSize, hsize, r₂, -, hrest⟩ := h
    obtain ⟨entries, hnames, hsized⟩ := ih hrest
    exact ⟨⟨dName, stSize⟩ :: entries, by rw [List.map_cons, hnames],
      List.forall_mem_cons.mpr ⟨hsize, hsized⟩⟩

/-! ### What a list of entries takes in a packet -/

/-- The bytes of an entry. -/
def Dirent.text (ep : Dirent) : List UInt8 := field ep.dName ++ field (numberText ep.stSize)

/-- The number of bytes that an entry takes. -/
def Dirent.size (ep : Dirent) : Nat := ep.dName.length + (numberText ep.stSize).length + 2

@[simp] theorem Dirent.length_text (ep : Dirent) : ep.text.length = ep.size := by
  simp only [Dirent.text, Dirent.size, List.length_append, length_field]
  omega

/-- The bytes of a list of entries. -/
def listText (entries : List Dirent) : List UInt8 := entries.flatMap Dirent.text

/-- The number of bytes that a list of entries takes. -/
def listSize (entries : List Dirent) : Nat := (entries.map Dirent.size).sum

theorem length_listText (entries : List Dirent) : (listText entries).length = listSize entries := by
  rw [listText, List.length_flatMap, listSize]
  congr 1
  exact List.map_congr_left fun ep _ => ep.length_text

/-- A name as the file system allows it. -/
def Dirent.Named (ep : Dirent) : Prop :=
  1 ≤ ep.dName.length ∧ ep.dName.length ≤ 255 ∧ 0 ∉ ep.dName

instance (ep : Dirent) : Decidable ep.Named := inferInstanceAs (Decidable (_ ∧ _))

variable {entries : List Dirent} {buffer blockSize : List UInt8} {p : Nat}

/-- An entry that fits is written, and the others behind it. -/
theorem addDirents_cons {ep : Dirent} {names : List (List UInt8)} (hzero : 0 ∉ ep.dName)
    (hsize : fileSize director stat ep.dName = some ep.stSize) (hshort : ep.dName.length ≤ 127)
    (hblock : blockSize.length = MAX_STRING_SIZE) (hfit : p + ep.size ≤ buffer.length) :
    addDirents director stat (ep.dName :: names) buffer p blockSize =
      addDirents director stat names (splice buffer p ep.text) (p + ep.size)
        (splice blockSize 0 (numberText ep.stSize ++ [0])) := by
  have hlength : ep.size = ep.dName.length + (numberText ep.stSize).length + 2 := rfl
  have hstring : stringConvert buffer p (ep.dName ++ [0]) =
      some (splice buffer p (field ep.dName), p + (field ep.dName).length) :=
    stringConvert_eq hzero hshort (by omega)
  have hnumber := numberConvert_behind (field ep.dName) ep.stSize hblock
    (show p + (field ep.dName).length + (numberText ep.stSize).length < buffer.length by
      rw [length_field]; omega)
  rw [← Dirent.text, Dirent.length_text] at hnumber
  simp only [addDirents, hstring, hsize, hnumber, Option.bind_eq_bind, Option.bind_some]

/-- If an entry was written, its name has at most 127 characters, and it fits. -/
theorem le_of_addDirents_cons {ep : Dirent} {names : List (List UInt8)}
    {r : List UInt8 × Nat × List UInt8} (hep : ep.Named)
    (hsize : fileSize director stat ep.dName = some ep.stSize) (hbuffer : buffer.length < 2 ^ 63)
    (h : addDirents director stat (ep.dName :: names) buffer p blockSize = some r) :
    ep.dName.length ≤ 127 ∧ p + ep.size ≤ buffer.length := by
  obtain ⟨-, hname, hzero⟩ := hep
  simp only [addDirents, hsize, Option.bind_eq_bind, Option.bind_some,
    Option.bind_eq_some_iff] at h
  obtain ⟨r₁, hstring, r₂, hnumber, -⟩ := h
  obtain ⟨hshort, hfit⟩ := le_of_stringConvert hzero (by omega) hbuffer hstring
  rw [stringConvert_eq hzero hshort hfit] at hstring
  have hr₁ := Option.some.inj hstring
  subst hr₁
  have hlen : (splice buffer p (field ep.dName)).length = buffer.length :=
    length_splice (by rw [length_field]; omega)
  have hfit' := le_of_numberConvert (by rw [hlen]; exact hbuffer) hnumber
  rw [hlen, length_field] at hfit'
  refine ⟨hshort, ?_⟩
  rw [Dirent.size]
  omega

@[simp] theorem listSize_cons (ep : Dirent) (entries : List Dirent) :
    listSize (ep :: entries) = ep.size + listSize entries := rfl

/-- Entries with names of at most 127 characters that fit into the packet are written. -/
theorem addDirents_eq (hnamed : ∀ ep ∈ entries, ep.Named) (hsized : Sized director stat entries)
    (hshort : ∀ ep ∈ entries, ep.dName.length ≤ 127)
    (hblock : blockSize.length = MAX_STRING_SIZE) (hfit : p + listSize entries ≤ buffer.length) :
    ∃ blockSize', addDirents director stat (entries.map Dirent.dName) buffer p blockSize =
      some (splice buffer p (listText entries), p + listSize entries, blockSize') := by
  induction entries generalizing buffer p blockSize with
  | nil => exact ⟨blockSize, by simp [addDirents, listText, listSize, splice]⟩
  | cons ep entries ih =>
    rw [listSize_cons] at hfit
    have htext : (splice buffer p ep.text).length = buffer.length :=
      length_splice (by rw [Dirent.length_text]; omega)
    rw [List.map_cons, addDirents_cons (hnamed ep List.mem_cons_self).2.2
      (hsized ep List.mem_cons_self) (hshort ep List.mem_cons_self) hblock (by omega)]
    obtain ⟨blockSize', hrest⟩ := ih (fun e he => hnamed e (List.mem_cons_of_mem _ he))
      (fun e he => hsized e (List.mem_cons_of_mem _ he))
      (fun e he => hshort e (List.mem_cons_of_mem _ he)) (length_printed ep.stSize hblock)
      (show p + ep.size + listSize entries ≤ (splice buffer p ep.text).length by
        rw [htext]; omega)
    refine ⟨blockSize', ?_⟩
    have hsplice : splice (splice buffer p ep.text) (p + ep.size) (listText entries) =
        splice buffer p (listText (ep :: entries)) := by
      rw [← Dirent.length_text, splice_splice (by rw [Dirent.length_text]; omega)]
      rfl
    rw [hrest, hsplice, listSize_cons, Nat.add_assoc]

/-- Entries that could be written have names of at most 127 characters, and fit. -/
theorem le_of_addDirents {r : List UInt8 × Nat × List UInt8}
    (hnamed : ∀ ep ∈ entries, ep.Named) (hsized : Sized director stat entries)
    (hblock : blockSize.length = MAX_STRING_SIZE)
    (hbuffer : buffer.length < 2 ^ 63) (hp : p ≤ buffer.length)
    (h : addDirents director stat (entries.map Dirent.dName) buffer p blockSize = some r) :
    (∀ ep ∈ entries, ep.dName.length ≤ 127) ∧ p + listSize entries ≤ buffer.length := by
  induction entries generalizing buffer p blockSize with
  | nil => exact ⟨by simp, by simpa [listSize] using hp⟩
  | cons ep entries ih =>
    have hep := hnamed ep List.mem_cons_self
    have hsize := hsized ep List.mem_cons_self
    rw [List.map_cons] at h
    obtain ⟨hshort, hfit⟩ := le_of_addDirents_cons hep hsize hbuffer h
    rw [addDirents_cons hep.2.2 hsize hshort hblock hfit] at h
    have htext : (splice buffer p ep.text).length = buffer.length :=
      length_splice (by rw [Dirent.length_text]; omega)
    obtain ⟨hshorts, hfits⟩ := ih (fun e he => hnamed e (List.mem_cons_of_mem _ he))
      (fun e he => hsized e (List.mem_cons_of_mem _ he)) (length_printed ep.stSize hblock)
        (by rw [htext]; exact hbuffer) (by rw [htext]; exact hfit) h
    refine ⟨List.forall_mem_cons.mpr ⟨hshort, hshorts⟩, ?_⟩
    rw [htext] at hfits
    rw [listSize_cons]
    omega

/-! ### What the client reads -/

/-- The loop reads the entries, and goes on behind them. -/
theorem listLoop_entries (fuel : Nat) {numeFisier scratch rest : List UInt8}
    (hnamed : ∀ ep ∈ entries, ep.Named) (hshort : ∀ ep ∈ entries, ep.dName.length ≤ 127)
    (hnume : numeFisier.length = MAX_STRING_SIZE) (hscratch : scratch.length = MAX_STRING_SIZE)
    (hat : buffer.drop p = listText entries ++ rest) :
    ∃ numeFisier' scratch', listLoop (fuel + entries.length) buffer p numeFisier scratch =
      (listLoop fuel buffer (p + listSize entries) numeFisier' scratch').map (entries ++ ·) := by
  induction entries generalizing p numeFisier scratch with
  | nil => exact ⟨numeFisier, scratch, by simp [listSize]⟩
  | cons ep entries ih =>
    obtain ⟨hpos, -, hzero⟩ := hnamed ep List.mem_cons_self
    have hname := hshort ep List.mem_cons_self
    have hdigits := length_numberText_le ep.stSize
    have hat' : buffer.drop p =
        field ep.dName ++ (field (numberText ep.stSize) ++ (listText entries ++ rest)) := by
      rw [hat, listText, List.flatMap_cons, Dirent.text]
      simp only [List.append_assoc, listText]
    have hstring := stringConvertReverse_eq hzero hname hnume hat'
    have hdrop : buffer.drop (p + (field ep.dName).length) =
        field (numberText ep.stSize) ++ (listText entries ++ rest) := by
      rw [← List.drop_drop, hat', List.drop_left' rfl]
    have hnumber := numberConvertReverse_eq hscratch hdrop
    have hrest : buffer.drop (p + ep.size) = listText entries ++ rest := by
      rw [← Dirent.length_text, Dirent.text, List.length_append, ← Nat.add_assoc,
        ← List.drop_drop, hdrop, List.drop_left' rfl]
    rw [Nat.add_assoc, ← List.length_append, ← Dirent.text, Dirent.length_text] at hnumber
    -- The first byte is the length of the name.
    have hfirst : buffer[p]? = some (UInt8.ofNat ep.dName.length) := by
      have hhead := congrArg List.head? hat'
      rwa [List.head?_drop] at hhead
    have hne : UInt8.ofNat ep.dName.length ≠ 0 := by
      intro h
      have hval := congrArg UInt8.toNat h
      rw [UInt8.toNat_ofNat', UInt8.toNat_zero] at hval
      omega
    have hnume' : (splice numeFisier 0 (ep.dName ++ [0])).length = MAX_STRING_SIZE := by
      rw [length_splice, hnume]
      simp only [hnume, MAX_STRING_SIZE, List.length_append, List.length_singleton]
      omega
    obtain ⟨nume', scratch', hloop⟩ := ih (fun e he => hnamed e (List.mem_cons_of_mem _ he))
      (fun e he => hshort e (List.mem_cons_of_mem _ he)) hnume' (length_printed ep.stSize hscratch)
      hrest
    refine ⟨nume', scratch', ?_⟩
    rw [List.length_cons, ← Nat.add_assoc, listLoop, hfirst]
    simp only [Option.bind_eq_bind, Option.bind_some, if_neg hne, hstring, hnumber, hloop,
      contents_splice hzero, listSize_cons, Nat.add_assoc]
    cases listLoop fuel buffer (p + (ep.size + listSize entries)) nume' scratch' <;> rfl

/-! ### The round trip -/

/-- The server writes the entries of the directory `director` into a packet, and the client shows
    them. -/
def ListsBack (director : List UInt8) (stat : List UInt8 → Option Int64) (entries : List Dirent)
    (blockSize numeFisier scratch : List UInt8) : Prop :=
  ∃ packet, lsReply director stat (some (entries.map Dirent.dName)) blockSize = some packet ∧
    packet.length = MAX_PACKET_SIZE ∧
      commandLs packet numeFisier scratch = some (.entries entries)

/-- The packet before the entries are written. -/
def blankPacket : List UInt8 := ((List.replicate MAX_PACKET_SIZE 0).set 1 1).set 1 0

@[simp] theorem length_blankPacket : blankPacket.length = MAX_PACKET_SIZE := by
  rw [blankPacket, List.length_set, List.length_set, List.length_replicate]

/-- An answer is made of the entries, which fitted. -/
theorem le_of_lsReply {packet : List UInt8} (hnamed : ∀ ep ∈ entries, ep.Named)
    (hsized : Sized director stat entries) (hblock : blockSize.length = MAX_STRING_SIZE)
    (h : lsReply director stat (some (entries.map Dirent.dName)) blockSize = some packet) :
    (∀ ep ∈ entries, ep.dName.length ≤ 127) ∧ 2 + listSize entries ≤ MAX_PACKET_SIZE := by
  obtain ⟨r, hadd, -⟩ := Option.map_eq_some_iff.mp h
  have hlen := length_blankPacket
  simp only [MAX_PACKET_SIZE] at hlen ⊢
  obtain ⟨hshort, hfit⟩ := le_of_addDirents hnamed hsized hblock
    (show blankPacket.length < 2 ^ 63 by omega) (by omega) hadd
  exact ⟨hshort, by omega⟩

/-- The packet for entries that fit. -/
def packetOf (entries : List Dirent) : List UInt8 :=
  (splice blankPacket 2 (listText entries)).set 0 LS

theorem packetOf_drop (h : 2 + listSize entries ≤ MAX_PACKET_SIZE) :
    (packetOf entries).drop 2 =
      listText entries ++ List.replicate (MAX_PACKET_SIZE - (2 + listSize entries)) 0 := by
  rw [packetOf, List.drop_set_of_lt (by omega), drop_splice (by rw [length_blankPacket]; omega),
    length_listText, blankPacket, List.drop_set_of_lt (by omega), List.drop_set_of_lt (by omega),
    List.drop_replicate]

theorem length_packetOf (h : 2 + listSize entries ≤ MAX_PACKET_SIZE) :
    (packetOf entries).length = MAX_PACKET_SIZE := by
  rw [packetOf, List.length_set, length_splice, length_blankPacket]
  rw [length_blankPacket, length_listText]
  exact h

/-- The answer for entries that fit. -/
theorem lsReply_eq (hnamed : ∀ ep ∈ entries, ep.Named) (hsized : Sized director stat entries)
    (hblock : blockSize.length = MAX_STRING_SIZE) (hshort : ∀ ep ∈ entries, ep.dName.length ≤ 127)
    (hfit : 2 + listSize entries ≤ MAX_PACKET_SIZE) :
    lsReply director stat (some (entries.map Dirent.dName)) blockSize =
      some (packetOf entries) := by
  obtain ⟨blockSize', hadd⟩ := addDirents_eq hnamed hsized hshort hblock
    (show 2 + listSize entries ≤ blankPacket.length by rw [length_blankPacket]; exact hfit)
  exact Option.map_eq_some_iff.mpr ⟨_, hadd, rfl⟩

/-- The first two bytes say that it is a listing. -/
theorem packetOf_head (h : 2 + listSize entries ≤ MAX_PACKET_SIZE) :
    (packetOf entries)[0]? = some LS ∧ (packetOf entries)[1]? = some 0 := by
  have hlen := length_packetOf h
  have hblank := length_blankPacket
  simp only [MAX_PACKET_SIZE] at hblank
  rw [packetOf, List.length_set, MAX_PACKET_SIZE] at hlen
  constructor
  · rw [packetOf, List.getElem?_set_self (by omega)]
  · rw [packetOf, List.getElem?_set_ne (by omega), splice, List.append_assoc,
      List.getElem?_append_left (by rw [List.length_take]; omega),
      List.getElem?_take_of_lt (by omega), blankPacket, List.getElem?_set_self]
    rw [blankPacket, List.length_set] at hblank
    omega

/-- Each entry takes a byte at least. -/
theorem length_le_listSize (entries : List Dirent) : entries.length ≤ listSize entries := by
  rw [listSize, ← List.length_map (f := Dirent.size)]
  refine List.length_le_sum_of_one_le _ fun n hn => ?_
  obtain ⟨ep, -, rfl⟩ := List.mem_map.mp hn
  rw [Dirent.size]
  omega

/-- What the client shows of the packet for entries that fit: it needs a byte behind them. -/
theorem commandLs_packetOf {numeFisier scratch : List UInt8} (hnamed : ∀ ep ∈ entries, ep.Named)
    (hshort : ∀ ep ∈ entries, ep.dName.length ≤ 127)
    (hnume : numeFisier.length = MAX_STRING_SIZE) (hscratch : scratch.length = MAX_STRING_SIZE)
    (h : 2 + listSize entries ≤ MAX_PACKET_SIZE) :
    commandLs (packetOf entries) numeFisier scratch =
      if 2 + listSize entries < MAX_PACKET_SIZE then some (.entries entries) else none := by
  have hdrop := packetOf_drop h
  obtain ⟨h0, h1⟩ := packetOf_head h
  -- There is fuel for the entries and one round more.
  have hcount := length_le_listSize entries
  obtain ⟨fuel, hfuel⟩ : ∃ fuel, MAX_PACKET_SIZE = fuel + 1 + entries.length :=
    ⟨MAX_PACKET_SIZE - 1 - entries.length, by omega⟩
  obtain ⟨nume', scratch', hloop⟩ := listLoop_entries (fuel + 1) hnamed hshort hnume hscratch hdrop
  rw [← hfuel] at hloop
  have hbehind : (packetOf entries)[2 + listSize entries]? =
      (List.replicate (MAX_PACKET_SIZE - (2 + listSize entries)) (0 : UInt8)).head? := by
    rw [← List.head?_drop, ← List.drop_drop, hdrop, List.drop_left' (length_listText entries)]
  rw [commandLs, if_neg (by rw [h0]; exact not_not.mpr rfl), h1, if_neg (by decide), hloop,
    listLoop, hbehind]
  split
  · obtain ⟨n, hn⟩ : ∃ n, MAX_PACKET_SIZE - (2 + listSize entries) = n + 1 :=
      ⟨MAX_PACKET_SIZE - (2 + listSize entries) - 1, by omega⟩
    rw [hn, List.replicate_succ]
    simp
  · have hn : MAX_PACKET_SIZE - (2 + listSize entries) = 0 := by omega
    rw [hn]
    rfl

/-- The entries whose sizes the server finds are shown exactly if their names have at most 127
    characters and leave a byte of the packet free. -/
theorem listsBack_iff_of_sized {numeFisier scratch : List UInt8}
    (hnamed : ∀ ep ∈ entries, ep.Named) (hsized : Sized director stat entries)
    (hblock : blockSize.length = MAX_STRING_SIZE) (hnume : numeFisier.length = MAX_STRING_SIZE)
    (hscratch : scratch.length = MAX_STRING_SIZE) :
    ListsBack director stat entries blockSize numeFisier scratch ↔
      (∀ ep ∈ entries, ep.dName.length ≤ 127) ∧ 2 + listSize entries < MAX_PACKET_SIZE := by
  constructor
  · rintro ⟨packet, hpacket, -, hshown⟩
    obtain ⟨hshort, hfit⟩ := le_of_lsReply hnamed hsized hblock hpacket
    rw [lsReply_eq hnamed hsized hblock hshort hfit, Option.some.injEq] at hpacket
    rw [← hpacket, commandLs_packetOf hnamed hshort hnume hscratch hfit] at hshown
    refine ⟨hshort, ?_⟩
    by_contra hfull
    rw [if_neg hfull] at hshown
    cases hshown
  · rintro ⟨hshort, hfit⟩
    have hle := Nat.le_of_lt hfit
    refine ⟨packetOf entries, lsReply_eq hnamed hsized hblock hshort hle, length_packetOf hle, ?_⟩
    rw [commandLs_packetOf hnamed hshort hnume hscratch hle, if_pos hfit]

/-- The client shows the sizes that the server has found. -/
theorem ListsBack.sized {numeFisier scratch : List UInt8} (hnamed : ∀ ep ∈ entries, ep.Named)
    (hblock : blockSize.length = MAX_STRING_SIZE) (hnume : numeFisier.length = MAX_STRING_SIZE)
    (hscratch : scratch.length = MAX_STRING_SIZE)
    (h : ListsBack director stat entries blockSize numeFisier scratch) :
    Sized director stat entries := by
  obtain ⟨packet, hpacket, -, hshown⟩ := h
  obtain ⟨r, hadd, -⟩ := Option.map_eq_some_iff.mp hpacket
  obtain ⟨found, hnames, hsized⟩ := exists_sized_of_addDirents hadd
  have hfound : ∀ ep ∈ found, ep.Named := by
    intro ep hep
    have hname := List.mem_map_of_mem (f := Dirent.dName) hep
    rw [hnames] at hname
    obtain ⟨ep', hep', heq⟩ := List.mem_map.mp hname
    have hnamed' := hnamed ep' hep'
    rwa [Dirent.Named, heq] at hnamed'
  rw [← hnames] at hpacket
  obtain ⟨hshort, hfit⟩ := le_of_lsReply hfound hsized hblock hpacket
  rw [lsReply_eq hfound hsized hblock hshort hfit, Option.some.injEq] at hpacket
  rw [← hpacket, commandLs_packetOf hfound hshort hnume hscratch hfit] at hshown
  split at hshown
  · obtain rfl : found = entries := by simpa using hshown
    exact hsized
  · cases hshown

/-- **Listings.**  For every directory, with entries whose names have 1 to 255 characters, and
    whatever `stat` answers: the server's packet holds the entries and the client shows exactly them
    if and only if the name of the directory and that of each entry have together at most 127
    characters, `stat` gives the size of the entry for the joined name, and all entries together
    leave at least one byte of the packet free. -/
theorem listing_iff (director : List UInt8) (hdirector : 0 ∉ director)
    (stat : List UInt8 → Option Int64) (entries : List Dirent)
    (hnamed : ∀ ep ∈ entries, ep.Named) (blockSize numeFisier scratch : List UInt8)
    (hblock : blockSize.length = MAX_STRING_SIZE) (hnume : numeFisier.length = MAX_STRING_SIZE)
    (hscratch : scratch.length = MAX_STRING_SIZE) :
    ListsBack director stat entries blockSize numeFisier scratch ↔
      (∀ ep ∈ entries, director.length + ep.dName.length < MAX_STRING_SIZE ∧
        (stat (director ++ ep.dName)).map Int64.toInt32 = some ep.stSize) ∧
      2 + listSize entries < MAX_PACKET_SIZE := by
  have hsize : ∀ ep ∈ entries, (fileSize director stat ep.dName = some ep.stSize ↔ _) :=
    fun ep hep => fileSize_eq_some_iff hdirector (hnamed ep hep).2.2
  constructor
  · intro h
    have hsized := h.sized hnamed hblock hnume hscratch
    exact ⟨fun ep hep => (hsize ep hep).mp (hsized ep hep),
      ((listsBack_iff_of_sized hnamed hsized hblock hnume hscratch).mp h).2⟩
  · rintro ⟨hjoined, hfit⟩
    have hsized : Sized director stat entries := fun ep hep => (hsize ep hep).mpr (hjoined ep hep)
    refine (listsBack_iff_of_sized hnamed hsized hblock hnume hscratch).mpr ⟨fun ep hep => ?_, hfit⟩
    have hlt := (hjoined ep hep).1
    rw [MAX_STRING_SIZE] at hlt
    omega

/-- A string array of the programs, which are static and begin with zeros. -/
def stringBuffer : List UInt8 := List.replicate MAX_STRING_SIZE 0

theorem length_stringBuffer : stringBuffer.length = MAX_STRING_SIZE := List.length_replicate

/-- One file of 7 bytes with the name `a`, in the directory `d/`. -/
theorem listing_iff_one :
    ListsBack [100, 47] (fun path => if path = [100, 47, 97] then some 7 else none) [⟨[97], 7⟩]
      stringBuffer stringBuffer stringBuffer := by
  refine (listing_iff [100, 47] (by decide) _ [⟨[97], 7⟩] (by decide) _ _ _ length_stringBuffer
    length_stringBuffer length_stringBuffer).mpr ⟨?_, ?_⟩
  · simp [MAX_STRING_SIZE]
  have hdigits := length_numberText_le 7
  simp only [listSize, List.map_cons, List.map_nil, List.sum_cons, List.sum_nil, Dirent.size,
    List.length_singleton, MAX_PACKET_SIZE]
  omega

/-- An empty file with a name of `n` characters. -/
def emptyFile (n : Nat) : Dirent := ⟨List.replicate n 97, 0⟩

theorem length_emptyFile (n : Nat) : (emptyFile n).dName.length = n := List.length_replicate

theorem emptyFile_named {n : Nat} (hpos : 1 ≤ n) (hle : n ≤ 255) : (emptyFile n).Named := by
  refine ⟨?_, ?_, fun hmem => ?_⟩
  · rwa [length_emptyFile]
  · rwa [length_emptyFile]
  · exact absurd (List.eq_of_mem_replicate hmem) (by decide)

/-- **Long names.**  A file whose name has 128 characters cannot be listed, although `stat` finds
    all files in its directory `d/`. -/
theorem not_listing : ¬ ∀ (director : List UInt8) (stat : List UInt8 → Option Int64)
    (entries : List Dirent), 0 ∉ director →
    (∀ ep ∈ entries, ep.Named ∧ 0 ≤ ep.stSize ∧
      (stat (director ++ ep.dName)).map Int64.toInt32 = some ep.stSize) →
      ListsBack director stat entries stringBuffer stringBuffer stringBuffer := by
  intro h
  have hnamed : ∀ ep ∈ [emptyFile 128], ep.Named := fun ep hep =>
    List.mem_singleton.mp hep ▸ emptyFile_named (by omega) (by omega)
  have hback := h [100, 47] (fun _ => some 0) [emptyFile 128] (by decide) fun ep hep =>
    ⟨hnamed ep hep, List.mem_singleton.mp hep ▸ ⟨Int32.le_refl 0, rfl⟩⟩
  have hsized := hback.sized hnamed length_stringBuffer length_stringBuffer length_stringBuffer
  have hdirector : (0 : UInt8) ∉ [100, 47] := by decide
  have hjoined : ∀ ep ∈ [emptyFile 128], 2 + ep.dName.length < MAX_STRING_SIZE := fun ep hep =>
    ((fileSize_eq_some_iff hdirector (hnamed ep hep).2.2).mp (hsized ep hep)).1
  have hlt := hjoined _ (List.mem_singleton_self _)
  rw [length_emptyFile, MAX_STRING_SIZE] at hlt
  omega

end WorkAtUPB.FilesServer

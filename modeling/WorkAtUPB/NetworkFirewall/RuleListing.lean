import WorkAtUPB.Lib.Bytes
import WorkAtUPB.Lib.Codec
import WorkAtUPB.NetworkFirewall.Timers

namespace WorkAtUPB.NetworkFirewall

open WorkAtUPB.Bytes WorkAtUPB.Codec

/-!
# NetworkFirewallLinux — listing the rules (`FW_LIST`)

The request copies the rules into the memory of the user, and copies the rest again as long as
`copy_to_user` leaves one:

* `copyToUser` — stores what comes before the first byte that is not writable;
* `addRulesToBuffer`, `copyLoop`, `fwList` — the request; `copyLoop` has a number of rounds to
  spend, since nothing ends it but an empty rest;
* `copyLoop_spec` — when the loop ends, the whole buffer is in the memory of the user;
* `listsRules_iff` — the request returns, and lists the rules, exactly if the size given is too
  small, or there is no memory for the buffer, or the user can be given all of it.

The rules are in memory, so the number of their bytes does not overflow; the size the user gives
is at `arg`, where the rules go.
-/

/-- `EFAULT`. -/
def EFAULT : Int := 14

/-- `ENOSPC`. -/
def ENOSPC : Int := 28

/-! ### Rules as bytes -/

/-- The bytes of a `struct fwr`. -/
def Fwr.bytes (rule : Fwr) : List UInt8 :=
  le32 rule.ipSrc ++ (le32 rule.ipDst ++ (le32 rule.ipSrcMask ++ (le32 rule.ipDstMask ++
    (le16 rule.portSrc.1 ++ (le16 rule.portSrc.2 ++
      (le16 rule.portDst.1 ++ le16 rule.portDst.2))))))

/-- `sizeof(struct fwr)`. -/
def sizeofFwr : Nat := 24

@[simp] theorem length_bytes (rule : Fwr) : rule.bytes.length = sizeofFwr := rfl

/-- A `struct fwr` at the front of the bytes, and what follows it. -/
def readFwr (bs : List UInt8) : Option (Fwr × List UInt8) :=
  if bs.length < sizeofFwr then none
  else
    some
      ({ ipSrc := ofLE32 bs
         ipDst := ofLE32 (bs.drop 4)
         ipSrcMask := ofLE32 (bs.drop 8)
         ipDstMask := ofLE32 (bs.drop 12)
         portSrc := (ofLE16 (bs.drop 16), ofLE16 (bs.drop 18))
         portDst := (ofLE16 (bs.drop 20), ofLE16 (bs.drop 22)) },
        bs.drop sizeofFwr)

theorem readFwr_roundTrip : RoundTrip Fwr.bytes readFwr := by
  intro rule rest
  have hlen : ¬ (rule.bytes ++ rest).length < sizeofFwr := by
    rw [List.length_append, length_bytes]
    omega
  rw [readFwr, if_neg hlen]
  -- each field stands at its offset
  show some (Fwr.mk (ofLE32 (le32 rule.ipSrc ++ _)) (ofLE32 (le32 rule.ipDst ++ _))
      (ofLE32 (le32 rule.ipSrcMask ++ _)) (ofLE32 (le32 rule.ipDstMask ++ _))
      (ofLE16 (le16 rule.portSrc.1 ++ _), ofLE16 (le16 rule.portSrc.2 ++ _))
      (ofLE16 (le16 rule.portDst.1 ++ _), ofLE16 (le16 rule.portDst.2 ++ rest)), rest) = _
  simp only [ofLE32_le32_append, ofLE16_le16_append]

/-- `list_size`. -/
def listSize (head : List RulesList) : Nat := head.foldl (fun size _ => size + 1) 0

theorem listSize_eq (head : List RulesList) : listSize head = head.length := by
  have hcount : ∀ size, head.foldl (fun size _ => size + 1) size = size + head.length := by
    induction head with
    | nil => exact fun _ => rfl
    | cons ple head ih =>
      intro size
      rw [List.foldl_cons, ih, List.length_cons]
      omega
  rw [listSize, hcount, Nat.zero_add]

/-- The loop of `add_rules_to_buffer`, with its counter `j`. -/
def addRulesFrom (off : Nat) : Nat → List RulesList → List UInt8 → List UInt8
  | _, [], buffer => buffer
  | j, ple :: head, buffer =>
    addRulesFrom off (j + 1) head (splice buffer (off + j * sizeofFwr) ple.rule.bytes)

/-- `add_rules_to_buffer`, for `buffer + off`. -/
def addRulesToBuffer (off : Nat) (head : List RulesList) (buffer : List UInt8) : List UInt8 :=
  addRulesFrom off 0 head buffer

/-- The bytes of the rules of a list, in its order. -/
def bytesOf (head : List RulesList) : List UInt8 := head.flatMap fun ple => ple.rule.bytes

@[simp] theorem bytesOf_cons (ple : RulesList) (head : List RulesList) :
    bytesOf (ple :: head) = ple.rule.bytes ++ bytesOf head := rfl

@[simp] theorem bytesOf_append (head head' : List RulesList) :
    bytesOf (head ++ head') = bytesOf head ++ bytesOf head' := List.flatMap_append

theorem length_bytesOf (head : List RulesList) :
    (bytesOf head).length = head.length * sizeofFwr := by
  induction head with
  | nil => rfl
  | cons ple head ih =>
    rw [bytesOf_cons, List.length_append, length_bytes, ih, List.length_cons, Nat.succ_mul,
      Nat.add_comm]

theorem addRulesFrom_eq (off : Nat) (head : List RulesList) : ∀ (j : Nat) (buffer : List UInt8),
    off + (j + head.length) * sizeofFwr ≤ buffer.length →
      addRulesFrom off j head buffer = splice buffer (off + j * sizeofFwr) (bytesOf head) := by
  induction head with
  | nil =>
    intro j buffer h
    exact (splice_of_drop (List.nil_append _).symm).symm
  | cons ple head ih =>
    intro j buffer h
    rw [List.length_cons] at h
    have hsplice : off + j * sizeofFwr + ple.rule.bytes.length ≤ buffer.length := by
      rw [length_bytes]
      unfold sizeofFwr at *
      omega
    have hrest : off + (j + 1 + head.length) * sizeofFwr ≤
        (splice buffer (off + j * sizeofFwr) ple.rule.bytes).length := by
      rw [length_splice hsplice]
      unfold sizeofFwr at *
      omega
    rw [addRulesFrom, ih _ _ hrest, bytesOf_cons, ← splice_splice hsplice, length_bytes,
      Nat.succ_mul, Nat.add_assoc]

/-- The rules are put where they are to be. -/
theorem addRulesToBuffer_eq {off : Nat} {head : List RulesList} {buffer : List UInt8}
    (h : off + head.length * sizeofFwr ≤ buffer.length) :
    addRulesToBuffer off head buffer = splice buffer off (bytesOf head) := by
  rw [addRulesToBuffer, addRulesFrom_eq off head 0 buffer (by rwa [Nat.zero_add]), Nat.zero_mul,
    Nat.add_zero]

/-- Rules that are put behind what is in the buffer already. -/
theorem addRulesToBuffer_splice {buffer done : List UInt8} {head : List RulesList}
    (h : done.length + head.length * sizeofFwr ≤ buffer.length) :
    addRulesToBuffer done.length head (splice buffer 0 done) =
      splice buffer 0 (done ++ bytesOf head) := by
  have hdone : 0 + done.length ≤ buffer.length := by omega
  have hroom : done.length + head.length * sizeofFwr ≤ (splice buffer 0 done).length := by
    rwa [length_splice hdone]
  have hbehind := @splice_splice buffer 0 done (bytesOf head) hdone
  rw [Nat.zero_add] at hbehind
  rw [addRulesToBuffer_eq hroom, hbehind]

/-! ### Copying to the user -/

variable (writable : Nat → Bool)

/-- `copy_to_user`: the bytes up to the first one that is not writable are stored, and the number
    of the others is returned. -/
def copyToUser : Nat → List UInt8 → Mem → Nat × Mem
  | _, [], user => (0, user)
  | dst, b :: bs, user =>
    if writable dst then copyToUser (dst + 1) bs (Function.update user dst b)
    else (bs.length + 1, user)

/-- The loop of the request: what is left of the buffer is copied until nothing is left. -/
def copyLoop (arg : Nat) (buffer : List UInt8) (sizeWrite : Nat) : Nat → Nat → Mem → Option Mem
  | 0, _, _ => none
  | fuel + 1, aux, user =>
    let (aux', user') :=
      copyToUser writable (arg + (sizeWrite - aux)) (slice buffer (sizeWrite - aux) aux) user
    if aux' = 0 then some user' else copyLoop arg buffer sizeWrite fuel aux' user'

/-- The request `FW_LIST`: its result and the memory of the user.  `kmalloc` is what the new
    memory holds, if there is some. -/
def fwList (s : State) (arg : Nat) (kmalloc : Option Mem) (user : Mem) (fuel : Nat) :
    Option (Int × Mem) :=
  let sSize := listSize s.staticRules
  let tcpSize := listSize s.tcpDynamicRules
  let udpSize := listSize s.udpDynamicRules
  let kernelSize := sSize + tcpSize + udpSize
  let userSize := ofLEInt (readBytes user arg 4)
  if (kernelSize : Int) > userSize then
    let (rest, user') := copyToUser writable arg (leInt kernelSize) user
    if rest ≠ 0 then some (-EFAULT, user') else some (-ENOSPC, user')
  else
    match kmalloc with
    | none => some (-ENOMEM, user)
    | some fresh =>
      let sizeWrite := kernelSize * sizeofFwr
      let buffer := readBytes fresh 0 sizeWrite
      let buffer := addRulesToBuffer 0 s.staticRules buffer
      let buffer := addRulesToBuffer (sSize * sizeofFwr) s.tcpDynamicRules buffer
      let buffer := addRulesToBuffer ((tcpSize + sSize) * sizeofFwr) s.udpDynamicRules buffer
      (copyLoop writable arg buffer sizeWrite fuel sizeWrite user).map
        fun user' => (kernelSize, user')

variable {writable}

/-- What a copy stores, and how many bytes it leaves. -/
theorem copyToUser_spec (bs : List UInt8) : ∀ (dst : Nat) (user : Mem), ∃ k ≤ bs.length,
    copyToUser writable dst bs user = (bs.length - k, writeBytes user dst (bs.take k)) ∧
      (∀ i < k, writable (dst + i) = true) ∧ (k < bs.length → writable (dst + k) = false) := by
  induction bs with
  | nil =>
    intro dst user
    exact ⟨0, Nat.le_refl 0, by simp [copyToUser], by simp, by simp⟩
  | cons b bs ih =>
    intro dst user
    by_cases hdst : writable dst = true
    · obtain ⟨k, hk, hcopy, hall, hstop⟩ := ih (dst + 1) (Function.update user dst b)
      refine ⟨k + 1, Nat.succ_le_succ hk, ?_, fun i hi => ?_, fun hlt => ?_⟩
      · rw [copyToUser, if_pos hdst, hcopy, List.take_succ_cons, writeBytes_cons,
          List.length_cons, Nat.add_sub_add_right]
      · rcases i with - | i
        · exact hdst
        · have hi' := hall i (by omega)
          rwa [Nat.add_assoc, Nat.add_comm 1 i] at hi'
      · have hk' := hstop (by simpa using hlt)
        rwa [Nat.add_assoc, Nat.add_comm 1 k] at hk'
    · refine ⟨0, Nat.zero_le _, ?_, by simp, fun _ => Bool.eq_false_iff.mpr hdst⟩
      rw [copyToUser, if_neg hdst]
      simp

/-- One round of the loop: the next `k` bytes of the buffer are copied. -/
theorem copyRound_spec {arg : Nat} {buffer : List UInt8} {aux : Nat} (user : Mem)
    (haux : aux ≤ buffer.length) : ∃ k ≤ aux,
      copyToUser writable (arg + (buffer.length - aux)) (slice buffer (buffer.length - aux) aux)
          user =
        (aux - k, writeBytes user (arg + (buffer.length - aux))
          ((buffer.drop (buffer.length - aux)).take k)) ∧
      (∀ i < k, writable (arg + (buffer.length - aux) + i) = true) ∧
      (k < aux → writable (arg + (buffer.length - aux) + k) = false) := by
  have hlen : (slice buffer (buffer.length - aux) aux).length = aux := by
    simp [slice]
    omega
  obtain ⟨k, hk, hcopy, hall, hstop⟩ := @copyToUser_spec writable
    (slice buffer (buffer.length - aux) aux) (arg + (buffer.length - aux)) user
  rw [hlen] at hk hcopy hstop
  have htake : (slice buffer (buffer.length - aux) aux).take k =
      (buffer.drop (buffer.length - aux)).take k := by
    rw [slice, List.take_take, Nat.min_eq_left hk]
  rw [htake] at hcopy
  exact ⟨k, hk, hcopy, hall, hstop⟩

/-- **Loop invariant.**  What is before the rest is in the memory of the user; when the loop ends
    there is no rest. -/
theorem copyLoop_spec {arg : Nat} {buffer : List UInt8} {fuel : Nat} : ∀ {aux : Nat}
    {user user' : Mem}, aux ≤ buffer.length →
      readBytes user arg (buffer.length - aux) = buffer.take (buffer.length - aux) →
      copyLoop writable arg buffer buffer.length fuel aux user = some user' →
        readBytes user' arg buffer.length = buffer := by
  induction fuel with
  | zero =>
    intro aux user user' haux hcopied h
    cases h
  | succ fuel ih =>
    intro aux user user' haux hcopied h
    obtain ⟨k, hk, hcopy, -, -⟩ := @copyRound_spec writable arg buffer aux user haux
    have hlen : ((buffer.drop (buffer.length - aux)).take k).length = k := by
      simp
      omega
    -- the bytes that were copied before, and those of this round
    have hnext : readBytes (writeBytes user (arg + (buffer.length - aux))
        ((buffer.drop (buffer.length - aux)).take k)) arg (buffer.length - (aux - k)) =
          buffer.take (buffer.length - (aux - k)) := by
      have hround := readBytes_writeBytes_append user arg (buffer.length - aux)
        ((buffer.drop (buffer.length - aux)).take k)
      have hadd : buffer.length - (aux - k) = buffer.length - aux + k := by omega
      rw [hlen, hcopied] at hround
      rw [hadd, hround, List.take_add]
    rw [copyLoop, hcopy] at h
    dsimp only at h
    split at h
    next hdone =>
      rw [hdone, Nat.sub_zero, List.take_length, Option.some.inj h] at hnext
      exact hnext
    next => exact ih (by omega) hnext h

/-- With a byte of the rest that is not writable, the loop never ends. -/
theorem copyLoop_eq_none {arg : Nat} {buffer : List UInt8} {i : Nat} (hi : i < buffer.length)
    (hwritable : writable (arg + i) = false) (fuel : Nat) : ∀ {aux : Nat} {user : Mem},
      aux ≤ buffer.length → buffer.length - aux ≤ i →
        copyLoop writable arg buffer buffer.length fuel aux user = none := by
  induction fuel with
  | zero => exact fun _ _ => rfl
  | succ fuel ih =>
    intro aux user haux hle
    obtain ⟨k, hk, hcopy, hall, -⟩ := @copyRound_spec writable arg buffer aux user haux
    -- the copy stops at this byte or before it
    have hstop : buffer.length - aux + k ≤ i := by
      by_contra hpast
      have hpassed := hall (i - (buffer.length - aux)) (by omega)
      have hbyte : arg + (buffer.length - aux) + (i - (buffer.length - aux)) = arg + i := by omega
      rw [hbyte, hwritable] at hpassed
      cases hpassed
    rw [copyLoop, hcopy]
    dsimp only
    rw [if_neg (by omega)]
    exact ih (by omega) (by omega)

/-- One round is enough where every byte is writable. -/
theorem copyLoop_isSome {arg : Nat} {buffer : List UInt8} {user : Mem}
    (h : ∀ i < buffer.length, writable (arg + i) = true) :
    (copyLoop writable arg buffer buffer.length 1 buffer.length user).isSome := by
  obtain ⟨k, hk, hcopy, -, hstop⟩ :=
    @copyRound_spec writable arg buffer buffer.length user (Nat.le_refl _)
  have hall : k = buffer.length := by
    by_contra hne
    have hlt : k < buffer.length := by omega
    have hbyte := hstop hlt
    rw [Nat.sub_self, Nat.add_zero, h k hlt] at hbyte
    cases hbyte
  rw [copyLoop, hcopy, hall, Nat.sub_self]
  rfl

/-! ### The request -/

variable (writable)

/-- A request is right: it returns, and a count that it returns is the number of rules, whose bytes
    the user then has at `arg`: the static, the TCP and the UDP ones, in the order of their
    lists. -/
structure ListsRules (s : State) (arg : Nat) (kmalloc : Option Mem) (user : Mem) : Prop where
  returns : ∃ fuel, (fwList writable s arg kmalloc user fuel).isSome
  lists : ∀ fuel result user', fwList writable s arg kmalloc user fuel = some (result, user') →
    0 ≤ result → result = s.entries.length ∧
      readBytes user' arg (s.entries.length * sizeofFwr) = bytesOf s.entries

variable {writable}

/-- The buffer of the request holds the rules of the three lists. -/
theorem buffer_eq (s : State) (fresh : Mem) :
    addRulesToBuffer ((listSize s.tcpDynamicRules + listSize s.staticRules) * sizeofFwr)
      s.udpDynamicRules
      (addRulesToBuffer (listSize s.staticRules * sizeofFwr) s.tcpDynamicRules
        (addRulesToBuffer 0 s.staticRules
          (readBytes fresh 0 ((listSize s.staticRules + listSize s.tcpDynamicRules +
            listSize s.udpDynamicRules) * sizeofFwr)))) = bytesOf s.entries := by
  simp only [listSize_eq]
  have hsize := length_readBytes fresh 0
    ((s.staticRules.length + s.tcpDynamicRules.length + s.udpDynamicRules.length) * sizeofFwr)
  generalize readBytes fresh 0 _ = buffer at hsize ⊢
  have hstatic := length_bytesOf s.staticRules
  have htcp := length_bytesOf (s.staticRules ++ s.tcpDynamicRules)
  have hall : (bytesOf s.entries).length = buffer.length := by
    rw [length_bytesOf, hsize, State.entries, List.length_append, List.length_append]
  rw [List.length_append] at htcp
  rw [Nat.add_mul] at hsize htcp
  rw [Nat.add_mul] at hsize
  rw [Nat.add_mul, Nat.add_comm (s.tcpDynamicRules.length * sizeofFwr)]
  -- the three lists go one behind the other
  have h₁ : addRulesToBuffer 0 s.staticRules buffer = splice buffer 0 (bytesOf s.staticRules) :=
    addRulesToBuffer_eq (by omega)
  have h₂ := @addRulesToBuffer_splice buffer (bytesOf s.staticRules) s.tcpDynamicRules (by omega)
  have h₃ := @addRulesToBuffer_splice buffer (bytesOf (s.staticRules ++ s.tcpDynamicRules))
    s.udpDynamicRules (by omega)
  rw [hstatic, ← bytesOf_append] at h₂
  rw [htcp, ← bytesOf_append] at h₃
  rw [h₁, h₂, h₃, ← State.entries, splice_zero, hall, List.drop_length, List.append_nil]

theorem length_entries (s : State) : s.entries.length =
    listSize s.staticRules + listSize s.tcpDynamicRules + listSize s.udpDynamicRules := by
  simp only [listSize_eq, State.entries, List.length_append]

/-- The request, where the size suffices and there is memory for the buffer. -/
theorem fwList_of_le {s : State} {arg : Nat} {fresh user : Mem} {fuel : Nat}
    (h : (s.entries.length : Int) ≤ ofLEInt (readBytes user arg 4)) :
    fwList writable s arg (some fresh) user fuel =
      (copyLoop writable arg (bytesOf s.entries) (bytesOf s.entries).length fuel
        (bytesOf s.entries).length user).map fun user' => ((s.entries.length : Int), user') := by
  rw [length_bytesOf]
  rw [length_entries] at h ⊢
  rw [fwList]
  dsimp only
  rw [if_neg (by omega), buffer_eq]

/-- The request fails at once if the size is too small or there is no memory for the buffer. -/
theorem fwList_fails {s : State} {arg : Nat} {kmalloc : Option Mem} {user : Mem} (fuel : Nat)
    (h : ofLEInt (readBytes user arg 4) < s.entries.length ∨ kmalloc = none) :
    ∃ result < 0, ∃ user', fwList writable s arg kmalloc user fuel = some (result, user') := by
  rw [length_entries] at h
  unfold fwList
  dsimp only
  split
  · split
    · exact ⟨-EFAULT, by decide, _, rfl⟩
    · exact ⟨-ENOSPC, by decide, _, rfl⟩
  next hfits =>
    obtain rfl := h.resolve_left (by omega)
    exact ⟨-ENOMEM, by decide, _, rfl⟩

/-- With a byte of the rules that is not writable, the request does not return. -/
theorem fwList_eq_none {s : State} {arg : Nat} {fresh user : Mem} {i : Nat}
    (h : (s.entries.length : Int) ≤ ofLEInt (readBytes user arg 4))
    (hi : i < s.entries.length * sizeofFwr) (hwritable : writable (arg + i) = false)
    (fuel : Nat) : fwList writable s arg (some fresh) user fuel = none := by
  rw [← length_bytesOf] at hi
  rw [fwList_of_le h, copyLoop_eq_none hi hwritable fuel (Nat.le_refl _) (by omega)]
  rfl

/-- **Listing.**  The request returns, and lists the rules, exactly if the given size is too small,
    there is no memory for the buffer, or all of the rules can be stored. -/
theorem listsRules_iff (writable : Nat → Bool) (s : State) (arg : Nat) (kmalloc : Option Mem)
    (user : Mem) :
    ListsRules writable s arg kmalloc user ↔
      ofLEInt (readBytes user arg 4) < s.entries.length ∨ kmalloc = none ∨
        ∀ i < s.entries.length * sizeofFwr, writable (arg + i) = true := by
  constructor
  · intro h
    -- A byte that cannot be stored is stored again and again.
    by_contra hnot
    obtain ⟨hsize, hkmalloc, hstores⟩ : _ ∧ _ ∧ _ := by
      rwa [not_or, not_or] at hnot
    obtain ⟨fresh, rfl⟩ := Option.ne_none_iff_exists'.mp hkmalloc
    push Not at hstores
    obtain ⟨i, hi, hwritable⟩ := hstores
    obtain ⟨fuel, hsome⟩ := h.returns
    rw [fwList_eq_none (Int.not_lt.mp hsize) hi (Bool.eq_false_iff.mpr hwritable)] at hsome
    cases hsome
  · intro h
    by_cases hfails : ofLEInt (readBytes user arg 4) < s.entries.length ∨ kmalloc = none
    -- The request fails before the loop.
    · refine ⟨⟨0, ?_⟩, fun fuel result user' hresult hnonneg => ?_⟩
      · obtain ⟨result, -, user', hresult⟩ := @fwList_fails writable s arg kmalloc user 0 hfails
        rw [hresult]
        rfl
      · obtain ⟨result', hneg, user'', hresult'⟩ :=
          @fwList_fails writable s arg kmalloc user fuel hfails
        rw [hresult, Option.some.injEq, Prod.mk.injEq] at hresult'
        omega
    · obtain ⟨hsize, hkmalloc⟩ := not_or.mp hfails
      obtain ⟨fresh, rfl⟩ := Option.ne_none_iff_exists'.mp hkmalloc
      have hstores := (h.resolve_left hsize).resolve_left hkmalloc
      rw [← length_bytesOf] at hstores
      -- All bytes are stored in the first round.
      refine ⟨⟨1, ?_⟩, fun fuel result user' hresult _ => ?_⟩
      · rw [fwList_of_le (Int.not_lt.mp hsize), Option.isSome_map]
        exact copyLoop_isSome hstores
      · rw [fwList_of_le (Int.not_lt.mp hsize), Option.map_eq_some_iff] at hresult
        obtain ⟨user'', hloop, hpair⟩ := hresult
        rw [Prod.mk.injEq] at hpair
        obtain ⟨rfl, rfl⟩ := hpair
        refine ⟨rfl, ?_⟩
        rw [← length_bytesOf]
        exact copyLoop_spec (Nat.le_refl _) (by simp [readBytes]) hloop

/-- Reading the rules back gives those of the three lists. -/
theorem readMany_listed {s : State} {arg : Nat} {user : Mem}
    (h : readBytes user arg (s.entries.length * sizeofFwr) = bytesOf s.entries) :
    readMany readFwr s.entries.length (readBytes user arg (s.entries.length * sizeofFwr)) =
      some (s.entries.map RulesList.rule, []) := by
  have hread := readFwr_roundTrip.readMany (s.entries.map RulesList.rule) []
  rw [List.length_map, List.flatMap_map, List.append_nil] at hread
  rw [h]
  exact hread

/-- **A buffer at the end of a page.**  The size fits one rule, and only its own four bytes are
    writable: the request never returns. -/
theorem not_listsRules : ∃ (ple : RulesList) (fresh user : Mem),
    ofLEInt (readBytes user 0 4) = 1 ∧
      (∀ fuel, fwList (fun a => decide (a < 4)) { State.empty with staticRules := [ple] } 0
        (some fresh) user fuel = none) ∧
      ¬ ListsRules (fun a => decide (a < 4)) { State.empty with staticRules := [ple] } 0
        (some fresh) user := by
  let ple : RulesList := ⟨0, newRule 0 0 0 0 0 0 0 0, ⟨none, none⟩⟩
  let user : Mem := writeBytes (fun _ => 0) 0 (leInt 1)
  have hsize : ofLEInt (readBytes user 0 4) = 1 := by decide
  have hnone : ∀ fuel, fwList (fun a => decide (a < 4))
      { State.empty with staticRules := [ple] } 0 (some fun _ => 0) user fuel = none := by
    intro fuel
    exact fwList_eq_none (i := 4) (by rw [hsize]; decide) (by decide) (by decide) fuel
  refine ⟨ple, fun _ => 0, user, hsize, hnone, fun h => ?_⟩
  obtain ⟨fuel, hsome⟩ := h.returns
  rw [hnone fuel] at hsome
  cases hsome

end WorkAtUPB.NetworkFirewall

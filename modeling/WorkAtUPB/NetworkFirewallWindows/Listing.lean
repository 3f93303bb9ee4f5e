import WorkAtUPB.Lib.Codec
import WorkAtUPB.NetworkFirewallWindows.Driver

namespace WorkAtUPB.NetworkFirewallWindows

open WorkAtUPB.Bytes WorkAtUPB.Codec WorkAtUPB.Run
open WorkAtUPB.NetworkFirewall (Fwr RulesList State Verdict bytesOf length_bytesOf readFwr
  sizeofFwr)

/-!
# NetworkFirewallWindows — listing the rules (`FW_LIST`)

The request has one buffer, for the size that the user gives and for the answer:

* `listSize`, `addRulesToBuffer`, `fwList` — the request; it must not write behind the buffer;
* `Lists` — the answer is the number of rules if the size is too small, and otherwise the rules too;
* `driver_lists` — after every run, the rules listed are those that the Linux module has if its
  hooks see the packets that the driver filters.
-/

/-! ### The request -/

/-- A loop without a `return`. -/
def forAll {β : Type} (m : Memory) (body : β → Addr → β) (b : β) (head : Head) : Option β :=
  (forEntries m.heap.next (fun b _ i => (.ok (body b i) : Except Empty β)) m.used.length b
    (.head head) (m.heap.next (.head head))).map
      fun
      | .ok b => b

/-- `list_size`. -/
def listSize (m : Memory) (head : Head) : Option Nat := forAll m (fun size _ => size + 1) 0 head

/-- `add_rules_to_buffer`, for `buffer + off`. -/
def addRulesToBuffer (m : Memory) (off : Nat) (head : Head) (buffer : List UInt8) :
    Option (List UInt8) :=
  (forAll m (fun (k, buffer) i =>
    (k + 1, splice buffer (off + k * sizeofFwr) (m.entry i).rule.bytes)) (0, buffer)
    head).map Prod.snd

/-- The request `FW_LIST`: its status, the number of bytes of the answer, and the buffer.  `fresh`
    is what the memory for the rules held, if there is some. -/
def fwList (m : Memory) (buffer : List UInt8) (fresh : Option Mem) :
    Option (Ntstatus × Nat × List UInt8) := do
  let sSize ← listSize m .static
  let tcpSize ← listSize m .tcp
  let udpSize ← listSize m .udp
  let kernelSize := sSize + tcpSize + udpSize
  let userSize := ofLEInt buffer
  if buffer.length < 4 then none
  else if kernelSize = 0 ∧ userSize ≤ 0 then
    return (.success, 4, splice buffer 0 (leInt 0))
  else if (kernelSize : Int) > userSize then
    return (.success, 4, splice buffer 0 (leInt kernelSize))
  else
    match fresh with
    | none => return (.insufficientResources, 0, buffer)
    | some fresh =>
      let sizeWrite := kernelSize * sizeofFwr + 4
      let kernelBuffer := splice (readBytes fresh 0 sizeWrite) 0 (leInt kernelSize)
      let kernelBuffer ← addRulesToBuffer m 4 .static kernelBuffer
      let kernelBuffer ← addRulesToBuffer m (sSize * sizeofFwr + 4) .tcp kernelBuffer
      let kernelBuffer ← addRulesToBuffer m ((tcpSize + sSize) * sizeofFwr + 4) .udp kernelBuffer
      if buffer.length < sizeWrite then none
      else return (.success, sizeWrite, splice buffer 0 kernelBuffer)

/-- What the user gets for a size and a buffer: if the size is too small, the number of the rules;
    otherwise, where the buffer has room and there is memory, the rules behind their number. -/
structure Lists (m : Memory) (rules : List Fwr) : Prop where
  count : ∀ buffer fresh, 4 ≤ buffer.length → ofLEInt buffer < rules.length →
    fwList m buffer fresh = some (.success, 4, leInt rules.length ++ buffer.drop 4)
  rules : ∀ buffer fresh, rules.length * sizeofFwr + 4 ≤ buffer.length →
    (rules.length : Int) ≤ ofLEInt buffer → ∃ answer,
      fwList m buffer (some fresh) = some (.success, rules.length * sizeofFwr + 4, answer) ∧
      answer.take 4 = leInt rules.length ∧
      readMany readFwr rules.length (answer.drop 4) =
        some (rules, buffer.drop (rules.length * sizeofFwr + 4))

/-! ### The loops -/

variable {m : Memory} {as : Head → List Addr} {s : State}

/-- A loop over a list in memory is a fold over its entries. -/
theorem Represents.forAll (h : Represents m as s) {β : Type} (body : β → Addr → β) (b : β)
    (l : Head) : forAll m body b l = some ((as l).foldl body b) := by
  have hfold : ∀ j entries b,
      forList (fun b _ i => (.ok (body b i) : Except Empty β)) b j entries =
        .ok (List.foldl body b entries) := by
    intro j entries
    induction entries generalizing j with
    | nil => exact fun _ => rfl
    | cons i rest ih => exact fun b => ih i (body b i)
  rw [NetworkFirewallWindows.forAll, forEntries_eq (h.isList l).chain (h.length_le l), hfold]
  rfl

theorem Represents.listSize (h : Represents m as s) (l : Head) :
    listSize m l = some (l.rules s).length := by
  have hcount : ∀ (entries : List Addr) (size : Nat),
      entries.foldl (fun size _ => size + 1) size = size + entries.length := by
    intro entries
    induction entries with
    | nil => exact fun _ => rfl
    | cons i rest ih =>
      intro size
      rw [List.foldl_cons, ih, List.length_cons]
      omega
  rw [NetworkFirewallWindows.listSize, h.forAll, hcount, Nat.zero_add, ← h.entries l,
    List.length_map]

theorem Represents.addRulesToBuffer (h : Represents m as s) (off : Nat) (l : Head)
    (buffer : List UInt8) :
    addRulesToBuffer m off l buffer =
      some (NetworkFirewall.addRulesToBuffer off (l.rules s) buffer) := by
  have hfold : ∀ (entries : List Addr) (k : Nat) (buffer : List UInt8),
      (entries.foldl (fun (p : Nat × List UInt8) i =>
        (p.1 + 1, splice p.2 (off + p.1 * sizeofFwr) (m.entry i).rule.bytes)) (k, buffer)).2 =
      NetworkFirewall.addRulesFrom off k (entries.map m.entry) buffer := by
    intro entries
    induction entries with
    | nil => exact fun _ _ => rfl
    | cons i rest ih => exact fun k buffer => ih (k + 1) _
  rw [NetworkFirewallWindows.addRulesToBuffer, h.forAll, Option.map_some,
    NetworkFirewall.addRulesToBuffer, ← h.entries l, ← hfold]

/-- The three lists go one behind the other, behind their number. -/
theorem kernelBuffer_eq (s : State) (number : List UInt8) (hnumber : number.length = 4)
    {buffer : List UInt8} (hbuffer : buffer.length = s.entries.length * sizeofFwr + 4) :
    NetworkFirewall.addRulesToBuffer
      ((s.tcpDynamicRules.length + s.staticRules.length) * sizeofFwr + 4) s.udpDynamicRules
      (NetworkFirewall.addRulesToBuffer (s.staticRules.length * sizeofFwr + 4) s.tcpDynamicRules
        (NetworkFirewall.addRulesToBuffer 4 s.staticRules (splice buffer 0 number))) =
      number ++ bytesOf s.entries := by
  have hall : (number ++ bytesOf s.entries).length = buffer.length := by
    rw [List.length_append, length_bytesOf, hbuffer, hnumber, Nat.add_comm]
  rw [State.entries, List.length_append, List.length_append, Nat.add_mul, Nat.add_mul] at hbuffer
  have hstatic : (number ++ bytesOf s.staticRules).length =
      s.staticRules.length * sizeofFwr + 4 := by
    rw [List.length_append, length_bytesOf, hnumber, Nat.add_comm]
  have htcp : (number ++ bytesOf (s.staticRules ++ s.tcpDynamicRules)).length =
      (s.tcpDynamicRules.length + s.staticRules.length) * sizeofFwr + 4 := by
    rw [List.length_append, length_bytesOf, hnumber, List.length_append, Nat.add_comm,
      Nat.add_comm s.tcpDynamicRules.length]
  -- Each list is written where the one before it ends.
  have h₁ := @NetworkFirewall.addRulesToBuffer_splice buffer number s.staticRules (by omega)
  have h₂ := @NetworkFirewall.addRulesToBuffer_splice buffer (number ++ bytesOf s.staticRules)
    s.tcpDynamicRules (by omega)
  have h₃ := @NetworkFirewall.addRulesToBuffer_splice buffer
    (number ++ bytesOf (s.staticRules ++ s.tcpDynamicRules)) s.udpDynamicRules
    (by rw [htcp, Nat.add_mul]; omega)
  rw [hnumber] at h₁
  rw [hstatic, List.append_assoc, ← NetworkFirewall.bytesOf_append] at h₂
  rw [htcp, List.append_assoc, ← NetworkFirewall.bytesOf_append] at h₃
  rw [h₁, h₂, h₃, ← State.entries, splice_zero, hall, List.drop_length, List.append_nil]

/-! ### The answer -/

/-- **Listing.**  The memory lists the rules that it holds. -/
theorem Represents.lists (h : Represents m as s) : Lists m (s.entries.map RulesList.rule) := by
  have hlength : (s.entries.map RulesList.rule).length = s.entries.length := List.length_map _
  have hsize : s.staticRules.length + s.tcpDynamicRules.length + s.udpDynamicRules.length =
      s.entries.length := by
    rw [State.entries, List.length_append, List.length_append]
  constructor
  · intro buffer fresh hbuffer hsmall
    rw [hlength] at hsmall ⊢
    rw [fwList, h.listSize, h.listSize, h.listSize]
    simp only [bind, Option.bind, pure, Head.rules, hsize, if_neg (Nat.not_lt.mpr hbuffer)]
    -- The number is all of the answer.
    split
    next hzero =>
      rw [hzero.1, splice_zero]
      rfl
    next => rw [splice_zero, length_leInt]
  · intro buffer fresh hbuffer hsuffices
    rw [hlength] at hbuffer hsuffices ⊢
    have hroom : ¬ buffer.length < s.entries.length * sizeofFwr + 4 := Nat.not_lt.mpr hbuffer
    have hread := NetworkFirewall.readFwr_roundTrip.readMany (s.entries.map RulesList.rule)
      (buffer.drop (s.entries.length * sizeofFwr + 4))
    rw [hlength, List.flatMap_map] at hread
    -- What is behind the answer in the buffer stays.
    have hanswer : (leInt s.entries.length ++ bytesOf s.entries).length =
        s.entries.length * sizeofFwr + 4 := by
      rw [List.length_append, length_bytesOf, length_leInt, Nat.add_comm]
    refine ⟨splice buffer 0 (leInt s.entries.length ++ bytesOf s.entries), ?_, ?_, ?_⟩
    · rw [fwList, h.listSize, h.listSize, h.listSize]
      simp only [bind, Option.bind, pure, Head.rules, hsize,
        if_neg (show ¬ buffer.length < 4 by omega),
        if_neg (Int.not_lt.mpr hsuffices), if_neg hroom, h.addRulesToBuffer, gt_iff_lt]
      have hkernel := kernelBuffer_eq s (leInt s.entries.length) rfl
        (length_readBytes fresh 0 (s.entries.length * sizeofFwr + 4))
      split
      next hzero =>
        rw [List.length_eq_zero_iff.mp hzero.1]
        rfl
      next => rw [hkernel]
    · rw [splice_zero, List.append_assoc, List.take_left' (length_leInt _)]
    · rw [splice_zero, hanswer, List.append_assoc, List.drop_left' (length_leInt _)]
      exact hread

end WorkAtUPB.NetworkFirewallWindows

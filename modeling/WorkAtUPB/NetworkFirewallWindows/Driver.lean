import WorkAtUPB.Lib.Bytes
import WorkAtUPB.Lib.Run
import WorkAtUPB.NetworkFirewall.RuleListing
import WorkAtUPB.NetworkFirewallWindows.Rules

namespace WorkAtUPB.NetworkFirewallWindows

open WorkAtUPB.Bytes WorkAtUPB.Run
open WorkAtUPB.NetworkFirewall (Fwr Iphdr Skb State Verdict WellFormed newRule IPPROTO_TCP
    IPPROTO_UDP
  myNfHookfnIn myNfHookfnOut readFwr)

/-!
# NetworkFirewallWindows — the driver (`ip_firewall.c`)

One callback is given the packets of both directions, as buffers that follow one another:

* `gather`, `filterPacket`, `callbackFilterFunction` — a packet is put together and filtered;
  nothing is read outside it;
* `Driver`, `Driver.Event`, `Session.step` — the driver: packets, requests, time, timers;
* `skbOf`, `moduleEvents` — what the Linux module is shown of an event of the driver: a packet for
  which the driver gets no memory is forwarded unfiltered, and no hook is shown it;
* `Follows` — the driver holds the rules of the module, and has decided what it has decided;
* `driver_follows` — it does, after every run.
-/

/-! ### Packets -/

/-- `FORWARD` and `DROP`. -/
inductive ForwardAction where
  | forward
  | drop
  deriving DecidableEq, Repr

/-- The second loop of `callbackFilterFunction`, from a buffer on. -/
def copyBuffers (packet : List UInt8) (offset : Nat) (buffer : List UInt8) :
    List (List UInt8) → List UInt8
  | [] => packet
  | next :: rest =>
    copyBuffers (splice packet (offset + buffer.length) next) (offset + buffer.length) next rest

/-- The buffers in memory of their size; `fresh` is what it held. -/
def gather (fresh : Mem) (buffer : List UInt8) (rest : List (List UInt8)) : List UInt8 :=
  let bufferSize := rest.foldl (fun size next => size + next.length) buffer.length
  copyBuffers (splice (readBytes fresh 0 bufferSize) 0 buffer) 0 buffer rest

/-- A 16-bit field of a header. -/
def ushortAt (packet : List UInt8) (off : Nat) : Option UInt16 :=
  if off + 2 ≤ packet.length then some (ofLE16 (packet.drop off)) else none

/-- A 32-bit field of a header. -/
def ulongAt (packet : List UInt8) (off : Nat) : Option UInt32 :=
  if off + 4 ≤ packet.length then some (ofLE32 (packet.drop off)) else none

/-- The length of the IP header, from its first byte. -/
def headerLength (b : UInt8) : Nat := (b &&& 0xF).toNat * 4

/-- `generate_tcp_dynamic_rule` and `generate_udp_dynamic_rule`, which differ in the masks of the
    rule for a packet sent; the ports are the first fields of either header. -/
def generateRule (mask : UInt32) (packet : List UInt8) (off : Nat) (out : Bool) : Option Fwr := do
  let source ← ulongAt packet 12
  let destination ← ulongAt packet 16
  let sourcePort ← ushortAt packet off
  let destinationPort ← ushortAt packet (off + 2)
  if out then
    return newRule destination source mask mask destinationPort destinationPort sourcePort
      sourcePort
  else
    return newRule source destination 0 0 sourcePort sourcePort destinationPort destinationPort

/-- `generate_tcp_dynamic_rule`. -/
def generateTcpDynamicRule : List UInt8 → Nat → Bool → Option Fwr := generateRule 0xFFFF

/-- `generate_udp_dynamic_rule`. -/
def generateUdpDynamicRule : List UInt8 → Nat → Bool → Option Fwr := generateRule 0

/-- A bit of the flags of a TCP header. -/
def tcpFlag (packet : List UInt8) (off : Nat) (bit : UInt8) : Option Bool :=
  (packet[off + 13]?).map fun flags => flags &&& bit != 0

/-! ### The driver -/

/-- The memory, the time in units of 100 ns, the next address for a rule, and whether the callback
    is to be, and is, registered. -/
structure Driver where
  memory : Memory
  now : Nat
  nextPtr : Nat
  enabled : Bool
  registered : Bool

/-- `FilterPacket` for a packet received; `none` for one that it looks at no further. -/
def filterRecv (d : Driver) (packet : List UInt8) (off : Nat) (protocol : UInt8) :
    Option (Option ForwardAction × Driver) :=
  if protocol = IPPROTO_TCP then do
    let rule ← generateTcpDynamicRule packet off false
    let static ← searchRule d.memory rule .static
    if static.isSome then
      return (some .forward, d)
    else
      let ple ← searchRule d.memory rule .tcp
      return (some (if ple.isSome then .forward else .drop), d)
  else if protocol = IPPROTO_UDP then do
    let rule ← generateUdpDynamicRule packet off false
    let static ← searchRule d.memory rule .static
    if static.isSome then
      return (some .forward, d)
    else
      match ← searchRule d.memory rule .udp with
      | some ple => return (some .forward, { d with memory := keSetTimer d.now d.memory ple })
      | none => return (some .drop, d)
  else some (none, d)

/-- The driver after `add_rule`. -/
def Driver.add (d : Driver) (rule : Fwr) (head : Head) (onStack : Bool)
    (proto : Option NetworkFirewall.Proto) (pool : ExAllocatePool) : Driver :=
  { d with
    memory := (addRule d.now d.nextPtr d.memory rule head onStack proto pool).2
    nextPtr := d.nextPtr + 1 }

/-- `FilterPacket` for a packet to be sent. -/
def filterSend (d : Driver) (packet : List UInt8) (off : Nat) (protocol : UInt8)
    (pool : ExAllocatePool) : Option Driver :=
  if protocol = IPPROTO_TCP then do
    let rule ← generateTcpDynamicRule packet off true
    let syn ← tcpFlag packet off 0x02
    let ack ← tcpFlag packet off 0x10
    let fin ← tcpFlag packet off 0x01
    if syn = true ∧ ack = false then
      -- connection initiating packet
      return d.add rule .tcp true (some .tcp) pool
    else if fin = true then
      -- connection ending packet
      match ← searchRule d.memory rule .tcp with
      | some ple => return { d with memory := keSetTimer d.now d.memory ple }
      | none => return d
    else return d
  else if protocol = IPPROTO_UDP then do
    let rule ← generateUdpDynamicRule packet off true
    match ← searchRule d.memory rule .udp with
    | some ple => return { d with memory := keSetTimer d.now d.memory ple }
    | none => return d.add rule .udp true (some .udp) pool
  else some d

/-- `FilterPacket`, for the headers at the start of the packet and at `off`. -/
def filterPacket (d : Driver) (packet : List UInt8) (off : Nat) (recv send : Nat)
    (pool : ExAllocatePool) : Option (ForwardAction × Driver) := do
  let protocol ← packet[9]?
  let received := if recv > 0 then filterRecv d packet off protocol else some (none, d)
  match ← received with
  | (some action, d) => return (action, d)
  | (none, d) =>
    if send > 0 then
      let d ← filterSend d packet off protocol pool
      return (.forward, d)
    else return (.forward, d)

/-- `callbackFilterFunction`; `fresh` is what the memory for the packet held, if there is some, and
    `send` is what `pSendInterfaceIndex` points to. -/
def callbackFilterFunction (d : Driver) (pData : List (List UInt8)) (fresh : Option Mem)
    (recv : Nat)
    (send : Option Nat) (pool : ExAllocatePool) : Option (ForwardAction × Driver) :=
  match pData, fresh with
  | buffer :: rest, some fresh => do
    let packet := gather fresh buffer rest
    let first ← packet[0]?
    filterPacket d packet (headerLength first) recv (send.getD 0) pool
  | _, _ => some (.forward, d)

/-- The request `FW_ADD_RULE`; `rule` says whether there is memory for the rule. -/
def fwAddRule (d : Driver) (buffer : List UInt8) (rule : Bool) (pool : ExAllocatePool) :
    Option (Ntstatus × Driver) :=
  if rule then
    (readFwr buffer).map fun (rule, _) => (.success, d.add rule .static false none pool)
  else some (.insufficientResources, d)

/-- The request `FW_ENABLE`; `ok` is whether the callback can be registered. -/
def fwEnable (d : Driver) (ok : Bool) : Driver :=
  if d.enabled then d else { d with enabled := true, registered := d.registered || ok }

/-- The request `FW_DISABLE`; `ok` is whether the callback can be removed. -/
def fwDisable (d : Driver) (ok : Bool) : Driver :=
  if d.enabled then { d with enabled := false, registered := d.registered && !ok } else d

/-- The timer of the entry at an address, once it is due. -/
def timerCallback (left : Heap Addr → Addr → Option Addr) (d : Driver) (a : Addr) : Option Driver :=
  match (d.memory.entry a).timer.expires with
  | none => none
  | some expires =>
    if expires ≤ d.now then
      match (d.memory.entry a).timer.function with
      | some .tcp => (delRule left d.memory a .tcp).map fun (_, memory) => { d with memory }
      | some .udp => (delRule left d.memory a .udp).map fun (_, memory) => { d with memory }
      | none => some d
    else none

/-! ### Events -/

/-- What happens to the driver. -/
inductive Driver.Event where
  | packet (pData : List (List UInt8)) (fresh : Option Mem) (recv : Nat) (send : Option Nat)
      (pool : ExAllocatePool)
  | addRule (buffer : List UInt8) (rule : Bool) (pool : ExAllocatePool)
  | enable (ok : Bool)
  | disable (ok : Bool)
  | tick
  | expire (a : Addr)

/-- The driver, and what its callback has returned. -/
structure Session where
  driver : Driver
  actions : List ForwardAction

/-- One event. -/
def Session.step (left : Heap Addr → Addr → Option Addr) (s : Session) :
    Driver.Event → Option Session
  | .packet pData fresh recv send pool =>
    if s.driver.registered then
      (callbackFilterFunction s.driver pData fresh recv send pool).map fun (action, driver) =>
        { driver, actions := s.actions ++ [action] }
    else some s
  | .addRule buffer rule pool =>
    (fwAddRule s.driver buffer rule pool).map fun (_, driver) => { s with driver }
  | .enable ok => some { s with driver := fwEnable s.driver ok }
  | .disable ok => some { s with driver := fwDisable s.driver ok }
  | .tick => some { s with driver := { s.driver with now := s.driver.now + 1 } }
  | .expire a => (timerCallback left s.driver a).map fun driver => { s with driver }

/-- The lists are empty, and the callback is registered if that succeeds. -/
def Session.loaded (ok : Bool) : Session where
  driver :=
    { memory :=
        { heap := ⟨fun _ => none, []⟩
          entry := fun _ => ⟨0, newRule 0 0 0 0 0 0 0 0, ⟨none, none⟩⟩
          used := [] }
      now := 0
      nextPtr := 0
      enabled := true
      registered := ok }
  actions := []

/-! ### The module that it follows

The Linux module has ten million jiffies in a second. -/

/-- `HZ`. -/
def HZ : Nat := 10000000

/-- `NF_ACCEPT` for `FORWARD`, and `NF_DROP` for `DROP`. -/
def ForwardAction.verdict : ForwardAction → Verdict
  | .forward => .accept
  | .drop => .drop

/-- What the module is shown: an event of its own, or that a packet goes on unfiltered. -/
inductive Shown where
  | event (e : NetworkFirewall.Event)
  | unfiltered

/-- The verdict on a packet: that of the hook, if one sees it. -/
def verdicts (s : State) : Shown → List Verdict
  | .event (.packetIn skb) => [(myNfHookfnIn HZ s skb).1]
  | .event (.packetOut ..) => [.accept]
  | .event (.addRule ..) | .event .tick | .event (.expire _) => []
  | .unfiltered => [.accept]

/-- The rules of the module after what it is shown; an unfiltered packet changes none. -/
def moduleStep (s : State) : Shown → Option State
  | .event e => NetworkFirewall.step HZ s e
  | .unfiltered => some s

/-- One event of the module, with the verdicts so far. -/
def stepModule (t : State × List Verdict) (e : Shown) : Option (State × List Verdict) :=
  (moduleStep t.1 e).map fun s => (s, t.2 ++ verdicts t.1 e)

/-- The headers of a packet. -/
def skbOf (packet : List UInt8) : Skb :=
  let off := headerLength (packet.getD 0 0)
  let flags := packet.getD (off + 13) 0
  { iph := some {
      protocol := packet.getD 9 0
      saddr := ofLE32 (packet.drop 12)
      daddr := ofLE32 (packet.drop 16) }
    tcph := {
      source := ofLE16 (packet.drop off)
      dest := ofLE16 (packet.drop (off + 2))
      syn := flags &&& 0x02 != 0
      ack := flags &&& 0x10 != 0
      fin := flags &&& 0x01 != 0 }
    udph := {
      source := ofLE16 (packet.drop off)
      dest := ofLE16 (packet.drop (off + 2)) } }

/-- What the pool gives, as the answers of `kmalloc`. -/
def ExAllocatePool.kmalloc (pool : ExAllocatePool) : NetworkFirewall.Kmalloc :=
  ⟨pool.ple.isSome, pool.rule⟩

/-- The hook that sees a packet, if it comes from an interface or goes to one. -/
def packetEvent (packet : List UInt8) (recv send : Nat) (pool : ExAllocatePool) : Shown :=
  if recv > 0 then .event (.packetIn (skbOf packet))
  else if send > 0 then .event (.packetOut (skbOf packet) pool.kmalloc)
  else .unfiltered

/-- What the module is shown of an event; the driver filters no packet without data, and none for
    which it gets no memory. -/
def moduleEvents (s : Session) : Driver.Event → List Shown
  | .packet pData fresh recv send pool =>
    if s.driver.registered then
      [if pData.isEmpty ∨ fresh.isNone then .unfiltered
        else packetEvent pData.flatten recv (send.getD 0) pool]
    else []
  | .addRule buffer rule pool =>
    if rule then
      ((readFwr buffer).map fun (rule, _) => .event (.addRule rule pool.kmalloc)).toList
    else []
  | .enable _ | .disable _ => []
  | .tick => [.event .tick]
  | .expire a => [.event (.expire (s.driver.memory.entry a).rulePtr)]

/-- The packet holds the fields of its headers that the driver reads. -/
def Whole (packet : List UInt8) : Prop :=
  20 ≤ packet.length ∧
    (packet.getD 9 0 = IPPROTO_TCP → headerLength (packet.getD 0 0) + 14 ≤ packet.length) ∧
    (packet.getD 9 0 = IPPROTO_UDP → headerLength (packet.getD 0 0) + 4 ≤ packet.length)

instance (packet : List UInt8) : Decidable (Whole packet) :=
  inferInstanceAs (Decidable (_ ∧ _ ∧ _))

/-- The pool does not give an address that is in use. -/
def Fresh (d : Driver) (pool : ExAllocatePool) : Prop :=
  ∀ n ∈ pool.ple, Addr.pool n ∉ d.memory.used

instance (d : Driver) (pool : ExAllocatePool) : Decidable (Fresh d pool) :=
  inferInstanceAs (Decidable (∀ n ∈ pool.ple, Addr.pool n ∉ d.memory.used))

/-- What the system promises: packets are whole and rules complete, the pool gives new addresses,
    and only timers that are due fire. -/
def Promised (s : Session) : Driver.Event → Prop
  | .packet pData _ _ _ pool => (pData ≠ [] → Whole pData.flatten) ∧ Fresh s.driver pool
  | .addRule buffer _ pool => NetworkFirewall.sizeofFwr ≤ buffer.length ∧ Fresh s.driver pool
  | .enable _ | .disable _ | .tick => True
  | .expire a => ∃ due ∈ (s.driver.memory.entry a).timer.expires, due ≤ s.driver.now

instance (s : Session) : (e : Driver.Event) → Decidable (Promised s e)
  | .packet .. | .addRule .. => inferInstanceAs (Decidable (_ ∧ _))
  | .enable _ | .disable _ | .tick => inferInstanceAs (Decidable True)
  | .expire a =>
    inferInstanceAs
      (Decidable (∃ due ∈ (s.driver.memory.entry a).timer.expires, due ≤ s.driver.now))

/-- The driver holds the rules of the module. -/
structure Holds (d : Driver) (s : State) : Prop where
  memory : ∃ as, Represents d.memory as s
  now : d.now = s.jiffies
  nextPtr : d.nextPtr = s.nextPtr

/-- The driver holds the rules of the module, and has decided what it has decided. -/
structure Follows (s : Session) (t : State × List Verdict) : Prop where
  holds : Holds s.driver t.1
  wellFormed : WellFormed t.1
  actions : s.actions.map ForwardAction.verdict = t.2

/-! ### The packet that is filtered -/

/-- What has been copied stays, and the rest is copied behind it. -/
theorem copyBuffers_eq {done tail buffer : List UInt8} {offset : Nat} {rest : List (List UInt8)}
    (hdone : offset + buffer.length = done.length) (htail : tail.length = rest.flatten.length) :
    copyBuffers (done ++ tail) offset buffer rest = done ++ rest.flatten := by
  induction rest generalizing done tail buffer offset with
  | nil =>
    obtain rfl := List.length_eq_zero_iff.mp htail
    rfl
  | cons next rest ih =>
    rw [List.flatten_cons, List.length_append] at htail
    have hsplice : splice (done ++ tail) done.length next =
        (done ++ next) ++ tail.drop next.length := by
      rw [splice, List.take_left, List.drop_length_add_append]
    rw [copyBuffers, hdone, hsplice, ih (List.length_append).symm (by rw [List.length_drop]; omega),
      List.flatten_cons, List.append_assoc]

/-- The buffers are put together in their order. -/
theorem gather_eq (fresh : Mem) (buffer : List UInt8) (rest : List (List UInt8)) :
    gather fresh buffer rest = (buffer :: rest).flatten := by
  have hsize : ∀ size, rest.foldl (fun size next => size + next.length) size =
      size + rest.flatten.length := by
    induction rest with
    | nil => exact fun _ => rfl
    | cons next rest ih =>
      intro size
      rw [List.foldl_cons, ih, List.flatten_cons, List.length_append, Nat.add_assoc]
  rw [gather]
  simp only [hsize, splice_zero]
  rw [copyBuffers_eq (Nat.zero_add _) (by rw [List.length_drop, length_readBytes]; omega),
    List.flatten_cons]

variable {d : Driver} {s : State} {packet : List UInt8}

theorem Whole.ulongAt (h : Whole packet) {off : Nat} (hoff : off + 4 ≤ 20) :
    ulongAt packet off = some (ofLE32 (packet.drop off)) := if_pos (hoff.trans h.1)

theorem ushortAt_of_le {off : Nat} (hoff : off + 2 ≤ packet.length) :
    ushortAt packet off = some (ofLE16 (packet.drop off)) := if_pos hoff

theorem getElem?_eq_getD {i : Nat} (hi : i < packet.length) :
    packet[i]? = some (packet.getD i 0) := by
  rw [List.getD_eq_getElem?_getD, List.getElem?_eq_getElem hi]
  rfl

/-- The rule for a whole packet is the one of the module. -/
theorem generateTcpDynamicRule_eq (h : Whole packet) (htcp : packet.getD 9 0 = IPPROTO_TCP)
    (out : Bool) {iph : Iphdr} (hiph : (skbOf packet).iph = some iph) :
    generateTcpDynamicRule packet (headerLength (packet.getD 0 0)) out =
      some (NetworkFirewall.generateTcpDynamicRule iph (skbOf packet).tcph out) := by
  obtain rfl := Option.some.inj hiph
  have hoff := h.2.1 htcp
  rw [generateTcpDynamicRule, generateRule, h.ulongAt (by decide), h.ulongAt (by decide),
    ushortAt_of_le (by omega), ushortAt_of_le (by omega)]
  cases out <;> rfl

theorem generateUdpDynamicRule_eq (h : Whole packet) (hudp : packet.getD 9 0 = IPPROTO_UDP)
    (out : Bool) {iph : Iphdr} (hiph : (skbOf packet).iph = some iph) :
    generateUdpDynamicRule packet (headerLength (packet.getD 0 0)) out =
      some (NetworkFirewall.generateUdpDynamicRule iph (skbOf packet).udph out) := by
  obtain rfl := Option.some.inj hiph
  have hoff := h.2.2 hudp
  rw [generateUdpDynamicRule, generateRule, h.ulongAt (by decide), h.ulongAt (by decide),
    ushortAt_of_le (by omega), ushortAt_of_le (by omega)]
  cases out <;> rfl

theorem tcpFlag_eq (h : Whole packet) (htcp : packet.getD 9 0 = IPPROTO_TCP) (bit : UInt8) :
    tcpFlag packet (headerLength (packet.getD 0 0)) bit =
      some (packet.getD (headerLength (packet.getD 0 0) + 13) 0 &&& bit != 0) := by
  have hoff : headerLength (packet.getD 0 0) + 13 < packet.length := h.2.1 htcp
  rw [tcpFlag, getElem?_eq_getD hoff]
  rfl

/-! ### The lists -/

theorem WellFormed.nodup_rules (h : WellFormed s) (l : Head) :
    ((l.rules s).map NetworkFirewall.RulesList.rulePtr).Nodup := by
  refine h.nodup.sublist (List.Sublist.map _ ?_)
  cases l with
  | static => exact (List.sublist_append_left _ _).trans (List.sublist_append_left _ _)
  | tcp => exact (List.sublist_append_right _ _).trans (List.sublist_append_left _ _)
  | udp => exact List.sublist_append_right _ _

/-- A search finds an entry if the module finds one. -/
theorem Holds.search (h : Holds d s) (rule : Fwr) (l : Head) :
    ∃ found, searchRule d.memory rule l = some found ∧
      found.isSome = (NetworkFirewall.searchRule rule (l.rules s)).isSome := by
  obtain ⟨as, has⟩ := h.memory
  obtain ⟨found, hsearch, -, hfound⟩ := has.searchRule rule l
  exact ⟨found, hsearch, by rw [← hfound, Option.isSome_map]⟩

/-- Setting the timer of the entry found, if there is one. -/
theorem Holds.refresh (h : Holds d s) (hw : WellFormed s) (rule : Fwr) (l : Head) :
    (searchRule d.memory rule l = some none ∧
      NetworkFirewall.searchRule rule (l.rules s) = none) ∨
    ∃ a ple, searchRule d.memory rule l = some (some a) ∧
      NetworkFirewall.searchRule rule (l.rules s) = some ple ∧
      Holds { d with memory := keSetTimer d.now d.memory a } (l.setRules s
        (NetworkFirewall.modTimer ple.rulePtr (NetworkFirewall.deadline HZ s.jiffies)
          (l.rules s))) := by
  obtain ⟨as, has⟩ := h.memory
  obtain ⟨found, hsearch, hmem, hfound⟩ := has.searchRule rule l
  cases found with
  | none => exact Or.inl ⟨hsearch, hfound.symm⟩
  | some a =>
    refine Or.inr ⟨a, d.memory.entry a, hsearch, hfound.symm, ?_⟩
    have hset := has.keSetTimer (WellFormed.nodup_rules hw l) (hmem a rfl) d.now
    have hnow : NetworkFirewall.deadline HZ s.jiffies = due d.now := congrArg due h.now.symm
    rw [hnow]
    exact ⟨⟨as, hset⟩, by cases l <;> exact h.now, by cases l <;> exact h.nextPtr⟩

/-- Adding a rule. -/
theorem Holds.add (h : Holds d s) (pool : ExAllocatePool) (hpool : Fresh d pool) (rule : Fwr)
    (l : Head) (onStack : Bool) (proto : Option NetworkFirewall.Proto) :
    Holds (d.add rule l onStack proto pool) { l.setRules s
      (NetworkFirewall.addRule HZ s.jiffies s.nextPtr rule (l.rules s) onStack proto
        pool.kmalloc).2 with nextPtr := s.nextPtr + 1 } := by
  obtain ⟨as, has⟩ := h.memory
  obtain ⟨as', has'⟩ := has.addRule pool hpool d.now d.nextPtr rule l onStack proto
  rw [h.now, h.nextPtr] at has'
  refine ⟨⟨as', ?_⟩, ?_, congrArg (· + 1) h.nextPtr⟩
  · rw [Driver.add, h.now, h.nextPtr]
    exact ⟨has'.isList, has'.apart, has'.used, has'.pool, has'.unarmed,
      fun l' => (has'.entries l').trans (by cases l' <;> rfl)⟩
  · cases l <;> exact h.now

/-! ### The hooks -/

/-- A packet received. -/
theorem filterRecv_follows (h : Holds d s) (hw : WellFormed s) (hwhole : Whole packet)
    (hproto : packet.getD 9 0 = IPPROTO_TCP ∨ packet.getD 9 0 = IPPROTO_UDP) :
    ∃ action d', filterRecv d packet (headerLength (packet.getD 0 0)) (packet.getD 9 0) =
        some (some action, d') ∧
      action.verdict = (myNfHookfnIn HZ s (skbOf packet)).1 ∧
      Holds d' (myNfHookfnIn HZ s (skbOf packet)).2 := by
  obtain ⟨iph, hiph, hprotocol⟩ : ∃ iph, (skbOf packet).iph = some iph ∧
    iph.protocol = packet.getD 9 0 := ⟨_, rfl, rfl⟩
  rw [myNfHookfnIn, hiph]
  dsimp only
  rw [hprotocol]
  by_cases htcp : packet.getD 9 0 = IPPROTO_TCP
  -- The static rules come first, and then those of TCP.
  · rw [filterRecv, if_pos htcp, if_pos htcp, generateTcpDynamicRule_eq hwhole htcp false hiph]
    obtain ⟨static, hstatic, hstatic'⟩ := h.search
      (NetworkFirewall.generateTcpDynamicRule iph (skbOf packet).tcph false) .static
    obtain ⟨ple, hple, hple'⟩ := h.search
      (NetworkFirewall.generateTcpDynamicRule iph (skbOf packet).tcph false) .tcp
    simp only [bind, Option.bind, hstatic, hple, pure, hstatic', hple', Head.rules]
    split
    next => exact ⟨.forward, d, rfl, rfl, h⟩
    next =>
      split
      next => exact ⟨.forward, d, rfl, rfl, h⟩
      next => exact ⟨.drop, d, rfl, rfl, h⟩
  · have hudp : packet.getD 9 0 = IPPROTO_UDP := hproto.resolve_left htcp
    rw [filterRecv, if_neg htcp, if_neg htcp, if_pos hudp, if_pos hudp,
      generateUdpDynamicRule_eq hwhole hudp false hiph]
    obtain ⟨static, hstatic, hstatic'⟩ := h.search
      (NetworkFirewall.generateUdpDynamicRule iph (skbOf packet).udph false) .static
    simp only [bind, Option.bind, hstatic, pure, hstatic', Head.rules]
    split
    next => exact ⟨.forward, d, rfl, rfl, h⟩
    next =>
      -- A UDP rule that matches has its timer set again.
      rcases h.refresh hw (NetworkFirewall.generateUdpDynamicRule iph (skbOf packet).udph false)
          .udp
        with ⟨hsearch, hmodule⟩ | ⟨a, ple, hsearch, hmodule, hset⟩
      · rw [hsearch, show NetworkFirewall.searchRule _ s.udpDynamicRules = none from hmodule]
        exact ⟨.drop, d, rfl, rfl, h⟩
      · rw [hsearch, show NetworkFirewall.searchRule _ s.udpDynamicRules = some ple from hmodule]
        exact ⟨.forward, _, rfl, rfl, hset⟩

/-- A packet to be sent. -/
theorem filterSend_follows (h : Holds d s) (hw : WellFormed s) (hwhole : Whole packet)
    {pool : ExAllocatePool} (hpool : Fresh d pool) :
    ∃ d', filterSend d packet (headerLength (packet.getD 0 0)) (packet.getD 9 0) pool = some d' ∧
      Holds d' (myNfHookfnOut HZ s (skbOf packet) pool.kmalloc) := by
  obtain ⟨iph, hiph, hprotocol⟩ : ∃ iph, (skbOf packet).iph = some iph ∧
    iph.protocol = packet.getD 9 0 := ⟨_, rfl, rfl⟩
  rw [myNfHookfnOut, hiph]
  dsimp only
  rw [hprotocol]
  by_cases htcp : packet.getD 9 0 = IPPROTO_TCP
  · rw [filterSend, if_pos htcp, if_pos htcp, generateTcpDynamicRule_eq hwhole htcp true hiph]
    simp only [bind, Option.bind, tcpFlag_eq hwhole htcp, pure]
    show ∃ d', (if (skbOf packet).tcph.syn = true ∧ (skbOf packet).tcph.ack = false then _
      else if (skbOf packet).tcph.fin = true then _ else _) = some d' ∧ _
    split
    -- A SYN makes a rule.
    next => exact ⟨_, rfl, h.add pool hpool _ .tcp true (some .tcp)⟩
    next =>
      split
      next =>
        -- A FIN starts the timer of the rule, if there is one.
        rcases h.refresh hw (NetworkFirewall.generateTcpDynamicRule iph (skbOf packet).tcph true)
          .tcp with ⟨hsearch, hmodule⟩ | ⟨a, ple, hsearch, hmodule, hset⟩
        · rw [hsearch, show NetworkFirewall.searchRule _ s.tcpDynamicRules = none from hmodule]
          exact ⟨d, rfl, h⟩
        · rw [hsearch, show NetworkFirewall.searchRule _ s.tcpDynamicRules = some ple from hmodule]
          exact ⟨_, rfl, hset⟩
      next => exact ⟨d, rfl, h⟩
  · rw [filterSend, if_neg htcp, if_neg htcp]
    split
    next hudp =>
      rw [generateUdpDynamicRule_eq hwhole hudp true hiph]
      simp only [bind, Option.bind, pure]
      -- A UDP packet makes a rule, or sets the timer of its rule again.
      rcases h.refresh hw (NetworkFirewall.generateUdpDynamicRule iph (skbOf packet).udph true) .udp
        with ⟨hsearch, hmodule⟩ | ⟨a, ple, hsearch, hmodule, hset⟩
      · rw [hsearch, show NetworkFirewall.searchRule _ s.udpDynamicRules = none from hmodule]
        exact ⟨_, rfl, h.add pool hpool _ .udp true (some .udp)⟩
      · rw [hsearch, show NetworkFirewall.searchRule _ s.udpDynamicRules = some ple from hmodule]
        exact ⟨_, rfl, hset⟩
    next => exact ⟨d, rfl, h⟩

/-- A packet, whatever its direction. -/
theorem filterPacket_follows (h : Holds d s) (hw : WellFormed s) (hwhole : Whole packet)
    {pool : ExAllocatePool} (hpool : Fresh d pool) (recv send : Nat) :
    ∃ action d' s',
      filterPacket d packet (headerLength (packet.getD 0 0)) recv send pool = some (action, d') ∧
      moduleStep s (packetEvent packet recv send pool) = some s' ∧
      verdicts s (packetEvent packet recv send pool) = [action.verdict] ∧ Holds d' s' := by
  have hprotocol : packet[9]? = some (packet.getD 9 0) :=
    getElem?_eq_getD (Nat.lt_of_lt_of_le (by decide) hwhole.1)
  rw [filterPacket, hprotocol, packetEvent]
  simp only [bind, Option.bind, pure]
  by_cases hrecv : recv > 0
  · rw [if_pos hrecv, if_pos hrecv]
    by_cases hproto : packet.getD 9 0 = IPPROTO_TCP ∨ packet.getD 9 0 = IPPROTO_UDP
    · obtain ⟨action, d', hfilter, hverdict, h'⟩ := filterRecv_follows h hw hwhole hproto
      rw [hfilter]
      exact ⟨action, d', _, rfl, rfl, congrArg (fun v => [v]) hverdict.symm, h'⟩
    · -- a packet of another protocol goes through
      obtain ⟨htcp, hudp⟩ := not_or.mp hproto
      have haccept : myNfHookfnIn HZ s (skbOf packet) = (.accept, s) := by
        rw [myNfHookfnIn]
        exact (if_neg htcp).trans (if_neg hudp)
      refine ⟨.forward, d, s, ?_, congrArg (fun r : Verdict × State => some r.2) haccept,
        congrArg (fun r : Verdict × State => [r.1]) haccept, h⟩
      rw [filterRecv, if_neg htcp, if_neg hudp]
      simp only [filterSend, if_neg htcp, if_neg hudp]
      split <;> rfl
  · rw [if_neg hrecv, if_neg hrecv]
    by_cases hsend : send > 0
    · obtain ⟨d', hsend', h'⟩ := filterSend_follows h hw hwhole hpool
      simp only [if_pos hsend, hsend']
      exact ⟨.forward, d', _, rfl, rfl, rfl, h'⟩
    · simp only [if_neg hsend]
      exact ⟨.forward, d, s, rfl, rfl, rfl, h⟩

/-- The callback. -/
theorem callbackFilterFunction_follows (h : Holds d s) (hw : WellFormed s)
    {pData : List (List UInt8)} (hwhole : pData ≠ [] → Whole pData.flatten)
    {pool : ExAllocatePool} (hpool : Fresh d pool) (fresh : Option Mem) (recv : Nat)
    (send : Option Nat) {e : Shown}
    (he : (if pData.isEmpty ∨ fresh.isNone then .unfiltered
      else packetEvent pData.flatten recv (send.getD 0) pool) = e) :
    ∃ action d' s', callbackFilterFunction d pData fresh recv send pool = some (action, d') ∧
      moduleStep s e = some s' ∧ verdicts s e = [action.verdict] ∧ Holds d' s' := by
  have hforward : ∃ action d' s', some (ForwardAction.forward, d) = some (action, d') ∧
      moduleStep s .unfiltered = some s' ∧
      verdicts s .unfiltered = [action.verdict] ∧ Holds d' s' :=
    ⟨.forward, d, s, rfl, rfl, rfl, h⟩
  subst he
  cases pData with
  | nil => exact hforward
  | cons buffer rest =>
    cases fresh with
    | none => exact hforward
    | some fresh =>
      have hwhole := hwhole (List.cons_ne_nil _ _)
      have hfirst : (buffer :: rest).flatten[0]? = some ((buffer :: rest).flatten.getD 0 0) :=
        getElem?_eq_getD (Nat.lt_of_lt_of_le (by decide) hwhole.1)
      rw [callbackFilterFunction]
      simp only [bind, Option.bind, gather_eq, hfirst]
      exact filterPacket_follows h hw hwhole hpool recv (send.getD 0)

/-! ### Timers -/

/-- The list that a timer deletes from. -/
def Head.proto : Head → Option NetworkFirewall.Proto
  | .static => none
  | .tcp => some .tcp
  | .udp => some .udp

theorem mem_entries_of_mem_rules {l : Head} {ple : NetworkFirewall.RulesList}
    (h : ple ∈ l.rules s) : ple ∈ s.entries := by
  cases l with
  | static => exact NetworkFirewall.mem_entries.mpr (Or.inl h)
  | tcp => exact NetworkFirewall.mem_entries_of_mem_dynamicRules .tcp h
  | udp => exact NetworkFirewall.mem_entries_of_mem_dynamicRules .udp h

theorem WellFormed.function_eq (h : WellFormed s) {l : Head} {ple : NetworkFirewall.RulesList}
    (hple : ple ∈ l.rules s) : ple.timer.function = l.proto := by
  cases l with
  | static => exact h.static ple hple
  | tcp => exact h.owner .tcp ple hple
  | udp => exact h.owner .udp ple hple

/-- A timer that is due deletes its entry. -/
theorem timerCallback_follows (h : Holds d s) (hw : WellFormed s)
    (left : Heap Addr → Addr → Option Addr) {a : Addr}
    (hdue : ∃ expires ∈ (d.memory.entry a).timer.expires, expires ≤ d.now) :
    ∃ d' s', timerCallback left d a = some d' ∧
      NetworkFirewall.step HZ s (.expire (d.memory.entry a).rulePtr) = some s' ∧ Holds d' s' := by
  obtain ⟨expires, hexpires, hle⟩ := hdue
  obtain ⟨as, has⟩ := h.memory
  have hexpires : (d.memory.entry a).timer.expires = some expires := hexpires
  obtain ⟨l, ha⟩ : ∃ l, a ∈ as l := by
    by_contra hnone
    have hunarmed := has.unarmed a (not_exists.mp hnone)
    rw [hexpires] at hunarmed
    cases hunarmed
  have hmem : d.memory.entry a ∈ l.rules s := has.entries l ▸ List.mem_map_of_mem ha
  have hentry := mem_entries_of_mem_rules hmem
  -- the module finds the same entry under the address of its rule
  have hfind : s.entries.find? (fun ple => ple.rulePtr == (d.memory.entry a).rulePtr) =
      some (d.memory.entry a) := by
    cases hfound : s.entries.find? fun ple => ple.rulePtr == (d.memory.entry a).rulePtr with
    | none => exact absurd (beq_self_eq_true _) (List.find?_eq_none.mp hfound _ hentry)
    | some ple =>
      have hptr : ple.rulePtr = (d.memory.entry a).rulePtr :=
        beq_iff_eq.mp (List.find?_some hfound :)
      rw [hw.eq_of_rulePtr (List.mem_of_find?_eq_some hfound) hentry hptr]
  have hfunction := WellFormed.function_eq hw hmem
  have hle' : expires ≤ s.jiffies := h.now ▸ hle
  rw [timerCallback, NetworkFirewall.step, NetworkFirewall.expire,
    show s.staticRules ++ s.tcpDynamicRules ++ s.udpDynamicRules = s.entries from rfl, hfind]
  simp only [hexpires, hfunction, if_pos hle, if_pos hle']
  obtain ⟨m', as', hdel, has'⟩ := has.delRule left ha
  cases l with
  | static => exact ⟨d, s, rfl, rfl, h⟩
  | tcp =>
    simp only [Head.proto, hdel, Option.map_some]
    exact ⟨_, _, rfl, rfl, ⟨as', has'⟩, h.now, h.nextPtr⟩
  | udp =>
    simp only [Head.proto, hdel, Option.map_some]
    exact ⟨_, _, rfl, rfl, ⟨as', has'⟩, h.now, h.nextPtr⟩

/-! ### Runs -/

/-- Whatever the module is shown, its rules stay well formed. -/
theorem wellFormed_moduleStep {s s' : State} {e : Shown} (h : WellFormed s)
    (hs' : moduleStep s e = some s') : WellFormed s' := by
  cases e with
  | event e => exact NetworkFirewall.wellFormed_step h hs'
  | unfiltered => exact Option.some.inj hs' ▸ h

/-- The module takes one event. -/
theorem run_stepModule_singleton {t : State × List Verdict} {e : Shown} {s' : State}
    (hs' : moduleStep t.1 e = some s') :
    run stepModule t [e] = some (s', t.2 ++ verdicts t.1 e) := by
  rw [run_cons, stepModule, hs', Option.map_some, Option.bind_some, run_nil]

/-- **Step.**  Whatever happens to the driver, the module can follow. -/
theorem follows_step (left : Heap Addr → Addr → Option Addr) (s : Session)
    (t : State × List Verdict)
    (e : Driver.Event) (h : Follows s t) (he : Promised s e) :
    ∃ s' t', Session.step left s e = some s' ∧ run stepModule t (moduleEvents s e) = some t' ∧
      Follows s' t' := by
  obtain ⟨hholds, hw, hactions⟩ := h
  cases e with
  | packet pData fresh recv send pool =>
    rw [Session.step, moduleEvents]
    split
    next =>
      obtain ⟨hwhole, hpool⟩ := he
      -- The callback is registered.
      obtain ⟨action, d', s', hcallback, hs', hverdict, h'⟩ :=
        callbackFilterFunction_follows hholds hw hwhole hpool fresh recv send rfl
      refine ⟨_, _, by rw [hcallback, Option.map_some], run_stepModule_singleton hs', h',
        wellFormed_moduleStep hw hs', ?_⟩
      rw [hverdict, List.map_append, hactions]
      rfl
    -- It is not, and neither of the two is shown the packet.
    next => exact ⟨s, t, rfl, rfl, hholds, hw, hactions⟩
  | addRule buffer rule pool =>
    obtain ⟨hsize, hpool⟩ := he
    rw [Session.step, moduleEvents, fwAddRule]
    cases rule with
    | false => exact ⟨_, t, rfl, rfl, hholds, hw, hactions⟩
    | true =>
      have hread : readFwr buffer = some (_, _) := if_neg (Nat.not_lt.mpr hsize)
      simp only [hread, if_true, Option.map_some, Option.toList_some]
      refine ⟨_, _, rfl, run_stepModule_singleton (e := .event (.addRule _ _)) rfl,
        hholds.add pool hpool _ .static false none, ?_, ?_⟩
      · exact NetworkFirewall.wellFormed_step (e := .addRule _ _) hw rfl
      · exact hactions.trans (List.append_nil _).symm
  | enable ok =>
    refine ⟨_, t, rfl, rfl, ?_, hw, hactions⟩
    show Holds (fwEnable s.driver ok) t.1
    rw [fwEnable]
    split <;> exact ⟨hholds.memory, hholds.now, hholds.nextPtr⟩
  | disable ok =>
    refine ⟨_, t, rfl, rfl, ?_, hw, hactions⟩
    show Holds (fwDisable s.driver ok) t.1
    rw [fwDisable]
    split <;> exact ⟨hholds.memory, hholds.now, hholds.nextPtr⟩
  | tick =>
    refine ⟨_, _, rfl, run_stepModule_singleton (e := .event .tick) rfl,
      ⟨?_, congrArg (· + 1) hholds.now,
      hholds.nextPtr⟩, NetworkFirewall.wellFormed_step hw
        (show NetworkFirewall.step HZ t.1 .tick = some _ from rfl),
      hactions.trans (List.append_nil _).symm⟩
    -- The clock is in no list.
    obtain ⟨as, has⟩ := hholds.memory
    exact ⟨as, has.isList, has.apart, has.used, has.pool, has.unarmed,
      fun l => (has.entries l).trans (by cases l <;> rfl)⟩
  | expire a =>
    obtain ⟨d', s', hcallback, hs', h'⟩ := timerCallback_follows hholds hw left he
    refine ⟨{ s with driver := d' }, _, ?_, run_stepModule_singleton (e := .event _) hs', h',
      NetworkFirewall.wellFormed_step hw hs', hactions.trans (List.append_nil _).symm⟩
    rw [Session.step, hcallback, Option.map_some]

theorem follows_loaded (ok : Bool) : Follows (.loaded ok) (.empty, []) where
  holds :=
    { memory := ⟨fun _ => [], fun l => ⟨rfl, List.nodup_singleton _⟩, nofun, nofun,
        fun _ => List.not_mem_nil, fun _ _ => rfl, fun l => by cases l <;> rfl⟩
      now := rfl
      nextPtr := rfl }
  wellFormed := NetworkFirewall.wellFormed_empty
  actions := rfl

/-- A datagram, in two buffers. -/
def datagram (ports : List UInt8) : List (List UInt8) :=
  [[0x45, 0, 0, 28, 0, 0, 0, 0, 64, 17], [0, 0, 1, 0, 0, 10, 2, 0, 0, 10] ++ ports]

end WorkAtUPB.NetworkFirewallWindows

import WorkAtUPB.NetworkFirewall.Rules

namespace WorkAtUPB.NetworkFirewall

/-!
# NetworkFirewallLinux — the hooks (`ip_firewall.c`)

* `Skb` — the headers of a packet that the hooks read;
* `generateTcpDynamicRule`, `generateUdpDynamicRule` — the rule for a packet;
* `myNfHookfnOut`, `myNfHookfnIn`, `fwAddRule`, `expire` — the hooks, the request
  `FW_ADD_RULE` and the timers, on the three rule lists;
* `State`, `step` — the enabled firewall, one event at a time.
-/

/-- `struct iphdr`. -/
structure Iphdr where
  protocol : UInt8
  saddr : UInt32
  daddr : UInt32
  deriving DecidableEq, Repr

/-- `struct tcphdr`. -/
structure Tcphdr where
  source : UInt16
  dest : UInt16
  syn : Bool
  ack : Bool
  fin : Bool
  deriving DecidableEq, Repr

/-- `struct udphdr`. -/
structure Udphdr where
  source : UInt16
  dest : UInt16
  deriving DecidableEq, Repr

/-- A packet: its IP header, if there is one, and what follows it read as either header. -/
structure Skb where
  iph : Option Iphdr
  tcph : Tcphdr
  udph : Udphdr
  deriving DecidableEq, Repr

/-- `IPPROTO_TCP`. -/
def IPPROTO_TCP : UInt8 := 6

/-- `IPPROTO_UDP`. -/
def IPPROTO_UDP : UInt8 := 17

/-- `NF_ACCEPT` and `NF_DROP`. -/
inductive Verdict where
  | accept
  | drop
  deriving DecidableEq, Repr

/-- The rule lists, `jiffies`, and the next address the allocator gives. -/
structure State where
  staticRules : List RulesList
  tcpDynamicRules : List RulesList
  udpDynamicRules : List RulesList
  jiffies : Nat
  nextPtr : Nat
  deriving DecidableEq, Repr

/-- The firewall with empty lists. -/
def State.empty : State where
  staticRules := []
  tcpDynamicRules := []
  udpDynamicRules := []
  jiffies := 0
  nextPtr := 0

/-! ### Rules for packets -/

/-- `new_rule`. -/
def newRule (ipSrc ipDst ipSrcMask ipDstMask : UInt32)
    (portSrc0 portSrc1 portDst0 portDst1 : UInt16) : Fwr where
  ipSrc := ipSrc
  ipDst := ipDst
  ipSrcMask := ipSrcMask
  ipDstMask := ipDstMask
  portSrc := (portSrc0, portSrc1)
  portDst := (portDst0, portDst1)

/-- `generate_tcp_dynamic_rule`. -/
def generateTcpDynamicRule (iph : Iphdr) (tcph : Tcphdr) (out : Bool) : Fwr :=
  if out then
    newRule iph.daddr iph.saddr 0xFFFF 0xFFFF tcph.dest tcph.dest tcph.source tcph.source
  else
    newRule iph.saddr iph.daddr 0 0 tcph.source tcph.source tcph.dest tcph.dest

/-- `generate_udp_dynamic_rule`. -/
def generateUdpDynamicRule (iph : Iphdr) (udph : Udphdr) (out : Bool) : Fwr :=
  if out then
    newRule iph.daddr iph.saddr 0 0 udph.dest udph.dest udph.source udph.source
  else
    newRule iph.saddr iph.daddr 0 0 udph.source udph.source udph.dest udph.dest

/-! ### The hooks -/

/-- `my_nf_hookfn_out`; `kmalloc` says how the allocations of `add_rule` end.  The verdict is
    always `NF_ACCEPT`. -/
def myNfHookfnOut (hz : Nat) (s : State) (skb : Skb) (kmalloc : Kmalloc) : State :=
  match skb.iph with
  | none => s
  | some iph =>
    if iph.protocol = IPPROTO_TCP then
      let rule := generateTcpDynamicRule iph skb.tcph true
      if skb.tcph.syn = true ∧ skb.tcph.ack = false then
        -- connection initiating packet
        { s with
          tcpDynamicRules :=
            (addRule hz s.jiffies s.nextPtr rule s.tcpDynamicRules true (some .tcp) kmalloc).2
          nextPtr := s.nextPtr + 1 }
      else if skb.tcph.fin = true then
        -- connection ending packet
        match searchRule rule s.tcpDynamicRules with
        | some ple =>
          { s with
            tcpDynamicRules := modTimer ple.rulePtr (deadline hz s.jiffies) s.tcpDynamicRules }
        | none => s
      else s
    else if iph.protocol = IPPROTO_UDP then
      let rule := generateUdpDynamicRule iph skb.udph true
      match searchRule rule s.udpDynamicRules with
      | some ple =>
        { s with
          udpDynamicRules := modTimer ple.rulePtr (deadline hz s.jiffies) s.udpDynamicRules }
      | none =>
        { s with
          udpDynamicRules :=
            (addRule hz s.jiffies s.nextPtr rule s.udpDynamicRules true (some .udp) kmalloc).2
          nextPtr := s.nextPtr + 1 }
    else s

/-- `my_nf_hookfn_in`. -/
def myNfHookfnIn (hz : Nat) (s : State) (skb : Skb) : Verdict × State :=
  match skb.iph with
  | none => (.accept, s)
  | some iph =>
    if iph.protocol = IPPROTO_TCP then
      let rule := generateTcpDynamicRule iph skb.tcph false
      if (searchRule rule s.staticRules).isSome then (.accept, s)
      else if (searchRule rule s.tcpDynamicRules).isSome then (.accept, s)
      else (.drop, s)
    else if iph.protocol = IPPROTO_UDP then
      let rule := generateUdpDynamicRule iph skb.udph false
      if (searchRule rule s.staticRules).isSome then (.accept, s)
      else
        match searchRule rule s.udpDynamicRules with
        | some ple =>
          (.accept, { s with
            udpDynamicRules := modTimer ple.rulePtr (deadline hz s.jiffies) s.udpDynamicRules })
        | none => (.drop, s)
    else (.accept, s)

/-- The request `FW_ADD_RULE`, when the rule could be allocated and copied from the user. -/
def fwAddRule (hz : Nat) (s : State) (rule : Fwr) (kmalloc : Kmalloc) : State :=
  { s with
    staticRules := (addRule hz s.jiffies s.nextPtr rule s.staticRules false none kmalloc).2
    nextPtr := s.nextPtr + 1 }

/-- The callback of the timer of the entry with rule `rulePtr`, once it is due. -/
def expire (s : State) (rulePtr : Nat) : Option State :=
  match (s.staticRules ++ s.tcpDynamicRules ++ s.udpDynamicRules).find?
      fun ple => ple.rulePtr == rulePtr with
  | none => none
  | some ple =>
    match ple.timer.expires with
    | none => none
    | some due =>
      if due ≤ s.jiffies then
        match ple.timer.function with
        | some .tcp => some { s with tcpDynamicRules := delRule rulePtr s.tcpDynamicRules }
        | some .udp => some { s with udpDynamicRules := delRule rulePtr s.udpDynamicRules }
        | none => some s
      else none

/-! ### Events -/

/-- What happens to the enabled firewall. -/
inductive Event where
  | packetOut (skb : Skb) (kmalloc : Kmalloc)
  | packetIn (skb : Skb)
  | addRule (rule : Fwr) (kmalloc : Kmalloc)
  | tick
  | expire (rulePtr : Nat)
  deriving DecidableEq, Repr

/-- One event. -/
def step (hz : Nat) (s : State) : Event → Option State
  | .packetOut skb kmalloc => some (myNfHookfnOut hz s skb kmalloc)
  | .packetIn skb => some (myNfHookfnIn hz s skb).2
  | .addRule rule kmalloc => some (fwAddRule hz s rule kmalloc)
  | .tick => some { s with jiffies := s.jiffies + 1 }
  | .expire rulePtr => expire s rulePtr

end WorkAtUPB.NetworkFirewall

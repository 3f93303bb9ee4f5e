import WorkAtUPB.Lib.Run
import WorkAtUPB.NetworkFirewall.Firewall
import Mathlib.Data.Fintype.Basic

namespace WorkAtUPB.NetworkFirewall

open WorkAtUPB.Run

/-!
# NetworkFirewallLinux — which packets are let in

A dynamic rule stands for a packet the host sent, but the rules are generated with masks that
cover 16 bits of the addresses for TCP and none for UDP.  So packets from other addresses get
in while such a rule lives:

* `History` — the firewall with the packets sent so far;
* `step_dynamicRules` — every rule in a dynamic list stems from a packet that was sent;
* `eachStep_onlyAnswers` — where the rule that lets a packet in, or another live one, has the
  packet's own addresses, every packet let in answers one that was sent;
* `not_eachStep_onlyAnswers` — a datagram from an address the host never sent to gets in.
-/

instance : Fintype Proto := ⟨{.tcp, .udp}, by rintro (_ | _) <;> decide⟩

/-! ### Packets of either protocol -/

/-- The number of the protocol in the IP header. -/
def Proto.number : Proto → UInt8
  | .tcp => IPPROTO_TCP
  | .udp => IPPROTO_UDP

/-- The source port in the header of the protocol. -/
def Skb.source (skb : Skb) : Proto → UInt16
  | .tcp => skb.tcph.source
  | .udp => skb.udph.source

/-- The destination port in the header of the protocol. -/
def Skb.dest (skb : Skb) : Proto → UInt16
  | .tcp => skb.tcph.dest
  | .udp => skb.udph.dest

/-- The packet opens an exchange: for TCP, a SYN without ACK. -/
def Skb.Opens (skb : Skb) : Proto → Prop
  | .tcp => skb.tcph.syn = true ∧ skb.tcph.ack = false
  | .udp => True

/-- The rule generated for a packet of the protocol. -/
def dynamicRule (proto : Proto) (iph : Iphdr) (skb : Skb) (out : Bool) : Fwr :=
  match proto with
  | .tcp => generateTcpDynamicRule iph skb.tcph out
  | .udp => generateUdpDynamicRule iph skb.udph out

/-- The dynamic rules for the protocol. -/
def State.dynamicRules (s : State) : Proto → List RulesList
  | .tcp => s.tcpDynamicRules
  | .udp => s.udpDynamicRules

/-- The incoming hook accepts a TCP or UDP packet that matches a static rule, or a dynamic one
    of its protocol. -/
theorem myNfHookfnIn_accept {hz : Nat} {s : State} {skb : Skb} {iph : Iphdr} {proto : Proto}
    (hiph : skb.iph = some iph) (hproto : iph.protocol = proto.number) :
    (myNfHookfnIn hz s skb).1 = .accept ↔
      (searchRule (dynamicRule proto iph skb false) s.staticRules).isSome ∨
        (searchRule (dynamicRule proto iph skb false) (s.dynamicRules proto)).isSome := by
  rw [myNfHookfnIn, hiph]
  cases proto with
  | tcp =>
    have htcp : iph.protocol = IPPROTO_TCP := hproto
    simp only [if_pos htcp, dynamicRule, State.dynamicRules]
    -- a static rule, a dynamic one, or none
    split
    · exact iff_of_true rfl (Or.inl ‹_›)
    split
    · exact iff_of_true rfl (Or.inr ‹_›)
    · exact iff_of_false Verdict.noConfusion (not_or.mpr ⟨‹_›, ‹_›⟩)
  | udp =>
    have hudp : iph.protocol = IPPROTO_UDP := hproto
    have htcp : iph.protocol ≠ IPPROTO_TCP := by
      rw [hudp]
      decide
    simp only [if_neg htcp, if_pos hudp, dynamicRule, State.dynamicRules]
    split
    · exact iff_of_true rfl (Or.inl ‹_›)
    next hstatic =>
      cases hsearch : searchRule (generateUdpDynamicRule iph skb.udph false) s.udpDynamicRules with
      | some ple => exact iff_of_true rfl (Or.inr rfl)
      | none => exact iff_of_false Verdict.noConfusion (not_or.mpr ⟨hstatic, nofun⟩)

/-! ### Where dynamic rules come from -/

/-- The packet is of the protocol, opens an exchange, and the rule is the one for it. -/
def StemsFrom (rule : Fwr) (proto : Proto) (skb : Skb) : Prop :=
  ∃ iph, skb.iph = some iph ∧ iph.protocol = proto.number ∧ skb.Opens proto ∧
    rule = dynamicRule proto iph skb true

theorem myNfHookfnOut_dynamicRules {hz : Nat} {s : State} {skb : Skb} {kmalloc : Kmalloc}
    {proto : Proto} {ple : RulesList}
    (hple : ple ∈ (myNfHookfnOut hz s skb kmalloc).dynamicRules proto) :
    (∃ ple' ∈ s.dynamicRules proto, ple'.rule = ple.rule) ∨ StemsFrom ple.rule proto skb := by
  have hsame : ple ∈ s.dynamicRules proto →
      (∃ ple' ∈ s.dynamicRules proto, ple'.rule = ple.rule) ∨ StemsFrom ple.rule proto skb :=
    fun h => Or.inl ⟨ple, h, rfl⟩
  -- A SYN adds its rule, and so does a datagram without one; the other branches rearm a timer
  -- or leave the lists.
  unfold myNfHookfnOut at hple
  split at hple
  next => exact hsame hple
  next iph hiph =>
    split at hple
    next htcp =>
      split at hple
      next hsyn =>
        cases proto with
        | udp => exact hsame hple
        | tcp =>
          rcases addRule_rule hple with h | h
          · exact hsame h
          · exact Or.inr ⟨iph, hiph, htcp, hsyn, h⟩
      next =>
        split at hple
        next =>
          dsimp only at hple
          split at hple
          next =>
            cases proto with
            | udp => exact hsame hple
            | tcp => exact Or.inl (modTimer_rule hple)
          next => exact hsame hple
        next => exact hsame hple
    next =>
      split at hple
      next hudp =>
        dsimp only at hple
        split at hple
        next =>
          cases proto with
          | tcp => exact hsame hple
          | udp => exact Or.inl (modTimer_rule hple)
        next =>
          cases proto with
          | tcp => exact hsame hple
          | udp =>
            rcases addRule_rule hple with h | h
            · exact hsame h
            · exact Or.inr ⟨iph, hiph, hudp, trivial, h⟩
      next => exact hsame hple

theorem myNfHookfnIn_dynamicRules {hz : Nat} {s : State} {skb : Skb} {proto : Proto}
    {ple : RulesList} (hple : ple ∈ (myNfHookfnIn hz s skb).2.dynamicRules proto) :
    ∃ ple' ∈ s.dynamicRules proto, ple'.rule = ple.rule := by
  -- Only an incoming datagram changes a list, and there only a timer.
  unfold myNfHookfnIn at hple
  split at hple
  next => exact ⟨ple, hple, rfl⟩
  next iph hiph =>
    split at hple
    next =>
      dsimp only at hple
      split at hple
      next => exact ⟨ple, hple, rfl⟩
      next =>
        split at hple
        next => exact ⟨ple, hple, rfl⟩
        next => exact ⟨ple, hple, rfl⟩
    next =>
      split at hple
      next =>
        dsimp only at hple
        split at hple
        next => exact ⟨ple, hple, rfl⟩
        next =>
          split at hple
          next =>
            cases proto with
            | tcp => exact ⟨ple, hple, rfl⟩
            | udp => exact modTimer_rule hple
          next => exact ⟨ple, hple, rfl⟩
      next => exact ⟨ple, hple, rfl⟩

theorem expire_dynamicRules {s s' : State} {rulePtr : Nat} {proto : Proto} {ple : RulesList}
    (h : expire s rulePtr = some s') (hple : ple ∈ s'.dynamicRules proto) :
    ple ∈ s.dynamicRules proto := by
  unfold expire at h
  split at h
  next => cases h
  next =>
    split at h
    next => cases h
    next =>
      split at h
      next =>
        split at h
        -- A callback deletes from its own list and leaves the other.
        next =>
          cases h
          cases proto with
          | tcp => exact delRule_mem hple
          | udp => exact hple
        next =>
          cases h
          cases proto with
          | tcp => exact hple
          | udp => exact delRule_mem hple
        next =>
          cases h
          exact hple
      next => cases h

/-- A rule in a dynamic list after an event was there before, or stems from the packet that
    was sent. -/
theorem step_dynamicRules {hz : Nat} {s s' : State} {e : Event} {proto : Proto}
    {ple : RulesList} (h : step hz s e = some s') (hple : ple ∈ s'.dynamicRules proto) :
    (∃ ple' ∈ s.dynamicRules proto, ple'.rule = ple.rule) ∨
      ∃ skb kmalloc, e = .packetOut skb kmalloc ∧ StemsFrom ple.rule proto skb := by
  cases e with
  | packetOut skb kmalloc =>
    cases h
    exact (myNfHookfnOut_dynamicRules hple).imp_right fun hs => ⟨skb, kmalloc, rfl, hs⟩
  | packetIn skb =>
    cases h
    exact Or.inl (myNfHookfnIn_dynamicRules hple)
  | addRule rule kmalloc =>
    cases h
    exact Or.inl ⟨ple, by cases proto <;> exact hple, rfl⟩
  | tick =>
    cases h
    exact Or.inl ⟨ple, by cases proto <;> exact hple, rfl⟩
  | expire rulePtr => exact Or.inl ⟨ple, expire_dynamicRules h hple, rfl⟩

/-! ### Histories -/

/-- The firewall, and the packets sent so far. -/
structure History where
  state : State
  sent : List Skb
  deriving DecidableEq, Repr

/-- No packet sent yet, and the rule lists empty. -/
def History.empty : History := ⟨.empty, []⟩

/-- The packet that an event sends. -/
def Event.sends : Event → List Skb
  | .packetOut skb _ => [skb]
  | _ => []

/-- One event, remembered. -/
def stepHistory (hz : Nat) (h : History) (e : Event) : Option History :=
  (step hz h.state e).map fun s => ⟨s, h.sent ++ e.sends⟩

/-- Every dynamic rule stems from a packet that was sent. -/
def AllStem (h : History) : Prop :=
  ∀ proto, ∀ ple ∈ h.state.dynamicRules proto, ∃ skb ∈ h.sent, StemsFrom ple.rule proto skb

theorem stepHistory_allStem {hz : Nat} {h h' : History} {e : Event} (hall : AllStem h)
    (hstep : stepHistory hz h e = some h') : AllStem h' := by
  obtain ⟨s', hs', rfl⟩ := Option.map_eq_some_iff.mp hstep
  intro proto ple hple
  rcases step_dynamicRules hs' hple with ⟨ple', hple', hrule⟩ | ⟨skb, kmalloc, rfl, hstem⟩
  · obtain ⟨skb, hskb, hstem⟩ := hall proto ple' hple'
    exact ⟨skb, List.mem_append_left _ hskb, hrule ▸ hstem⟩
  · exact ⟨skb, List.mem_append_right _ List.mem_cons_self, hstem⟩

/-- The host sent a packet that `skb` answers: of the same protocol, opening an exchange, to
    the source of `skb` from its destination. -/
def Answers (sent : List Skb) (proto : Proto) (iph : Iphdr) (skb : Skb) : Prop :=
  ∃ q ∈ sent, ∃ qh, q.iph = some qh ∧ qh.protocol = proto.number ∧ q.Opens proto ∧
    qh.daddr = iph.saddr ∧ q.dest proto = skb.source proto ∧
    qh.saddr = iph.daddr ∧ q.source proto = skb.dest proto

/-- If the event is a TCP or UDP packet that no static rule matches and that is let in, it
    answers a packet that was sent. -/
def OnlyAnswers (hz : Nat) (h : History) : Event → Prop
  | .packetIn skb => ∀ proto : Proto, ∀ iph ∈ skb.iph, iph.protocol = proto.number →
      (searchRule (dynamicRule proto iph skb false) h.state.staticRules).isNone →
      (myNfHookfnIn hz h.state skb).1 = .accept → Answers h.sent proto iph skb
  | _ => True

/-- If the event is a TCP or UDP packet that no static rule matches and that matches a dynamic
    rule under its masks, then some dynamic rule that it matches has exactly its addresses. -/
def AddressesAgree (h : History) : Event → Prop
  | .packetIn skb => ∀ proto : Proto, ∀ iph ∈ skb.iph, iph.protocol = proto.number →
      (searchRule (dynamicRule proto iph skb false) h.state.staticRules).isNone →
      (searchRule (dynamicRule proto iph skb false) (h.state.dynamicRules proto)).isSome →
      ∃ ple ∈ h.state.dynamicRules proto,
        matchRule (dynamicRule proto iph skb false) ple.rule = true ∧
          ple.rule.ipSrc = iph.saddr ∧ ple.rule.ipDst = iph.daddr
  | _ => True

instance (h : History) : (e : Event) → Decidable (AddressesAgree h e)
  | .packetIn _ => inferInstanceAs (Decidable (∀ _ : Proto, ∀ iph ∈ _, _))
  | .packetOut .. | .addRule .. | .tick | .expire _ => inferInstanceAs (Decidable True)

/-- A packet that matches the rule for a sent packet, and has its addresses, answers it. -/
theorem StemsFrom.answers {sent : List Skb} {proto : Proto} {iph : Iphdr} {skb q : Skb}
    {rule : Fwr} (hq : q ∈ sent) (hstem : StemsFrom rule proto q)
    (hmatch : matchRule (dynamicRule proto iph skb false) rule = true)
    (hsrc : rule.ipSrc = iph.saddr) (hdst : rule.ipDst = iph.daddr) :
    Answers sent proto iph skb := by
  obtain ⟨qh, hqh, hproto, hopens, rfl⟩ := hstem
  cases proto with
  | tcp =>
    -- The rule is for one source and one destination port, so the ports are its own.
    obtain ⟨hport, hport'⟩ := matchRule_ports hmatch rfl rfl rfl rfl
    exact ⟨q, hq, qh, hqh, hproto, hopens, hsrc, hport.symm, hdst, hport'.symm⟩
  | udp =>
    obtain ⟨hport, hport'⟩ := matchRule_ports hmatch rfl rfl rfl rfl
    exact ⟨q, hq, qh, hqh, hproto, hopens, hsrc, hport.symm, hdst, hport'.symm⟩

/-- **Only answers get in, where the addresses agree.**  In every run from empty lists in which
    no TCP or UDP packet gets past the static rules on masked addresses alone, every such
    packet that is let in answers a packet the host had sent. -/
theorem eachStep_onlyAnswers (hz : Nat) (es : List Event)
    (h : EachStep (stepHistory hz) AddressesAgree History.empty es) :
    EachStep (stepHistory hz) (OnlyAnswers hz) History.empty es := by
  refine EachStep.of_invariant (I := AllStem) (fun _ _ _ hall _ => stepHistory_allStem hall) ?_ ?_ h
  · intro h e hall hagree
    cases e with
    | packetOut | addRule | tick | expire => trivial
    | packetIn skb =>
      intro proto iph hiph hproto hstatic haccept
      have hdynamic := ((myNfHookfnIn_accept hiph hproto).mp haccept).resolve_left
        (Option.not_isSome_iff_eq_none.mpr (Option.isNone_iff_eq_none.mp hstatic))
      -- The rule with the packet's addresses need not be the one that the search found.
      obtain ⟨ple, hple, hmatch, hsrc, hdst⟩ := hagree proto iph hiph hproto hstatic hdynamic
      obtain ⟨q, hq, hstem⟩ := hall proto ple hple
      exact hstem.answers hq hmatch hsrc hdst
  · intro proto ple hple
    cases proto <;> exact absurd hple List.not_mem_nil

/-- A datagram from `saddr`, port `source`, to `daddr`, port `dest`. -/
def datagram (saddr : UInt32) (source : UInt16) (daddr : UInt32) (dest : UInt16) : Skb where
  iph := some { protocol := IPPROTO_UDP, saddr, daddr }
  tcph := { source, dest, syn := false, ack := false, fin := false }
  udph := { source, dest }

/-- A query and its answer, which is let in. -/
theorem eachStep_onlyAnswers_query : EachStep (stepHistory 1000) (OnlyAnswers 1000) History.empty
    [.packetOut (datagram 1 1000 2 53) ⟨true, true⟩, .packetIn (datagram 2 53 1 1000)] :=
  eachStep_onlyAnswers 1000 _ (by decide)

/-- **A stranger gets in.**  After a datagram from host 1, port 1000, to host 2, port 53, one
    from host 3, port 53, is let in, although nothing was sent to host 3. -/
theorem not_eachStep_onlyAnswers :
    ¬ ∀ es : List Event, EachStep (stepHistory 1000) (OnlyAnswers 1000) History.empty es := by
  intro h
  obtain ⟨-, hrun⟩ := h
    [.packetOut (datagram 1 1000 2 53) ⟨true, true⟩, .packetIn (datagram 3 53 1 1000)]
  obtain ⟨q, hq, qh, hqh, -, -, hdaddr, -⟩ := (hrun _ rfl).1 .udp _ rfl rfl rfl rfl
  rw [List.mem_singleton.mp hq] at hqh
  cases hqh
  exact absurd hdaddr (by decide)

end WorkAtUPB.NetworkFirewall

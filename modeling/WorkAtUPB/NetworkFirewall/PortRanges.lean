import WorkAtUPB.Lib.Bytes
import WorkAtUPB.NetworkFirewall.Answers

namespace WorkAtUPB.NetworkFirewall

open WorkAtUPB.Bytes

/-!
# NetworkFirewallLinux — the port ranges of static rules

`match_rule` compares ports as they are stored.  In network byte order, on a little-endian CPU,
that is not the order of their numbers:

* `portNumber` — the number of a port;
* `Contains` — a rule agrees with the addresses of a packet, and its ranges contain the ports, by
  the stored values or by the numbers;
* `OpposedRule` — one of its bounds has bytes that compare with those of the port in opposite
  ways;
* `numericRanges_iff` — a search goes by the numbers exactly if no such rule makes a difference;
* `inRange_iff` — for a range this is so with every port only if it is a single port, all ports,
  or empty in both orders.
-/

/-- The number of a port that is stored in network byte order. -/
def portNumber (port : UInt16) : Nat := swap16 port.toNat

/-- The port lies in the closed range, in the order of the values of `key`. -/
def InRange (key : UInt16 → Nat) (range : UInt16 × UInt16) (port : UInt16) : Prop :=
  key range.1 ≤ key port ∧ key port ≤ key range.2

instance (key : UInt16 → Nat) (range : UInt16 × UInt16) (port : UInt16) :
    Decidable (InRange key range port) := inferInstanceAs (Decidable (_ ∧ _))

variable (key : UInt16 → Nat) (proto : Proto) (iph : Iphdr) (skb : Skb)

/-- The rule agrees with the addresses of the packet under its masks, and its ranges contain the
    ports. -/
structure Contains (rule : Fwr) : Prop where
  saddr : iph.saddr &&& rule.ipSrcMask = rule.ipSrc &&& rule.ipSrcMask
  daddr : iph.daddr &&& rule.ipDstMask = rule.ipDst &&& rule.ipDstMask
  source : InRange key rule.portSrc (skb.source proto)
  dest : InRange key rule.portDst (skb.dest proto)

/-- The bytes of the port and those of a bound of the range compare in opposite ways. -/
def OpposedRange (range : UInt16 × UInt16) (port : UInt16) : Prop :=
  Opposed range.1.toNat port.toNat ∨ Opposed port.toNat range.2.toNat

/-- One of the four bounds of the rule is opposed to the port of the packet. -/
def OpposedRule (rule : Fwr) : Prop :=
  OpposedRange rule.portSrc (skb.source proto) ∨ OpposedRange rule.portDst (skb.dest proto)

/-- The search for an incoming packet finds a rule exactly if some rule contains it, with the
    ports as numbers. -/
def NumericRanges (staticRules : List RulesList) : Prop :=
  (searchRule (dynamicRule proto iph skb false) staticRules).isSome ↔
    ∃ ple ∈ staticRules, Contains portNumber proto iph skb ple.rule

/-- No opposed rule makes a difference: another rule contains the packet, or no opposed one does
    in either order, or one does in each. -/
def Undisturbed (staticRules : List RulesList) : Prop :=
  (∃ ple ∈ staticRules, ¬ OpposedRule proto skb ple.rule ∧
      Contains UInt16.toNat proto iph skb ple.rule) ∨
    (∀ ple ∈ staticRules, OpposedRule proto skb ple.rule →
      ¬ Contains UInt16.toNat proto iph skb ple.rule ∧
        ¬ Contains portNumber proto iph skb ple.rule) ∨
    ∃ ple ∈ staticRules, ∃ ple' ∈ staticRules,
      (OpposedRule proto skb ple.rule ∧ Contains UInt16.toNat proto iph skb ple.rule) ∧
        OpposedRule proto skb ple'.rule ∧ Contains portNumber proto iph skb ple'.rule

variable {key proto iph skb}

/-! ### One rule -/

/-- `match_rule` goes by the stored values. -/
theorem matchRule_iff {rule : Fwr} : matchRule (dynamicRule proto iph skb false) rule = true ↔
    Contains UInt16.toNat proto iph skb rule := by
  have hrule : dynamicRule proto iph skb false =
      newRule iph.saddr iph.daddr 0 0 (skb.source proto) (skb.source proto) (skb.dest proto)
        (skb.dest proto) := by
    cases proto <;> rfl
  rw [hrule]
  simp only [matchRule, newRule, Bool.and_eq_true, beq_iff_eq, decide_eq_true_eq, ge_iff_le,
    UInt16.le_iff_toNat_le]
  constructor
  · rintro ⟨⟨⟨⟨⟨hs, hd⟩, hs₀⟩, hs₁⟩, hd₀⟩, hd₁⟩
    exact ⟨hs, hd, ⟨hs₀, hs₁⟩, hd₀, hd₁⟩
  · rintro ⟨hs, hd, ⟨hs₀, hs₁⟩, hd₀, hd₁⟩
    exact ⟨⟨⟨⟨⟨hs, hd⟩, hs₀⟩, hs₁⟩, hd₀⟩, hd₁⟩

theorem inRange_of_not_opposed {range : UInt16 × UInt16} {port : UInt16}
    (h : ¬ OpposedRange range port) :
    InRange UInt16.toNat range port ↔ InRange portNumber range port := by
  obtain ⟨hlo, hhi⟩ := not_or.mp h
  exact and_congr (swap16_le_iff hlo).symm (swap16_le_iff hhi).symm

/-- An opposed comparison comes out differently in the two orders. -/
theorem not_inRange_of_opposed {range : UInt16 × UInt16} {port : UInt16}
    (h : OpposedRange range port) (hstored : InRange UInt16.toNat range port) :
    ¬ InRange portNumber range port := by
  rintro ⟨hlo, hhi⟩
  rcases h with h | h
  · exact (swap16_le_iff_of_opposed (UInt16.toNat_lt _) (UInt16.toNat_lt _) h).mp hlo hstored.1
  · exact (swap16_le_iff_of_opposed (UInt16.toNat_lt _) (UInt16.toNat_lt _) h).mp hhi hstored.2

theorem contains_of_not_opposed {rule : Fwr} (h : ¬ OpposedRule proto skb rule) :
    Contains UInt16.toNat proto iph skb rule ↔ Contains portNumber proto iph skb rule := by
  obtain ⟨hs, hd⟩ := not_or.mp h
  constructor
  · intro hc
    exact ⟨hc.saddr, hc.daddr, (inRange_of_not_opposed hs).mp hc.source,
      (inRange_of_not_opposed hd).mp hc.dest⟩
  · intro hc
    exact ⟨hc.saddr, hc.daddr, (inRange_of_not_opposed hs).mpr hc.source,
      (inRange_of_not_opposed hd).mpr hc.dest⟩

/-- So an opposed rule contains a packet in one of the two orders at most. -/
theorem not_contains_of_opposed {rule : Fwr} (h : OpposedRule proto skb rule)
    (hstored : Contains UInt16.toNat proto iph skb rule) :
    ¬ Contains portNumber proto iph skb rule := by
  intro hnumber
  rcases h with h | h
  · exact not_inRange_of_opposed h hstored.source hnumber.source
  · exact not_inRange_of_opposed h hstored.dest hnumber.dest

/-- A range contains the same ports by their stored values and by their numbers only if it is a
    single port, all ports, or empty in both orders. -/
theorem inRange_iff (range : UInt16 × UInt16) :
    (∀ port, InRange UInt16.toNat range port ↔ InRange portNumber range port) ↔
      range.1 = range.2 ∨ range.1 = 0 ∧ range.2 = 65535 ∨
        range.2 < range.1 ∧ portNumber range.2 < portNumber range.1 := by
  have hwords := swap16_range_iff (UInt16.toNat_lt range.1) (UInt16.toNat_lt range.2)
  rw [UInt16.toNat_inj] at hwords
  rw [← UInt16.toNat_inj (b := 0), ← UInt16.toNat_inj (b := 65535), UInt16.lt_iff_toNat_lt]
  refine Iff.trans ?_ hwords
  constructor
  · intro h n hn
    have hport : (UInt16.ofNat n).toNat = n := UInt16.toNat_ofNat_of_lt hn
    have hrange := h (UInt16.ofNat n)
    rwa [InRange, InRange, portNumber, portNumber, portNumber, hport] at hrange
  · intro h port
    exact h port.toNat (UInt16.toNat_lt port)

/-! ### The list -/

/-- What a search finds. -/
theorem searchRule_isSome {rules : List RulesList} :
    (searchRule (dynamicRule proto iph skb false) rules).isSome ↔
      ∃ ple ∈ rules, Contains UInt16.toNat proto iph skb ple.rule := by
  rw [searchRule, List.find?_isSome]
  exact exists_congr fun ple => and_congr_right fun _ => matchRule_iff

/-- **Port ranges.**  A search goes by the numbers of the ports exactly if no opposed rule makes
    a difference. -/
theorem numericRanges_iff (proto : Proto) (iph : Iphdr) (skb : Skb)
    (staticRules : List RulesList) :
    NumericRanges proto iph skb staticRules ↔ Undisturbed proto iph skb staticRules := by
  rw [NumericRanges, searchRule_isSome]
  constructor
  · intro h
    by_cases hplain : ∃ ple ∈ staticRules, ¬ OpposedRule proto skb ple.rule ∧
        Contains UInt16.toNat proto iph skb ple.rule
    · exact Or.inl hplain
    -- Every rule that contains the packet, in either order, is opposed.
    have hopp : ∀ ple ∈ staticRules, Contains UInt16.toNat proto iph skb ple.rule ∨
        Contains portNumber proto iph skb ple.rule → OpposedRule proto skb ple.rule := by
      intro ple hple hc
      by_contra hnot
      exact hplain ⟨ple, hple, hnot, hc.elim id (contains_of_not_opposed hnot).mpr⟩
    by_cases hstored : ∃ ple ∈ staticRules, Contains UInt16.toNat proto iph skb ple.rule
    · obtain ⟨ple', hple', hc'⟩ := h.mp hstored
      obtain ⟨ple, hple, hc⟩ := hstored
      exact Or.inr (Or.inr ⟨ple, hple, ple', hple', ⟨hopp ple hple (Or.inl hc), hc⟩,
        hopp ple' hple' (Or.inr hc'), hc'⟩)
    · refine Or.inr (Or.inl fun ple hple _ => ⟨fun hc => hstored ⟨ple, hple, hc⟩, fun hc => ?_⟩)
      exact hstored (h.mpr ⟨ple, hple, hc⟩)
  · rintro (⟨ple, hple, hnot, hc⟩ | hnone | ⟨ple, hple, ple', hple', ⟨-, hc⟩, -, hc'⟩)
    · have hnumber := (contains_of_not_opposed hnot).mp hc
      exact iff_of_true ⟨ple, hple, hc⟩ ⟨ple, hple, hnumber⟩
    · refine exists_congr fun ple => and_congr_right fun hple => ?_
      by_cases hopp : OpposedRule proto skb ple.rule
      · exact iff_of_false (hnone ple hple hopp).1 (hnone ple hple hopp).2
      · exact contains_of_not_opposed hopp
    · exact iff_of_true ⟨ple, hple, hc⟩ ⟨ple', hple', hc'⟩

/-- Where each range has the same ports in both orders, a search goes by the numbers for every
    packet. -/
theorem numericRanges_of_inRange {staticRules : List RulesList}
    (h : ∀ ple ∈ staticRules, ∀ range ∈ [ple.rule.portSrc, ple.rule.portDst], ∀ port,
      InRange UInt16.toNat range port ↔ InRange portNumber range port)
    (proto : Proto) (iph : Iphdr) (skb : Skb) : NumericRanges proto iph skb staticRules := by
  rw [NumericRanges, searchRule_isSome]
  refine exists_congr fun ple => and_congr_right fun hple => ?_
  have hsrc := h ple hple ple.rule.portSrc List.mem_cons_self (skb.source proto)
  have hdst := h ple hple ple.rule.portDst (List.mem_cons_of_mem _ List.mem_cons_self)
    (skb.dest proto)
  constructor
  · intro hc
    exact ⟨hc.saddr, hc.daddr, hsrc.mp hc.source, hdst.mp hc.dest⟩
  · intro hc
    exact ⟨hc.saddr, hc.daddr, hsrc.mpr hc.source, hdst.mpr hc.dest⟩

/-- **Ports 80 to 443.**  A rule for all sources and these destination ports is not found for a
    packet to port 300. -/
theorem not_numericRanges : ∃ ple : RulesList, ∃ iph skb,
    ple.rule.portDst = (0x5000, 0xBB01) ∧ portNumber 0x5000 = 80 ∧ portNumber 0xBB01 = 443 ∧
      skb.iph = some iph ∧ iph.protocol = IPPROTO_TCP ∧ portNumber (skb.dest .tcp) = 300 ∧
      Contains portNumber .tcp iph skb ple.rule ∧
      searchRule (dynamicRule .tcp iph skb false) [ple] = none ∧
      ¬ NumericRanges .tcp iph skb [ple] := by
  let rule : Fwr := newRule 0 0 0 0 0 0xFFFF 0x5000 0xBB01
  let iph : Iphdr := { protocol := 6, saddr := 0x0100007F, daddr := 0x0100007F }
  let skb : Skb :=
    { iph := some iph
      tcph := { source := 0x5000, dest := 0x2C01, syn := true, ack := false, fin := false }
      udph := { source := 0x5000, dest := 0x2C01 } }
  have hnumber : Contains portNumber .tcp iph skb rule :=
    ⟨by decide, by decide, by decide, by decide⟩
  refine ⟨⟨0, rule, ⟨none, none⟩⟩, iph, skb, rfl, by decide, by decide, rfl, rfl, by decide,
    hnumber, by decide, fun h => ?_⟩
  have hfound := h.mpr ⟨_, List.mem_singleton_self _, hnumber⟩
  exact absurd hfound (by decide)

end WorkAtUPB.NetworkFirewall

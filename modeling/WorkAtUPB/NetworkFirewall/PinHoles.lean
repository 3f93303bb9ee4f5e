import Mathlib.Algebra.Order.Group.Nat
import WorkAtUPB.Lib.Lease
import WorkAtUPB.NetworkFirewall.Timers

namespace WorkAtUPB.NetworkFirewall

open WorkAtUPB.Lease WorkAtUPB.Run

/-!
# NetworkFirewallLinux — how long a UDP pin-hole lives

The masks of UDP rules cover nothing, so a rule stands for a pair of ports, and its entry is a lease
that packets of the pair renew:

* `IsPinHole` — the entry is for a remote and a local port;
* `refreshes` — the renewals that an event makes: packets sent to the pair, and packets received
  from it that a dynamic rule lets in, and no static one;
* `Leased` — there is one entry for the pair while its lease is open;
* `udpDynamicRules_lifetime` — in every run, the entry for a pair is there exactly while a chain of
  renewals, the first of them by a packet sent, has not run out.
-/

/-! ### Entries for a pair of ports -/

/-- The entry is for the remote port `pair.1` and the local port `pair.2`. -/
def IsPinHole (pair : UInt16 × UInt16) (ple : RulesList) : Prop :=
  ple.rule.portSrc = (pair.1, pair.1) ∧ ple.rule.portDst = (pair.2, pair.2)

instance (pair : UInt16 × UInt16) : DecidablePred (IsPinHole pair) := fun ple =>
  inferInstanceAs (Decidable (ple.rule.portSrc = _ ∧ ple.rule.portDst = _))

/-- The entry is for single ports, whatever the addresses. -/
def IsUdpRule (ple : RulesList) : Prop :=
  ple.rule.ipSrcMask = 0 ∧ ple.rule.ipDstMask = 0 ∧ ∃ pair, IsPinHole pair ple

/-- The remote and the local port of a packet. -/
def Skb.pair (skb : Skb) (out : Bool) : UInt16 × UInt16 :=
  if out = true then (skb.udph.dest, skb.udph.source) else (skb.udph.source, skb.udph.dest)

/-- The first of its remote and of its local ports. -/
def RulesList.ports (ple : RulesList) : UInt16 × UInt16 := (ple.rule.portSrc.1, ple.rule.portDst.1)

theorem IsPinHole.ports_eq {pair : UInt16 × UInt16} {ple : RulesList} (h : IsPinHole pair ple) :
    ple.ports = pair := by
  rw [RulesList.ports, h.1, h.2]

theorem IsUdpRule.isPinHole_iff {pair : UInt16 × UInt16} {ple : RulesList} (h : IsUdpRule ple) :
    IsPinHole pair ple ↔ ple.ports = pair := by
  refine ⟨IsPinHole.ports_eq, ?_⟩
  rintro rfl
  obtain ⟨-, -, pair, hpair⟩ := h
  exact hpair.ports_eq.symm ▸ hpair

/-- An entry is for the pair of a packet exactly if it matches the packet. -/
theorem matchRule_udp {ple : RulesList} (h : IsUdpRule ple) (iph : Iphdr) (skb : Skb) (out : Bool) :
    matchRule (generateUdpDynamicRule iph skb.udph out) ple.rule = true ↔
      IsPinHole (skb.pair out) ple := by
  obtain ⟨hsrc, hdst, ⟨remote, local'⟩, hports⟩ := h
  obtain ⟨hportSrc, hportDst⟩ := hports
  have hzero (a : UInt32) : (a &&& 0) = 0 := UInt32.and_zero
  constructor
  · intro hmatch
    have hsrcPort : (generateUdpDynamicRule iph skb.udph out).portSrc =
        ((skb.pair out).1, (skb.pair out).1) := by cases out <;> rfl
    have hdstPort : (generateUdpDynamicRule iph skb.udph out).portDst =
        ((skb.pair out).2, (skb.pair out).2) := by cases out <;> rfl
    have hports := matchRule_ports hmatch hsrcPort hdstPort hportSrc hportDst
    exact ⟨hportSrc.trans (hports.1 ▸ rfl), hportDst.trans (hports.2 ▸ rfl)⟩
  · rintro ⟨hsrc', hdst'⟩
    cases out <;> simp [matchRule, generateUdpDynamicRule, newRule, hsrc, hdst, hsrc', hdst', hzero,
      Skb.pair]

/-- The search for the rule of a packet finds an entry for its pair. -/
theorem searchRule_udp_some {list : List RulesList} (h : ∀ ple ∈ list, IsUdpRule ple) {iph : Iphdr}
    {skb : Skb} {out : Bool} {ple : RulesList}
    (hple : searchRule (generateUdpDynamicRule iph skb.udph out) list = some ple) :
    ple ∈ list ∧ IsPinHole (skb.pair out) ple := by
  obtain ⟨hmem, hmatch⟩ := searchRule_some hple
  exact ⟨hmem, (matchRule_udp (h ple hmem) iph skb out).mp hmatch⟩

/-- If it finds none, there is none for the pair. -/
theorem searchRule_udp_none {list : List RulesList} (h : ∀ ple ∈ list, IsUdpRule ple) {iph : Iphdr}
    {skb : Skb} {out : Bool}
    (hnone : searchRule (generateUdpDynamicRule iph skb.udph out) list = none) :
    ∀ ple ∈ list, ¬ IsPinHole (skb.pair out) ple := fun ple hple hpair =>
  searchRule_none hnone ple hple ((matchRule_udp (h ple hple) iph skb out).mpr hpair)

/-! ### The list as a lease -/

/-- The deadline of the entry for a pair. -/
def Deadline (list : List RulesList) (pair : UInt16 × UInt16) : Option Nat → Prop
  | none => ∀ ple ∈ list, ¬ IsPinHole pair ple
  | some d => ∃ ple ∈ list, IsPinHole pair ple ∧ ple.timer.expires = some d

/-- The list has UDP rules, with no two for one pair, and the entry for `pair` is a lease with the
    renewals of `log`. -/
structure Leased (timeout : Nat) (pair : UInt16 × UInt16) (list : List RulesList) (now : Nat)
    (log : List (Renewal Nat)) : Prop where
  udp : ∀ ple ∈ list, IsUdpRule ple
  alone : (list.map RulesList.ports).Nodup
  tracks : ∃ expires, Deadline list pair expires ∧ Tracks timeout log now expires

section

variable {timeout now : Nat} {pair : UInt16 × UInt16} {list : List RulesList}
  {log : List (Renewal Nat)} {ple : RulesList}

theorem leased_nil (timeout now : Nat) (pair : UInt16 × UInt16) :
    Leased timeout pair [] now [] where
  udp := nofun
  alone := .nil
  tracks := ⟨none, nofun, tracks_nil timeout now⟩

/-- There is one entry for a pair. -/
theorem Leased.eq_of_isPinHole (h : Leased timeout pair list now log) {ple ple' : RulesList}
    {pair' : UInt16 × UInt16} (hple : ple ∈ list) (hple' : ple' ∈ list)
    (hpair : IsPinHole pair' ple) (hpair' : IsPinHole pair' ple') : ple = ple' :=
  List.inj_on_of_nodup_map h.alone hple hple' (hpair.ports_eq.trans hpair'.ports_eq.symm)

/-- There are no two entries for a pair. -/
theorem Leased.countP_le_one (h : Leased timeout pair list now log) (pair' : UInt16 × UInt16) :
    list.countP (IsPinHole pair' ·) ≤ 1 := by
  calc list.countP (IsPinHole pair' ·)
      = list.countP ((· == pair') ∘ RulesList.ports) :=
        List.countP_congr fun ple hple => by
          rw [decide_eq_true_iff, (h.udp ple hple).isPinHole_iff]
          exact beq_iff_eq.symm
    _ = (list.map RulesList.ports).count pair' := List.countP_map.symm
    _ ≤ 1 := List.nodup_iff_count_le_one.mp h.alone pair'

theorem Leased.wait (h : Leased timeout pair list now log) {now' : Nat} (hle : now ≤ now') :
    Leased timeout pair list now' log where
  udp := h.udp
  alone := h.alone
  tracks := by
    obtain ⟨expires, hdeadline, htracks⟩ := h.tracks
    exact ⟨expires, hdeadline, htracks.wait hle⟩

/-- A packet adds the entry of its pair. -/
theorem Leased.added (h : Leased timeout pair list now log) {pair' : UInt16 × UInt16}
    (hudp : IsUdpRule ple) (hpair : IsPinHole pair' ple)
    (hexpires : ple.timer.expires = some (now + timeout))
    (hnone : ∀ ple' ∈ list, ¬ IsPinHole pair' ple') :
    Leased timeout pair (ple :: list) now
      (log ++ if pair' = pair then [⟨now, true⟩] else []) where
  udp := List.forall_mem_cons.mpr ⟨hudp, h.udp⟩
  alone := by
    refine List.nodup_cons.mpr ⟨fun hmem => ?_, h.alone⟩
    obtain ⟨ple', hple', heq⟩ := List.mem_map.mp hmem
    exact hnone ple' hple' ((h.udp ple' hple').isPinHole_iff.mpr (heq.trans hpair.ports_eq))
  tracks := by
    obtain ⟨expires, hdeadline, htracks⟩ := h.tracks
    by_cases hsame : pair' = pair
    · subst hsame
      rw [if_pos rfl]
      -- The lease begins: no entry of the pair was there.
      cases expires with
      | none =>
        exact ⟨some (now + timeout), ⟨ple, List.mem_cons_self, hpair, hexpires⟩, htracks.open⟩
      | some d =>
        obtain ⟨ple', hple', hpair', -⟩ := hdeadline
        exact absurd hpair' (hnone ple' hple')
    · rw [if_neg hsame, List.append_nil]
      -- An entry of another pair says nothing about this one.
      refine ⟨expires, ?_, htracks⟩
      cases expires with
      | none =>
        exact List.forall_mem_cons.mpr
          ⟨fun hpair' => hsame (hpair.ports_eq.symm.trans hpair'.ports_eq), hdeadline⟩
      | some d =>
        obtain ⟨ple', hple', hpair', hd⟩ := hdeadline
        exact ⟨ple', List.mem_cons_of_mem _ hple', hpair', hd⟩

/-- The ports of the entries after a timer has been armed. -/
theorem modTimer_map_ports (rulePtr expires : Nat) (head : List RulesList) :
    (modTimer rulePtr expires head).map RulesList.ports = head.map RulesList.ports := by
  rw [modTimer, List.map_map]
  refine List.map_congr_left fun ple _ => ?_
  show (if _ then _ else _ : RulesList).ports = ple.ports
  split <;> rfl

/-- A packet renews the entry of its pair. -/
theorem Leased.armed (h : Leased timeout pair list now log)
    (hnodup : (list.map RulesList.rulePtr).Nodup)
    (hsettled : ∀ ple ∈ list, ∀ due ∈ ple.timer.expires, now < due) (hple : ple ∈ list)
    {pair' : UInt16 × UInt16} (hpair : IsPinHole pair' ple) (opens : Bool) :
    Leased timeout pair (modTimer ple.rulePtr (now + timeout) list) now
      (log ++ if pair' = pair then [⟨now, opens⟩] else []) where
  udp := fun ple' hple' => by
    obtain ⟨ple'', hple'', heq⟩ := modTimer_rule hple'
    have hudp := h.udp ple'' hple''
    rw [IsUdpRule, ← heq]
    obtain ⟨hsrc, hdst, pair'', hpair''⟩ := hudp
    exact ⟨hsrc, hdst, pair'', by rw [IsPinHole, ← heq]; exact hpair''⟩
  alone := modTimer_map_ports ple.rulePtr _ list ▸ h.alone
  tracks := by
    obtain ⟨expires, hdeadline, htracks⟩ := h.tracks
    by_cases hsame : pair' = pair
    · subst hsame
      rw [if_pos rfl]
      cases expires with
      | none => exact absurd hpair (hdeadline ple hple)
      | some d =>
        obtain ⟨ple', hple', hpair', hd⟩ := hdeadline
        exact ⟨some (now + timeout), ⟨_, mem_modTimer.mpr (Or.inr ⟨ple, hple, rfl, rfl⟩), hpair,
          rfl⟩,
          htracks.renew (hsettled ple' hple' d hd) opens⟩
    · rw [if_neg hsame, List.append_nil]
      refine ⟨expires, ?_, htracks⟩
      cases expires with
      | none =>
        intro ple' hple' hpair'
        rcases mem_modTimer.mp hple' with ⟨hmem, -⟩ | ⟨ple'', hmem, -, rfl⟩
        · exact hdeadline ple' hmem hpair'
        · exact hdeadline ple'' hmem hpair'
      | some d =>
        -- The entry of the other pair has another address.
        obtain ⟨ple', hple', hpair', hd⟩ := hdeadline
        refine ⟨ple', mem_modTimer.mpr (Or.inl ⟨hple', fun hptr => hsame ?_⟩), hpair', hd⟩
        have heq := List.inj_on_of_nodup_map hnodup hple' hple hptr
        exact hpair.ports_eq.symm.trans (heq ▸ hpair'.ports_eq)

/-- The timer of an entry deletes it. -/
theorem Leased.expired (h : Leased timeout pair list now log)
    (hnodup : (list.map RulesList.rulePtr).Nodup) (hple : ple ∈ list) {due : Nat}
    (hexpires : ple.timer.expires = some due) (hdue : due ≤ now) :
    Leased timeout pair (delRule ple.rulePtr list) now log where
  udp := fun ple' hple' => h.udp ple' (delRule_mem hple')
  alone := h.alone.sublist (List.eraseP_sublist.map _)
  tracks := by
    obtain ⟨expires, hdeadline, htracks⟩ := h.tracks
    cases expires with
    | none => exact ⟨none, fun ple' hple' => hdeadline ple' (delRule_mem hple'), htracks⟩
    | some d =>
      obtain ⟨ple', hple', hpair', hd⟩ := hdeadline
      by_cases hsame : ple' = ple
      · subst hsame
        have hle : d ≤ now := Option.some.inj (hd.symm.trans hexpires) ▸ hdue
        refine ⟨none, fun ple'' hple'' hpair'' => ?_, htracks.lapse hle⟩
        have heq := h.eq_of_isPinHole (delRule_mem hple'') hple hpair'' hpair'
        exact rulePtr_ne_of_mem_delRule hnodup hple'' (congrArg _ heq)
      · have hptr : ple'.rulePtr ≠ ple.rulePtr := fun hptr =>
          hsame (List.inj_on_of_nodup_map hnodup hple' hple hptr)
        exact ⟨some d, ⟨ple', mem_delRule hple' hptr, hpair', hd⟩, htracks⟩

/-- Between two events, there is an entry for the pair exactly while its lease is kept open. -/
theorem Leased.exists_iff (h : Leased timeout pair list now log)
    (hsettled : ∀ ple ∈ list, ∀ due ∈ ple.timer.expires, now < due) :
    (∃ ple ∈ list, IsPinHole pair ple) ↔ KeptOpen timeout now log := by
  obtain ⟨expires, hdeadline, htracks⟩ := h.tracks
  cases expires with
  | none =>
    rw [← htracks.isSome_iff nofun]
    exact iff_of_false (fun ⟨ple, hple, hpair⟩ => hdeadline ple hple hpair) Bool.false_ne_true
  | some d =>
    obtain ⟨ple, hple, hpair, hd⟩ := hdeadline
    rw [← htracks.isSome_iff fun d' hd' => hsettled ple hple d' (hd.trans hd')]
    exact iff_of_true ⟨ple, hple, hpair⟩ rfl

end

/-! ### Renewals -/

/-- The packet is sent to the remote port of the pair, from the local one. -/
def Sends (pair : UInt16 × UInt16) (skb : Skb) : Prop :=
  ∃ iph ∈ skb.iph, iph.protocol = IPPROTO_UDP ∧ skb.pair true = pair

instance (pair : UInt16 × UInt16) (skb : Skb) : Decidable (Sends pair skb) :=
  inferInstanceAs (Decidable (∃ iph ∈ skb.iph, _))

/-- The packet is received from the remote port of the pair, on the local one, and let in by a
    dynamic rule, and no static one. -/
def LetIn (s : State) (pair : UInt16 × UInt16) (skb : Skb) : Prop :=
  ∃ iph ∈ skb.iph, iph.protocol = IPPROTO_UDP ∧ skb.pair false = pair ∧
    searchRule (generateUdpDynamicRule iph skb.udph false) s.staticRules = none ∧
    (searchRule (generateUdpDynamicRule iph skb.udph false) s.udpDynamicRules).isSome

instance (s : State) (pair : UInt16 × UInt16) (skb : Skb) : Decidable (LetIn s pair skb) :=
  inferInstanceAs (Decidable (∃ iph ∈ skb.iph, _))

/-- The renewals of the lease of a pair by an event. -/
def refreshes (s : State) (pair : UInt16 × UInt16) : Event → List (Renewal Nat)
  | .packetOut skb _ => if Sends pair skb then [⟨s.jiffies, true⟩] else []
  | .packetIn skb => if LetIn s pair skb then [⟨s.jiffies, false⟩] else []
  | .addRule .. | .tick | .expire _ => []

variable {hz : Nat} {s : State} {skb : Skb} {iph : Iphdr} {pair : UInt16 × UInt16}
  {log : List (Renewal Nat)}

/-- What a datagram that is sent does to the list. -/
theorem myNfHookfnOut_udp (hz : Nat) (s : State) (hiph : skb.iph = some iph)
    (hudp : iph.protocol = IPPROTO_UDP) :
    (myNfHookfnOut hz s skb ⟨true, true⟩).udpDynamicRules =
      match searchRule (generateUdpDynamicRule iph skb.udph true) s.udpDynamicRules with
      | some ple => modTimer ple.rulePtr (s.jiffies + timeout hz) s.udpDynamicRules
      | none =>
        s.newEntry hz (generateUdpDynamicRule iph skb.udph true) (some .udp) ::
          s.udpDynamicRules := by
  have htcp : iph.protocol ≠ IPPROTO_TCP := by
    rw [hudp]
    decide
  rw [myNfHookfnOut, hiph]
  simp only [if_neg htcp, if_pos hudp]
  cases searchRule (generateUdpDynamicRule iph skb.udph true) s.udpDynamicRules with
  | some ple => rfl
  | none => rfl

/-- Other packets that are sent leave the list alone. -/
theorem myNfHookfnOut_of_not_udp (hz : Nat) (s : State) (kmalloc : Kmalloc)
    (hudp : ∀ iph ∈ skb.iph, iph.protocol ≠ IPPROTO_UDP) :
    (myNfHookfnOut hz s skb kmalloc).udpDynamicRules = s.udpDynamicRules := by
  rw [myNfHookfnOut]
  split
  next => rfl
  next iph hiph =>
    rw [if_neg (hudp iph hiph)]
    split
    next =>
      dsimp only
      split
      next => rfl
      next =>
        split
        next => split <;> rfl
        next => rfl
    next => rfl

/-- What a datagram that is received does to the list. -/
theorem myNfHookfnIn_udp (hz : Nat) (s : State) (hiph : skb.iph = some iph)
    (hudp : iph.protocol = IPPROTO_UDP) :
    (myNfHookfnIn hz s skb).2.udpDynamicRules =
      if (searchRule (generateUdpDynamicRule iph skb.udph false) s.staticRules).isSome then
        s.udpDynamicRules
      else
        match searchRule (generateUdpDynamicRule iph skb.udph false) s.udpDynamicRules with
        | some ple => modTimer ple.rulePtr (s.jiffies + timeout hz) s.udpDynamicRules
        | none => s.udpDynamicRules := by
  have htcp : iph.protocol ≠ IPPROTO_TCP := by
    rw [hudp]
    decide
  rw [myNfHookfnIn, hiph]
  simp only [if_neg htcp, if_pos hudp]
  split
  next => rfl
  next =>
    cases searchRule (generateUdpDynamicRule iph skb.udph false) s.udpDynamicRules with
    | some ple => rfl
    | none => rfl

/-- Other packets that are received leave the list alone. -/
theorem myNfHookfnIn_of_not_udp (hz : Nat) (s : State)
    (hudp : ∀ iph ∈ skb.iph, iph.protocol ≠ IPPROTO_UDP) :
    (myNfHookfnIn hz s skb).2.udpDynamicRules = s.udpDynamicRules := by
  rw [myNfHookfnIn]
  split
  next => rfl
  next iph hiph =>
    rw [if_neg (hudp iph hiph)]
    split
    next =>
      dsimp only
      split
      next => rfl
      next => split <;> rfl
    next => rfl

/-- A packet that is sent renews the lease of its pair, or opens it. -/
theorem leased_packetOut (h : Leased (timeout hz) pair s.udpDynamicRules s.jiffies log)
    (hnodup : (s.udpDynamicRules.map RulesList.rulePtr).Nodup)
    (hsettled : ∀ ple ∈ s.udpDynamicRules, ∀ due ∈ ple.timer.expires, s.jiffies < due) (skb : Skb) :
    Leased (timeout hz) pair (myNfHookfnOut hz s skb ⟨true, true⟩).udpDynamicRules s.jiffies
      (log ++ refreshes s pair (.packetOut skb ⟨true, true⟩)) := by
  by_cases hudp : ∃ iph ∈ skb.iph, iph.protocol = IPPROTO_UDP
  · obtain ⟨iph, hiph, hudp⟩ := hudp
    have hrefreshes : refreshes s pair (.packetOut skb ⟨true, true⟩) =
        if skb.pair true = pair then [⟨s.jiffies, true⟩] else [] :=
      if_congr ⟨fun ⟨_, _, _, hpair⟩ => hpair, fun hpair => ⟨iph, hiph, hudp, hpair⟩⟩ rfl rfl
    rw [hrefreshes, myNfHookfnOut_udp hz s hiph hudp]
    split
    next ple hple =>
      obtain ⟨hmem, hpair⟩ := searchRule_udp_some h.udp hple
      exact h.armed hnodup hsettled hmem hpair true
    next hnone =>
      have hpair : IsPinHole (skb.pair true)
          (s.newEntry hz (generateUdpDynamicRule iph skb.udph true) (some .udp)) := ⟨rfl, rfl⟩
      exact h.added ⟨rfl, rfl, _, hpair⟩ hpair rfl (searchRule_udp_none h.udp hnone)
  · have hnone : ¬ Sends pair skb := fun ⟨iph, hiph, hproto, _⟩ => hudp ⟨iph, hiph, hproto⟩
    rw [myNfHookfnOut_of_not_udp hz s _ fun iph hiph hproto => hudp ⟨iph, hiph, hproto⟩, refreshes,
      if_neg hnone, List.append_nil]
    exact h

/-- A packet that is received renews the lease of its pair, if it is let in for it. -/
theorem leased_packetIn (h : Leased (timeout hz) pair s.udpDynamicRules s.jiffies log)
    (hnodup : (s.udpDynamicRules.map RulesList.rulePtr).Nodup)
    (hsettled : ∀ ple ∈ s.udpDynamicRules, ∀ due ∈ ple.timer.expires, s.jiffies < due) (skb : Skb) :
    Leased (timeout hz) pair (myNfHookfnIn hz s skb).2.udpDynamicRules s.jiffies
      (log ++ refreshes s pair (.packetIn skb)) := by
  by_cases hletIn : ∃ iph ∈ skb.iph, iph.protocol = IPPROTO_UDP ∧
      searchRule (generateUdpDynamicRule iph skb.udph false) s.staticRules = none ∧
      (searchRule (generateUdpDynamicRule iph skb.udph false) s.udpDynamicRules).isSome
  -- The rule that lets it in is that of its pair, and has its timer set again.
  · obtain ⟨iph, hiph, hudp, hstatic, hsome⟩ := hletIn
    have hrefreshes : refreshes s pair (.packetIn skb) =
        if skb.pair false = pair then [⟨s.jiffies, false⟩] else [] :=
      if_congr ⟨fun ⟨_, _, _, hpair, _⟩ => hpair,
        fun hpair => ⟨iph, hiph, hudp, hpair, hstatic, hsome⟩⟩ rfl rfl
    obtain ⟨ple, hple⟩ := Option.isSome_iff_exists.mp hsome
    obtain ⟨hmem, hpair⟩ := searchRule_udp_some h.udp hple
    rw [hrefreshes, myNfHookfnIn_udp hz s hiph hudp, hstatic, Option.isSome_none,
      if_neg Bool.false_ne_true, hple]
    exact h.armed hnodup hsettled hmem hpair false
  · have hnone : ¬ LetIn s pair skb := fun ⟨iph, hiph, hudp, _, hstatic, hsome⟩ =>
      hletIn ⟨iph, hiph, hudp, hstatic, hsome⟩
    -- Otherwise the list stays as it is.
    have hsame : (myNfHookfnIn hz s skb).2.udpDynamicRules = s.udpDynamicRules := by
      by_cases hudp : ∃ iph ∈ skb.iph, iph.protocol = IPPROTO_UDP
      · obtain ⟨iph, hiph, hudp⟩ := hudp
        rw [myNfHookfnIn_udp hz s hiph hudp]
        split
        next => rfl
        next hstatic =>
          split
          next ple hple =>
            exact absurd ⟨iph, hiph, hudp, Option.not_isSome_iff_eq_none.mp hstatic, hple ▸ rfl⟩
              hletIn
          next => rfl
      · exact myNfHookfnIn_of_not_udp hz s fun iph hiph hproto => hudp ⟨iph, hiph, hproto⟩
    rw [hsame, refreshes, if_neg hnone, List.append_nil]
    exact h

/-! ### Runs -/

/-- The firewall, and the renewals of the lease of a pair so far. -/
structure Watch where
  state : State
  refreshed : List (Renewal Nat)
  deriving DecidableEq, Repr

/-- Empty rule lists, and no renewals yet. -/
def Watch.empty : Watch := ⟨.empty, []⟩

/-- One event, and what it renews. -/
def stepWatch (hz : Nat) (pair : UInt16 × UInt16) (w : Watch) (e : Event) : Option Watch :=
  (step hz w.state e).map fun s => ⟨s, w.refreshed ++ refreshes w.state pair e⟩

/-- The allocations for a packet that is sent succeed. -/
def Allocates : Event → Prop
  | .packetOut _ kmalloc => kmalloc = ⟨true, true⟩
  | .packetIn _ | .addRule .. | .tick | .expire _ => True

instance : (e : Event) → Decidable (Allocates e)
  | .packetOut _ kmalloc => inferInstanceAs (Decidable (kmalloc = ⟨true, true⟩))
  | .packetIn _ | .addRule .. | .tick | .expire _ => inferInstanceAs (Decidable True)

/-- Timers fire in time, and allocations succeed. -/
def Regular (w : Watch) (e : Event) : Prop := Punctual w.state e ∧ Allocates e

instance (w : Watch) (e : Event) : Decidable (Regular w e) :=
  inferInstanceAs (Decidable (Punctual w.state e ∧ Allocates e))

/-- The UDP rules are leased. -/
structure Inv (hz : Nat) (pair : UInt16 × UInt16) (w : Watch) : Prop where
  wellFormed : WellFormed w.state
  leased : Leased (timeout hz) pair w.state.udpDynamicRules w.state.jiffies w.refreshed

theorem inv_empty (hz : Nat) (pair : UInt16 × UInt16) : Inv hz pair .empty :=
  ⟨wellFormed_empty, leased_nil (timeout hz) 0 pair⟩

theorem WellFormed.nodup_udp (h : WellFormed s) :
    (s.udpDynamicRules.map RulesList.rulePtr).Nodup :=
  h.nodup.sublist ((List.sublist_append_right _ _).map _)

theorem Settled.udp (h : Settled s) :
    ∀ ple ∈ s.udpDynamicRules, ∀ due ∈ ple.timer.expires, s.jiffies < due := fun ple hple =>
  h ple (mem_entries_of_mem_dynamicRules .udp hple)

/-- A timer deletes its entry from its own list. -/
theorem leased_expire (hwellFormed : WellFormed s)
    (h : Leased (timeout hz) pair s.udpDynamicRules s.jiffies log) {rulePtr : Nat} {s' : State}
    (hs' : expire s rulePtr = some s') :
    Leased (timeout hz) pair s'.udpDynamicRules s.jiffies log := by
  cases effect_expire hz hs' with
  | same _ => exact h
  | failed _ => exact h
  | @expired ple due proto hple hdue hle hfunction =>
    cases proto with
    | tcp => exact h
    | udp =>
      have hmem := hwellFormed.mem_dynamicRules (List.mem_of_find?_eq_some hple) hfunction
      exact h.expired hwellFormed.nodup_udp hmem hdue hle

theorem inv_step {w w' : Watch} {e : Event} (h : Inv hz pair w) (hregular : Regular w e)
    (hw' : stepWatch hz pair w e = some w') : Inv hz pair w' := by
  obtain ⟨s', hs', rfl⟩ := Option.map_eq_some_iff.mp hw'
  obtain ⟨hpunctual, hallocates⟩ := hregular
  refine ⟨wellFormed_step h.wellFormed hs', ?_⟩
  have hnodup := h.wellFormed.nodup_udp
  cases e with
  | packetOut skb kmalloc =>
    -- There is memory for every entry.
    obtain rfl : kmalloc = ⟨true, true⟩ := hallocates
    have hjiffies := jiffies_effect (effect_of_step hs') Event.noConfusion
    rw [step, Option.some.injEq] at hs'
    subst hs'
    rw [hjiffies]
    exact leased_packetOut h.leased hnodup (Settled.udp hpunctual) skb
  | packetIn skb =>
    have hjiffies := jiffies_effect (effect_of_step hs') Event.noConfusion
    rw [step, Option.some.injEq] at hs'
    subst hs'
    rw [hjiffies]
    exact leased_packetIn h.leased hnodup (Settled.udp hpunctual) skb
  | addRule rule kmalloc =>
    rw [step, Option.some.injEq] at hs'
    subst hs'
    rw [refreshes, List.append_nil]
    exact h.leased
  | tick =>
    rw [step, Option.some.injEq] at hs'
    subst hs'
    rw [refreshes, List.append_nil]
    exact h.leased.wait (Nat.le_succ _)
  | expire rulePtr =>
    have hjiffies := jiffies_effect (effect_of_step hs') Event.noConfusion
    rw [hjiffies, refreshes, List.append_nil]
    exact leased_expire h.wellFormed h.leased hs'

/-- A packet from the pair that no static rule matches is let in exactly if there is an entry for
    the pair. -/
theorem myNfHookfnIn_accept_udp {w : Watch} (h : Inv hz pair w) (hiph : skb.iph = some iph)
    (hudp : iph.protocol = IPPROTO_UDP) (hpair : skb.pair false = pair)
    (hstatic : searchRule (generateUdpDynamicRule iph skb.udph false) w.state.staticRules = none) :
    (myNfHookfnIn hz w.state skb).1 = .accept ↔
      ∃ ple ∈ w.state.udpDynamicRules, IsPinHole pair ple := by
  have hproto : iph.protocol = Proto.udp.number := hudp
  rw [myNfHookfnIn_accept hiph hproto]
  show _ ∨ (searchRule (generateUdpDynamicRule iph skb.udph false)
    w.state.udpDynamicRules).isSome = true ↔ _
  have hnone : ¬ (searchRule (dynamicRule .udp iph skb false) w.state.staticRules).isSome = true :=
    Option.not_isSome_iff_eq_none.mpr hstatic
  rw [or_iff_right hnone]
  subst hpair
  cases hsearch : searchRule (generateUdpDynamicRule iph skb.udph false)
      w.state.udpDynamicRules with
  | some ple =>
    obtain ⟨hmem, hpair⟩ := searchRule_udp_some h.leased.udp hsearch
    exact iff_of_true rfl ⟨ple, hmem, hpair⟩
  | none =>
    refine iff_of_false Bool.false_ne_true ?_
    rintro ⟨ple, hmem, hpair⟩
    exact searchRule_udp_none h.leased.udp hsearch ple hmem hpair

/-- **How long a pin-hole lives.**  In every run from empty lists in which timers fire in time and
    allocations succeed, there is never more than one entry for a remote and a local port, and
    between two events there is one exactly if some chain of renewals has not run out; and exactly
    then a packet from the remote to the local port that no static rule matches is let in. -/
theorem udpDynamicRules_lifetime (hz : Nat) (pair : UInt16 × UInt16) (es : List Event) (w : Watch)
    (hrun : run (stepWatch hz pair) .empty es = some w)
    (hregular : EachStep (stepWatch hz pair) Regular .empty es) :
    w.state.udpDynamicRules.countP (IsPinHole pair ·) ≤ 1 ∧
      (Settled w.state →
        ((∃ ple ∈ w.state.udpDynamicRules, IsPinHole pair ple) ↔
          KeptOpen (timeout hz) w.state.jiffies w.refreshed) ∧
        ∀ skb : Skb, ∀ iph ∈ skb.iph, iph.protocol = IPPROTO_UDP → skb.pair false = pair →
          searchRule (generateUdpDynamicRule iph skb.udph false) w.state.staticRules = none →
          ((myNfHookfnIn hz w.state skb).1 = .accept ↔
            KeptOpen (timeout hz) w.state.jiffies w.refreshed)) := by
  have h : Inv hz pair w := (always_of_inductive
    (fun _ _ _ h hregular hw' => inv_step h hregular hw') (inv_empty hz pair) hregular).last hrun
  refine ⟨h.leased.countP_le_one pair, fun hsettled => ?_⟩
  have hiff := h.leased.exists_iff (Settled.udp hsettled)
  refine ⟨hiff, fun skb iph hiph hudp hpair hstatic => ?_⟩
  rw [← hiff]
  exact myNfHookfnIn_accept_udp h hiph hudp hpair hstatic

/-- A query from port 1000 to port 53 opens the pin-hole for the answer. -/
theorem udpDynamicRules_lifetime_query :
    (myNfHookfnIn 1000
      (myNfHookfnOut 1000 .empty (datagram 1 1000 2 53) ⟨true, true⟩) (datagram 2 53 1 1000)).1 =
        .accept ↔ KeptOpen 300 0 [⟨0, true⟩] :=
  ((udpDynamicRules_lifetime 1000 (53, 1000) [.packetOut (datagram 1 1000 2 53) ⟨true, true⟩]
    ⟨myNfHookfnOut 1000 .empty (datagram 1 1000 2 53) ⟨true, true⟩, [⟨0, true⟩]⟩ (by decide)
    (by decide)).2 (by decide)).2 (datagram 2 53 1 1000) _ rfl rfl rfl rfl

end WorkAtUPB.NetworkFirewall

import WorkAtUPB.NetworkFirewall.Timers

namespace WorkAtUPB.NetworkFirewall

open WorkAtUPB.Run

/-!
# NetworkFirewallLinux — when the pin-holes of a TCP connection close

Every connection-initiating SYN adds an entry, also when the connection has one, and a FIN arms the
timer of the first entry that matches under masks of 16 bits:

* `Connection` — the connections, and the rule that the SYNs of one add;
* `Ended` — a run in which the FIN of a connection is sent, and then nothing more on it, until the
  timeout has elapsed;
* `Retires` — the FIN finds the only entry of the connection that has no deadline, and no later FIN
  of another connection finds one of its entries;
* `tcpDynamicRules_closed` — then no entry of the connection is left;
* `mem_tcpDynamicRules_of_unarmed` — an entry whose timer nothing arms is left forever.
-/

/-- The local address and port, and the remote ones. -/
structure Connection where
  laddr : UInt32
  lport : UInt16
  raddr : UInt32
  rport : UInt16
  deriving DecidableEq, Repr

/-- The rule for the packets that are sent on the connection. -/
def Connection.rule (c : Connection) : Fwr :=
  newRule c.raddr c.laddr 0xFFFF 0xFFFF c.rport c.rport c.lport c.lport

/-- The packet, when it is sent, is on the connection. -/
def Skb.On (skb : Skb) (c : Connection) : Prop :=
  ∃ iph ∈ skb.iph, iph.protocol = IPPROTO_TCP ∧
    (⟨iph.saddr, skb.tcph.source, iph.daddr, skb.tcph.dest⟩ : Connection) = c

instance (skb : Skb) (c : Connection) : Decidable (skb.On c) :=
  inferInstanceAs (Decidable (∃ iph ∈ skb.iph, _))

/-- The rule of a connection has its addresses and ports. -/
theorem Connection.rule_inj {c c' : Connection} (h : c.rule = c'.rule) : c = c' := by
  cases c
  cases c'
  simp only [Connection.rule, newRule, Fwr.mk.injEq, Prod.mk.injEq] at h
  simp [h]

/-- A packet with the rule of the connection is on the connection. -/
theorem Skb.on_of_rule {skb : Skb} {iph : Iphdr} {c : Connection} (hiph : skb.iph = some iph)
    (htcp : iph.protocol = IPPROTO_TCP) (hrule : c.rule = dynamicRule .tcp iph skb true) :
    skb.On c :=
  have heq : c.rule = Connection.rule ⟨iph.saddr, skb.tcph.source, iph.daddr, skb.tcph.dest⟩ :=
    hrule
  ⟨iph, hiph, htcp, (Connection.rule_inj heq).symm⟩

/-! ### Ended connections -/

/-- The connection was opened before `s`, where a FIN of it is sent, and nothing more is sent on it
    until `t`, where the timeout has elapsed and no timer is due. -/
structure Ended (hz : Nat) (c : Connection) (es : List Event) (s : State) (fin : Skb)
    (kmalloc : Kmalloc) (es' : List Event) (t : State) : Prop where
  before : run (step hz) .empty es = some s
  opened : ∃ syn kmalloc, Event.packetOut syn kmalloc ∈ es ∧ syn.On c ∧ syn.Opens .tcp
  closes : fin.On c ∧ fin.tcph.fin = true
  after : run (step hz) (myNfHookfnOut hz s fin kmalloc) es' = some t
  silent : ∀ skb kmalloc, Event.packetOut skb kmalloc ∈ es' → ¬ skb.On c
  punctual : EachStep (step hz) Punctual .empty (es ++ .packetOut fin kmalloc :: es')
  settled : Settled t
  elapsed : s.jiffies + timeout hz ≤ t.jiffies

/-- No FIN that is sent after `sent` finds an entry of the connection. -/
def Spares (c : Connection) (sent : Nat) (s : State) : Event → Prop
  | .packetOut skb _ => sent < s.jiffies → ∀ iph ∈ skb.iph, iph.protocol = IPPROTO_TCP →
      skb.Arms .tcp → ∀ ple ∈ searchRule (generateTcpDynamicRule iph skb.tcph true)
        s.tcpDynamicRules, ple.rule ≠ c.rule
  | .packetIn _ | .addRule .. | .tick | .expire _ => True

instance (skb : Skb) : Decidable (skb.Arms .tcp) :=
  inferInstanceAs (Decidable (skb.tcph.fin = true ∧
    ¬ (skb.tcph.syn = true ∧ skb.tcph.ack = false)))

instance (c : Connection) (sent : Nat) (s : State) : (e : Event) → Decidable (Spares c sent s e)
  | .packetOut skb _ =>
    inferInstanceAs (Decidable (sent < s.jiffies → ∀ iph ∈ skb.iph, _ → _ → ∀ ple ∈ _, _))
  | .packetIn _ | .addRule .. | .tick | .expire _ => inferInstanceAs (Decidable True)

/-- The FIN is not a SYN as well; every entry of the connection has a deadline, or is the one that
    the FIN finds; and no later FIN of another connection finds one. -/
structure Retires (hz : Nat) (c : Connection) (s : State) (fin : Skb) (kmalloc : Kmalloc)
    (es' : List Event) : Prop where
  arms : fin.Arms .tcp
  found : ∀ ple ∈ s.tcpDynamicRules, ple.rule = c.rule →
    ple.timer.expires.isSome = true ∨ searchRule c.rule s.tcpDynamicRules = some ple
  spared : EachStep (step hz) (Spares c s.jiffies) (myNfHookfnOut hz s fin kmalloc) es'

/-! ### Deadlines -/

/-- No TCP timer is armed for later than a timeout from now. -/
structure DeadlineInv (hz : Nat) (s : State) : Prop where
  wellFormed : WellFormed s
  near : ∀ ple ∈ s.tcpDynamicRules, ∀ d ∈ ple.timer.expires, d ≤ s.jiffies + timeout hz

variable {hz : Nat} {s s' : State} {e : Event} {c : Connection}

theorem deadlineInv_step (h : DeadlineInv hz s) (hs' : step hz s e = some s') :
    DeadlineInv hz s' := by
  refine ⟨wellFormed_step h.wellFormed hs', ?_⟩
  have hnear := h.near
  cases effect_of_step hs' with
  | same _ | failed _ | static => exact hnear
  | tick => exact fun ple hple d hd => (hnear ple hple d hd).trans (by show _ ≤ _ + 1 + _; omega)
  | @added skb kmalloc rule proto hstems =>
    cases proto with
    | udp => exact hnear
    | tcp => exact List.forall_mem_cons.mpr ⟨nofun, hnear⟩
  | @armedOut skb kmalloc rule proto ple _ hple =>
    cases proto with
    | udp => exact hnear
    | tcp =>
      intro ple' hple' d hd
      rcases mem_modTimer.mp hple' with ⟨hmem, -⟩ | ⟨ple'', -, -, rfl⟩
      · exact hnear ple' hmem d hd
      · exact (Option.mem_some.mp hd).ge
  | armedIn _ => exact hnear
  | @expired ple due proto hple hdue hle hfunction =>
    cases proto with
    | udp => exact hnear
    | tcp => exact fun ple' hple' => hnear ple' (delRule_mem hple')

theorem deadlineInv_empty (hz : Nat) : DeadlineInv hz .empty := ⟨wellFormed_empty, nofun⟩

/-- Every entry of the connection has a deadline, at most `D`. -/
structure ClosingInv (c : Connection) (D : Nat) (s : State) : Prop where
  wellFormed : WellFormed s
  closing : ∀ ple ∈ s.tcpDynamicRules, ple.rule = c.rule → ∃ d, ple.timer.expires = some d ∧ d ≤ D

/-- What a FIN does to the list. -/
theorem myNfHookfnOut_fin {fin : Skb} {iph : Iphdr} (hz : Nat) (s : State) (kmalloc : Kmalloc)
    (hiph : fin.iph = some iph) (htcp : iph.protocol = IPPROTO_TCP) (harms : fin.Arms .tcp) :
    (myNfHookfnOut hz s fin kmalloc).tcpDynamicRules =
      match searchRule (generateTcpDynamicRule iph fin.tcph true) s.tcpDynamicRules with
      | some ple => modTimer ple.rulePtr (s.jiffies + timeout hz) s.tcpDynamicRules
      | none => s.tcpDynamicRules := by
  obtain ⟨hfin, hopens⟩ := harms
  have hsyn : ¬ (fin.tcph.syn = true ∧ fin.tcph.ack = false) := hopens
  rw [myNfHookfnOut, hiph]
  simp only [if_pos htcp, if_neg hsyn, if_pos hfin]
  cases searchRule (generateTcpDynamicRule iph fin.tcph true) s.tcpDynamicRules with
  | some ple => rfl
  | none => rfl

/-- After the FIN every entry of the connection has a deadline. -/
theorem closingInv_fin {fin : Skb} {kmalloc : Kmalloc} (h : DeadlineInv hz s) (hon : fin.On c)
    (harms : fin.Arms .tcp)
    (hfound : ∀ ple ∈ s.tcpDynamicRules, ple.rule = c.rule →
      ple.timer.expires.isSome = true ∨ searchRule c.rule s.tcpDynamicRules = some ple) :
    ClosingInv c (s.jiffies + timeout hz) (myNfHookfnOut hz s fin kmalloc) := by
  refine ⟨wellFormed_effect h.wellFormed (effect_packetOut hz s fin kmalloc), ?_⟩
  obtain ⟨iph, hiph, htcp, rfl⟩ := hon
  have hold : ∀ ple ∈ s.tcpDynamicRules, ple.timer.expires.isSome = true →
      ∃ d, ple.timer.expires = some d ∧ d ≤ s.jiffies + timeout hz := by
    intro ple hple hsome
    obtain ⟨d, hd⟩ := Option.isSome_iff_exists.mp hsome
    exact ⟨d, hd, h.near ple hple d hd⟩
  rw [myNfHookfnOut_fin hz s kmalloc hiph htcp harms]
  split
  next ple hple =>
    intro ple' hple' hrule
    rcases mem_modTimer.mp hple' with ⟨hmem, hptr⟩ | ⟨ple'', -, -, rfl⟩
    · rcases hfound ple' hmem hrule with hsome | hfirst
      · exact hold ple' hmem hsome
      · exact absurd (congrArg RulesList.rulePtr (Option.some.inj (hfirst.symm.trans hple))) hptr
    · exact ⟨_, rfl, le_rfl⟩
  next hnone =>
    intro ple hple hrule
    rcases hfound ple hple hrule with hsome | hfirst
    · exact hold ple hple hsome
    · exact absurd (hfirst.symm.trans hnone) (Option.some_ne_none _)

/-- The event sends nothing on the connection. -/
def Silent (c : Connection) (e : Event) : Prop :=
  ∀ skb kmalloc, e = .packetOut skb kmalloc → ¬ skb.On c

theorem closingInv_step {sent : Nat} (h : ClosingInv c (sent + timeout hz) s)
    (hspares : Spares c sent s e) (hsilent : Silent c e) (hs' : step hz s e = some s') :
    ClosingInv c (sent + timeout hz) s' := by
  refine ⟨wellFormed_step h.wellFormed hs', ?_⟩
  have hclosing := h.closing
  cases effect_of_step hs' with
  | same _ | failed _ | tick | static => exact hclosing
  | @added skb kmalloc rule proto hstems =>
    cases proto with
    | udp => exact hclosing
    | tcp =>
      refine List.forall_mem_cons.mpr ⟨fun (hrule : rule = c.rule) => ?_, hclosing⟩
      obtain ⟨iph, hiph, htcp, -, heq⟩ := hstems
      exact absurd (Skb.on_of_rule hiph htcp (hrule.symm.trans heq)) (hsilent skb kmalloc rfl)
  | @armedOut skb kmalloc rule proto ple harmed hple =>
    cases proto with
    | udp => exact hclosing
    | tcp =>
      obtain ⟨iph, hiph, htcp, harms, rfl⟩ := harmed
      intro ple' hple' hrule
      rcases mem_modTimer.mp hple' with ⟨hmem, -⟩ | ⟨ple'', hmem, hptr, rfl⟩
      · exact hclosing ple' hmem hrule
      · -- The entry is the one found, so the FIN is not later than the one of the connection.
        have hfound : ple'' = ple := h.wellFormed.eq_of_rulePtr
          (mem_entries_of_mem_dynamicRules .tcp hmem)
          (mem_entries_of_mem_dynamicRules .tcp (searchRule_some hple).1) hptr
        refine ⟨_, rfl, ?_⟩
        by_contra hlate
        have hsent : sent < s.jiffies := by
          rw [deadline, ← timeout] at hlate
          omega
        exact hspares hsent iph hiph htcp harms ple hple (hfound ▸ hrule)
  | armedIn _ => exact hclosing
  | @expired ple due proto hple hdue hle hfunction =>
    cases proto with
    | udp => exact hclosing
    | tcp => exact fun ple' hple' => hclosing ple' (delRule_mem hple')

/-- **Pin-holes close.**  Where the FIN of a connection finds the entry that has no deadline, and no
    later FIN of another connection finds an entry of this one, no entry of the connection is left
    when the timeout has elapsed. -/
theorem tcpDynamicRules_closed (hz : Nat) (c : Connection) (es : List Event) (s : State) (fin : Skb)
    (kmalloc : Kmalloc) (es' : List Event) (t : State)
    (hended : Ended hz c es s fin kmalloc es' t) (hretires : Retires hz c s fin kmalloc es') :
    ∀ ple ∈ t.tcpDynamicRules, ple.rule ≠ c.rule := by
  have hdeadline : DeadlineInv hz s :=
    run_invariant (fun _ _ _ h hs' => deadlineInv_step h hs') (deadlineInv_empty hz) hended.before
  have hfin : ClosingInv c (s.jiffies + timeout hz) (myNfHookfnOut hz s fin kmalloc) :=
    closingInv_fin hdeadline hended.closes.1 hretires.arms hretires.found
  have hsilent : EachStep (step hz) (fun _ => Silent c) (myNfHookfnOut hz s fin kmalloc) es' := by
    refine .of_forall_mem (fun e he skb kmalloc' heq => ?_) _
    rw [heq] at he
    exact hended.silent skb kmalloc' he
  have hclosing : ClosingInv c (s.jiffies + timeout hz) t :=
    (always_of_inductive (fun _ _ _ h hC hs' => closingInv_step h hC.1 hC.2 hs') hfin
      (hretires.spared.and hsilent)).last hended.after
  intro ple hple hrule
  obtain ⟨d, hd, hle⟩ := hclosing.closing ple hple hrule
  have hlive := hended.settled ple (mem_entries_of_mem_dynamicRules .tcp hple) d hd
  have helapsed := hended.elapsed
  omega

/-! ### Entries that are left over -/

/-- The event does not arm the timer of the entry. -/
def Unarmed (ple : RulesList) (s : State) : Event → Prop
  | .packetOut skb _ => ∀ iph ∈ skb.iph, iph.protocol = IPPROTO_TCP → skb.Arms .tcp →
      searchRule (generateTcpDynamicRule iph skb.tcph true) s.tcpDynamicRules ≠ some ple
  | .packetIn _ | .addRule .. | .tick | .expire _ => True

/-- An entry without a deadline stays until its timer is armed. -/
theorem mem_tcpDynamicRules_step {ple : RulesList} (h : WellFormed s)
    (hmem : ple ∈ s.tcpDynamicRules) (hexpires : ple.timer.expires = none)
    (hunarmed : Unarmed ple s e) (hs' : step hz s e = some s') : ple ∈ s'.tcpDynamicRules := by
  have hentry : ple ∈ s.entries := mem_entries_of_mem_dynamicRules .tcp hmem
  cases effect_of_step hs' with
  | same _ | failed _ | tick | static => exact hmem
  | @added skb kmalloc rule proto hstems =>
    cases proto with
    | udp => exact hmem
    | tcp => exact List.mem_cons_of_mem _ hmem
  | @armedOut skb kmalloc rule proto ple' harmed hple' =>
    cases proto with
    | udp => exact hmem
    | tcp =>
      obtain ⟨iph, hiph, htcp, harms, rfl⟩ := harmed
      refine mem_modTimer.mpr (Or.inl ⟨hmem, fun hptr => ?_⟩)
      have heq : ple = ple' := h.eq_of_rulePtr hentry
        (mem_entries_of_mem_dynamicRules .tcp (searchRule_some hple').1) hptr
      exact hunarmed iph hiph htcp harms (heq ▸ hple')
  | armedIn _ => exact hmem
  | @expired ple' due proto hple' hdue _ _ =>
    cases proto with
    | udp => exact hmem
    | tcp =>
      refine mem_delRule hmem fun hptr => ?_
      have heq : ple = ple' := h.eq_of_rulePtr hentry (List.mem_of_find?_eq_some hple') hptr
      rw [← heq, hexpires] at hdue
      cases hdue

/-- **Left over.**  An entry whose timer nothing arms stays in the list, however long one waits. -/
theorem mem_tcpDynamicRules_of_unarmed {ple : RulesList} {es : List Event} (h : WellFormed s)
    (hmem : ple ∈ s.tcpDynamicRules) (hexpires : ple.timer.expires = none)
    (hunarmed : EachStep (step hz) (Unarmed ple) s es) (hrun : run (step hz) s es = some s') :
    ple ∈ s'.tcpDynamicRules := by
  have hkept : Always (step hz) (fun s => WellFormed s ∧ ple ∈ s.tcpDynamicRules) s es :=
    always_of_inductive (fun s e s' ⟨hwf, hin⟩ hC hs' => ⟨wellFormed_step hwf hs',
      mem_tcpDynamicRules_step hwf hin hexpires hC hs'⟩) ⟨h, hmem⟩ hunarmed
  exact (hkept.last hrun).2

/-! ### One SYN, and two -/

/-- A segment from host 1, port 1000, to host 2, port 80. -/
def segment (syn fin : Bool) : Skb where
  iph := some { protocol := IPPROTO_TCP, saddr := 1, daddr := 2 }
  tcph := { source := 1000, dest := 80, syn := syn, ack := false, fin := fin }
  udph := { source := 1000, dest := 80 }

/-- The connection of `segment`. -/
def segmentConnection : Connection := ⟨1, 1000, 2, 80⟩

/-- A SYN, a FIN, and the timeout. -/
theorem tcpDynamicRules_closed_one :
    run (step 100) .empty (.packetOut (segment true false) ⟨true, true⟩ ::
        .packetOut (segment false true) ⟨true, true⟩ :: (List.replicate 30 .tick ++ [.expire 0])) =
      some ⟨[], [], [], 30, 1⟩ ∧
    segmentConnection.rule ∉ (⟨[], [], [], 30, 1⟩ : State).tcpDynamicRules.map RulesList.rule := by
  refine ⟨rfl, fun hmem => ?_⟩
  obtain ⟨ple, hple, hrule⟩ := List.mem_map.mp hmem
  refine tcpDynamicRules_closed 100 segmentConnection [.packetOut (segment true false) ⟨true, true⟩]
    ⟨[], [⟨0, segmentConnection.rule, ⟨some .tcp, none⟩⟩], [], 0, 1⟩ (segment false true)
    ⟨true, true⟩ (List.replicate 30 .tick ++ [.expire 0]) ⟨[], [], [], 30, 1⟩ ?_ ?_ ple hple hrule
  · exact {
      before := rfl
      opened := ⟨segment true false, ⟨true, true⟩, List.mem_singleton_self _, by decide, rfl, rfl⟩
      closes := by decide
      after := rfl
      silent := fun skb kmalloc h => by simp at h
      punctual := by decide
      settled := by decide
      elapsed := by decide }
  · exact {
      arms := ⟨rfl, fun h => absurd h.1 (by decide)⟩
      found := by decide
      spared := by decide }

/-- The SYN is sent twice, and adds two entries.  The FIN arms the timer of one of them, and the
    other one stays. -/
theorem not_tcpDynamicRules_closed :
    ¬ ∀ (hz : Nat) (c : Connection) (es : List Event) (s : State) (fin : Skb) (kmalloc : Kmalloc)
      (es' : List Event) (t : State), Ended hz c es s fin kmalloc es' t →
        ∀ ple ∈ t.tcpDynamicRules, ple.rule ≠ c.rule := by
  intro h
  have hleft : (⟨0, segmentConnection.rule, ⟨some .tcp, none⟩⟩ : RulesList) ∈
      (⟨[], [⟨0, segmentConnection.rule, ⟨some .tcp, none⟩⟩], [], 30, 2⟩ : State).tcpDynamicRules :=
    List.mem_singleton_self _
  refine h 100 segmentConnection
    [.packetOut (segment true false) ⟨true, true⟩, .packetOut (segment true false) ⟨true, true⟩]
    ⟨[], [⟨1, segmentConnection.rule, ⟨some .tcp, none⟩⟩,
      ⟨0, segmentConnection.rule, ⟨some .tcp, none⟩⟩], [], 0, 2⟩ (segment false true)
    ⟨true, true⟩ (List.replicate 30 .tick ++ [.expire 1])
    ⟨[], [⟨0, segmentConnection.rule, ⟨some .tcp, none⟩⟩], [], 30, 2⟩ ?_ _ hleft rfl
  exact {
    before := rfl
    opened := ⟨segment true false, ⟨true, true⟩, List.mem_cons_self, by decide, rfl, rfl⟩
    closes := by decide
    after := rfl
    silent := fun skb kmalloc h => by simp at h
    punctual := by decide
    settled := by decide
    elapsed := by decide }

end WorkAtUPB.NetworkFirewall

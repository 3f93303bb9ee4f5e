import WorkAtUPB.NetworkFirewall.Answers

namespace WorkAtUPB.NetworkFirewall

open WorkAtUPB.Run

/-!
# NetworkFirewallLinux — entries and their timers

The timer of an entry is named by the address of its rule, so it matters that no two entries share
one:

* `Settled`, `Punctual` — no timer is due; timers fire before anything else happens;
* `Effect` — what an event can do to the rule lists;
* `WellFormed` — every entry has an address of its own, and the timer of its list;
* `wellFormed_step` — no event breaks this.
-/

/-! ### Time -/

/-- The jiffies from arming a timer to its deadline. -/
def timeout (hz : Nat) : Nat := TIMEOUT * hz / 1000

/-- All entries, in the order in which a timer is looked for. -/
def State.entries (s : State) : List RulesList :=
  s.staticRules ++ s.tcpDynamicRules ++ s.udpDynamicRules

/-- No timer is due. -/
def Settled (s : State) : Prop := ∀ ple ∈ s.entries, ∀ due ∈ ple.timer.expires, s.jiffies < due

instance (s : State) : Decidable (Settled s) :=
  inferInstanceAs (Decidable (∀ ple ∈ s.entries, ∀ due ∈ ple.timer.expires, s.jiffies < due))

/-- Nothing but a timer happens while one is due. -/
def Punctual (s : State) : Event → Prop
  | .expire _ => True
  | .packetOut .. | .packetIn _ | .addRule .. | .tick => Settled s

instance (s : State) : (e : Event) → Decidable (Punctual s e)
  | .expire _ => inferInstanceAs (Decidable True)
  | .packetOut .. | .packetIn _ | .addRule .. | .tick => inferInstanceAs (Decidable (Settled s))

theorem mem_entries {s : State} {ple : RulesList} :
    ple ∈ s.entries ↔ ple ∈ s.staticRules ∨ ∃ proto, ple ∈ s.dynamicRules proto := by
  rw [State.entries, List.mem_append, List.mem_append, or_assoc]
  refine or_congr_right ⟨?_, ?_⟩
  · rintro (h | h)
    · exact ⟨.tcp, h⟩
    · exact ⟨.udp, h⟩
  · rintro ⟨proto, h⟩
    cases proto with
    | tcp => exact Or.inl h
    | udp => exact Or.inr h

theorem mem_entries_of_mem_dynamicRules {s : State} {ple : RulesList} (proto : Proto)
    (h : ple ∈ s.dynamicRules proto) : ple ∈ s.entries :=
  mem_entries.mpr (Or.inr ⟨proto, h⟩)

/-! ### What an event does to the lists -/

/-- The state with other dynamic rules for a protocol. -/
def State.setDynamicRules (s : State) : Proto → List RulesList → State
  | .tcp, list => { s with tcpDynamicRules := list }
  | .udp, list => { s with udpDynamicRules := list }

/-- The entry that `add_rule` makes. -/
def State.newEntry (s : State) (hz : Nat) (rule : Fwr) (proto : Option Proto) : RulesList where
  rulePtr := s.nextPtr
  rule := rule
  timer := setupTimer hz s.jiffies proto

/-- The state after an allocation. -/
def State.allocated (s : State) : State := { s with nextPtr := s.nextPtr + 1 }

/-- The packet arms a timer: for TCP, a FIN that is not a SYN without ACK. -/
def Skb.Arms (skb : Skb) : Proto → Prop
  | .tcp => skb.tcph.fin = true ∧ ¬ skb.Opens .tcp
  | .udp => True

/-- The packet is of the protocol, arms a timer, and the rule is the one for it. -/
def ArmedBy (rule : Fwr) (proto : Proto) (skb : Skb) : Prop :=
  ∃ iph, skb.iph = some iph ∧ iph.protocol = proto.number ∧ skb.Arms proto ∧
    rule = dynamicRule proto iph skb true

/-- An event leaves the lists alone, adds an entry at the head of a list, arms the timer of the
    first entry that matches the rule of a packet, or deletes the entry whose timer is due. -/
inductive Effect (hz : Nat) (s : State) : Event → State → Prop where
  | same {e} : e ≠ .tick → Effect hz s e s
  | failed {e} : e ≠ .tick → Effect hz s e s.allocated
  | tick : Effect hz s .tick { s with jiffies := s.jiffies + 1 }
  | static {rule kmalloc} : Effect hz s (.addRule rule kmalloc)
      { s.allocated with staticRules := s.newEntry hz rule none :: s.staticRules }
  | added {skb kmalloc rule proto} : StemsFrom rule proto skb →
      Effect hz s (.packetOut skb kmalloc) (s.allocated.setDynamicRules proto
        (s.newEntry hz rule (some proto) :: s.dynamicRules proto))
  | armedOut {skb kmalloc rule proto ple} : ArmedBy rule proto skb →
      searchRule rule (s.dynamicRules proto) = some ple →
      Effect hz s (.packetOut skb kmalloc) (s.setDynamicRules proto
        (modTimer ple.rulePtr (deadline hz s.jiffies) (s.dynamicRules proto)))
  | armedIn {skb rule ple} : searchRule rule (s.dynamicRules .udp) = some ple →
      Effect hz s (.packetIn skb) (s.setDynamicRules .udp
        (modTimer ple.rulePtr (deadline hz s.jiffies) (s.dynamicRules .udp)))
  | expired {ple due proto} : s.entries.find? (fun ple' => ple'.rulePtr == ple.rulePtr) = some ple →
      ple.timer.expires = some due → due ≤ s.jiffies → ple.timer.function = some proto →
      Effect hz s (.expire ple.rulePtr) (s.setDynamicRules proto
        (delRule ple.rulePtr (s.dynamicRules proto)))

/-- An entry is added if both allocations succeed. -/
theorem addRule_snd (hz jiffies rulePtr : Nat) (rule : Fwr) (head : List RulesList) (onStack : Bool)
    (proto : Option Proto) (kmalloc : Kmalloc) :
    (addRule hz jiffies rulePtr rule head onStack proto kmalloc).2 = head ∨
      (addRule hz jiffies rulePtr rule head onStack proto kmalloc).2 =
        ⟨rulePtr, rule, setupTimer hz jiffies proto⟩ :: head := by
  unfold addRule
  split
  · exact Or.inl rfl
  split
  · exact Or.inl rfl
  · exact Or.inr rfl

/-- What a packet sent does. -/
theorem effect_packetOut (hz : Nat) (s : State) (skb : Skb) (kmalloc : Kmalloc) :
    Effect hz s (.packetOut skb kmalloc) (myNfHookfnOut hz s skb kmalloc) := by
  rw [myNfHookfnOut]
  split
  next => exact .same Event.noConfusion
  next iph hiph =>
    split
    next htcp =>
      dsimp only
      split
      -- A SYN: the rule is added, unless there is no memory.
      next hsyn =>
        have hstems : StemsFrom (generateTcpDynamicRule iph skb.tcph true) .tcp skb :=
          ⟨iph, hiph, htcp, hsyn, rfl⟩
        rcases addRule_snd hz s.jiffies s.nextPtr (generateTcpDynamicRule iph skb.tcph true)
          s.tcpDynamicRules true (some .tcp) kmalloc with heq | heq
        · rw [heq]
          exact .failed Event.noConfusion
        · rw [heq]
          exact .added hstems
      next hsyn =>
        split
        -- A FIN arms the timer of the rule that is found.
        next hfin =>
          split
          next ple hple =>
            have harmed : ArmedBy (generateTcpDynamicRule iph skb.tcph true) .tcp skb :=
              ⟨iph, hiph, htcp, ⟨hfin, hsyn⟩, rfl⟩
            exact .armedOut harmed hple
          next => exact .same Event.noConfusion
        next => exact .same Event.noConfusion
    next =>
      split
      -- A UDP packet arms the timer of its rule, or adds one with a timer.
      next hudp =>
        dsimp only
        split
        next ple hple =>
          have harmed : ArmedBy (generateUdpDynamicRule iph skb.udph true) .udp skb :=
            ⟨iph, hiph, hudp, trivial, rfl⟩
          exact .armedOut harmed hple
        next =>
          have hstems : StemsFrom (generateUdpDynamicRule iph skb.udph true) .udp skb :=
            ⟨iph, hiph, hudp, trivial, rfl⟩
          rcases addRule_snd hz s.jiffies s.nextPtr (generateUdpDynamicRule iph skb.udph true)
            s.udpDynamicRules true (some .udp) kmalloc with heq | heq
          · rw [heq]
            exact .failed Event.noConfusion
          · rw [heq]
            exact .added hstems
      next => exact .same Event.noConfusion

/-- What a packet received does. -/
theorem effect_packetIn (hz : Nat) (s : State) (skb : Skb) :
    Effect hz s (.packetIn skb) (myNfHookfnIn hz s skb).2 := by
  rw [myNfHookfnIn]
  split
  next => exact .same Event.noConfusion
  next iph hiph =>
    split
    next =>
      dsimp only
      split
      next => exact .same Event.noConfusion
      next =>
        split
        next => exact .same Event.noConfusion
        next => exact .same Event.noConfusion
    next =>
      split
      next =>
        dsimp only
        split
        next => exact .same Event.noConfusion
        next =>
          split
          -- Only the timer of a UDP rule is set by a packet that comes in.
          next ple hple => exact .armedIn hple
          next => exact .same Event.noConfusion
      next => exact .same Event.noConfusion

/-- What a timer does. -/
theorem effect_expire (hz : Nat) {s s' : State} {rulePtr : Nat} (h : expire s rulePtr = some s') :
    Effect hz s (.expire rulePtr) s' := by
  rw [expire] at h
  split at h
  next => cases h
  next ple hple =>
    have hptr : rulePtr = ple.rulePtr :=
      (beq_iff_eq.mp (List.find?_some hple :)).symm
    subst hptr
    split at h
    next => cases h
    next due hdue =>
      split at h
      next hle =>
        split at h
        next hfunction =>
          rw [← Option.some.inj h]
          exact .expired hple hdue hle hfunction
        next hfunction =>
          rw [← Option.some.inj h]
          exact .expired hple hdue hle hfunction
        next =>
          rw [← Option.some.inj h]
          exact .same Event.noConfusion
      next => cases h

theorem effect_of_step {hz : Nat} {s s' : State} {e : Event} (h : step hz s e = some s') :
    Effect hz s e s' := by
  cases e with
  | packetOut skb kmalloc => exact Option.some.inj h ▸ effect_packetOut hz s skb kmalloc
  | packetIn skb => exact Option.some.inj h ▸ effect_packetIn hz s skb
  | addRule rule kmalloc =>
    rw [← Option.some.inj h, fwAddRule]
    rcases addRule_snd hz s.jiffies s.nextPtr rule s.staticRules false none kmalloc with heq | heq
    · rw [heq]
      exact .failed Event.noConfusion
    · rw [heq]
      exact .static
  | tick => exact Option.some.inj h ▸ .tick
  | expire rulePtr => exact effect_expire hz h

/-! ### Every timer has its entry -/

/-- Every entry has an address of its own, given by the allocator before, and its timer is for the
    list it is in; static rules have none. -/
structure WellFormed (s : State) : Prop where
  nodup : (s.entries.map RulesList.rulePtr).Nodup
  given : ∀ ple ∈ s.entries, ple.rulePtr < s.nextPtr
  static : ∀ ple ∈ s.staticRules, ple.timer.function = none
  owner : ∀ proto, ∀ ple ∈ s.dynamicRules proto, ple.timer.function = some proto

theorem wellFormed_empty : WellFormed .empty where
  nodup := List.nodup_nil
  given := nofun
  static := nofun
  owner := fun proto _ h => by cases proto <;> exact absurd h List.not_mem_nil

variable {hz : Nat} {s s' : State} {e : Event} {proto : Proto}

/-- The address of an entry is its own. -/
theorem WellFormed.eq_of_rulePtr (h : WellFormed s) {ple ple' : RulesList} (hple : ple ∈ s.entries)
    (hple' : ple' ∈ s.entries) (heq : ple.rulePtr = ple'.rulePtr) : ple = ple' :=
  List.inj_on_of_nodup_map h.nodup hple hple' heq

/-- An entry with a timer for a list is in that list. -/
theorem WellFormed.mem_dynamicRules (h : WellFormed s) {ple : RulesList} (hple : ple ∈ s.entries)
    (hfunction : ple.timer.function = some proto) : ple ∈ s.dynamicRules proto := by
  rcases mem_entries.mp hple with hstatic | ⟨proto', hdynamic⟩
  · rw [h.static ple hstatic] at hfunction
    cases hfunction
  · have heq : proto' = proto :=
      Option.some.inj ((h.owner proto' ple hdynamic).symm.trans hfunction)
    exact heq ▸ hdynamic

/-! #### Operations on a list -/

@[simp] theorem dynamicRules_setDynamicRules (s : State) (proto : Proto) (list : List RulesList) :
    (s.setDynamicRules proto list).dynamicRules proto = list := by
  cases proto <;> rfl

theorem dynamicRules_setDynamicRules_of_ne (s : State) {proto' : Proto} (hne : proto' ≠ proto)
    (list : List RulesList) :
    (s.setDynamicRules proto list).dynamicRules proto' = s.dynamicRules proto' := by
  cases proto <;> cases proto' <;> first | rfl | exact absurd rfl hne

@[simp] theorem staticRules_setDynamicRules (s : State) (proto : Proto) (list : List RulesList) :
    (s.setDynamicRules proto list).staticRules = s.staticRules := by
  cases proto <;> rfl

@[simp] theorem jiffies_setDynamicRules (s : State) (proto : Proto) (list : List RulesList) :
    (s.setDynamicRules proto list).jiffies = s.jiffies := by
  cases proto <;> rfl

@[simp] theorem nextPtr_setDynamicRules (s : State) (proto : Proto) (list : List RulesList) :
    (s.setDynamicRules proto list).nextPtr = s.nextPtr := by
  cases proto <;> rfl

/-- An entry more in a dynamic list. -/
theorem entries_setDynamicRules_cons (s : State) (proto : Proto) (ple : RulesList) :
    (s.setDynamicRules proto (ple :: s.dynamicRules proto)).entries.Perm (ple :: s.entries) := by
  cases proto with
  | tcp =>
    show (s.staticRules ++ ple :: s.tcpDynamicRules ++ s.udpDynamicRules).Perm
      (ple :: (s.staticRules ++ s.tcpDynamicRules ++ s.udpDynamicRules))
    rw [List.append_assoc, List.append_assoc, List.cons_append]
    exact List.perm_middle
  | udp => exact List.perm_middle

/-- A dynamic list with some of its entries. -/
theorem entries_setDynamicRules_sublist (s : State) (proto : Proto) {list : List RulesList}
    (h : list.Sublist (s.dynamicRules proto)) :
    (s.setDynamicRules proto list).entries.Sublist s.entries := by
  cases proto with
  | tcp => exact ((List.Sublist.refl _).append h).append (List.Sublist.refl _)
  | udp => exact (List.Sublist.refl _).append h

/-- A dynamic list with other timers. -/
theorem rulePtr_setDynamicRules (s : State) (proto : Proto) {list : List RulesList}
    (h : list.map RulesList.rulePtr = (s.dynamicRules proto).map RulesList.rulePtr) :
    (s.setDynamicRules proto list).entries.map RulesList.rulePtr =
      s.entries.map RulesList.rulePtr := by
  cases proto with
  | tcp =>
    show (s.staticRules ++ list ++ s.udpDynamicRules).map _ = _
    rw [List.map_append, List.map_append, h, ← List.map_append, ← List.map_append]
    rfl
  | udp =>
    show (s.staticRules ++ s.tcpDynamicRules ++ list).map _ = _
    rw [List.map_append, h, ← List.map_append]
    rfl

theorem modTimer_map_rulePtr (rulePtr expires : Nat) (head : List RulesList) :
    (modTimer rulePtr expires head).map RulesList.rulePtr = head.map RulesList.rulePtr := by
  rw [modTimer, List.map_map]
  refine List.map_congr_left fun ple _ => ?_
  show (if _ then _ else _ : RulesList).rulePtr = ple.rulePtr
  split <;> rfl

/-- The entries after a timer has been armed. -/
theorem mem_modTimer {rulePtr expires : Nat} {head : List RulesList} {ple : RulesList} :
    ple ∈ modTimer rulePtr expires head ↔
      (ple ∈ head ∧ ple.rulePtr ≠ rulePtr) ∨
        ∃ ple' ∈ head, ple'.rulePtr = rulePtr ∧
          ple = { ple' with timer := { ple'.timer with expires := some expires } } := by
  rw [modTimer, List.mem_map]
  constructor
  · rintro ⟨ple', hmem, rfl⟩
    by_cases hptr : ple'.rulePtr = rulePtr
    · rw [if_pos hptr]
      exact Or.inr ⟨ple', hmem, hptr, rfl⟩
    · rw [if_neg hptr]
      exact Or.inl ⟨hmem, hptr⟩
  · rintro (⟨hmem, hptr⟩ | ⟨ple', hmem, hptr, rfl⟩)
    · exact ⟨ple, hmem, if_neg hptr⟩
    · exact ⟨ple', hmem, if_pos hptr⟩

/-- An entry keeps its list when its timer is armed. -/
theorem modTimer_function {rulePtr expires : Nat} {head : List RulesList} {ple : RulesList}
    (h : ple ∈ modTimer rulePtr expires head) :
    ∃ ple' ∈ head, ple'.timer.function = ple.timer.function := by
  rcases mem_modTimer.mp h with ⟨hmem, -⟩ | ⟨ple', hmem, -, rfl⟩
  · exact ⟨ple, hmem, rfl⟩
  · exact ⟨ple', hmem, rfl⟩

/-- Another entry survives the deletion of one. -/
theorem mem_delRule {rulePtr : Nat} {head : List RulesList} {ple : RulesList} (h : ple ∈ head)
    (hne : ple.rulePtr ≠ rulePtr) : ple ∈ delRule rulePtr head :=
  (List.mem_eraseP_of_neg (by simpa using hne)).mpr h

/-- No entry has the address of one that was deleted. -/
theorem rulePtr_ne_of_mem_delRule {rulePtr : Nat} {head : List RulesList} {ple : RulesList}
    (hnodup : (head.map RulesList.rulePtr).Nodup) (h : ple ∈ delRule rulePtr head) :
    ple.rulePtr ≠ rulePtr := by
  induction head with
  | nil => exact absurd h List.not_mem_nil
  | cons ple' rest ih =>
    obtain ⟨hnotMem, hrest⟩ := List.nodup_cons.mp hnodup
    by_cases hptr : ple'.rulePtr = rulePtr
    · rw [delRule, List.eraseP_cons_of_pos (by simpa using hptr)] at h
      intro heq
      exact hnotMem (List.mem_map.mpr ⟨ple, h, heq.trans hptr.symm⟩)
    · rw [delRule, List.eraseP_cons_of_neg (by simpa using hptr)] at h
      rcases List.mem_cons.mp h with rfl | h
      · exact hptr
      · exact ih hrest h

/-! #### No event breaks it -/

/-- The next address is not that of an entry. -/
theorem WellFormed.nextPtr_notMem (h : WellFormed s) :
    s.nextPtr ∉ s.entries.map RulesList.rulePtr := by
  intro hmem
  obtain ⟨ple, hple, hptr⟩ := List.mem_map.mp hmem
  exact absurd (h.given ple hple) (hptr ▸ lt_irrefl _)

theorem wellFormed_allocated (h : WellFormed s) : WellFormed s.allocated :=
  ⟨h.nodup, fun ple hple => Nat.lt_succ_of_lt (h.given ple hple), h.static, h.owner⟩

/-- The timers of a list that is replaced are for that list, and the others stay. -/
theorem WellFormed.owner_setDynamicRules (h : WellFormed s) {list : List RulesList}
    (hlist : ∀ ple ∈ list, ple.timer.function = some proto) :
    ∀ proto', ∀ ple ∈ (s.setDynamicRules proto list).dynamicRules proto',
      ple.timer.function = some proto' := by
  intro proto' ple hple
  by_cases hproto : proto' = proto
  · subst hproto
    rw [dynamicRules_setDynamicRules] at hple
    exact hlist ple hple
  · rw [dynamicRules_setDynamicRules_of_ne _ hproto] at hple
    exact h.owner proto' ple hple

/-- A new entry in a dynamic list. -/
theorem wellFormed_added (h : WellFormed s) (hz : Nat) (rule : Fwr) (proto : Proto) :
    WellFormed (s.allocated.setDynamicRules proto
      (s.newEntry hz rule (some proto) :: s.dynamicRules proto)) := by
  have hperm := entries_setDynamicRules_cons s.allocated proto (s.newEntry hz rule (some proto))
  exact {
    nodup := (hperm.map _).nodup_iff.mpr (List.nodup_cons.mpr ⟨h.nextPtr_notMem, h.nodup⟩)
    given := fun ple hple => by
      rw [nextPtr_setDynamicRules]
      rcases List.mem_cons.mp (hperm.mem_iff.mp hple) with rfl | hple
      · exact Nat.lt_succ_self _
      · exact Nat.lt_succ_of_lt (h.given ple hple)
    static := fun ple hple => h.static ple (staticRules_setDynamicRules s.allocated proto _ ▸ hple)
    owner := (wellFormed_allocated h).owner_setDynamicRules <| by
      refine List.forall_mem_cons.mpr ⟨?_, h.owner proto⟩
      show (setupTimer hz s.jiffies (some proto)).function = some proto
      cases proto <;> rfl }

/-- The timer of an entry is armed. -/
theorem wellFormed_armed (h : WellFormed s) (proto : Proto) (rulePtr expires : Nat) :
    WellFormed (s.setDynamicRules proto (modTimer rulePtr expires (s.dynamicRules proto))) := by
  have hptr := rulePtr_setDynamicRules s proto
    (modTimer_map_rulePtr rulePtr expires (s.dynamicRules proto))
  exact {
    nodup := hptr ▸ h.nodup
    given := fun ple hple => by
      have hmem := hptr ▸ List.mem_map_of_mem (f := RulesList.rulePtr) hple
      obtain ⟨ple', hple', heq⟩ := List.mem_map.mp hmem
      rw [nextPtr_setDynamicRules, ← heq]
      exact h.given ple' hple'
    static := fun ple hple => h.static ple (staticRules_setDynamicRules s proto _ ▸ hple)
    owner := h.owner_setDynamicRules fun ple hple => by
      obtain ⟨ple', hple', heq⟩ := modTimer_function hple
      exact heq ▸ h.owner proto ple' hple' }

/-- An entry is deleted. -/
theorem wellFormed_deleted (h : WellFormed s) (proto : Proto) (rulePtr : Nat) :
    WellFormed (s.setDynamicRules proto (delRule rulePtr (s.dynamicRules proto))) := by
  have hsublist := entries_setDynamicRules_sublist s proto
    (List.eraseP_sublist (p := fun ple => ple.rulePtr == rulePtr) (l := s.dynamicRules proto))
  exact {
    nodup := h.nodup.sublist (hsublist.map _)
    given := fun ple hple => by
      rw [nextPtr_setDynamicRules]
      exact h.given ple (hsublist.mem hple)
    static := fun ple hple => h.static ple (staticRules_setDynamicRules s proto _ ▸ hple)
    owner := h.owner_setDynamicRules fun ple hple => h.owner proto ple (delRule_mem hple) }

theorem wellFormed_effect (h : WellFormed s) (he : Effect hz s e s') : WellFormed s' := by
  cases he with
  | same _ => exact h
  | failed _ => exact wellFormed_allocated h
  | tick => exact ⟨h.nodup, h.given, h.static, h.owner⟩
  | static =>
    refine ⟨List.nodup_cons.mpr ⟨h.nextPtr_notMem, h.nodup⟩, fun ple hple => ?_,
      fun ple hple => ?_, h.owner⟩
    · rcases List.mem_cons.mp hple with rfl | hple
      · exact Nat.lt_succ_self _
      · exact Nat.lt_succ_of_lt (h.given ple hple)
    · rcases List.mem_cons.mp hple with rfl | hple
      · rfl
      · exact h.static ple hple
  | added _ => exact wellFormed_added h hz _ _
  | armedOut _ _ => exact wellFormed_armed h _ _ _
  | armedIn _ => exact wellFormed_armed h _ _ _
  | expired _ _ _ _ => exact wellFormed_deleted h _ _

/-- Only a tick takes time. -/
theorem jiffies_effect (he : Effect hz s e s') (htick : e ≠ .tick) : s'.jiffies = s.jiffies := by
  cases he with
  | same _ | failed _ | static => rfl
  | tick => exact absurd rfl htick
  | added _ => exact jiffies_setDynamicRules s.allocated _ _
  | armedOut _ _ | armedIn _ | expired _ _ _ _ => exact jiffies_setDynamicRules s _ _

/-- **Every timer has its entry**, whatever happens. -/
theorem wellFormed_step (h : WellFormed s) (hs' : step hz s e = some s') : WellFormed s' :=
  wellFormed_effect h (effect_of_step hs')

end WorkAtUPB.NetworkFirewall

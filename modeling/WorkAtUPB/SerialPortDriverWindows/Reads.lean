import WorkAtUPB.SerialPortDriverWindows.Device

namespace WorkAtUPB.SerialPortDriverWindows

open Bytes Run Flags Baton

/-!
# SerialPortDriverWindows — reading (`UartRead`)

What is in `read_buffer` belongs to whoever is in turn: the receive interrupt, which finds the
buffer empty, the event, or the one thread past the wait.

* `Owes` — what a thread has still to deliver at each of its places;
* `Delivering` — what has arrived is what was delivered, what is owed and what waits in the port;
* `uartRead_delivers` — in a run with care every byte is delivered once and in order, and a request
  can always go on.
-/

namespace Device

variable {ι : Type*} [DecidableEq ι] {d d' : Device ι} {i : ι}

/-! ### What is owed -/

omit [DecidableEq ι] in
/-- Besides what was delivered and what waits in the port, `bytes` have arrived. -/
def Between (d : Device ι) (bytes : List UInt8) : Prop :=
  d.arrived = d.delivered.flatten ++ bytes ++ d.port

/-- What a thread in `UartRead` has still to deliver. -/
def Owes (d : Device ι) : UartRead → Prop
  | .idle | .waiting _ => True
  | .woken _ => d.Between (readBytes d.buffers 0 d.read)
  | .copying _ result => result = d.read ∧ d.Between (readBytes d.buffers 0 d.read)
  | .copied _ bytes => d.Between bytes
  | .completing _ bytes => d.read = 0 ∧ d.Between bytes
  | .enabling | .storing _ => d.read = 0 ∧ d.Between []

/-- What is owed by whoever is in turn. -/
def OwedAt (d : Device ι) : Place ι → Prop
  | .interrupt => d.read = 0 ∧ d.Between []
  | .event => d.Between (readBytes d.buffers 0 d.read)
  | .thread i => d.Owes (d.uartRead i)

/-- Whoever is in turn owes what was not delivered. -/
structure Delivering (d : Device ι) : Prop where
  orderly : Orderly d
  owed : ∀ p, d.reads.At p → d.OwedAt p

omit [DecidableEq ι] in
/-- It is enough to look at one place that is in turn. -/
theorem delivering_of_at (h : Orderly d) {p : Place ι} (hp : d.reads.At p) (howed : d.OwedAt p) :
    Delivering d :=
  ⟨h, fun _ hq => h.reads.eq hp hq ▸ howed⟩

omit [DecidableEq ι] in
/-- Nothing is owed at first. -/
theorem delivering_doRequests : Delivering (doRequests : Device ι) := by
  have henabled : test (IER_THREI ||| IER_RDAI) IER_RDAI = true := by decide
  refine delivering_of_at orderly_doRequests (p := .interrupt) ?_ ⟨rfl, rfl⟩
  simp only [Relay.At, reads, doRequests, henabled]

/-! ### The steps -/

omit [DecidableEq ι] in
/-- Nobody's turn ends, and nothing of what is read changes. -/
theorem Delivering.congr (h : Delivering d) (horderly : Orderly d')
    (hreads : ∀ p, d.reads.At p → d'.reads.At p)
    (howed : ∀ p, d.reads.At p → d.OwedAt p → d'.OwedAt p) : Delivering d' := by
  obtain ⟨p, hp, -⟩ := id h.orderly.reads
  exact delivering_of_at horderly (hreads p hp) (howed p hp (h.owed p hp))

omit [DecidableEq ι] in
/-- The same is owed as long as the bytes in the buffer are the same. -/
theorem OwedAt.congr {p : Place ι} (h : d.OwedAt p) (huart : d'.uartRead = d.uartRead)
    (hread : d'.read = d.read)
    (hbytes : readBytes d'.buffers 0 d'.read = readBytes d.buffers 0 d.read)
    (hbetween : ∀ {bytes}, d.Between bytes → d'.Between bytes) : d'.OwedAt p := by
  cases p with
  | interrupt => exact ⟨hread.trans h.1, hbetween h.2⟩
  | event =>
    rw [OwedAt, hbytes]
    exact hbetween h
  | thread i =>
    have howes : d.Owes (d.uartRead i) := h
    rw [OwedAt, huart]
    cases hplace : d.uartRead i with
    | idle | waiting => trivial
    | woken =>
      rw [hplace] at howes
      rw [Owes, hbytes]
      exact hbetween howes
    | copying =>
      rw [hplace] at howes
      rw [Owes, hbytes, hread]
      exact ⟨howes.1, hbetween howes.2⟩
    | copied =>
      rw [hplace] at howes
      exact hbetween howes
    | completing | enabling | storing =>
      rw [hplace] at howes
      exact ⟨hread.trans howes.1, hbetween howes.2⟩

omit [DecidableEq ι] in
/-- A byte that arrives waits in the port. -/
theorem Delivering.arrive (h : Delivering d) (c : UInt8) :
    Delivering { d with port := d.port ++ [c], arrived := d.arrived ++ [c] } := by
  refine h.congr ⟨h.orderly.reads, h.orderly.writes, h.orderly.room, h.orderly.within⟩
    (fun _ hp => hp) fun p _ howed => howed.congr rfl rfl rfl fun {bytes} hbetween => ?_
  show d.arrived ++ [c] = d.delivered.flatten ++ bytes ++ (d.port ++ [c])
  rw [hbetween, List.append_assoc _ d.port]

omit [DecidableEq ι] in
/-- The receive interrupt finds the buffer empty. -/
theorem Delivering.received (h : Delivering d) (henabled : test d.ier IER_RDAI = true)
    (horderly : Orderly d.received) : Delivering d.received := by
  obtain ⟨hread, hbetween⟩ : d.OwedAt .interrupt := h.owed .interrupt henabled
  refine delivering_of_at horderly (p := .event) rfl ?_
  show d.arrived = d.delivered.flatten ++
    readBytes (writeBytes d.buffers d.read d.port) 0 (d.read + d.port.length) ++ []
  rw [hread, Nat.zero_add, readBytes_writeBytes_self, List.append_nil, hbetween, List.append_nil]

omit [DecidableEq ι] in
/-- The transmit interrupt leaves what was read. -/
theorem Delivering.transmitted (h : Delivering d) (horderly : Orderly d.transmitted) :
    Delivering d.transmitted := by
  refine h.congr horderly (fun p hp => ?_) fun p _ howed => ?_
  · cases p with
    | interrupt => exact (test_rdai_clear d.ier).trans hp
    | event | thread => exact hp
  · cases p with
    | interrupt | event | thread => exact howed

omit [DecidableEq ι] in
/-- The handler keeps what is owed, in both of its branches. -/
theorem Delivering.uartInterruptHandler (h : Delivering d) {iir : BitVec 8}
    (hraised : d.Raised iir) (hroom : iirRdai iir ≠ 0 → d.read + d.port.length ≤ bufferSize) :
    Delivering (d.uartInterruptHandler iir) := by
  have hall := (orderly_uartInterruptHandler_iff h.orderly hraised).mpr hroom
  -- After the first branch, whether it is taken or not.
  have hfirst : Delivering (if iirRdai iir ≠ 0 then d.received else d) := by
    split
    next hrdai =>
      have henabled := (hraised.1 hrdai).1
      exact h.received henabled ((orderly_received h.orderly henabled).mpr (hroom hrdai))
    next => exact h
  rw [Device.uartInterruptHandler] at hall ⊢
  by_cases hthrei : iirThrei iir ≠ 0
  · simp only [if_pos hthrei] at hall ⊢
    exact hfirst.transmitted hall
  · simp only [if_neg hthrei]
    exact hfirst

/-- A thread that is not past the wait goes on before it. -/
theorem Delivering.setRead (h : Delivering d) {p : UartRead}
    (hidle : (d.uartRead i).working = false) (hworking : p.working = false)
    (horderly : Orderly (d.setRead i p)) : Delivering (d.setRead i p) := by
  refine h.congr horderly (fun q hq => ?_) fun q hq howed => ?_
  · rw [reads_setRead, hworking]
    have hsame := setWorking_self d.reads i
    rw [show d.reads.working i = false from hidle] at hsame
    rwa [hsame]
  · cases q with
    | interrupt | event => exact howed
    | thread j =>
      have hj : j ≠ i := fun heq => by
        rw [heq] at hq
        exact Bool.noConfusion (hidle.symm.trans hq)
      show Owes d (Function.update d.uartRead i p j)
      rw [Function.update_of_ne hj]
      exact howed

/-- The thread in turn goes on. -/
theorem delivering_setRead {p : UartRead} (horderly : Orderly (d.setRead i p))
    (hworking : p.working = true) (howes : d.Owes p) : Delivering (d.setRead i p) := by
  refine delivering_of_at horderly (p := .thread i) ?_ ?_
  · show (Function.update d.uartRead i p i).working = true
    rw [Function.update_self]
    exact hworking
  · show d.Owes (Function.update d.uartRead i p i)
    rw [Function.update_self]
    exact howes

/-- A step of `UartRead` keeps what is owed. -/
theorem Delivering.readStep (h : Delivering d) (hd' : d.readStep i = some d')
    (horderly : Orderly d') : Delivering d' := by
  have howes : (d.uartRead i).working = true → d.Owes (d.uartRead i) := h.owed (.thread i)
  rw [Device.readStep] at hd'
  cases hplace : d.uartRead i with
  | idle =>
    rw [hplace] at hd'
    cases hd'
  -- The thread takes over what the event was to deliver.
  | waiting length =>
    rw [hplace] at hd'
    obtain ⟨hevent, hd'⟩ := Option.ite_none_right_eq_some.mp hd'
    obtain rfl := Option.some.inj hd'
    exact delivering_setRead horderly rfl (h.owed .event hevent)
  | woken length =>
    rw [hplace] at hd' howes
    obtain rfl := Option.some.inj hd'
    exact delivering_setRead horderly rfl ⟨rfl, howes rfl⟩
  | copying length result =>
    rw [hplace] at hd' howes
    obtain rfl := Option.some.inj hd'
    obtain ⟨rfl, hbetween⟩ := howes rfl
    exact delivering_setRead horderly rfl hbetween
  | copied length bytes =>
    rw [hplace] at hd' howes
    obtain rfl := Option.some.inj hd'
    exact delivering_setRead horderly rfl ⟨rfl, howes rfl⟩
  -- What the request gets is added to what was delivered.
  | completing length bytes =>
    rw [hplace] at hd' howes
    obtain rfl := Option.some.inj hd'
    obtain ⟨hread, hbetween⟩ := howes rfl
    refine delivering_setRead horderly rfl ⟨hread, ?_⟩
    show d.arrived = (d.delivered ++ [bytes]).flatten ++ [] ++ d.port
    rw [List.flatten_concat, List.append_nil]
    exact hbetween
  | enabling =>
    rw [hplace] at hd' howes
    obtain rfl := Option.some.inj hd'
    exact delivering_setRead horderly rfl (howes rfl)
  -- The interrupt is enabled again, and owes what is in the port.
  | storing ier =>
    rw [hplace] at hd' howes
    obtain rfl := Option.some.inj hd'
    exact delivering_of_at horderly (p := .interrupt) (test_set ier (by decide)) (howes rfl)

/-! #### Writing -/

/-- A thread goes on in `UartWrite`, and nothing that is read changes. -/
theorem Delivering.setWrite (h : Delivering d) {p : UartWrite} {e : Device ι}
    (horderly : Orderly (e.setWrite i p)) (hreads : e.reads = d.reads)
    (howed : ∀ q, d.OwedAt q → e.OwedAt q) : Delivering (e.setWrite i p) := by
  refine h.congr horderly (fun q hq => ?_) fun q _ hq => howed q hq
  show e.reads.At q
  rw [hreads]
  exact hq

omit [DecidableEq ι] in
/-- A byte that is put into `write_buffer` is behind those that are read. -/
theorem readBytes_update_writeBuffer (h : Orderly d) (k : Nat) (c : UInt8) :
    readBytes (Function.update d.buffers (bufferSize + k) c) 0 d.read =
      readBytes d.buffers 0 d.read := by
  refine List.map_congr_left fun j hj => Function.update_of_ne ?_ _ _
  have hj' : j < d.read := List.mem_range.mp hj
  have hroom := h.room
  omega

/-- A careful step of `UartWrite` leaves what was read. -/
theorem Delivering.writeStep (h : Delivering d) (hcareful : Careful d (.writeStep i))
    (hd' : d.writeStep i = some d') (horderly : Orderly d') : Delivering d' := by
  rw [Device.writeStep] at hd'
  cases hplace : d.uartWrite i with
  | idle =>
    rw [hplace] at hd'
    cases hd'
  | copying data copied =>
    rw [hplace] at hd'
    cases hc : data[copied]? with
    -- The other buffer is written.
    | some c =>
      simp only [hc] at hd'
      obtain rfl := Option.some.inj hd'
      exact h.setWrite horderly rfl fun q hq =>
        hq.congr rfl rfl (readBytes_update_writeBuffer h.orderly copied c) id
    | none =>
      simp only [hc] at hd'
      obtain ⟨-, hd'⟩ := Option.ite_none_right_eq_some.mp hd'
      obtain rfl := Option.some.inj hd'
      exact h.setWrite horderly rfl fun q hq => hq.congr rfl rfl rfl id
  | completing data =>
    rw [hplace] at hd'
    obtain rfl := Option.some.inj hd'
    exact h.setWrite horderly rfl fun q hq => hq.congr rfl rfl rfl id
  | enabling =>
    rw [hplace] at hd'
    obtain rfl := Option.some.inj hd'
    exact h.setWrite horderly rfl fun q hq => hq
  -- With care the receive interrupt stays enabled or disabled.
  | storing ier =>
    rw [hplace] at hd'
    obtain rfl := Option.some.inj hd'
    rw [Careful, hplace, CarefulWrite] at hcareful
    refine h.setWrite horderly ?_ fun q hq => hq.congr rfl rfl rfl id
    simp only [reads, test_rdai_set, hcareful]

/-! ### Runs -/

/-- **Step.**  Every careful action keeps what is owed. -/
theorem delivering_step {a : Action ι} (h : Delivering d) (hcareful : Careful d a)
    (hd' : step d a = some d') : Delivering d' := by
  have horderly : Orderly d' := (orderly_step_iff h.orderly hd').mpr hcareful
  cases a with
  | arrive c =>
    obtain rfl := Option.some.inj hd'
    exact h.arrive c
  | uartInterruptHandler iir =>
    obtain ⟨hraised, hd'⟩ := Option.ite_none_right_eq_some.mp hd'
    obtain rfl := Option.some.inj hd'
    exact h.uartInterruptHandler hraised (hcareful hraised)
  | startRead i length =>
    obtain ⟨hidle, hd'⟩ := Option.ite_none_right_eq_some.mp hd'
    obtain rfl := Option.some.inj hd'
    exact h.setRead (by rw [hidle]; rfl) rfl horderly
  | readStep i => exact h.readStep hd' horderly
  | alertRead i =>
    rw [step] at hd'
    split at hd'
    next length hplace =>
      obtain rfl := Option.some.inj hd'
      exact h.setRead (by rw [hplace]; rfl) rfl horderly
    next => cases hd'
  | startWrite i systemBuffer =>
    obtain ⟨-, hd'⟩ := Option.ite_none_right_eq_some.mp hd'
    obtain rfl := Option.some.inj hd'
    exact h.setWrite horderly rfl fun q hq => hq.congr rfl rfl rfl id
  | writeStep i => exact h.writeStep hcareful hd' horderly
  | alertWrite i =>
    rw [step] at hd'
    split at hd'
    next data copied hplace =>
      -- An alert of a wait is not careful.
      obtain ⟨hcopied, -⟩ := Option.ite_none_right_eq_some.mp hd'
      rw [Careful, hplace] at hcareful
      exact absurd hcopied hcareful
    next => cases hd'

/-- A thread past the wait can go on. -/
theorem readStep_of_working (h : (d.uartRead i).working = true) : ∃ d', d.readStep i = some d' := by
  rw [Device.readStep]
  cases hplace : d.uartRead i with
  | idle | waiting =>
    rw [hplace] at h
    exact Bool.noConfusion h
  | woken | copying | copied | completing | enabling | storing => exact ⟨_, rfl⟩

omit [DecidableEq ι] in
/-- Whoever is in turn, what has been delivered is the beginning of what has arrived. -/
theorem Delivering.inOrder (h : Delivering d) : d.delivered.flatten <+: d.arrived := by
  have hbetween : ∃ bytes, d.Between bytes := by
    obtain ⟨p, hp, -⟩ := id h.orderly.reads
    have howed := h.owed p hp
    cases p with
    | interrupt => exact ⟨_, howed.2⟩
    | event => exact ⟨_, howed⟩
    | thread i =>
      have howes : d.Owes (d.uartRead i) := howed
      have hworking : (d.uartRead i).working = true := hp
      cases hplace : d.uartRead i with
      | idle | waiting =>
        rw [hplace] at hworking
        exact Bool.noConfusion hworking
      | woken | copied =>
        rw [hplace] at howes
        exact ⟨_, howes⟩
      | copying | completing | enabling | storing =>
        rw [hplace] at howes
        exact ⟨_, howes.2⟩
  obtain ⟨bytes, hbytes⟩ := hbetween
  exact ⟨bytes ++ d.port, by rw [hbytes, List.append_assoc]⟩

/-- A request can go on, or the receive interrupt comes, while bytes have not been delivered. -/
theorem Delivering.goes_on (h : Delivering d) (hbusy : d.uartRead i ≠ .idle)
    (hleft : d.delivered.flatten ≠ d.arrived) :
    (∃ d', step d (.uartInterruptHandler 0x04) = some d') ∨
      ∃ j d', step d (.readStep j) = some d' := by
  obtain ⟨p, hp, -⟩ := id h.orderly.reads
  cases p with
  | interrupt =>
    left
    obtain ⟨-, hbetween⟩ : d.OwedAt .interrupt := h.owed .interrupt hp
    have hport : d.port ≠ [] := by
      intro hnil
      rw [Between, hnil, List.append_nil, List.append_nil] at hbetween
      exact hleft hbetween.symm
    have hthrei : ¬ iirThrei 0x04 ≠ 0 := by decide
    have hraised : d.Raised 0x04 := ⟨fun _ => ⟨hp, hport⟩, fun hne => absurd hne hthrei⟩
    exact ⟨_, if_pos hraised⟩
  | event =>
    right
    by_cases hworking : (d.uartRead i).working = true
    · -- The event and the thread would both be in turn.
      exact nomatch h.orderly.reads.eq (p := .event) (q := .thread i) hp hworking
    · refine ⟨i, ?_⟩
      cases hplace : d.uartRead i with
      | idle => exact absurd hplace hbusy
      | waiting length =>
        refine ⟨{ d with eventReads := false }.setRead i (.woken length), ?_⟩
        rw [step, Device.readStep, hplace]
        exact if_pos hp
      | woken | copying | copied | completing | enabling | storing =>
        rw [hplace] at hworking
        exact absurd rfl hworking
  | thread j => exact Or.inr ⟨j, readStep_of_working hp⟩

/-- **Reads, once and in order.**  In a run with care, what the requests have got is the beginning
    of what has arrived; when the receive interrupt is enabled, the rest waits in the port; and as
    long as a request is at work and bytes have not been delivered, the interrupt comes or a request
    can go on. -/
theorem uartRead_delivers {as : List (Action ι)} (h : EachStep step Careful doRequests as)
    (hrun : run step doRequests as = some d) :
    d.delivered.flatten <+: d.arrived ∧
    (test d.ier IER_RDAI = true → d.arrived = d.delivered.flatten ++ d.port) ∧
    ∀ i, d.uartRead i ≠ .idle → d.delivered.flatten ≠ d.arrived →
      (∃ d', step d (.uartInterruptHandler 0x04) = some d') ∨
        ∃ j d', step d (.readStep j) = some d' := by
  have hd : Delivering d :=
    (always_of_inductive (fun _ _ _ h hcareful hd' => delivering_step h hcareful hd')
      delivering_doRequests h).last hrun
  refine ⟨hd.inOrder, fun henabled => ?_, fun i => hd.goes_on⟩
  obtain ⟨-, hbetween⟩ : d.OwedAt .interrupt := hd.owed .interrupt henabled
  rw [hbetween, List.append_nil]

/-- Two bytes come for two requests, and a third byte before the interrupt is enabled again. -/
theorem uartRead_delivers_two : ∃ d : Device Bool,
    run step doRequests [.startRead false 4, .startRead true 4, .arrive 7, .arrive 8,
      .uartInterruptHandler 0xc4, .readStep true, .readStep true, .readStep true, .arrive 9,
      .readStep true, .readStep true, .readStep true, .readStep true] = some d ∧
      d.delivered.flatten <+: d.arrived ∧
      (test d.ier IER_RDAI = true → d.arrived = d.delivered.flatten ++ d.port) := by
  obtain ⟨d, hd⟩ : ∃ d : Device Bool,
      run step doRequests [.startRead false 4, .startRead true 4, .arrive 7, .arrive 8,
        .uartInterruptHandler 0xc4, .readStep true, .readStep true, .readStep true, .arrive 9,
        .readStep true, .readStep true, .readStep true, .readStep true] = some d := ⟨_, rfl⟩
  obtain ⟨hbegins, hrest, -⟩ := uartRead_delivers (by decide) hd
  exact ⟨d, hd, hbegins, hrest⟩

end Device

end WorkAtUPB.SerialPortDriverWindows

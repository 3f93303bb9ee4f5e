import WorkAtUPB.Lib.Run
import WorkAtUPB.FaultTolerantService.Worker

namespace WorkAtUPB.FaultTolerantService

open Run

/-!
# FaultTolerantService — the messages between a master and a slave (`operations.cpp`, `worker.cpp`)

`main_loop` takes the reply of a slave as one step.  Here it is the messages that it is made of, in
the communicator of one slave, with master and slave taking their steps in any order:

* `Comm`, `Slave`, `Master`, `Session` — the messages on their way and both ends;
* `step` — a send or a receive of one of them, a time-out, a new slave for a dead one;
* `Working`, `Place` — what is on its way, for every place of the two ends;
* `session_replies` — what the master reads as the reply is always the reply to the task that it
  has sent last, and nothing is left over.

A message to an `MPI_Recv` that is too small for it is `none`, and so is a payload that does not fit
into `task_buffer`, into which both ends write it before they send it.
-/

/-! ### Both ends -/

/-- The messages of a communicator by direction and tag, the oldest first. -/
structure Comm where
  toSlave1 : List (List Int)
  toSlave2 : List (List Int)
  toMaster1 : List (List Int)
  toMaster2 : List (List Int)
  deriving DecidableEq, Repr

/-- A new communicator. -/
def Comm.new : Comm := ⟨[], [], [], []⟩

/-- Where a slave is: it waits for a header with tag 2, is in `receive_task` or in `send_task`, or
    has left its loop. -/
inductive Slave where
  | waitAlive
  | recvHeader
  | recvSize
  | recvData (size : Int)
  | sendHeader (reply : List Int)
  | sendSize (reply : List Int)
  | sendData (reply : List Int)
  | exited
  deriving DecidableEq, Repr

/-- Where the master is with a slave: it has no task there, is in `send_task`, has sent the task,
    is in `is_process_alive` or in the three `MPI_Recv` behind it, or has sent the last header. -/
inductive Master where
  | free
  | sendHeader (task : Task)
  | sendSize (task : Task)
  | sendData (task : Task)
  | sent (task : Task)
  | isProcessAlive (task : Task)
  | recvHeader (task : Task)
  | recvSize (task : Task)
  | recvData (task : Task) (size : Int)
  | quit
  deriving DecidableEq, Repr

/-- Both ends, the tasks that the slave was to solve, and what has become of them: the payloads read
    as replies, and the tasks that went back into the queue. -/
structure Session where
  master : Master
  slave : Slave
  comm : Comm
  tasks : List Task
  replies : List (Task × List Int)
  failed : List Task

/-- A new slave. -/
def Session.new : Session := ⟨.free, .waitAlive, .new, [], [], []⟩

/-! ### The steps -/

/-- What happens next: a task for the slave, the header of `is_process_alive`, its time-out, that
    of the slave, `send_quit_to_slaves`, or the next send or receive of one end. -/
inductive Event where
  | task (task : Task)
  | ping (header : Int)
  | timeout
  | slaveTimeout
  | quit
  | master
  | slave
  deriving DecidableEq, Repr

/-- A send or a receive of the master. -/
def Session.masterStep (s : Session) : Option Session :=
  match s.master with
  | .sendHeader task =>
    some { s with
      master := .sendSize task
      comm := { s.comm with toSlave1 := s.comm.toSlave1 ++ [[0]] } }
  | .sendSize task =>
    some { s with
      master := .sendData task
      comm := { s.comm with toSlave1 := s.comm.toSlave1 ++ [[((writeTask task).length : Int)]] } }
  | .sendData task =>
    some { s with
      master := .sent task
      comm := { s.comm with toSlave1 := s.comm.toSlave1 ++ [writeTask task] } }
  | .isProcessAlive task =>
    match s.comm.toMaster2 with
    | [_] :: rest =>
      some { s with master := .recvHeader task, comm := { s.comm with toMaster2 := rest } }
    | _ => none
  | .recvHeader task =>
    match s.comm.toMaster1 with
    -- The header is not looked at.
    | [_] :: rest =>
      some { s with master := .recvSize task, comm := { s.comm with toMaster1 := rest } }
    | _ => none
  | .recvSize task =>
    match s.comm.toMaster1 with
    | [size] :: rest =>
      some { s with master := .recvData task size, comm := { s.comm with toMaster1 := rest } }
    | _ => none
  | .recvData task size =>
    match s.comm.toMaster1 with
    | payload :: rest =>
      if payload.length ≤ size.toNat then
        some { s with
          master := .free
          comm := { s.comm with toMaster1 := rest }
          replies := s.replies ++ [(task, payload)] }
      else none
    | _ => none
  | _ => none

/-- A send or a receive of the slave. -/
def Session.slaveStep (s : Session) : Option Session :=
  match s.slave with
  | .waitAlive =>
    match s.comm.toSlave2 with
    | [header] :: rest =>
      if header ≠ 0 then
        some { s with slave := .exited, comm := { s.comm with toSlave2 := rest } }
      else
        some { s with
          slave := .recvHeader
          comm := { s.comm with
            toSlave2 := rest, toMaster2 := s.comm.toMaster2 ++ [[header]] } }
    | _ => none
  | .recvHeader =>
    match s.comm.toSlave1 with
    | [header] :: rest =>
      -- `receive_task` gives no task for another header, and the slave leaves its loop.
      some { s with
        slave := if header ≠ 0 then .exited else .recvSize
        comm := { s.comm with toSlave1 := rest } }
    | _ => none
  | .recvSize =>
    match s.comm.toSlave1 with
    | [size] :: rest =>
      some { s with slave := .recvData size, comm := { s.comm with toSlave1 := rest } }
    | _ => none
  | .recvData size =>
    match s.comm.toSlave1 with
    | payload :: rest =>
      if payload.length ≤ size.toNat then
        (worker payload).bind fun reply =>
          if reply.length ≤ MAX_PACKET_SIZE then
            some { s with slave := .sendHeader reply, comm := { s.comm with toSlave1 := rest } }
          else none
      else none
    | _ => none
  | .sendHeader reply =>
    some { s with
      slave := .sendSize reply
      comm := { s.comm with toMaster1 := s.comm.toMaster1 ++ [[0]] } }
  | .sendSize reply =>
    some { s with
      slave := .sendData reply
      comm := { s.comm with toMaster1 := s.comm.toMaster1 ++ [[(reply.length : Int)]] } }
  | .sendData reply =>
    some { s with
      slave := .waitAlive
      comm := { s.comm with toMaster1 := s.comm.toMaster1 ++ [reply] } }
  | .exited => none

/-- One step. -/
def sessionStep (s : Session) : Event → Option Session
  | .task task =>
    if s.master = .free ∧ (writeTask task).length ≤ MAX_PACKET_SIZE then
      some { s with master := .sendHeader task, tasks := s.tasks ++ [task] }
    else none
  | .ping header =>
    match s.master with
    | .sent task =>
      some { s with
        master := .isProcessAlive task
        comm := { s.comm with toSlave2 := s.comm.toSlave2 ++ [[header]] } }
    | _ => none
  | .timeout =>
    match s.master with
    -- `MPI_Comm_spawn` and `set_task_failed`: the old communicator is not used any more.
    | .isProcessAlive task =>
      some { s with
        master := .free, slave := .waitAlive, comm := .new, failed := s.failed ++ [task] }
    | _ => none
  | .slaveTimeout => if s.slave = .waitAlive then some { s with slave := .exited } else none
  | .quit =>
    if s.master = .free then
      some { s with
        master := .quit
        comm := { s.comm with toSlave2 := s.comm.toSlave2 ++ [[1]] } }
    else none
  | .master => s.masterStep
  | .slave => s.slaveStep

/-! ### What is on its way -/

/-- The messages of a task or of a reply. -/
def packet (payload : List Int) : List (List Int) := [[0], [(payload.length : Int)], payload]

/-- A slave that has said that it is alive and works on `payload`, to which `reply` is the reply:
    the messages that it has not received yet, and those that it has sent so far. -/
inductive Working (payload reply : List Int) :
    Slave → List (List Int) → List (List Int) → Prop where
  | recvHeader : Working payload reply .recvHeader (packet payload) []
  | recvSize : Working payload reply .recvSize [[(payload.length : Int)], payload] []
  | recvData : Working payload reply (.recvData payload.length) [payload] []
  | sendHeader : Working payload reply (.sendHeader reply) [] []
  | sendSize : Working payload reply (.sendSize reply) [] [[0]]
  | sendData : Working payload reply (.sendData reply) [] [[0], [(reply.length : Int)]]
  | waitAlive : Working payload reply .waitAlive [] (packet reply)
  | exited : Working payload reply .exited [] (packet reply)

/-- A slave that is not at work. -/
def Slave.Idle (slave : Slave) : Prop := slave = .waitAlive ∨ slave = .exited

/-- What is on its way between two ends. -/
inductive Place : Master → Slave → Comm → Prop where
  | free {slave : Slave} (hslave : slave.Idle) : Place .free slave .new
  | sendHeader {task : Task} {slave : Slave} (hslave : slave.Idle) :
      Place (.sendHeader task) slave .new
  | sendSize {task : Task} {slave : Slave} (hslave : slave.Idle) :
      Place (.sendSize task) slave ⟨[[0]], [], [], []⟩
  | sendData {task : Task} {slave : Slave} (hslave : slave.Idle) :
      Place (.sendData task) slave ⟨[[0], [((writeTask task).length : Int)]], [], [], []⟩
  | sent {task : Task} {slave : Slave} (hslave : slave.Idle) :
      Place (.sent task) slave ⟨packet (writeTask task), [], [], []⟩
  | asked {task : Task} {header : Int} :
      Place (.isProcessAlive task) .waitAlive ⟨packet (writeTask task), [[header]], [], []⟩
  | dead {task : Task} {toSlave1 toSlave2 : List (List Int)} :
      Place (.isProcessAlive task) .exited ⟨toSlave1, toSlave2, [], []⟩
  | alive {task : Task} {reply : List Int} {slave : Slave} {down up : List (List Int)}
      (hreply : worker (writeTask task) = some reply)
      (hwork : Working (writeTask task) reply slave down up) :
      Place (.isProcessAlive task) slave ⟨down, [], up, [[0]]⟩
  | recvHeader {task : Task} {reply : List Int} {slave : Slave} {down up : List (List Int)}
      (hreply : worker (writeTask task) = some reply)
      (hwork : Working (writeTask task) reply slave down up) :
      Place (.recvHeader task) slave ⟨down, [], up, []⟩
  | recvSize {task : Task} {reply : List Int} {slave : Slave} {down up : List (List Int)}
      (hreply : worker (writeTask task) = some reply)
      (hwork : Working (writeTask task) reply slave down ([0] :: up)) :
      Place (.recvSize task) slave ⟨down, [], up, []⟩
  | recvData {task : Task} {reply : List Int} {slave : Slave} {down up : List (List Int)}
      (hreply : worker (writeTask task) = some reply)
      (hwork : Working (writeTask task) reply slave down ([0] :: [(reply.length : Int)] :: up)) :
      Place (.recvData task reply.length) slave ⟨down, [], up, []⟩
  | quit : Place .quit .waitAlive ⟨[], [[1]], [], []⟩
  | gone {toSlave2 : List (List Int)} : Place .quit .exited ⟨[], toSlave2, [], []⟩

/-- The task that the master has in hand with the slave. -/
def Master.task : Master → Option Task
  | .free | .quit => none
  | .sendHeader task | .sendSize task | .sendData task | .sent task | .isProcessAlive task
  | .recvHeader task | .recvSize task | .recvData task _ => some task

/-- What holds in every state of a session. -/
structure Session.Sound (s : Session) : Prop where
  place : Place s.master s.slave s.comm
  replies : ∀ r ∈ s.replies, worker (writeTask r.1) = some r.2
  tasks : s.tasks.Perm (s.replies.map Prod.fst ++ s.failed ++ s.master.task.toList)
  fits : ∀ task ∈ s.master.task, (writeTask task).length ≤ MAX_PACKET_SIZE

/-- Nothing has been sent at first. -/
theorem sound_new : Session.new.Sound where
  place := .free (Or.inl rfl)
  replies := nofun
  tasks := List.Perm.refl []
  fits := nofun

/-- A slave that waits may leave its loop as well. -/
theorem Working.exits {payload reply : List Int} {down up : List (List Int)}
    (h : Working payload reply .waitAlive down up) : Working payload reply .exited down up := by
  cases h
  exact .exited

/-! ### The slave -/

/-- A slave at work does what comes next: it takes in the messages of its task, and sends those of
    its reply. -/
theorem Working.step {payload reply : List Int} (hreply : worker payload = some reply)
    (hfits : reply.length ≤ MAX_PACKET_SIZE) {s s' : Session} {up : List (List Int)}
    (hdown : s.comm.toSlave2 = [])
    (h : Working payload reply s.slave s.comm.toSlave1 up) (hstep : s.slaveStep = some s') :
    ∃ slave down out, Working payload reply slave down (up ++ out) ∧
      s' = { s with
        slave := slave
        comm := { s.comm with toSlave1 := down, toMaster1 := s.comm.toMaster1 ++ out } } := by
  obtain ⟨master, slave, ⟨down1, down2, up1, up2⟩, tasks, replies, failed⟩ := s
  dsimp only at h hdown
  subst hdown
  cases h with
  -- It takes in three messages,
  | recvHeader =>
    cases hstep
    exact ⟨_, _, [], .recvSize, by simp⟩
  | recvSize =>
    cases hstep
    exact ⟨_, _, [], .recvData, by simp⟩
  | recvData =>
    have hrecv : payload.length ≤ ((payload.length : Nat) : Int).toNat := by simp
    simp only [Session.slaveStep, if_pos hrecv, hreply, Option.bind_some, if_pos hfits,
      Option.some.injEq] at hstep
    subst hstep
    exact ⟨_, _, [], .sendHeader, by simp⟩
  -- and sends three, behind which it waits.
  | sendHeader =>
    cases hstep
    exact ⟨_, _, [[0]], .sendSize, rfl⟩
  | sendSize =>
    cases hstep
    exact ⟨_, _, [[(reply.length : Int)]], .sendData, rfl⟩
  | sendData =>
    cases hstep
    exact ⟨_, _, [reply], .waitAlive, rfl⟩
  | waitAlive => cases hstep
  | exited => cases hstep

/-- A slave that is not at work and has not been asked waits. -/
theorem Slave.Idle.slaveStep_eq_none {s : Session} (h : s.slave.Idle)
    (hasked : s.comm.toSlave2 = []) : s.slaveStep = none := by
  rcases h with h | h
  · rw [Session.slaveStep, h, hasked]
  · rw [Session.slaveStep, h]

/-- A step of the slave leads to the next place. -/
theorem place_slaveStep {s s' : Session} (h : Place s.master s.slave s.comm)
    (hfits : ∀ task ∈ s.master.task, (writeTask task).length ≤ MAX_PACKET_SIZE)
    (hstep : s.slaveStep = some s') : Place s'.master s'.slave s'.comm := by
  have hidle : s.slave.Idle → s.comm.toSlave2 = [] → False := by
    intro hslave hasked
    rw [hslave.slaveStep_eq_none hasked] at hstep
    cases hstep
  obtain ⟨master, slave, comm, tasks, replies, failed⟩ := s
  dsimp only at h hidle hfits
  cases h with
  | free hslave => exact (hidle hslave rfl).elim
  | sendHeader hslave => exact (hidle hslave rfl).elim
  | sendSize hslave => exact (hidle hslave rfl).elim
  | sendData hslave => exact (hidle hslave rfl).elim
  | sent hslave => exact (hidle hslave rfl).elim
  -- The slave answers, or leaves its loop.
  | @asked task header =>
    simp only [Session.slaveStep] at hstep
    split at hstep
    · cases hstep
      exact .dead
    · next hzero =>
      rw [not_not] at hzero
      obtain ⟨data, hreply, -⟩ := worker_of_fits (hfits task rfl)
      cases hstep
      rw [hzero]
      exact .alive hreply .recvHeader
  | dead => cases hstep
  | alive hreply hwork =>
    obtain ⟨_, _, _, hwork', rfl⟩ :=
      hwork.step hreply (length_reply_le (hfits _ rfl) hreply) rfl hstep
    exact .alive hreply hwork'
  | recvHeader hreply hwork =>
    obtain ⟨_, _, _, hwork', rfl⟩ :=
      hwork.step hreply (length_reply_le (hfits _ rfl) hreply) rfl hstep
    exact .recvHeader hreply hwork'
  | recvSize hreply hwork =>
    obtain ⟨_, _, _, hwork', rfl⟩ :=
      hwork.step hreply (length_reply_le (hfits _ rfl) hreply) rfl hstep
    exact .recvSize hreply hwork'
  | recvData hreply hwork =>
    obtain ⟨_, _, _, hwork', rfl⟩ :=
      hwork.step hreply (length_reply_le (hfits _ rfl) hreply) rfl hstep
    exact .recvData hreply hwork'
  | quit =>
    cases hstep
    exact .gone
  | gone => cases hstep

/-- The slave leaves the accounts of the master alone. -/
theorem slaveStep_accounts {s s' : Session} (hstep : s.slaveStep = some s') :
    s'.master = s.master ∧ s'.tasks = s.tasks ∧ s'.replies = s.replies ∧ s'.failed = s.failed := by
  unfold Session.slaveStep at hstep
  split at hstep
  · split at hstep
    · split at hstep <;> cases hstep <;> exact ⟨rfl, rfl, rfl, rfl⟩
    · cases hstep
  · split at hstep <;> cases hstep
    exact ⟨rfl, rfl, rfl, rfl⟩
  · split at hstep <;> cases hstep
    exact ⟨rfl, rfl, rfl, rfl⟩
  · split at hstep
    · split at hstep
      · obtain ⟨_, -, hstep⟩ := Option.bind_eq_some_iff.mp hstep
        obtain ⟨-, hstep⟩ := Option.ite_none_right_eq_some.mp hstep
        cases hstep
        exact ⟨rfl, rfl, rfl, rfl⟩
      · cases hstep
    · cases hstep
  · cases hstep
    exact ⟨rfl, rfl, rfl, rfl⟩
  · cases hstep
    exact ⟨rfl, rfl, rfl, rfl⟩
  · cases hstep
    exact ⟨rfl, rfl, rfl, rfl⟩
  · cases hstep

/-! ### The master -/

/-- What a slave has sent is the beginning of the packet of its reply. -/
theorem Working.sent_prefix {payload reply : List Int} {slave : Slave} {down up : List (List Int)}
    (h : Working payload reply slave down up) : up <+: packet reply := by
  cases h with
  | recvHeader | recvSize | recvData | sendHeader => exact List.nil_prefix
  | sendSize => exact ⟨[[(reply.length : Int)], reply], rfl⟩
  | sendData => exact ⟨[reply], rfl⟩
  | waitAlive | exited => exact List.prefix_refl _

/-- Once all of the packet is sent, the slave is not at work, and nothing is left for it. -/
theorem Working.of_sent {payload reply last : List Int} {slave : Slave}
    {down rest : List (List Int)}
    (h : Working payload reply slave down ([0] :: [(reply.length : Int)] :: last :: rest)) :
    last = reply ∧ rest = [] ∧ slave.Idle ∧ down = [] := by
  cases h with
  | waitAlive => exact ⟨rfl, rfl, Or.inl rfl, rfl⟩
  | exited => exact ⟨rfl, rfl, Or.inr rfl, rfl⟩

/-- **Step.**  Every step of the master keeps the session sound. -/
theorem sound_masterStep {s s' : Session} (h : s.Sound) (hstep : s.masterStep = some s') :
    s'.Sound := by
  obtain ⟨hplace, hreplies, htasks, hfits⟩ := h
  obtain ⟨master, slave, comm, tasks, replies, failed⟩ := s
  dsimp only at hplace hreplies htasks hfits
  cases hplace with
  | free hslave => cases hstep
  | sendHeader hslave =>
    cases hstep
    exact ⟨.sendSize hslave, hreplies, htasks, hfits⟩
  | sendSize hslave =>
    cases hstep
    exact ⟨.sendData hslave, hreplies, htasks, hfits⟩
  | sendData hslave =>
    cases hstep
    exact ⟨.sent hslave, hreplies, htasks, hfits⟩
  | sent hslave => cases hstep
  | asked => cases hstep
  | dead => cases hstep
  | alive hreply hwork =>
    cases hstep
    exact ⟨.recvHeader hreply hwork, hreplies, htasks, hfits⟩
  -- The three messages come in the order in which the slave sends them.
  | @recvHeader task reply _ down up hreply hwork =>
    simp only [Session.masterStep] at hstep
    split at hstep
    · next header rest =>
      cases hstep
      obtain ⟨tail, htail⟩ := hwork.sent_prefix
      obtain ⟨hheader, -⟩ := List.cons.inj htail
      obtain rfl : header = 0 := List.head_eq_of_cons_eq hheader
      exact ⟨.recvSize hreply hwork, hreplies, htasks, hfits⟩
    · cases hstep
  | @recvSize task reply _ down up hreply hwork =>
    simp only [Session.masterStep] at hstep
    split at hstep
    · next size rest =>
      cases hstep
      obtain ⟨tail, htail⟩ := hwork.sent_prefix
      obtain ⟨-, htail⟩ := List.cons.inj htail
      obtain ⟨hsize, -⟩ := List.cons.inj htail
      obtain rfl : size = reply.length := List.head_eq_of_cons_eq hsize
      exact ⟨.recvData hreply hwork, hreplies, htasks, hfits⟩
    · cases hstep
  | @recvData task reply _ down up hreply hwork =>
    simp only [Session.masterStep] at hstep
    split at hstep
    · next payload rest =>
      split at hstep
      · cases hstep
        obtain ⟨rfl, rfl, hslave, rfl⟩ := hwork.of_sent
        refine ⟨.free hslave, ?_, ?_, nofun⟩
        · intro r hr
          rcases List.mem_append.mp hr with hr | hr
          · exact hreplies r hr
          · rw [List.mem_singleton.mp hr]
            exact hreply
        · refine htasks.trans ?_
          simp only [Master.task, Option.toList_some, Option.toList_none, List.map_append,
            List.map_cons, List.map_nil, List.append_nil, List.append_assoc]
          exact List.Perm.append_left _ List.perm_append_comm
      · cases hstep
    · cases hstep
  | quit => cases hstep
  | gone => cases hstep

/-! ### Sessions -/

/-- **Step.**  So does every event. -/
theorem sound_step {s s' : Session} {e : Event} (h : s.Sound) (hstep : sessionStep s e = some s') :
    s'.Sound := by
  cases e with
  | task task =>
    obtain ⟨hplace, hreplies, htasks, hfits⟩ := h
    obtain ⟨master, slave, comm, tasks, replies, failed⟩ := s
    simp only [sessionStep] at hstep
    split at hstep
    · next hfree =>
      obtain ⟨rfl, hwrite⟩ := hfree
      cases hstep
      cases hplace with
      | free hslave =>
        refine ⟨.sendHeader hslave, hreplies, ?_, ?_⟩
        · have happend := htasks.append_right [task]
          simpa [Master.task] using happend
        · rintro _ ⟨⟩
          exact hwrite
    · cases hstep
  | ping header =>
    obtain ⟨hplace, hreplies, htasks, hfits⟩ := h
    obtain ⟨master, slave, comm, tasks, replies, failed⟩ := s
    simp only [sessionStep] at hstep
    split at hstep
    · cases hstep
      cases hplace with
      | sent hslave =>
        rcases hslave with rfl | rfl
        · exact ⟨.asked, hreplies, htasks, hfits⟩
        · exact ⟨.dead, hreplies, htasks, hfits⟩
    · cases hstep
  | timeout =>
    obtain ⟨hplace, hreplies, htasks, hfits⟩ := h
    obtain ⟨master, slave, comm, tasks, replies, failed⟩ := s
    simp only [sessionStep] at hstep
    split at hstep
    · cases hstep
      refine ⟨.free (Or.inl rfl), hreplies, htasks.trans ?_, nofun⟩
      simp [Master.task]
    · cases hstep
  | slaveTimeout =>
    obtain ⟨hplace, hreplies, htasks, hfits⟩ := h
    obtain ⟨master, slave, comm, tasks, replies, failed⟩ := s
    simp only [sessionStep] at hstep
    split at hstep
    · next hwaits =>
      subst hwaits
      cases hstep
      refine ⟨?_, hreplies, htasks, hfits⟩
      -- A slave that waits has nothing to do with what is on its way.
      cases hplace with
      | free => exact .free (Or.inr rfl)
      | sendHeader => exact .sendHeader (Or.inr rfl)
      | sendSize => exact .sendSize (Or.inr rfl)
      | sendData => exact .sendData (Or.inr rfl)
      | sent => exact .sent (Or.inr rfl)
      | asked => exact .dead
      | alive hreply hwork => exact .alive hreply hwork.exits
      | recvHeader hreply hwork => exact .recvHeader hreply hwork.exits
      | recvSize hreply hwork => exact .recvSize hreply hwork.exits
      | recvData hreply hwork => exact .recvData hreply hwork.exits
      | quit => exact .gone
    · cases hstep
  | quit =>
    obtain ⟨hplace, hreplies, htasks, hfits⟩ := h
    obtain ⟨master, slave, comm, tasks, replies, failed⟩ := s
    simp only [sessionStep] at hstep
    split at hstep
    · next hfree =>
      subst hfree
      cases hstep
      cases hplace with
      | free hslave =>
        rcases hslave with rfl | rfl
        · exact ⟨.quit, hreplies, htasks, hfits⟩
        · exact ⟨.gone, hreplies, htasks, hfits⟩
    · cases hstep
  | master => exact sound_masterStep h hstep
  | slave =>
    obtain ⟨hmaster, htasks, hreplies, hfailed⟩ := slaveStep_accounts hstep
    refine ⟨place_slaveStep h.place h.fits hstep, hreplies ▸ h.replies, ?_, hmaster ▸ h.fits⟩
    rw [htasks, hreplies, hfailed, hmaster]
    exact h.tasks

/-- **Run.**  By induction: every session is sound. -/
theorem sound_of_reachable {s : Session} (h : Reachable sessionStep Session.new s) : s.Sound :=
  h.invariant sound_new fun _ _ _ hsound hstep => sound_step hsound hstep

/-- The master is in one of the three `MPI_Recv` for a reply. -/
def Master.Receives : Master → Prop
  | .recvHeader _ | .recvSize _ | .recvData _ _ => True
  | _ => False

/-- Until all of the reply is sent, the slave goes on. -/
theorem Working.slaveStep_isSome {payload reply : List Int} (hreply : worker payload = some reply)
    (hfits : reply.length ≤ MAX_PACKET_SIZE) {s : Session} {up : List (List Int)}
    (h : Working payload reply s.slave s.comm.toSlave1 up)
    (hmore : up.length < 3) : s.slaveStep.isSome := by
  obtain ⟨master, slave, ⟨down1, down2, up1, up2⟩, tasks, replies, failed⟩ := s
  dsimp only at h
  cases h with
  | recvHeader | recvSize | sendHeader | sendSize | sendData => rfl
  | recvData =>
    have hrecv : payload.length ≤ ((payload.length : Nat) : Int).toNat := by simp
    simp only [Session.slaveStep, if_pos hrecv, hreply, Option.bind_some, if_pos hfits]
    rfl
  | waitAlive | exited => exact absurd hmore (by simp [packet])

/-- A master that waits for a message of a reply gets it, or the slave has a step to take. -/
theorem Session.Sound.goes_on {s : Session} (hsound : s.Sound) (hrecv : s.master.Receives) :
    s.masterStep.isSome ∨ s.slaveStep.isSome := by
  obtain ⟨h, -, -, hfits⟩ := hsound
  obtain ⟨master, slave, comm, tasks, replies, failed⟩ := s
  dsimp only at h hrecv hfits
  cases h with
  | @recvHeader task reply _ down up hreply hwork =>
    cases up with
    | nil =>
      -- Nothing has come yet, so the slave has not sent it.
      have hmore : ([] : List (List Int)).length < 3 := by decide
      exact Or.inr (hwork.slaveStep_isSome hreply (length_reply_le (hfits _ rfl) hreply) hmore)
    | cons header up =>
      obtain ⟨tail, htail⟩ := hwork.sent_prefix
      obtain ⟨rfl, -⟩ := List.cons.inj htail
      exact Or.inl rfl
  | @recvSize task reply _ down up hreply hwork =>
    cases up with
    | nil =>
      have hmore : [[(0 : Int)]].length < 3 := by decide
      exact Or.inr (hwork.slaveStep_isSome hreply (length_reply_le (hfits _ rfl) hreply) hmore)
    | cons size up =>
      obtain ⟨tail, htail⟩ := hwork.sent_prefix
      obtain ⟨-, htail⟩ := List.cons.inj htail
      obtain ⟨rfl, -⟩ := List.cons.inj htail
      exact Or.inl rfl
  | @recvData task reply _ down up hreply hwork =>
    cases up with
    | nil =>
      have hmore : [[0], [(reply.length : Int)]].length < 3 := by simp
      exact Or.inr (hwork.slaveStep_isSome hreply (length_reply_le (hfits _ rfl) hreply) hmore)
    | cons last up =>
      -- The array has come whole, behind its size.
      obtain ⟨rfl, -, -, -⟩ := hwork.of_sent
      have hlast : last.length ≤ ((last.length : Nat) : Int).toNat := by simp
      simp only [Session.masterStep, if_pos hlast]
      exact Or.inl rfl
  | _ => exact hrecv.elim

/-- **The messages of a slave.**  In every state of a session with a slave, with the steps of both
    ends, the time-outs and the new slaves in any order: whatever the master has read as the reply
    to a task is what a worker makes of the payload of that task; every task that was to be sent is
    accounted for, as replied to, as put back or as the one in hand; when the master has no task in
    hand, no message is on its way; and while it waits for a message of a reply, it gets the message
    or the slave has a step to take. -/
theorem session_replies (s : Session) (h : Reachable sessionStep Session.new s) :
    (∀ r ∈ s.replies, worker (writeTask r.1) = some r.2) ∧
    s.tasks.Perm (s.replies.map Prod.fst ++ s.failed ++ s.master.task.toList) ∧
    (s.master = .free → s.comm = .new) ∧
    (s.master.Receives →
      (sessionStep s .master).isSome ∨ (sessionStep s .slave).isSome) := by
  have hsound := sound_of_reachable h
  refine ⟨hsound.replies, hsound.tasks, fun hfree => ?_, hsound.goes_on⟩
  have hplace := hsound.place
  rw [hfree] at hplace
  generalize s.comm = comm at hplace ⊢
  cases hplace
  rfl

/-- A slave that is told to end with the first task, and its successor with the same task. -/
theorem session_replies_respawn : ∃ s,
    run sessionStep Session.new
      [.task (sortTask [2, 1]), .master, .master, .master, .ping 1, .slave, .timeout,
        .task (sortTask [2, 1]), .master, .master, .master, .ping 0, .slave, .slave, .slave, .slave,
        .slave, .master, .master, .slave, .slave, .master, .master] = some s ∧
      s.failed = [sortTask [2, 1]] ∧ s.replies ≠ [] ∧
      ∀ r ∈ s.replies, worker (writeTask r.1) = some r.2 := by
  obtain ⟨s, hs, hview⟩ := Option.map_eq_some_iff.mp
    (show (run sessionStep Session.new
      [.task (sortTask [2, 1]), .master, .master, .master, .ping 1, .slave, .timeout,
        .task (sortTask [2, 1]), .master, .master, .master, .ping 0, .slave, .slave, .slave, .slave,
        .slave, .master, .master, .slave, .slave, .master, .master]).map
        (fun s => (s.failed, s.replies)) =
      some ([sortTask [2, 1]], [(sortTask [2, 1], [111, 2, 1, 2])]) by decide)
  obtain ⟨hfailed, hreplies⟩ := Prod.mk.inj hview
  exact ⟨s, hs, hfailed, by rw [hreplies]; exact List.cons_ne_nil _ _,
    (session_replies s ⟨_, hs⟩).1⟩

end WorkAtUPB.FaultTolerantService

import WorkAtUPB.Lib.Run

namespace WorkAtUPB.ThreadsMonitor

/-!
# ThreadsMonitorLinux — the generic monitor (`LibMonitor.cpp`)

Every monitor call up to its `sem_wait` (or to its return) is one step, and the resumption
after `sem_post` is another one:

* `Monitor` — `struct _monitor`, its queues holding the semaphores of blocked threads;
* `planifica` — pick the next thread and give up the mutex;
* `State`, `step` — the monitor, the semaphores, and where every thread is; the calls
  `Enter`, `Leave`, `Wait`, `Signal`, `Broadcast` and the resumptions.

`pthread_mutex_unlock` on the default mutex frees it, whoever calls it.  A semaphore is
named by the address `new_sem` returned for it; addresses are not reused.
-/

/-- The address of a semaphore. -/
abbrev Sem := Nat

/-- `SIGNAL_AND_WAIT` and `SIGNAL_AND_CONTINUE`. -/
inductive Policy where
  | signalAndWait
  | signalAndContinue
  deriving DecidableEq, Repr

/-- `struct _monitor`. -/
structure Monitor (T : Type*) where
  conditions : Nat
  policy : Policy
  entryQueue : List Sem
  signaledQueue : List Sem
  waitingQueue : List Sem
  conditionsQueue : Nat → List Sem
  /-- The mutex is taken. -/
  mutex : Bool
  enteredThreads : T → Bool

/-- The calls a thread can be blocked in. -/
inductive Call where
  | enter
  | wait
  | signal
  | broadcast
  deriving DecidableEq, Repr

/-- Where a thread is. -/
inductive Status where
  | outside
  | inside
  | blocked (call : Call) (sem : Sem)
  deriving DecidableEq, Repr

/-- A monitor in use: the value of every semaphore, the address of the next one, and where
    the threads are. -/
structure State (T : Type*) where
  monitor : Monitor T
  value : Sem → Nat
  nextSem : Sem
  thread : T → Status

variable {T : Type*}

/-- `Create`, and no thread has called anything yet. -/
def create (conditions : Nat) (policy : Policy) : State T where
  monitor :=
    { conditions, policy, entryQueue := [], signaledQueue := [], waitingQueue := []
      conditionsQueue := fun _ => [], mutex := false, enteredThreads := fun _ => false }
  value := fun _ => 0
  nextSem := 0
  thread := fun _ => .outside

/-! ### Scheduling -/

/-- `planifica` with the queues `waiting` and `signaled`: the semaphore it posts, and the
    monitor, unlocked. -/
def planificaQueues (m : Monitor T) : List Sem → List Sem → Option Sem × Monitor T
  | sem :: waiting, signaled =>
    (some sem, { m with waitingQueue := waiting, signaledQueue := signaled, mutex := false })
  -- The first signaled thread is moved to the waiting queue, and picked from there.
  | [], sem :: signaled => planificaQueues m [sem] signaled
  | [], [] =>
    match m.entryQueue with
    | sem :: entry =>
      (some sem, { m with
        waitingQueue := [], signaledQueue := [], entryQueue := entry, mutex := false })
    | [] => (none, { m with waitingQueue := [], signaledQueue := [], mutex := false })

/-- `planifica`: the first waiting thread, else the first signaled one (moved to the waiting
    queue), else the first at the entry gets going; the mutex is unlocked in every case. -/
def planifica (m : Monitor T) : Option Sem × Monitor T :=
  planificaQueues m m.waitingQueue m.signaledQueue

/-- `sem_post` on the semaphore that was picked, if any. -/
def post (value : Sem → Nat) : Option Sem → Sem → Nat
  | none => value
  | some sem => Function.update value sem (value sem + 1)

/-- `new_sem`: a semaphore with value 0. -/
def State.newSem (s : State T) : State T :=
  { s with nextSem := s.nextSem + 1, value := Function.update s.value s.nextSem 0 }

variable [DecidableEq T]

/-- `planifica`, after which the calling thread is at `status`. -/
def State.yield (s : State T) (t : T) (status : Status) : State T :=
  let p := planifica s.monitor
  { s with monitor := p.2, value := post s.value p.1, thread := Function.update s.thread t status }

/-! ### The monitor calls -/

/-- What a thread does next. -/
inductive Action (T : Type*) where
  | enter (t : T)
  | leave (t : T)
  | wait (t : T) (cond : Nat)
  | signal (t : T) (cond : Nat)
  | broadcast (t : T) (cond : Nat)
  | resume (t : T)
  deriving DecidableEq, Repr

/-- `Enter`: nothing if the thread is in `entered_threads`; else take the mutex if it is free,
    or block on a new semaphore in the entry queue. -/
def enter (s : State T) (t : T) : State T :=
  if s.monitor.enteredThreads t then s
  else if s.monitor.mutex = false then
    { s with
      monitor := { s.monitor with
        mutex := true, enteredThreads := Function.update s.monitor.enteredThreads t true }
      thread := Function.update s.thread t .inside }
  else
    let sem := s.nextSem
    let s := s.newSem
    { s with
      monitor := { s.monitor with entryQueue := s.monitor.entryQueue ++ [sem] }
      thread := Function.update s.thread t (.blocked .enter sem) }

/-- `Leave`: give the monitor up and let another thread go. -/
def leave (s : State T) (t : T) : State T :=
  if s.monitor.enteredThreads t then
    let m := { s.monitor with
      enteredThreads := Function.update s.monitor.enteredThreads t false }
    { s with monitor := m }.yield t .outside
  else s

/-- `Wait`: block on a new semaphore in the queue of the condition. -/
def wait (s : State T) (t : T) (cond : Nat) : State T :=
  if s.monitor.conditions ≤ cond then s
  else
    let sem := s.nextSem
    let s := s.newSem
    let m := { s.monitor with
      conditionsQueue := Function.update s.monitor.conditionsQueue cond
        (s.monitor.conditionsQueue cond ++ [sem]) }
    { s with monitor := m }.yield t (.blocked .wait sem)

/-- The end of `Signal` and `Broadcast`: under `SIGNAL_AND_WAIT` the caller blocks on a new
    semaphore in the signaled queue. -/
def afterSignal (s : State T) (t : T) (call : Call) : State T :=
  match s.monitor.policy with
  | .signalAndWait =>
    let sem := s.nextSem
    let s := s.newSem
    let m := { s.monitor with signaledQueue := s.monitor.signaledQueue ++ [sem] }
    { s with monitor := m }.yield t (.blocked call sem)
  | .signalAndContinue => s

/-- `Signal`: the first thread waiting for the condition, if any, becomes ready. -/
def signal (s : State T) (t : T) (cond : Nat) : State T :=
  if s.monitor.conditions ≤ cond then s
  else
    match s.monitor.conditionsQueue cond with
    | [] => afterSignal s t .signal
    | sem :: rest =>
      let m := { s.monitor with
        conditionsQueue := Function.update s.monitor.conditionsQueue cond rest
        waitingQueue := s.monitor.waitingQueue ++ [sem] }
      afterSignal { s with monitor := m } t .signal

/-- `Broadcast`: all threads waiting for the condition become ready. -/
def broadcast (s : State T) (t : T) (cond : Nat) : State T :=
  if s.monitor.conditions ≤ cond then s
  else
    let m := { s.monitor with
      conditionsQueue := Function.update s.monitor.conditionsQueue cond []
      waitingQueue := s.monitor.waitingQueue ++ s.monitor.conditionsQueue cond }
    afterSignal { s with monitor := m } t .broadcast

/-- The return from `sem_wait`, and in `Enter` the re-lock, possible when the mutex is free. -/
def resume (s : State T) (t : T) : Option (State T) :=
  match s.thread t with
  | .blocked call sem =>
    if s.value sem = 0 then none
    else
      let s' := { s with
        value := Function.update s.value sem (s.value sem - 1)
        thread := Function.update s.thread t .inside }
      match call with
      -- Only `Enter` locks the mutex again; `Wait`, `Signal` and `Broadcast` just go on.
      | .enter =>
        if s.monitor.mutex then none
        else some { s' with monitor := { s.monitor with
          mutex := true
          enteredThreads := Function.update s.monitor.enteredThreads t true } }
      | _ => some s'
  | _ => none

/-- One step.  A blocked thread calls nothing, and threads call `Leave`, `Wait`, `Signal` and
    `Broadcast` only while inside. -/
def step (s : State T) : Action T → Option (State T)
  | .enter t => if s.thread t = .inside ∨ s.thread t = .outside then some (enter s t) else none
  | .leave t => if s.thread t = .inside then some (leave s t) else none
  | .wait t cond => if s.thread t = .inside then some (wait s t cond) else none
  | .signal t cond => if s.thread t = .inside then some (signal s t cond) else none
  | .broadcast t cond => if s.thread t = .inside then some (broadcast s t cond) else none
  | .resume t => resume s t

end WorkAtUPB.ThreadsMonitor

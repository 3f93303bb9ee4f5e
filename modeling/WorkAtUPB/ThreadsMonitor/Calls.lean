import WorkAtUPB.Lib.Sections
import WorkAtUPB.ThreadsMonitor.Exclusion
import WorkAtUPB.ThreadsMonitor.Monitor

namespace WorkAtUPB.ReadersWriters

open WorkAtUPB.Run Sections

/-!
# ThreadsMonitorLinux — the calls of `LibRW.cpp`, access by access

The counters are static variables, which a call reads and writes between its calls of the monitor:

* `Code`, `Call.code`, `Cond.again` — what a call does behind `Enter`, and behind `Wait`;
* `Program`, `Program.step` — the threads over the monitor of `LibMonitor.cpp`, one access or one
  call of the monitor at a time;
* `meaning`, `start` — the same accesses in a state over a monitor that keeps its contract;
* `atomicStep_eq` — there, a call that nothing comes between is a step of `ReadersWriters`.
-/

/-! ### The code of the calls -/

/-- The counters. -/
inductive Counter where
  | nreaders
  | nwaitingreaders
  | nwriters
  | nwaitingwriters
  deriving DecidableEq, Repr

/-- The conditions of the monitor. -/
inductive Cond where
  | readers
  | writers
  deriving DecidableEq, Repr

/-- The number of a condition in the monitor. -/
def Cond.number : Cond → Nat
  | .readers => 0
  | .writers => 1

/-- The calls of readers and writers. -/
inductive Call where
  | startCit
  | stopCit
  | startScrit
  | stopScrit
  deriving DecidableEq, Repr

/-- An access to a counter, or a call of the monitor that does not block. -/
inductive Access where
  | load (x : Counter)
  | store (x : Counter) (n : ℤ)
  | signal (cond : Cond)
  | broadcast (cond : Cond)

/-- What an access gives. -/
def Access.Answer : Access → Type
  | .load _ => ℤ
  | .store .. | .signal _ | .broadcast _ => Unit

/-- The calls of the monitor that may block: `Leave` at the end of a call, and `Wait`. -/
inductive Exit where
  | leave (call : Call)
  | wait (cond : Cond)

/-- What is left of a call up to the next `Leave` or `Wait`. -/
abbrev Code := Sections.Code Access Access.Answer Exit

namespace Code

/-- A counter is loaded. -/
def load (x : Counter) (rest : ℤ → Code) : Code := .access (.load x) rest

/-- A counter is stored. -/
def store (x : Counter) (n : ℤ) (rest : Code) : Code := .access (.store x n) fun _ => rest

/-- `Signal`. -/
def signal (cond : Cond) (rest : Code) : Code := .access (.signal cond) fun _ => rest

/-- `Broadcast`. -/
def broadcast (cond : Cond) (rest : Code) : Code := .access (.broadcast cond) fun _ => rest

/-- `Leave`, at the end of a call. -/
def leave (call : Call) : Code := .done (.leave call)

/-- `Wait`. -/
def wait (cond : Cond) : Code := .done (.wait cond)

/-- `x++`. -/
def increment (x : Counter) (rest : Code) : Code := load x fun n => store x (n + 1) rest

/-- `x--`. -/
def decrement (x : Counter) (rest : Code) : Code := load x fun n => store x (n - 1) rest

end Code

open Code

/-- `StartCit` from the test of its `while` on. -/
def startCitCode : Code :=
  load .nwriters fun nwriters => load .nwaitingwriters fun nwaitingwriters =>
    if nwriters + nwaitingwriters > 0 then increment .nwaitingreaders (wait .readers)
    else increment .nreaders (leave .startCit)

/-- `StopCit` behind `Enter`. -/
def stopCitCode : Code :=
  decrement .nreaders <| load .nreaders fun nreaders =>
    if nreaders = 0 then load .nwaitingwriters fun nwaitingwriters =>
      if nwaitingwriters > 0 then signal .writers (leave .stopCit) else leave .stopCit
    else leave .stopCit

/-- `StartScrit` from the test of its `while` on. -/
def startScritCode : Code :=
  load .nreaders fun nreaders => load .nwriters fun nwriters =>
    if nreaders + nwriters > 0 then increment .nwaitingwriters (wait .writers)
    else increment .nwriters (leave .startScrit)

/-- `StopScrit` behind `Enter`. -/
def stopScritCode : Code :=
  decrement .nwriters <| load .nwaitingwriters fun nwaitingwriters =>
    if nwaitingwriters > 0 then signal .writers (leave .stopScrit)
    else load .nwaitingreaders fun nwaitingreaders =>
      if nwaitingreaders > 0 then broadcast .readers (leave .stopScrit) else leave .stopScrit

/-- A call behind `Enter`. -/
def Call.code : Call → Code
  | .startCit => startCitCode
  | .stopCit => stopCitCode
  | .startScrit => startScritCode
  | .stopScrit => stopScritCode

/-- What follows `Wait` on a condition. -/
def Cond.again : Cond → Code
  | .readers => decrement .nwaitingreaders startCitCode
  | .writers => decrement .nwaitingwriters startScritCode

/-! ### The threads -/

/-- Where a thread is between two calls. -/
inductive Place where
  | idle
  | reading
  | writing
  deriving DecidableEq, Repr

/-- Calls that start are made by idle threads, and pair with the calls that stop. -/
def Call.before : Call → Place
  | .startCit | .startScrit => .idle
  | .stopCit => .reading
  | .stopScrit => .writing

/-- Where a thread is after its call. -/
def Call.after : Call → Place
  | .startCit => .reading
  | .startScrit => .writing
  | .stopCit | .stopScrit => .idle

/-- Where a thread is: between two calls, in `Enter`, in the monitor, or in `Wait`. -/
inductive Pc where
  | outside (place : Place)
  | entering (call : Call)
  | inside (code : Code)
  | waiting (cond : Cond)

/-- The monitor, the counters, and where the threads are. -/
structure Program (T : Type*) where
  monitor : ThreadsMonitor.State T
  counter : Counter → ℤ
  pc : T → Pc

/-- `CreateRWMonitor`, and no thread has called anything yet. -/
def Program.create {T : Type*} : Program T where
  monitor := ThreadsMonitor.create 2 .signalAndContinue
  counter := fun _ => 0
  pc := fun _ => .outside .idle

/-- A thread makes a call, or the next step of the call that it is in. -/
inductive Move (T : Type*) where
  | calls (t : T) (call : Call)
  | goes (t : T)
  deriving DecidableEq, Repr

section

variable {T : Type*} [DecidableEq T]

namespace Program

variable (p : Program T)

/-- The thread `t` goes to `pc`. -/
def move (t : T) (pc : Pc) : Program T := { p with pc := Function.update p.pc t pc }

/-- A call of the monitor, after which the thread `t` is where `pc` says. -/
def callMonitor (action : ThreadsMonitor.Action T) (t : T) (pc : ThreadsMonitor.Status → Pc) :
    Option (Program T) :=
  (ThreadsMonitor.step p.monitor action).map fun monitor =>
    { p with monitor, pc := Function.update p.pc t (pc (monitor.thread t)) }

/-- Behind the call of `Enter` a thread that is not blocked goes on. -/
def entered (call : Call) : ThreadsMonitor.Status → Pc
  | .blocked .. => .entering call
  | .inside | .outside => .inside call.code

/-- The call of the monitor that a move makes. -/
def action : Move T → Option (ThreadsMonitor.Action T)
  | .calls t call =>
    match p.pc t with
    | .outside place => if place = call.before then some (.enter t) else none
    | _ => none
  | .goes t =>
    match p.pc t with
    | .outside _ => none
    | .entering _ | .waiting _ => some (.resume t)
    | .inside (.access (.load _) _) | .inside (.access (.store ..) _) => none
    | .inside (.access (.signal cond) _) => some (.signal t cond.number)
    | .inside (.access (.broadcast cond) _) => some (.broadcast t cond.number)
    | .inside (.done (.leave _)) => some (.leave t)
    | .inside (.done (.wait cond)) => some (.wait t cond.number)

/-- One move. -/
def step : Move T → Option (Program T)
  | .calls t call =>
    match p.pc t with
    | .outside place =>
      if place = call.before then p.callMonitor (.enter t) t (entered call) else none
    | _ => none
  | .goes t =>
    match p.pc t with
    | .outside _ => none
    | .entering call => p.callMonitor (.resume t) t fun _ => .inside call.code
    | .waiting cond => p.callMonitor (.resume t) t fun _ => .inside cond.again
    | .inside (.access (.load x) rest) => some (p.move t (.inside (rest (p.counter x))))
    | .inside (.access (.store x n) rest) =>
      some ({ p with counter := Function.update p.counter x n }.move t (.inside (rest ())))
    | .inside (.access (.signal cond) rest) =>
      p.callMonitor (.signal t cond.number) t fun _ => .inside (rest ())
    | .inside (.access (.broadcast cond) rest) =>
      p.callMonitor (.broadcast t cond.number) t fun _ => .inside (rest ())
    | .inside (.done (.leave call)) =>
      p.callMonitor (.leave t) t fun _ => .outside call.after
    | .inside (.done (.wait cond)) => p.callMonitor (.wait t cond.number) t fun _ => .waiting cond

end Program

/-! ### The contract -/

/-- The counters of the contract. -/
def State.counter (s : State T) : Counter → ℤ
  | .nreaders => s.nreaders
  | .nwaitingreaders => s.nwaitingreaders
  | .nwriters => s.nwriters
  | .nwaitingwriters => s.nwaitingwriters

/-- One of them has another value. -/
def State.setCounter (s : State T) (n : ℤ) : Counter → State T
  | .nreaders => { s with nreaders := n }
  | .nwaitingreaders => { s with nwaitingreaders := n }
  | .nwriters => { s with nwriters := n }
  | .nwaitingwriters => { s with nwaitingwriters := n }

/-- Where a thread is that is between two calls. -/
def Place.status : Place → Status
  | .idle => .idle
  | .reading => .reading
  | .writing => .writing

/-- The accesses over a monitor that keeps its contract.  A thread that stops has been idle since
    its call began. -/
def meaning : Meaning (State T) T Access Access.Answer Exit where
  access s _
    | .load x => (s, s.counter x)
    | .store x n => (s.setCounter n x, ())
    | .signal cond => (s.signal cond.number, ())
    | .broadcast cond => (s.broadcast cond.number, ())
  done s t
    | .leave .startCit => s.move t .reading
    | .leave .startScrit => s.move t .writing
    | .leave .stopCit | .leave .stopScrit => s
    | .wait cond => s.wait t cond.number

/-- How a section begins: behind `Enter`, or behind `Wait`. -/
def start (s : State T) : Action T → Option (State T × T × Code)
  | .startCit t => if s.thread t = .idle then some (s, t, startCitCode) else none
  | .stopCit t => if s.thread t = .reading then some (s.move t .idle, t, stopCitCode) else none
  | .startScrit t => if s.thread t = .idle then some (s, t, startScritCode) else none
  | .stopScrit t =>
    if s.thread t = .writing then some (s.move t .idle, t, stopScritCode) else none
  | .resume t =>
    match s.thread t with
    | .signaled 0 => some (s.move t .idle, t, Cond.again .readers)
    | .signaled 1 => some (s.move t .idle, t, Cond.again .writers)
    | _ => none

/-- Without a pause, the code of `startCit` does what the contract says. -/
theorem finish_startCitCode (s : State T) (t : T) :
    meaning.finish t startCitCode s = startCit s t := by
  show meaning.finish t (if s.nwriters + s.nwaitingwriters > 0 then
    increment .nwaitingreaders (wait .readers) else increment .nreaders (leave .startCit)) s = _
  unfold startCit
  split
  · rfl
  · rfl

/-- Without a pause, the code of `startScrit` does what the contract says. -/
theorem finish_startScritCode (s : State T) (t : T) :
    meaning.finish t startScritCode s = startScrit s t := by
  show meaning.finish t (if s.nreaders + s.nwriters > 0 then
    increment .nwaitingwriters (wait .writers) else increment .nwriters (leave .startScrit)) s = _
  unfold startScrit
  split
  · rfl
  · rfl

/-- Without a pause, the code of `stopCit` does what the contract says. -/
theorem finish_stopCitCode (s : State T) (t : T) :
    meaning.finish t stopCitCode (s.move t .idle) = stopCit s t := by
  show meaning.finish t (if s.nreaders - 1 = 0 then load .nwaitingwriters fun nwaitingwriters =>
    if nwaitingwriters > 0 then signal .writers (leave .stopCit) else leave .stopCit
    else leave .stopCit) ({ s with nreaders := s.nreaders - 1 }.move t .idle) = _
  unfold stopCit
  by_cases hlast : s.nreaders - 1 = 0
  · rw [if_pos hlast]
    show meaning.finish t (if s.nwaitingwriters > 0 then signal .writers (leave .stopCit)
      else leave .stopCit) ({ s with nreaders := s.nreaders - 1 }.move t .idle) = _
    by_cases hwaiting : s.nwaitingwriters > 0
    · rw [if_pos hwaiting]
      exact (if_pos ⟨hlast, hwaiting⟩).symm
    · rw [if_neg hwaiting]
      exact (if_neg fun h => hwaiting h.2).symm
  · rw [if_neg hlast]
    exact (if_neg fun h => hlast h.1).symm

/-- Without a pause, the code of `stopScrit` does what the contract says. -/
theorem finish_stopScritCode (s : State T) (t : T) :
    meaning.finish t stopScritCode (s.move t .idle) = stopScrit s t := by
  show meaning.finish t (if s.nwaitingwriters > 0 then signal .writers (leave .stopScrit)
    else load .nwaitingreaders fun nwaitingreaders =>
      if nwaitingreaders > 0 then broadcast .readers (leave .stopScrit) else leave .stopScrit)
    ({ s with nwriters := s.nwriters - 1 }.move t .idle) = _
  unfold stopScrit
  by_cases hwriters : s.nwaitingwriters > 0
  · rw [if_pos hwriters]
    exact (if_pos hwriters).symm
  · rw [if_neg hwriters]
    show meaning.finish t (if s.nwaitingreaders > 0 then broadcast .readers (leave .stopScrit)
      else leave .stopScrit) ({ s with nwriters := s.nwriters - 1 }.move t .idle) = _
    refine Eq.trans ?_ (if_neg hwriters).symm
    by_cases hreaders : s.nwaitingreaders > 0
    · rw [if_pos hreaders]
      exact (if_pos hreaders).symm
    · rw [if_neg hreaders]
      exact (if_neg hreaders).symm

/-- **Whole sections.**  Over the contract, a section that nothing comes between is a step of the
    readers and writers. -/
theorem atomicStep_eq (s : State T) (a : Action T) : atomicStep meaning start s a = step s a := by
  cases a with
  | startCit t =>
    rw [atomicStep, start, step]
    split
    · exact congrArg some (finish_startCitCode s t)
    · rfl
  | stopCit t =>
    rw [atomicStep, start, step]
    split
    · exact congrArg some (finish_stopCitCode s t)
    · rfl
  | startScrit t =>
    rw [atomicStep, start, step]
    split
    · exact congrArg some (finish_startScritCode s t)
    · rfl
  | stopScrit t =>
    rw [atomicStep, start, step]
    split
    · exact congrArg some (finish_stopScritCode s t)
    · rfl
  | resume t =>
    rw [atomicStep, start, step, resume]
    cases s.thread t with
    | signaled cond =>
      match cond with
      | 0 => exact congrArg some (finish_startCitCode _ t)
      | 1 => exact congrArg some (finish_startScritCode _ t)
      | _ + 2 => rfl
    | idle | waiting | reading | writing => rfl

end

end WorkAtUPB.ReadersWriters

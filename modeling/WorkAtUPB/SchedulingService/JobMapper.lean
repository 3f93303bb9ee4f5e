import Mathlib.Data.List.AList
import WorkAtUPB.Lib.Run

namespace WorkAtUPB.SchedulingService

/-!
# SchedulingServiceCORBA — the scheduler (`JobMapper.java`, `Scheduler.java`)

Clients submit jobs to the scheduler and poll for their results; servers register with it.  The
scheduler's mapper thread wakes up every 200 ms, starts one `SJobThread` for every job
submitted, on the least loaded server, and gathers the results of the finished threads.  The
model has

* `getScheduledServer` — the choice of a server from what the servers answer;
* `SJobThread`, `JobMapper` — the threads and the collections they share, with the operations
  on them;
* `SchedulerImpl` — what clients and servers call;
* `History`, `step` — the scheduler together with what its clients have seen, and one step of
  a client, a server, the mapper or a job thread.

Each of the two `synchronized` blocks of the mapper's loop is one step: other threads only add
registrations to the first one (`Pick.registered`), and a job thread that finishes during the
second one may as well have finished before it or after it.
-/

/-- Java's `short`, the type of the ids. -/
abbrev Short := BitVec 16

/-- `SJob`.  Each `submitJob` call creates an object of its own: `oid` tells them apart. -/
structure SJob where
  oid : Nat
  job : String
  deriving DecidableEq, Repr

/-- `SJobResult`, with the job that it was computed for. -/
structure SJobResult where
  source : SJob
  result : String
  deriving DecidableEq, Repr

/-- `Constants.IN_PROGRESS`. -/
def inProgress : String := "Job in progress..."

/-- `ServerImpl.executeJob`. -/
def executeJob (job : SJob) : SJobResult where
  source := job
  result := "Finished execution of \"" ++ job.job ++ "\""

/-! ### The choice of a server -/

/-- What one server is and answers: its reference, `getCPU()` and `getMem()`. -/
structure Reply (S : Type*) where
  server : S
  cpu : String
  mem : String

/-- The digits of `Integer.parseInt`; an IDL `string` has no digits but these ten. -/
def parseDigits (ds : List Char) : Option Nat :=
  if ds = [] then none
  else ds.foldlM (fun v c => if c.isDigit then some (v * 10 + (c.toNat - '0'.toNat)) else none) 0

/-- `Integer.parseInt`: `none` is the `NumberFormatException`. -/
def parseInt : List Char → Option (BitVec 32)
  | '-' :: ds => (parseDigits ds).bind fun n =>
      if n ≤ 2147483648 then some (BitVec.ofInt 32 (-n)) else none
  | '+' :: ds => (parseDigits ds).bind fun n =>
      if n ≤ 2147483647 then some (BitVec.ofNat 32 n) else none
  | ds => (parseDigits ds).bind fun n =>
      if n ≤ 2147483647 then some (BitVec.ofNat 32 n) else none

/-- `Integer.parseInt(s.substring(0, s.length() - 1))`; the empty string fails as well. -/
def parsePercent (s : String) : Option (BitVec 32) := parseInt s.toList.dropLast

variable {S : Type*}

/-- `cpuLoad + memLoad`. -/
def Reply.load (r : Reply S) : Option (BitVec 32) := do
  let cpuLoad ← parsePercent r.cpu
  let memLoad ← parsePercent r.mem
  return cpuLoad + memLoad

/-- The bound that the load of a server has to be below: `load` before the first server. -/
def maxLoad : BitVec 32 := 200

/-- One round of the loop in `getScheduledServer`, on `load` and `server`; a server that does
    not answer, or whose answers are not numbers, raises an exception and is passed over. -/
def pickServer (picked : BitVec 32 × Option S) (reply : Option (Reply S)) :
    BitVec 32 × Option S :=
  match reply with
  | none => picked
  | some r =>
    match r.load with
    | none => picked
    | some load => if load.slt picked.1 then (load, some r.server) else picked

/-- `getScheduledServer`: the first server with the least load, or `null`. -/
def getScheduledServer (servers : Short) (replies : Nat → Option (Reply S)) : Option S :=
  ((List.range servers.toInt.toNat).foldl (fun picked i => pickServer picked (replies i))
    (maxLoad, none)).2

/-! ### Job threads -/

/-- `SJobThread`; `alive` until its `run` is over. -/
structure SJobThread (S : Type*) where
  job : SJob
  jobID : Short
  server : Option S
  result : Option SJobResult := none
  threadFinished : Bool := false
  alive : Bool := true

/-- `SJobThread.run`.  If the server does not answer, the remote call raises an exception that
    nobody catches, and the thread is over without being finished. -/
def SJobThread.run (t : SJobThread S) (answers : Bool) : SJobThread S :=
  match t.server with
  | some _ =>
    if answers then
      { t with result := some (executeJob t.job), threadFinished := true, alive := false }
    else { t with alive := false }
  | none => { t with threadFinished := true, alive := false }

/-- `SJobThread.getResult`. -/
def SJobThread.getResult (t : SJobThread S) : Option SJobResult :=
  if t.threadFinished then t.result else none

/-! ### The mapper -/

/-- `JobMapper`: `m_jobs`, `m_results` (whose values may be `null`), `m_threads` and `m_id`;
    `gathering` says that the loop of `run` is before its second block. -/
structure JobMapper (S : Type*) where
  jobs : AList fun _ : Short => SJob
  results : AList fun _ : Short => Option SJobResult
  threads : List (SJobThread S)
  id : Short
  gathering : Bool

/-- `putJob`. -/
def JobMapper.putJob (m : JobMapper S) (job : SJob) : Short × JobMapper S :=
  (m.id, { m with jobs := m.jobs.insert m.id job, id := m.id + 1 })

/-- `JobMapper.getResult`. -/
def JobMapper.getResult (m : JobMapper S) (jobID : Short) : Option SJobResult × JobMapper S :=
  if jobID ∈ m.results then
    ((m.results.lookup jobID).join, { m with results := m.results.erase jobID })
  else (none, m)

/-- One round of the loop over `m_jobs`: the key that the iterator gives, the registrations
    since the round before, and what the servers answer. -/
structure Pick (S : Type*) where
  key : Short
  registered : Nat
  replies : Nat → Option (Reply S)

/-- The loop over `m_jobs`: a thread for each job, on the server that is scheduled for it. -/
def startThreads (jobs : AList fun _ : Short => SJob) : Short → List (Pick S) →
    List (SJobThread S)
  | _, [] => []
  | servers, p :: ps =>
    let servers := servers + BitVec.ofNat 16 p.registered
    ((jobs.lookup p.key).map fun job =>
        { job := job, jobID := p.key, server := getScheduledServer servers p.replies }).toList
      ++ startThreads jobs servers ps

/-- The first loop over `m_threads`: what each finished thread has goes to `m_results`. -/
def putResults (results : AList fun _ : Short => Option SJobResult)
    (threads : List (SJobThread S)) : AList fun _ : Short => Option SJobResult :=
  threads.foldl (fun results t =>
    if t.threadFinished then results.insert t.jobID t.getResult else results) results

/-- `m_results.remove(thread)`: the keys of `m_results` are numbers, and no thread equals a
    number. -/
def removeThread (results : AList fun _ : Short => Option SJobResult) (_thread : SJobThread S) :
    AList fun _ : Short => Option SJobResult :=
  results

/-- The second loop over `m_threads`. -/
def removeThreads (results : AList fun _ : Short => Option SJobResult)
    (threads : List (SJobThread S)) : AList fun _ : Short => Option SJobResult :=
  threads.foldl (fun results t =>
    if t.threadFinished then removeThread results t else results) results

/-- The second block of the loop in `JobMapper.run`. -/
def JobMapper.gather (m : JobMapper S) : Option (JobMapper S) :=
  if m.gathering then
    some { m with
      results := removeThreads (putResults m.results m.threads) m.threads
      gathering := false }
  else none

/-! ### The scheduler -/

/-- `SchedulerImpl`: `m_mapper` and `__server_id_counter`. -/
structure SchedulerImpl (S : Type*) where
  mapper : JobMapper S
  serverIdCounter : Short

/-- `SchedulerImpl.submitJob`. -/
def SchedulerImpl.submitJob (s : SchedulerImpl S) (job : SJob) : Short × SchedulerImpl S :=
  ((s.mapper.putJob job).1, { s with mapper := (s.mapper.putJob job).2 })

/-- `SchedulerImpl.getResult`, the text of the answer. -/
def SchedulerImpl.getResult (s : SchedulerImpl S) (jobID : Short) : String × SchedulerImpl S :=
  (match (s.mapper.getResult jobID).1 with
    | none => inProgress
    | some r => r.result,
   { s with mapper := (s.mapper.getResult jobID).2 })

/-- `SchedulerImpl.getServerID`. -/
def SchedulerImpl.getServerID (s : SchedulerImpl S) : Short × SchedulerImpl S :=
  (s.serverIdCounter, { s with serverIdCounter := s.serverIdCounter + 1 })

/-- The first block of the loop in `JobMapper.run`, for an order in which the iterator may give
    the keys of `m_jobs`; it asks the scheduler how many servers there are. -/
def SchedulerImpl.mapJobs (s : SchedulerImpl S) (picks : List (Pick S)) :
    Option (SchedulerImpl S) :=
  if s.mapper.gathering = false ∧ (picks.map (·.key)).Perm s.mapper.jobs.keys then
    some {
      mapper := { s.mapper with
        threads := s.mapper.threads ++ startThreads s.mapper.jobs s.serverIdCounter picks
        jobs := ∅
        gathering := true }
      serverIdCounter :=
        picks.foldl (fun servers p => servers + BitVec.ofNat 16 p.registered) s.serverIdCounter }
  else none

/-! ### Clients, servers and threads -/

/-- The steps of clients, servers, the mapper and the job threads. -/
inductive Action (S : Type*) where
  | submitJob (job : String)
  | getResult (jobID : Short)
  | getServerID
  | mapJobs (picks : List (Pick S))
  | gather
  | run (thread : Nat) (answers : Bool)

/-- The scheduler and what its clients have seen: the ids given to jobs, the last one first,
    the ids for which a result was returned, and these results. -/
structure History (S : Type*) where
  scheduler : SchedulerImpl S
  given : List (Short × SJob)
  answered : List Short
  returned : List SJobResult

/-- A scheduler that has just been started. -/
def History.start : History S where
  scheduler := ⟨⟨∅, ∅, [], 0, false⟩, 0⟩
  given := []
  answered := []
  returned := []

/-- The mapper of the scheduler. -/
abbrev History.mapper (h : History S) : JobMapper S := h.scheduler.mapper

/-- The job to which `submitJob` gave `id` most recently. -/
def History.latest (h : History S) (id : Short) : Option SJob := h.given.lookup id

/-- One step, if it is possible. -/
def step (h : History S) : Action S → Option (History S)
  | .submitJob command =>
    let job : SJob := ⟨h.given.length, command⟩
    let r := h.scheduler.submitJob job
    some { h with scheduler := r.2, given := (r.1, job) :: h.given }
  | .getResult jobID =>
    let result := (h.mapper.getResult jobID).1
    some { h with
      scheduler := (h.scheduler.getResult jobID).2
      answered := if result = none then h.answered else jobID :: h.answered
      returned := result.toList ++ h.returned }
  | .getServerID => some { h with scheduler := h.scheduler.getServerID.2 }
  | .mapJobs picks => (h.scheduler.mapJobs picks).map fun s => { h with scheduler := s }
  | .gather => h.mapper.gather.map fun m => { h with scheduler := { h.scheduler with mapper := m } }
  | .run thread answers =>
    match h.mapper.threads[thread]? with
    | none => none
    | some t =>
      if t.alive then
        some { h with scheduler := { h.scheduler with mapper := { h.mapper with
          threads := h.mapper.threads.set thread (t.run answers) } } }
      else none

end WorkAtUPB.SchedulingService

import Mathlib.Data.List.Induction
import WorkAtUPB.SchedulingService.JobMapper

namespace WorkAtUPB.SchedulingService

/-!
# Where jobs and results come from

What the operations of the mapper do to its collections, and the invariants that follow:

* `Traced` — whatever the scheduler has of a job stems from the submission of the job, and a
  result is the one of a thread, computed for the job of that thread;
* `Fresh` — as long as fewer than 65536 jobs have been submitted, no two of the pending and
  running jobs have the same id.
-/

variable {S : Type*}

/-! ### The operations -/

@[simp] theorem SJobThread.run_job (t : SJobThread S) (answers : Bool) :
    (t.run answers).job = t.job := by
  unfold SJobThread.run
  split <;> [split; skip] <;> rfl

@[simp] theorem SJobThread.run_jobID (t : SJobThread S) (answers : Bool) :
    (t.run answers).jobID = t.jobID := by
  unfold SJobThread.run
  split <;> [split; skip] <;> rfl

@[simp] theorem SJobThread.run_server (t : SJobThread S) (answers : Bool) :
    (t.run answers).server = t.server := by
  unfold SJobThread.run
  split <;> [split; skip] <;> rfl

@[simp] theorem SJobThread.run_alive (t : SJobThread S) (answers : Bool) :
    (t.run answers).alive = false := by
  unfold SJobThread.run
  split <;> [split; skip] <;> rfl

/-- What a thread has computed after its `run`, if it had nothing before. -/
theorem SJobThread.run_result {t : SJobThread S} {answers : Bool} {r : SJobResult}
    (hnone : t.result = none) (h : (t.run answers).result = some r) :
    r = executeJob t.job ∧ t.server ≠ none ∧ (t.run answers).threadFinished = true := by
  unfold SJobThread.run at h ⊢
  cases hs : t.server with
  | none => simp [hs, hnone] at h
  | some s =>
    cases answers with
    | false => simp [hs, hnone] at h
    | true =>
      simp only [hs, if_true, Option.some.injEq] at h
      exact ⟨h.symm, by simp, by simp⟩

/-- The finished thread that is the last one to put something under `id`. -/
def lastFinished (threads : List (SJobThread S)) (id : Short) : Option (SJobThread S) :=
  threads.reverse.find? fun t => t.threadFinished && t.jobID == id

theorem lastFinished_spec {threads : List (SJobThread S)} {id : Short} {t : SJobThread S}
    (h : lastFinished threads id = some t) :
    t ∈ threads ∧ t.threadFinished = true ∧ t.jobID = id := by
  have hmem := List.mem_of_find?_eq_some h
  have hp := List.find?_some h
  simp only [Bool.and_eq_true, beq_iff_eq] at hp
  exact ⟨List.mem_reverse.mp hmem, hp⟩

/-- If no two threads have the same id, every finished thread is the last one of its id. -/
theorem lastFinished_of_nodup {threads : List (SJobThread S)}
    (hnodup : (threads.map (·.jobID)).Nodup) {t : SJobThread S} (ht : t ∈ threads)
    (hfin : t.threadFinished = true) : lastFinished threads t.jobID = some t := by
  cases h : lastFinished threads t.jobID with
  | none =>
    have hnot := List.find?_eq_none.mp h t (List.mem_reverse.mpr ht)
    simp [hfin] at hnot
  | some u =>
    obtain ⟨hu, -, hid⟩ := lastFinished_spec h
    rw [List.inj_on_of_nodup_map hnodup hu ht hid]

/-- After the first loop over the threads, an id has what its last finished thread put there,
    or what it had before. -/
theorem lookup_putResults (results : AList fun _ : Short => Option SJobResult)
    (threads : List (SJobThread S)) (id : Short) :
    (putResults results threads).lookup id =
      ((lastFinished threads id).map (·.result)).or (results.lookup id) := by
  induction threads using List.reverseRecOn with
  | nil => rfl
  | append_singleton ts t ih =>
    rw [putResults, List.foldl_append]
    show (if t.threadFinished then (putResults results ts).insert t.jobID t.getResult
      else putResults results ts).lookup id = _
    rw [lastFinished, List.reverse_append, List.reverse_singleton, List.singleton_append,
      List.find?_cons]
    cases hfin : t.threadFinished with
    | false => simpa [hfin, lastFinished] using ih
    | true =>
      by_cases hid : t.jobID = id
      · subst hid
        simp [AList.lookup_insert, SJobThread.getResult, hfin]
      · have hbeq : (t.jobID == id) = false := beq_false_of_ne hid
        simp only [if_true, Bool.true_and, hbeq]
        rw [AList.lookup_insert_ne (Ne.symm hid)]
        exact ih

/-- A result that is under an id after the loop was put there by the last finished thread, or was
    there and no thread put anything. -/
theorem lookup_putResults_eq_some {results : AList fun _ : Short => Option SJobResult}
    {threads : List (SJobThread S)} {id : Short} {r : SJobResult} :
    (putResults results threads).lookup id = some (some r) ↔
      (∃ t, lastFinished threads id = some t ∧ t.result = some r) ∨
        (lastFinished threads id = none ∧ results.lookup id = some (some r)) := by
  rw [lookup_putResults]
  cases lastFinished threads id <;> simp

/-- The second loop over the threads removes nothing. -/
theorem removeThreads_eq (results : AList fun _ : Short => Option SJobResult)
    (threads : List (SJobThread S)) : removeThreads results threads = results := by
  simp [removeThreads, removeThread]

/-- A thread that has just been started runs the job under its id. -/
theorem mem_startThreads {jobs : AList fun _ : Short => SJob} {servers : Short}
    {picks : List (Pick S)} {t : SJobThread S} (ht : t ∈ startThreads jobs servers picks) :
    jobs.lookup t.jobID = some t.job ∧ t.result = none ∧ t.threadFinished = false := by
  induction picks generalizing servers with
  | nil => simp [startThreads] at ht
  | cons p ps ih =>
    rcases List.mem_append.mp ht with hnew | hrest
    · obtain ⟨job, hjob, rfl⟩ := Option.map_eq_some_iff.mp (Option.mem_toList.mp hnew)
      exact ⟨hjob, rfl, rfl⟩
    · exact ih hrest

/-- The loop over `m_jobs` starts one thread for each key. -/
theorem startThreads_jobIDs {jobs : AList fun _ : Short => SJob} {picks : List (Pick S)}
    (hkeys : ∀ p ∈ picks, p.key ∈ jobs) (servers : Short) :
    (startThreads jobs servers picks).map (·.jobID) = picks.map (·.key) := by
  induction picks generalizing servers with
  | nil => rfl
  | cons p ps ih =>
    obtain ⟨job, hjob⟩ := Option.isSome_iff_exists.mp
      (AList.lookup_isSome.mpr (hkeys p List.mem_cons_self))
    simp [startThreads, hjob, ih fun q hq => hkeys q (List.mem_cons_of_mem p hq)]

/-- `getResult` takes what is in `m_results` under the id. -/
theorem getResult_eq (m : JobMapper S) (id : Short) :
    m.getResult id = ((m.results.lookup id).join, { m with results := m.results.erase id }) := by
  unfold JobMapper.getResult
  split
  · rfl
  · next hmem =>
    have herase : m.results.erase id = m.results :=
      AList.ext (List.kerase_of_notMem_keys fun h => hmem (AList.mem_keys.mpr h))
    rw [AList.lookup_eq_none.mpr hmem, herase]
    rfl

theorem getResult_fst_eq_some {m : JobMapper S} {id : Short} {r : SJobResult} :
    (m.getResult id).1 = some r ↔ m.results.lookup id = some (some r) := by
  rw [getResult_eq, Option.join_eq_some_iff]

/-- What is left after something has been erased was there before. -/
theorem lookup_of_lookup_erase {results : AList fun _ : Short => Option SJobResult}
    {id k : Short} {r : Option SJobResult} (h : (results.erase id).lookup k = some r) :
    k ≠ id ∧ results.lookup k = some r := by
  by_cases hk : k = id
  · subst hk
    rw [AList.lookup_erase] at h
    cases h
  · exact ⟨hk, by rwa [AList.lookup_erase_ne hk] at h⟩

/-! ### Steps -/

/-- A thread that is not replaced stays. -/
theorem mem_set_of_ne {α : Type*} {l : List α} {i : Nat} {a b x : α} (hx : x ∈ l)
    (hi : l[i]? = some a) (hne : x ≠ a) : x ∈ l.set i b := by
  obtain ⟨j, hj⟩ := List.mem_iff_getElem?.mp hx
  have hij : i ≠ j := by
    rintro rfl
    exact hne (Option.some.inj (hj.symm.trans hi))
  exact List.mem_iff_getElem?.mpr ⟨j, by rw [List.getElem?_set_ne hij, hj]⟩

/-- When the mapper can map the pending jobs, and to what. -/
theorem step_mapJobs {h h' : History S} {picks : List (Pick S)}
    (hs : step h (.mapJobs picks) = some h') :
    (picks.map (·.key)).Perm h.mapper.jobs.keys ∧
      h'.mapper = { h.mapper with
        threads := h.mapper.threads ++
          startThreads h.mapper.jobs h.scheduler.serverIdCounter picks
        jobs := ∅
        gathering := true } ∧
      h'.given = h.given ∧ h'.answered = h.answered ∧ h'.returned = h.returned := by
  obtain ⟨s, hmap, rfl⟩ := Option.map_eq_some_iff.mp hs
  unfold SchedulerImpl.mapJobs at hmap
  split at hmap
  · next hcan =>
    obtain rfl := Option.some.inj hmap
    exact ⟨hcan.2, rfl, rfl, rfl, rfl⟩
  · cases hmap

/-- When the mapper can gather the results, and what becomes of them. -/
theorem step_gather {h h' : History S} (hs : step h .gather = some h') :
    h.mapper.gathering = true ∧
      h'.mapper = { h.mapper with
        results := putResults h.mapper.results h.mapper.threads
        gathering := false } ∧
      h'.given = h.given ∧ h'.answered = h.answered ∧ h'.returned = h.returned := by
  obtain ⟨m, hgather, rfl⟩ := Option.map_eq_some_iff.mp hs
  unfold JobMapper.gather at hgather
  split at hgather
  · next hcan =>
    obtain rfl := Option.some.inj hgather
    exact ⟨hcan, by rw [History.mapper, removeThreads_eq], rfl, rfl, rfl⟩
  · cases hgather

/-- When a thread can run, and what becomes of it. -/
theorem step_run {h h' : History S} {i : Nat} {answers : Bool}
    (hs : step h (.run i answers) = some h') :
    ∃ t, h.mapper.threads[i]? = some t ∧ t.alive = true ∧
      h'.mapper = { h.mapper with threads := h.mapper.threads.set i (t.run answers) } ∧
      h'.given = h.given ∧ h'.answered = h.answered ∧ h'.returned = h.returned := by
  simp only [step] at hs
  cases ht : h.mapper.threads[i]? with
  | none => simp [ht] at hs
  | some t =>
    by_cases halive : t.alive = true
    · simp only [ht, halive, if_true, Option.some.injEq] at hs
      subst hs
      exact ⟨t, rfl, halive, rfl, rfl, rfl, rfl⟩
    · simp [ht, halive] at hs

/-! ### The invariants -/

/-- A thread runs a job that was submitted, and a result is the one of its job. -/
structure SJobThread.Sound (given : List (Short × SJob)) (t : SJobThread S) : Prop where
  given : (t.jobID, t.job) ∈ given
  alive : t.alive = true → t.result = none ∧ t.threadFinished = false
  computed : ∀ r, t.result = some r →
    r = executeJob t.job ∧ t.server ≠ none ∧ t.threadFinished = true

/-- Whatever the scheduler has of a job stems from the submission of the job. -/
structure Traced (h : History S) : Prop where
  id_eq : h.mapper.id = BitVec.ofNat 16 h.given.length
  given : ∀ p ∈ h.given, p.2.oid < h.given.length ∧ p.1 = BitVec.ofNat 16 p.2.oid
  jobs : ∀ id job, h.mapper.jobs.lookup id = some job → (id, job) ∈ h.given
  threads : ∀ t ∈ h.mapper.threads, t.Sound h.given
  results : ∀ id r, h.mapper.results.lookup id = some (some r) →
    ∃ t ∈ h.mapper.threads, t.jobID = id ∧ t.result = some r
  returned : ∀ r ∈ h.returned, ∃ t ∈ h.mapper.threads, t.result = some r
  answered : ∀ id ∈ h.answered, ∃ t ∈ h.mapper.threads, t.jobID = id ∧ ∃ r, t.result = some r

theorem traced_start : Traced (History.start : History S) where
  id_eq := rfl
  given := nofun
  jobs := nofun
  threads := nofun
  results := nofun
  returned := nofun
  answered := nofun

theorem SJobThread.Sound.cons {given : List (Short × SJob)} {t : SJobThread S}
    (ht : t.Sound given) (p : Short × SJob) : t.Sound (p :: given) :=
  ⟨List.mem_cons_of_mem p ht.given, ht.alive, ht.computed⟩

/-- A thread that has just been started has no result. -/
theorem sound_of_mem_startThreads {jobs : AList fun _ : Short => SJob} {servers : Short}
    {picks : List (Pick S)} {given : List (Short × SJob)}
    (hjobs : ∀ id job, jobs.lookup id = some job → (id, job) ∈ given) {t : SJobThread S}
    (ht : t ∈ startThreads jobs servers picks) : t.Sound given := by
  obtain ⟨hjob, hnone, hfin⟩ := mem_startThreads ht
  refine ⟨hjobs _ _ hjob, fun _ => ⟨hnone, hfin⟩, fun r hr => ?_⟩
  rw [hnone] at hr
  cases hr

/-- A thread that was in order is so after its run. -/
theorem SJobThread.Sound.run {given : List (Short × SJob)} {t : SJobThread S}
    (ht : t.Sound given) (halive : t.alive = true) (answers : Bool) :
    (t.run answers).Sound given where
  given := by simpa using ht.given
  alive := by simp
  computed := fun r hr => by simpa using SJobThread.run_result (ht.alive halive).1 hr

theorem traced_submitJob {h h' : History S} {command : String} (ht : Traced h)
    (hs : step h (.submitJob command) = some h') : Traced h' := by
  obtain rfl := Option.some.inj hs
  refine ⟨?_, ?_, ?_, fun t hmem => (ht.threads t hmem).cons _, ht.results, ht.returned,
    ht.answered⟩
  · simp [SchedulerImpl.submitJob, JobMapper.putJob, ht.id_eq, BitVec.ofNat_add]
  · intro p hp
    rcases List.mem_cons.mp hp with rfl | hp
    · exact ⟨by simp, ht.id_eq⟩
    · have hold := ht.given p hp
      exact ⟨Nat.lt_succ_of_lt hold.1, hold.2⟩
  · intro id job hjob
    simp only [SchedulerImpl.submitJob, JobMapper.putJob] at hjob ⊢
    by_cases hid : id = h.mapper.id
    · subst hid
      rw [AList.lookup_insert, Option.some.injEq] at hjob
      subst hjob
      exact List.mem_cons_self
    · rw [AList.lookup_insert_ne hid] at hjob
      exact List.mem_cons_of_mem _ (ht.jobs id job hjob)

theorem traced_getResult {h h' : History S} {id : Short} (ht : Traced h)
    (hs : step h (.getResult id) = some h') : Traced h' := by
  obtain rfl := Option.some.inj hs
  simp only [SchedulerImpl.getResult, getResult_eq]
  refine ⟨ht.id_eq, ht.given, ht.jobs, ht.threads, ?_, ?_, ?_⟩
  · intro k r hr
    exact ht.results k r (lookup_of_lookup_erase hr).2
  · intro r hr
    rcases List.mem_append.mp hr with hnew | hold
    · rw [Option.mem_toList, Option.join_eq_some_iff] at hnew
      obtain ⟨t, hmem, -, hres⟩ := ht.results id r hnew
      exact ⟨t, hmem, hres⟩
    · exact ht.returned r hold
  · intro k hk
    split at hk
    · exact ht.answered k hk
    · next hne =>
      rcases List.mem_cons.mp hk with rfl | hk
      · obtain ⟨r, hr⟩ := Option.ne_none_iff_exists'.mp hne
        obtain ⟨t, hmem, hid, hres⟩ := ht.results k r (Option.join_eq_some_iff.mp hr)
        exact ⟨t, hmem, hid, r, hres⟩
      · exact ht.answered k hk

/-- Steps of the mapper and of the threads: no client is involved, the threads are in order, and
    those that have a result stay. -/
theorem Traced.of_threads {h h' : History S} (ht : Traced h)
    (hclients : h'.given = h.given ∧ h'.answered = h.answered ∧ h'.returned = h.returned)
    (hid : h'.mapper.id = h.mapper.id)
    (hjobs : ∀ id job, h'.mapper.jobs.lookup id = some job →
      h.mapper.jobs.lookup id = some job)
    (hthreads : ∀ t ∈ h'.mapper.threads, t.Sound h.given)
    (hkeep : ∀ t ∈ h.mapper.threads, ∀ r, t.result = some r → t ∈ h'.mapper.threads)
    (hresults : ∀ id r, h'.mapper.results.lookup id = some (some r) →
      ∃ t ∈ h.mapper.threads, t.jobID = id ∧ t.result = some r) : Traced h' := by
  obtain ⟨hgiven, hanswered, hreturned⟩ := hclients
  refine ⟨?_, ?_, ?_, ?_, ?_, ?_, ?_⟩
  · rw [hid, hgiven]
    exact ht.id_eq
  · rw [hgiven]
    exact ht.given
  · rw [hgiven]
    exact fun id job hjob => ht.jobs id job (hjobs id job hjob)
  · rw [hgiven]
    exact hthreads
  · intro id r hr
    obtain ⟨t, hmem, hid, hres⟩ := hresults id r hr
    exact ⟨t, hkeep t hmem r hres, hid, hres⟩
  · rw [hreturned]
    intro r hr
    obtain ⟨t, hmem, hres⟩ := ht.returned r hr
    exact ⟨t, hkeep t hmem r hres, hres⟩
  · rw [hanswered]
    intro id hid
    obtain ⟨t, hmem, hjob, r, hres⟩ := ht.answered id hid
    exact ⟨t, hkeep t hmem r hres, hjob, r, hres⟩

theorem traced_mapJobs {h h' : History S} {picks : List (Pick S)} (ht : Traced h)
    (hs : step h (.mapJobs picks) = some h') : Traced h' := by
  obtain ⟨-, hmapper, hclients⟩ := step_mapJobs hs
  refine ht.of_threads hclients ?_ ?_ ?_ ?_ ?_ <;> rw [hmapper]
  · nofun
  · intro t hmem
    rcases List.mem_append.mp hmem with hold | hnew
    · exact ht.threads t hold
    · exact sound_of_mem_startThreads ht.jobs hnew
  · exact fun t hmem _ _ => List.mem_append_left _ hmem
  · exact ht.results

theorem traced_gather {h h' : History S} (ht : Traced h) (hs : step h .gather = some h') :
    Traced h' := by
  obtain ⟨-, hmapper, hclients⟩ := step_gather hs
  refine ht.of_threads hclients ?_ ?_ ?_ ?_ ?_ <;> rw [hmapper]
  · exact fun _ _ hjob => hjob
  · exact ht.threads
  · exact fun t hmem _ _ => hmem
  · intro id r hr
    rcases lookup_putResults_eq_some.mp hr with ⟨t, hlast, hres⟩ | ⟨-, hold⟩
    · obtain ⟨hmem, -, hid⟩ := lastFinished_spec hlast
      exact ⟨t, hmem, hid, hres⟩
    · exact ht.results id r hold

theorem traced_run {h h' : History S} {i : Nat} {answers : Bool} (ht : Traced h)
    (hs : step h (.run i answers) = some h') : Traced h' := by
  obtain ⟨t, hi, halive, hmapper, hclients⟩ := step_run hs
  have hsound := ht.threads t (List.mem_of_getElem? hi)
  refine ht.of_threads hclients ?_ ?_ ?_ ?_ ?_ <;> rw [hmapper]
  · exact fun _ _ hjob => hjob
  · intro u hmem
    rcases List.mem_or_eq_of_mem_set hmem with hold | rfl
    · exact ht.threads u hold
    · exact hsound.run halive answers
  · -- The thread that runs had no result before, so every result is still there.
    intro u hmem r hr
    refine mem_set_of_ne hmem hi ?_
    rintro rfl
    rw [(hsound.alive halive).1] at hr
    cases hr
  · exact ht.results

/-- Every step keeps jobs and results traced. -/
theorem traced_step {h h' : History S} {a : Action S} (ht : Traced h)
    (hs : step h a = some h') : Traced h' := by
  cases a with
  | submitJob command => exact traced_submitJob ht hs
  | getResult id => exact traced_getResult ht hs
  | getServerID =>
    obtain rfl := Option.some.inj hs
    exact ⟨ht.id_eq, ht.given, ht.jobs, ht.threads, ht.results, ht.returned, ht.answered⟩
  | mapJobs picks => exact traced_mapJobs ht hs
  | gather => exact traced_gather ht hs
  | run i answers => exact traced_run ht hs

/-- The ids of the running and of the pending jobs. -/
def usedIDs (h : History S) : List Short :=
  h.mapper.threads.map (·.jobID) ++ h.mapper.jobs.keys

/-- No two of the running and pending jobs have the same id. -/
def Fresh (h : History S) : Prop := (usedIDs h).Nodup

/-- The action submits a job. -/
def Action.isSubmit : Action S → Bool
  | .submitJob _ => true
  | _ => false

/-- The ids given so far are the numbers of the submissions, and the next one is new. -/
theorem id_ne_of_given {h : History S} (ht : Traced h) (hbudget : h.given.length < 65536)
    {id : Short} {job : SJob} (hmem : (id, job) ∈ h.given) : id ≠ h.mapper.id := by
  obtain ⟨hlt, hid⟩ := ht.given _ hmem
  simp only at hlt hid
  rw [hid, ht.id_eq]
  intro heq
  have hval := congrArg BitVec.toNat heq
  simp only [BitVec.toNat_ofNat] at hval
  omega

/-- With fewer than 65536 submissions, no id is used twice. -/
theorem fresh_step {h h' : History S} {a : Action S} (ht : Traced h) (hf : Fresh h)
    (hbudget : a.isSubmit = true → h.given.length < 65536) (hs : step h a = some h') :
    Fresh h' := by
  unfold Fresh usedIDs at hf ⊢
  cases a with
  | submitJob command =>
    obtain rfl := Option.some.inj hs
    -- The next id is that of no job and of no thread.
    have hjobs : h.mapper.id ∉ h.mapper.jobs.keys := by
      intro hmem
      obtain ⟨job, hjob⟩ := Option.isSome_iff_exists.mp
        (AList.lookup_isSome.mpr (AList.mem_keys.mpr hmem))
      exact id_ne_of_given ht (hbudget rfl) (ht.jobs _ _ hjob) rfl
    have hthreads : h.mapper.id ∉ h.mapper.threads.map (·.jobID) := by
      intro hmem
      obtain ⟨t, htmem, hid⟩ := List.mem_map.mp hmem
      exact id_ne_of_given ht (hbudget rfl) (ht.threads t htmem).given hid
    simp only [SchedulerImpl.submitJob, JobMapper.putJob, AList.keys_insert,
      List.erase_of_not_mem hjobs]
    exact (List.nodup_middle.mpr (List.nodup_cons.mpr
      ⟨fun hmem => (List.mem_append.mp hmem).elim hthreads hjobs, hf⟩))
  | getResult id =>
    obtain rfl := Option.some.inj hs
    simpa [SchedulerImpl.getResult, getResult_eq] using hf
  | getServerID =>
    obtain rfl := Option.some.inj hs
    exact hf
  | mapJobs picks =>
    obtain ⟨hperm, hmapper, -⟩ := step_mapJobs hs
    -- The jobs turn into threads with the same ids.
    have hkeys : ∀ p ∈ picks, p.key ∈ h.mapper.jobs := fun p hp =>
      AList.mem_keys.mpr (hperm.mem_iff.mp (List.mem_map_of_mem hp))
    rw [hmapper, AList.keys_empty, List.append_nil, List.map_append,
      startThreads_jobIDs hkeys]
    exact (hperm.append_left _).nodup_iff.mpr hf
  | gather =>
    obtain ⟨-, hmapper, -⟩ := step_gather hs
    rwa [hmapper]
  | run i answers =>
    obtain ⟨t, hi, -, hmapper, -⟩ := step_run hs
    obtain ⟨hlt, hget⟩ := List.getElem?_eq_some_iff.mp hi
    have hlen : i < (h.mapper.threads.map (·.jobID)).length := by simpa using hlt
    have hid : (h.mapper.threads.map (·.jobID))[i] = t.jobID := by simp [hget]
    -- A thread that has run keeps its id.
    have hsame : (h.mapper.threads.set i (t.run answers)).map (·.jobID) =
        h.mapper.threads.map (·.jobID) := by
      rw [List.map_set, SJobThread.run_jobID, ← hid, List.set_getElem_self]
    rwa [hmapper, hsame]

end WorkAtUPB.SchedulingService

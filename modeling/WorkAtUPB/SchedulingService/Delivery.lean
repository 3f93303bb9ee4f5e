import WorkAtUPB.SchedulingService.Tracing

namespace WorkAtUPB.SchedulingService

open Run

/-!
# What clients are answered

`getResult` takes a result out of `m_results`, but the thread that computed it stays in
`m_threads` for ever (the loop that is to remove it asks `m_results` for it), and the mapper
puts the result back in its next round:

* `DeliveredOnce` — an id that was answered has no result any more;
* `always_deliveredOnce_iff` — so it is exactly while the mapper does not gather after the
  first delivery;
* `AnswersRight` — what `getResult` returns was computed for the job that has the id now;
* `always_answersRight_iff` — so it is exactly while no id is given again whose result is in
  `m_results`, and the last finished thread of an id runs the job that has the id now.
-/

variable {S : Type*}

/-! ### Texts of answers -/

/-- No job is so named that its result reads like the answer for a job in progress. -/
theorem executeJob_ne_inProgress (job : SJob) : (executeJob job).result ≠ inProgress := by
  intro h
  have hchars := congrArg String.toList h
  simp [executeJob, inProgress] at hchars

theorem result_ne_inProgress {h : History S} (ht : Traced h) {id : Short} {r : SJobResult}
    (hr : h.mapper.results.lookup id = some (some r)) : r.result ≠ inProgress := by
  obtain ⟨t, hmem, -, hres⟩ := ht.results id r hr
  rw [((ht.threads t hmem).computed r hres).1]
  exact executeJob_ne_inProgress t.job

/-- The answer is that the job is in progress exactly when there is no result for it. -/
theorem getResult_inProgress_iff {h : History S} (ht : Traced h) (id : Short) :
    (h.scheduler.getResult id).1 = inProgress ↔
      ∀ r, h.mapper.results.lookup id ≠ some (some r) := by
  unfold SchedulerImpl.getResult
  cases hget : (h.scheduler.mapper.getResult id).1 with
  | none =>
    refine iff_of_true rfl fun r hr => ?_
    rw [getResult_fst_eq_some.mpr hr] at hget
    cases hget
  | some r =>
    have hr := getResult_fst_eq_some.mp hget
    exact iff_of_false (result_ne_inProgress ht hr) fun hnone => hnone r hr

/-! ### At most one delivery -/

/-- For an id that was answered with a result, `getResult` answers that the job is in progress,
    and there is no result in `m_results`. -/
def DeliveredOnce (h : History S) : Prop :=
  ∀ id ∈ h.answered, (h.scheduler.getResult id).1 = inProgress ∧
    ∀ r, h.mapper.results.lookup id ≠ some (some r)

/-- When the mapper gathers, no result was delivered so far. -/
def NothingDelivered (h : History S) : Action S → Prop
  | .gather => h.mapper.gathering = true → h.answered = []
  | _ => True

instance (h : History S) : (a : Action S) → Decidable (NothingDelivered h a)
  | .gather => by unfold NothingDelivered; infer_instance
  | .submitJob _ | .getResult _ | .getServerID | .mapJobs _ | .run _ _ => isTrue trivial

theorem deliveredOnce_iff {h : History S} (ht : Traced h) :
    DeliveredOnce h ↔
      ∀ id ∈ h.answered, ∀ r, h.mapper.results.lookup id ≠ some (some r) := by
  simp only [DeliveredOnce, getResult_inProgress_iff ht, and_self]

/-- The mapper puts a result back exactly when one was delivered before it gathers. -/
theorem deliveredOnce_step {h h' : History S} {a : Action S} (ht : Traced h) (hf : Fresh h)
    (hP : DeliveredOnce h) (hs : step h a = some h') :
    DeliveredOnce h' ↔ NothingDelivered h a := by
  rw [deliveredOnce_iff ht] at hP
  rw [deliveredOnce_iff (traced_step ht hs)]
  cases a with
  | submitJob command =>
    obtain rfl := Option.some.inj hs
    exact iff_of_true hP trivial
  | getResult id =>
    obtain rfl := Option.some.inj hs
    refine iff_of_true (fun k hk r hr => ?_) trivial
    simp only [History.mapper, SchedulerImpl.getResult, getResult_eq] at hk hr
    obtain ⟨hne, hold⟩ := lookup_of_lookup_erase hr
    refine hP k ?_ r hold
    split at hk
    · exact hk
    · exact (List.mem_cons.mp hk).resolve_left hne
  | getServerID =>
    obtain rfl := Option.some.inj hs
    exact iff_of_true hP trivial
  | mapJobs picks =>
    obtain ⟨-, hmapper, -, hanswered, -⟩ := step_mapJobs hs
    rw [hmapper, hanswered]
    exact iff_of_true hP trivial
  | gather =>
    obtain ⟨hcan, hmapper, -, hanswered, -⟩ := step_gather hs
    have hnodup : (h.mapper.threads.map (·.jobID)).Nodup := (List.nodup_append.mp hf).1
    rw [hmapper, hanswered]
    constructor
    · -- The thread of a delivered result is the only one with its id, and puts it back.
      intro hnone _
      by_contra hne
      obtain ⟨id, hid⟩ := List.exists_mem_of_ne_nil _ hne
      obtain ⟨t, hmem, rfl, r, hr⟩ := ht.answered id hid
      have hlast := lastFinished_of_nodup hnodup hmem ((ht.threads t hmem).computed r hr).2.2
      exact hnone t.jobID hid r (lookup_putResults_eq_some.mpr (Or.inl ⟨t, hlast, hr⟩))
    · intro hC id hid
      rw [hC hcan] at hid
      cases hid
  | run i answers =>
    obtain ⟨t, -, -, hmapper, -, hanswered, -⟩ := step_run hs
    rw [hmapper, hanswered]
    exact iff_of_true hP trivial

/-- What holds along runs with fewer than 65536 submissions. -/
def Budgeted (h : History S) (as : List (Action S)) : Prop :=
  Traced h ∧ Fresh h ∧ h.given.length + as.countP Action.isSubmit < 65536

theorem budgeted_start {as : List (Action S)} (hsubmits : as.countP Action.isSubmit < 65536) :
    Budgeted (History.start : History S) as :=
  ⟨traced_start, List.nodup_nil, by simpa [History.start] using hsubmits⟩

theorem given_length_step {h h' : History S} {a : Action S} (hs : step h a = some h') :
    h'.given.length = h.given.length + if a.isSubmit then 1 else 0 := by
  cases a with
  | submitJob command =>
    obtain rfl := Option.some.inj hs
    rfl
  | getResult id =>
    obtain rfl := Option.some.inj hs
    rfl
  | getServerID =>
    obtain rfl := Option.some.inj hs
    rfl
  | mapJobs picks =>
    obtain ⟨-, -, hgiven, -⟩ := step_mapJobs hs
    simp [hgiven, Action.isSubmit]
  | gather =>
    obtain ⟨-, -, hgiven, -⟩ := step_gather hs
    simp [hgiven, Action.isSubmit]
  | run i answers =>
    obtain ⟨t, -, -, -, hgiven, -⟩ := step_run hs
    simp [hgiven, Action.isSubmit]

theorem budgeted_step {h h' : History S} {a : Action S} {as : List (Action S)}
    (hJ : Budgeted h (a :: as)) (hs : step h a = some h') : Budgeted h' as := by
  obtain ⟨ht, hf, hbudget⟩ := hJ
  rw [List.countP_cons] at hbudget
  refine ⟨traced_step ht hs, fresh_step ht hf (fun _ => by omega) hs, ?_⟩
  rw [given_length_step hs]
  omega

/-- **Delivered at most once.**  For every run with fewer than 65536 submissions: in each of its
    states an id that was answered with a result gets no other one and has none in `m_results`,
    exactly when the mapper never gathers after the first delivery. -/
theorem always_deliveredOnce_iff (as : List (Action S))
    (hsubmits : as.countP Action.isSubmit < 65536) :
    Always step DeliveredOnce History.start as ↔
      EachStep step NothingDelivered History.start as := by
  refine always_iff_eachStep_budget (J := Budgeted) ?_ ?_ ?_ (budgeted_start hsubmits) nofun
  · exact fun _ _ _ _ hJ _ hs _ => budgeted_step hJ hs
  · exact fun _ _ _ _ hJ hP hs => deliveredOnce_step hJ.1 hJ.2.1 hP hs
  · -- Only the gathering is restricted, and only where it is possible.
    intro h a as _ _ hs
    cases a with
    | gather =>
      intro hcan
      simp [step, JobMapper.gather, hcan] at hs
    | submitJob | getResult | getServerID | mapJobs | run => trivial

/-- The round of the mapper for the first job, with one server registered. -/
def firstPick : Pick Unit where
  key := 0
  registered := 1
  replies := fun i => if i = 0 then some ⟨(), "7%", "9%"⟩ else none

/-- A job is submitted, executed and its result fetched. -/
def oneDelivery : List (Action Unit) :=
  [.submitJob "command", .mapJobs [firstPick], .run 0 true, .gather, .getResult 0]

theorem always_deliveredOnce_one :
    Always step DeliveredOnce (History.start : History Unit) oneDelivery :=
  (always_deliveredOnce_iff oneDelivery (by decide)).mpr (by decide)

/-- **A second delivery.**  The mapper has one more round after the delivery. -/
theorem not_deliveredOnce : ¬ ∀ as : List (Action Unit), as.countP Action.isSubmit < 65536 →
    Always step DeliveredOnce History.start as := by
  intro h
  have hall := h (oneDelivery ++ [.mapJobs [], .gather]) (by decide)
  obtain ⟨s, hrun, hid, hres⟩ : ∃ s : History Unit,
      run step History.start (oneDelivery ++ [.mapJobs [], .gather]) = some s ∧
        0 ∈ s.answered ∧
        s.mapper.results.lookup 0 = some (some (executeJob ⟨0, "command"⟩)) :=
    ⟨_, rfl, by decide, by decide⟩
  exact (hall.last hrun 0 hid).2 _ hres

/-! ### The right result -/

/-- Whatever `getResult` returns was computed for the job that was given the id last. -/
def AnswersRight (h : History S) : Prop :=
  ∀ id r, (h.mapper.getResult id).1 = some r → h.latest id = some r.source

/-- An id is not given while there is a result under it, and when the mapper gathers, the last
    finished thread of an id has no result or runs the job that was given the id last. -/
def OwnResults (h : History S) : Action S → Prop
  | .submitJob _ => ∀ r, h.mapper.results.lookup h.mapper.id ≠ some (some r)
  | .gather => h.mapper.gathering = true → ∀ id t, lastFinished h.mapper.threads id = some t →
      t.result ≠ none → h.latest id = some t.job
  | _ => True

theorem answersRight_iff {h : History S} :
    AnswersRight h ↔
      ∀ id r, h.mapper.results.lookup id = some (some r) → h.latest id = some r.source := by
  simp only [AnswersRight, getResult_fst_eq_some]

theorem latest_congr {h h' : History S} (hgiven : h'.given = h.given) : h'.latest = h.latest := by
  funext id
  simp only [History.latest, hgiven]

/-- A result was computed for a job that has been submitted. -/
theorem source_lt {h : History S} (ht : Traced h) {id : Short} {r : SJobResult}
    (hr : h.mapper.results.lookup id = some (some r)) : r.source.oid < h.given.length := by
  obtain ⟨t, hmem, -, hres⟩ := ht.results id r hr
  obtain ⟨rfl, -⟩ := (ht.threads t hmem).computed r hres
  exact (ht.given _ (ht.threads t hmem).given).1

/-- A wrong result comes to an id exactly when the id is given again or when a thread of an
    earlier job is gathered. -/
theorem answersRight_step {h h' : History S} {a : Action S} (ht : Traced h)
    (hP : AnswersRight h) (hs : step h a = some h') : AnswersRight h' ↔ OwnResults h a := by
  rw [answersRight_iff] at hP ⊢
  cases a with
  | submitJob command =>
    obtain rfl := Option.some.inj hs
    simp only [History.latest, SchedulerImpl.submitJob, JobMapper.putJob, List.lookup_cons]
    constructor
    · -- A result that is there already was computed for another job than the new one.
      intro hright r hr
      have hnew := hright h.mapper.id r hr
      simp only [beq_self_eq_true, Option.some.injEq] at hnew
      have hlt := source_lt ht hr
      rw [← hnew] at hlt
      exact Nat.lt_irrefl _ hlt
    · intro hC id r hr
      by_cases hid : id = h.mapper.id
      · subst hid
        exact absurd hr (hC r)
      · simpa [beq_false_of_ne hid, History.latest] using hP id r hr
  | getResult id =>
    obtain rfl := Option.some.inj hs
    refine iff_of_true (fun k r hr => ?_) trivial
    simp only [History.mapper, SchedulerImpl.getResult, getResult_eq] at hr
    exact hP k r (lookup_of_lookup_erase hr).2
  | getServerID =>
    obtain rfl := Option.some.inj hs
    exact iff_of_true hP trivial
  | mapJobs picks =>
    obtain ⟨-, hmapper, hgiven, -⟩ := step_mapJobs hs
    simp only [hmapper, latest_congr hgiven]
    exact iff_of_true hP trivial
  | gather =>
    obtain ⟨hcan, hmapper, hgiven, -⟩ := step_gather hs
    simp only [hmapper, latest_congr hgiven]
    constructor
    · intro hright _ id t hlast hres
      obtain ⟨r, hr⟩ := Option.ne_none_iff_exists'.mp hres
      have hlatest := hright id r (lookup_putResults_eq_some.mpr (Or.inl ⟨t, hlast, hr⟩))
      rwa [((ht.threads t (lastFinished_spec hlast).1).computed r hr).1] at hlatest
    · intro hC id r hr
      rcases lookup_putResults_eq_some.mp hr with ⟨t, hlast, hres⟩ | ⟨-, hold⟩
      · rw [((ht.threads t (lastFinished_spec hlast).1).computed r hres).1]
        exact hC hcan id t hlast (by simp [hres])
      · exact hP id r hold
  | run i answers =>
    obtain ⟨t, -, -, hmapper, hgiven, -⟩ := step_run hs
    simp only [hmapper, latest_congr hgiven]
    exact iff_of_true hP trivial

/-- **The right result.**  For every run, with as many submissions as one likes: in each of its
    states whatever `getResult` returns was computed for the job that was given the id last,
    exactly when each step of the run meets `OwnResults`. -/
theorem always_answersRight_iff (as : List (Action S)) :
    Always step AnswersRight History.start as ↔ EachStep step OwnResults History.start as := by
  refine always_iff_eachStep (J := Traced) ?_ ?_ ?_ traced_start nofun
  · exact fun _ _ _ ht _ hs _ => traced_step ht hs
  · exact fun _ _ _ ht hP hs => answersRight_step ht hP hs
  · intro h a _ _ hs
    cases a with
    | gather =>
      intro hcan
      simp [step, JobMapper.gather, hcan] at hs
    | submitJob => simp [step] at hs
    | getResult | getServerID | mapJobs | run => trivial

/-- What many submissions in a row leave as it is, and the id they come to. -/
theorem run_submitJob (n : Nat) (command : String) (h : History S) :
    ∃ h', run step h (List.replicate n (.submitJob command)) = some h' ∧
      h'.mapper.threads = h.mapper.threads ∧ h'.mapper.gathering = h.mapper.gathering ∧
      h'.mapper.id = h.mapper.id + BitVec.ofNat 16 n ∧
      h'.given.length = h.given.length + n := by
  induction n generalizing h with
  | zero => exact ⟨h, rfl, rfl, rfl, by simp, rfl⟩
  | succ n ih =>
    obtain ⟨h', hrun, hthreads, hgathering, hid, hlength⟩ :=
      ih ((step h (.submitJob command)).get rfl)
    refine ⟨h', hrun, hthreads, hgathering, ?_, ?_⟩
    · rw [hid, BitVec.ofNat_add, BitVec.add_comm (BitVec.ofNat 16 n), ← BitVec.add_assoc]
      rfl
    · rw [hlength]
      simp only [step, Option.get_some, List.length_cons]
      omega

/-- **A wrong result.**  The result of the first job is delivered.  While the mapper is between
    its two blocks, 65536 more jobs are submitted, the last of which is given the id of the
    first; the mapper then puts the result of the first one back. -/
theorem not_answersRight : ¬ ∀ as : List (Action Unit),
    Always step AnswersRight History.start as := by
  intro h
  obtain ⟨h₁, hrun₁, hgathering₁, hid₁, hlast₁, hlength₁⟩ : ∃ s : History Unit,
      run step History.start (oneDelivery ++ [.mapJobs []]) = some s ∧
        s.mapper.gathering = true ∧ s.mapper.id = 1 ∧
        (lastFinished s.mapper.threads 0).map (·.result) =
          some (some (executeJob ⟨0, "command"⟩)) ∧
        s.given.length = 1 :=
    ⟨_, rfl, by decide, by decide, by decide, by decide⟩
  obtain ⟨h₂, hrun₂, hthreads₂, hgathering₂, hid₂, hlength₂⟩ := run_submitJob 65535 "other" h₁
  -- The last submission is given the id 0.
  have hzero : h₂.mapper.id = 0 := by
    rw [hid₂, hid₁]
    decide
  obtain ⟨h₃, hs₃⟩ : ∃ h₃, step h₂ (.submitJob "other") = some h₃ := ⟨_, rfl⟩
  have hmapper₃ : h₃.mapper.threads = h₁.mapper.threads ∧ h₃.mapper.gathering = true := by
    obtain rfl := Option.some.inj hs₃
    exact ⟨hthreads₂, hgathering₂.trans hgathering₁⟩
  have hlatest₃ : h₃.latest 0 = some ⟨65536, "other"⟩ := by
    obtain rfl := Option.some.inj hs₃
    simp [History.latest, SchedulerImpl.submitJob, JobMapper.putJob, hzero, hlength₂, hlength₁]
  obtain ⟨h₄, hs₄⟩ : ∃ h₄, step h₃ .gather = some h₄ := by
    simp [step, JobMapper.gather, hmapper₃.2]
  have hrun : run step History.start ((oneDelivery ++ [.mapJobs []]) ++
      (List.replicate 65535 (.submitJob "other") ++ [.submitJob "other", .gather])) = some h₄ := by
    rw [run_append, hrun₁, Option.bind_some, run_append, hrun₂, Option.bind_some, run_cons, hs₃,
      Option.bind_some, run_cons, hs₄]
    rfl
  obtain ⟨-, hmapper₄, hgiven₄, -⟩ := step_gather hs₄
  have hres : h₄.mapper.results.lookup 0 = some (some (executeJob ⟨0, "command"⟩)) := by
    rw [hmapper₄, lookup_putResults, hmapper₃.1, hlast₁, Option.some_or]
  have hright := answersRight_iff.mp ((h _).last hrun) 0 _ hres
  rw [latest_congr hgiven₄, hlatest₃] at hright
  exact absurd hright (by decide)

end WorkAtUPB.SchedulingService

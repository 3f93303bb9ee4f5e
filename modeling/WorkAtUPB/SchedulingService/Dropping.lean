import WorkAtUPB.SchedulingService.Delivery

namespace WorkAtUPB.SchedulingService

open Run

/-!
# Jobs that are dropped

A job leaves `m_jobs` in the round in which a server is looked for, whether one is found or
not; without a server its thread finishes with no result, and the clients are told for ever
that the job is in progress:

* `Kept` — every job is pending, held by a thread that has a server, or has a result;
* `Served` — whenever the mapper maps the pending jobs, there is a server for each of them;
* `always_kept_iff` — jobs are kept exactly while they are served.
-/

variable {S : Type*}

/-! ### Servers that can be scheduled -/

/-- The server's load is below the bound. -/
def Reply.usable (r : Reply S) : Bool := r.load.any fun load => load.slt maxLoad

/-- One of the registered servers answers with a load below the bound. -/
def ServerAvailable (servers : Short) (replies : Nat → Option (Reply S)) : Prop :=
  ∃ i < servers.toInt.toNat, (replies i).any Reply.usable = true

instance (servers : Short) (replies : Nat → Option (Reply S)) :
    Decidable (ServerAvailable servers replies) :=
  inferInstanceAs (Decidable (∃ i < _, _))

/-- Until a server is picked, the bound is the one of the beginning. -/
theorem pickServer_none {picked : BitVec 32 × Option S}
    (hinv : picked.2 = none → picked.1 = maxLoad) (reply : Option (Reply S)) :
    ((pickServer picked reply).2 = none → (pickServer picked reply).1 = maxLoad) ∧
      ((pickServer picked reply).2 = none ↔
        picked.2 = none ∧ reply.any Reply.usable = false) := by
  cases reply with
  | none => exact ⟨hinv, by simp [pickServer]⟩
  | some r =>
    cases hload : r.load with
    | none =>
      have hsame : pickServer picked (some r) = picked := by simp [pickServer, hload]
      rw [hsame]
      exact ⟨hinv, by simp [Reply.usable, hload]⟩
    | some load =>
      have hpick : pickServer picked (some r) =
          if load.slt picked.1 then (load, some r.server) else picked := by
        simp [pickServer, hload]
      have husable : (some r).any Reply.usable = load.slt maxLoad := by
        simp [Reply.usable, hload]
      rw [hpick, husable]
      by_cases hlt : load.slt picked.1 = true
      -- A load below the bound is picked, and one that is not leaves the choice.
      · refine ⟨by simp [hlt], ?_⟩
        rw [if_pos hlt]
        refine iff_of_false (by simp) fun hnone => ?_
        rw [hinv hnone.1, hnone.2] at hlt
        cases hlt
      · rw [if_neg hlt]
        refine ⟨hinv, fun hnone => ⟨hnone, ?_⟩, And.left⟩
        rw [← hinv hnone]
        exact Bool.eq_false_iff.mpr hlt

/-- A server is scheduled exactly if one is available. -/
theorem getScheduledServer_ne_none (servers : Short) (replies : Nat → Option (Reply S)) :
    getScheduledServer servers replies ≠ none ↔ ServerAvailable servers replies := by
  unfold getScheduledServer ServerAvailable
  generalize servers.toInt.toNat = n
  have hfold : ∀ picked : BitVec 32 × Option S,
      picked = (List.range n).foldl (fun picked i => pickServer picked (replies i))
        (maxLoad, none) →
      (picked.2 = none → picked.1 = maxLoad) ∧
        (picked.2 = none ↔ ∀ i < n, (replies i).any Reply.usable = false) := by
    induction n with
    | zero => rintro _ rfl; simp
    | succ n ih =>
      rintro _ rfl
      obtain ⟨hinv, hnone⟩ := ih _ rfl
      rw [List.range_succ, List.foldl_append]
      obtain ⟨hinv', hnone'⟩ := pickServer_none hinv (replies n)
      refine ⟨hinv', hnone'.trans ?_⟩
      rw [hnone, Nat.forall_lt_succ_right]
  rw [Ne, (hfold _ rfl).2]
  simp

/-! ### Kept jobs -/

/-- Every job submitted is pending, or held by a thread that has a server, or has a result that
    is in `m_results` or was returned. -/
def Kept (h : History S) : Prop :=
  ∀ p ∈ h.given,
    (∃ id, h.mapper.jobs.lookup id = some p.2) ∨
    (∃ t ∈ h.mapper.threads, t.job = p.2 ∧ t.server ≠ none) ∨
    (∃ id r, h.mapper.results.lookup id = some (some r) ∧ r.source = p.2) ∨
    ∃ r ∈ h.returned, r.source = p.2

/-- There is a server for each of the picks. -/
def EveryPickServed : Short → List (Pick S) → Prop
  | _, [] => True
  | servers, p :: ps =>
    let servers := servers + BitVec.ofNat 16 p.registered
    ServerAvailable servers p.replies ∧ EveryPickServed servers ps

instance decidableEveryPickServed : (servers : Short) → (picks : List (Pick S)) →
    Decidable (EveryPickServed servers picks)
  | _, [] => isTrue trivial
  | servers, p :: ps =>
    have := decidableEveryPickServed (servers + BitVec.ofNat 16 p.registered) ps
    inferInstanceAs (Decidable (_ ∧ _))

/-- When the mapper maps the pending jobs, there is a server for each of them. -/
def Served (h : History S) : Action S → Prop
  | .mapJobs picks =>
    h.mapper.gathering = false → (picks.map (·.key)).Perm h.mapper.jobs.keys →
      EveryPickServed h.scheduler.serverIdCounter picks
  | _ => True

instance (h : History S) : (a : Action S) → Decidable (Served h a)
  | .mapJobs picks => by unfold Served; infer_instance
  | .submitJob _ | .getResult _ | .getServerID | .gather | .run _ _ => isTrue trivial

/-- A thread holds the job and has a server for it. -/
def Held (h : History S) (job : SJob) : Prop :=
  ∃ t ∈ h.mapper.threads, t.job = job ∧ t.server ≠ none

/-- A thread with a result has a server, and it is never removed. -/
theorem held_of_result {h : History S} (ht : Traced h) {r : SJobResult}
    (hr : ∃ t ∈ h.mapper.threads, t.result = some r) : Held h r.source := by
  obtain ⟨t, hmem, hres⟩ := hr
  obtain ⟨rfl, hserver, -⟩ := (ht.threads t hmem).computed r hres
  exact ⟨t, hmem, rfl, hserver⟩

theorem kept_iff {h : History S} (ht : Traced h) :
    Kept h ↔ ∀ p ∈ h.given, (∃ id, h.mapper.jobs.lookup id = some p.2) ∨ Held h p.2 := by
  refine forall₂_congr fun p _ => or_congr_right ⟨?_, Or.inl⟩
  rintro (hheld | ⟨id, r, hr, hsource⟩ | ⟨r, hr, hsource⟩)
  · exact hheld
  · obtain ⟨t, hmem, -, hres⟩ := ht.results id r hr
    exact hsource ▸ held_of_result ht ⟨t, hmem, hres⟩
  · exact hsource ▸ held_of_result ht (ht.returned r hr)

/-- The loop over `m_jobs` finds a server for each job exactly if there is one. -/
theorem everyPickServed_iff {jobs : AList fun _ : Short => SJob} {picks : List (Pick S)}
    (hkeys : ∀ p ∈ picks, p.key ∈ jobs) (servers : Short) :
    EveryPickServed servers picks ↔
      ∀ t ∈ startThreads jobs servers picks, t.server ≠ none := by
  induction picks generalizing servers with
  | nil => simp [EveryPickServed, startThreads]
  | cons p ps ih =>
    obtain ⟨job, hjob⟩ := Option.isSome_iff_exists.mp
      (AList.lookup_isSome.mpr (hkeys p List.mem_cons_self))
    simp only [EveryPickServed, startThreads, hjob, Option.map_some, Option.toList_some,
      List.singleton_append, List.forall_mem_cons]
    rw [ih fun q hq => hkeys q (List.mem_cons_of_mem p hq), getScheduledServer_ne_none]

/-- A job has one id only. -/
theorem id_unique {h : History S} (ht : Traced h) {id id' : Short} {job : SJob}
    (hmem : (id, job) ∈ h.given) (hmem' : (id', job) ∈ h.given) : id = id' :=
  (ht.given _ hmem).2.trans (ht.given _ hmem').2.symm

/-- Mapping keeps the pending jobs exactly if each of them is served. -/
theorem kept_mapJobs {h h' : History S} {picks : List (Pick S)} (ht : Traced h) (hf : Fresh h)
    (hP : Kept h) (hs : step h (.mapJobs picks) = some h') :
    Kept h' ↔ EveryPickServed h.scheduler.serverIdCounter picks := by
  obtain ⟨hperm, hmapper, hgiven, -⟩ := step_mapJobs hs
  have hkeys : ∀ p ∈ picks, p.key ∈ h.mapper.jobs := fun p hp =>
    AList.mem_keys.mpr (hperm.mem_iff.mp (List.mem_map_of_mem hp))
  have hids := startThreads_jobIDs hkeys h.scheduler.serverIdCounter
  have hnodup : ((startThreads h.mapper.jobs h.scheduler.serverIdCounter picks).map
      (·.jobID)).Nodup := by
    rw [hids]
    exact hperm.nodup_iff.mpr h.mapper.jobs.keys_nodup
  rw [kept_iff ht] at hP
  rw [kept_iff (traced_step ht hs), everyPickServed_iff hkeys]
  unfold Held
  rw [hmapper, hgiven]
  constructor
  · intro hkept t hmem
    obtain ⟨hjob, -⟩ := mem_startThreads hmem
    have htgiven := ht.jobs _ _ hjob
    rcases hkept _ htgiven with ⟨id, hid⟩ | ⟨u, humem, hujob, huserver⟩
    · cases hid
    rcases List.mem_append.mp humem with hold | hnew
    · -- An old thread has another id than the jobs that were pending.
      have hid := id_unique ht (hujob ▸ (ht.threads u hold).given) htgiven
      have hpending : u.jobID ∈ h.mapper.jobs.keys := by
        rw [hid]
        exact AList.mem_keys.mp (AList.lookup_isSome.mp (by rw [hjob]; rfl))
      exact absurd hpending
        (List.disjoint_of_nodup_append hf (List.mem_map_of_mem hold))
    · have hid := id_unique ht (hujob ▸ ht.jobs _ _ (mem_startThreads hnew).1) htgiven
      rwa [← List.inj_on_of_nodup_map hnodup hnew hmem hid]
  · intro hserved p hp
    right
    rcases hP p hp with ⟨id, hid⟩ | ⟨t, hmem, hjob, hserver⟩
    · -- The thread of a pending job.
      have hkey : id ∈ (startThreads h.mapper.jobs h.scheduler.serverIdCounter picks).map
          (·.jobID) := by
        rw [hids, hperm.mem_iff]
        exact AList.mem_keys.mp (AList.lookup_isSome.mp (by rw [hid]; rfl))
      obtain ⟨t, hmem, rfl⟩ := List.mem_map.mp hkey
      have hjob := (mem_startThreads hmem).1
      rw [hid, Option.some.injEq] at hjob
      exact ⟨t, List.mem_append_right _ hmem, hjob.symm, hserved t hmem⟩
    · exact ⟨t, List.mem_append_left _ hmem, hjob, hserver⟩

/-- A step drops a job exactly if it maps one that there is no server for. -/
theorem kept_step {h h' : History S} {a : Action S} (ht : Traced h) (hf : Fresh h)
    (hbudget : a.isSubmit = true → h.given.length < 65536) (hP : Kept h)
    (hs : step h a = some h') : Kept h' ↔ Served h a := by
  have ht' := traced_step ht hs
  cases a with
  | mapJobs picks =>
    rw [kept_mapJobs ht hf hP hs]
    obtain ⟨s, hmap, -⟩ := Option.map_eq_some_iff.mp hs
    unfold SchedulerImpl.mapJobs at hmap
    split at hmap
    · next hcan => exact ⟨fun hserved _ _ => hserved, fun hC => hC hcan.1 hcan.2⟩
    · cases hmap
  | submitJob command =>
    refine iff_of_true ((kept_iff ht').mpr ?_) trivial
    rw [kept_iff ht] at hP
    obtain rfl := Option.some.inj hs
    intro p hp
    -- The new job is in the list; the others keep their ids, of which none is given twice.
    rcases List.mem_cons.mp hp with rfl | hp
    · exact Or.inl ⟨_, AList.lookup_insert _⟩
    · rcases hP p hp with ⟨id, hid⟩ | hheld
      · have hne := id_ne_of_given ht (hbudget rfl) (ht.jobs id _ hid)
        exact Or.inl ⟨id, (AList.lookup_insert_ne hne).trans hid⟩
      · exact Or.inr hheld
  | getResult id =>
    refine iff_of_true ((kept_iff ht').mpr ?_) trivial
    rw [kept_iff ht] at hP
    obtain rfl := Option.some.inj hs
    simpa [SchedulerImpl.getResult, getResult_eq, Held] using hP
  | getServerID =>
    obtain rfl := Option.some.inj hs
    exact iff_of_true hP trivial
  | gather =>
    refine iff_of_true ((kept_iff ht').mpr ?_) trivial
    rw [kept_iff ht] at hP
    obtain ⟨-, hmapper, hgiven, -⟩ := step_gather hs
    unfold Held at hP ⊢
    rwa [hmapper, hgiven]
  | run i answers =>
    refine iff_of_true ((kept_iff ht').mpr ?_) trivial
    rw [kept_iff ht] at hP
    obtain ⟨t, hi, -, hmapper, hgiven, -⟩ := step_run hs
    unfold Held
    rw [hmapper, hgiven]
    intro p hp
    rcases hP p hp with hpending | ⟨u, hmem, hjob, hserver⟩
    · exact Or.inl hpending
    right
    -- The thread that runs keeps its job and its server.
    by_cases hu : u = t
    · subst hu
      exact ⟨_, List.mem_set (List.getElem?_eq_some_iff.mp hi).1 _, by simpa, by simpa⟩
    · exact ⟨u, mem_set_of_ne hmem hi hu, hjob, hserver⟩

/-- **Kept jobs.**  For every run with fewer than 65536 submissions: in each of its states every
    job submitted is pending, held by a thread with a server, or has a result, exactly when in
    each round of the mapper there is a server for every pending job. -/
theorem always_kept_iff (as : List (Action S)) (hsubmits : as.countP Action.isSubmit < 65536) :
    Always step Kept History.start as ↔ EachStep step Served History.start as := by
  refine always_iff_eachStep_budget (J := Budgeted) ?_ ?_ ?_ (budgeted_start hsubmits) nofun
  · exact fun _ _ _ _ hJ _ hs _ => budgeted_step hJ hs
  · intro h a as h' ⟨ht, hf, hbudget⟩ hP hs
    rw [List.countP_cons] at hbudget
    exact kept_step ht hf (fun _ => by omega) hP hs
  · intro h a as _ _ hs
    cases a with
    | mapJobs picks =>
      intro hphase hperm
      simp [step, SchedulerImpl.mapJobs, hphase, hperm] at hs
    | submitJob | getResult | getServerID | gather | run => trivial

/-- With a server for the job, the job is kept. -/
theorem always_kept_one : Always step Kept (History.start : History Unit) oneDelivery :=
  (always_kept_iff oneDelivery (by decide)).mpr (by decide)

/-- **A dropped job.**  The mapper takes the job when no server has been registered. -/
theorem not_kept : ¬ ∀ as : List (Action Unit), as.countP Action.isSubmit < 65536 →
    Always step Kept History.start as := by
  intro h
  have hall := h [.submitJob "command", .mapJobs [⟨0, 0, fun _ => none⟩]] (by decide)
  obtain ⟨s, hrun, hgiven, hjobs, hthreads, hresults, hreturned⟩ : ∃ s : History Unit,
      run step History.start [.submitJob "command", .mapJobs [⟨0, 0, fun _ => none⟩]] = some s ∧
        s.given = [(0, ⟨0, "command"⟩)] ∧ s.mapper.jobs = ∅ ∧
        s.mapper.threads.map (·.server) = [none] ∧ s.mapper.results = ∅ ∧ s.returned = [] :=
    ⟨_, rfl, rfl, rfl, rfl, rfl, rfl⟩
  have hkept := hall.last hrun
  unfold Kept at hkept
  rw [hgiven, hjobs, hresults, hreturned] at hkept
  rcases hkept _ List.mem_cons_self with ⟨id, hid⟩ | ⟨t, hmem, -, hserver⟩ | ⟨id, r, hr, -⟩ |
    ⟨r, hr, -⟩
  · cases hid
  · have hnone := List.mem_map_of_mem (f := (·.server)) hmem
    rw [hthreads, List.mem_singleton] at hnone
    exact hserver hnone
  · cases hr
  · cases hr

end WorkAtUPB.SchedulingService

import WorkAtUPB.Lib.Run
import WorkAtUPB.SystemCallMonitorLinux.Monitor

namespace WorkAtUPB.SystemCallMonitorLinux

open Run

/-!
# Interception by several callers

The entry of the table is changed under a lock, but the flag that says whether the system call
is intercepted is tested before, and for a request to intercept it is set before too.  The steps
of several callers interleave:

* `Callers`, `step` — the module, and how far each caller has got;
* `Intercepts` — the saved entries are those of the kernel, and the table agrees with the flags
  when no request is under way;
* `Apart` — no entry is swapped twice, and none is restored between a flag and its swap;
* `always_intercepts` — along the runs that keep to this, the interception is right;
* `swap_twice`, `restore_early` — every other step can be continued so that it is not.
-/

namespace Interception

/-- How far a caller has got: outside of `my_syscall`, or before the flag is set, before the
    locked swap, before the locked restore. -/
inductive Pc (nr : Nat) where
  | idle
  | set (n : Fin nr)
  | swap (n : Fin nr)
  | restore (n : Fin nr)
  deriving DecidableEq

/-- The module and its callers. -/
structure Callers (T : Type*) (nr : Nat) where
  kernel : Kernel nr
  pc : T → Pc nr

/-- The steps of the callers, which are root: the tests of a request to intercept and of one to
    release, and what follows after them. -/
inductive Action (T : Type*) (nr : Nat) where
  | intercept (t : T) (n : Fin nr)
  | set (t : T)
  | swap (t : T)
  | release (t : T) (n : Fin nr)
  | restore (t : T)

variable {T : Type*} {nr : Nat}

/-- The module has just been loaded. -/
def Callers.start (original : Fin nr → Nat) : Callers T nr where
  kernel := myHelloInit original
  pc := fun _ => .idle

section Steps

variable [DecidableEq T] (s : Callers T nr) (t : T)

/-- A caller outside of `my_syscall` makes a request; if its tests find no error it gets to
    `pc`. -/
def Callers.begin (n : Fin nr) (error : Option Int) (pc : Pc nr) : Option (Callers T nr) :=
  if s.pc t = .idle ∧ Valid n then
    some (if error = none then { s with pc := Function.update s.pc t pc } else s)
  else none

/-- The flag is set. -/
def Callers.set : Option (Callers T nr) :=
  match s.pc t with
  | .set n => some ⟨s.kernel.interceptSet n, Function.update s.pc t (.swap n)⟩
  | _ => none

/-- The locked swap; the request ends. -/
def Callers.swap : Option (Callers T nr) :=
  match s.pc t with
  | .swap n => some ⟨s.kernel.interceptSwap n, Function.update s.pc t .idle⟩
  | _ => none

/-- The locked restore; the request ends. -/
def Callers.restore : Option (Callers T nr) :=
  match s.pc t with
  | .restore n => some ⟨s.kernel.releaseRestore n, Function.update s.pc t .idle⟩
  | _ => none

/-- One step of a caller. -/
def step (s : Callers T nr) : Action T nr → Option (Callers T nr)
  | .intercept t n => s.begin t n (s.kernel.interceptTest rootUid n) (.set n)
  | .set t => s.set t
  | .swap t => s.swap t
  | .release t n => s.begin t n (s.kernel.releaseTest rootUid n) (.restore n)
  | .restore t => s.restore t

end Steps

/-! ### Interception that is right -/

/-- The entry of the table when the module was loaded. -/
def originalEntry (original : Fin nr → Nat) (n : Fin nr) : Entry :=
  (myHelloInit original).sysCallTable n

/-- No saved entry is the interceptor, and when no caller is inside of a request, the entries of
    the table are as the flags say. -/
structure Intercepts (original : Fin nr → Nat) (s : Callers T nr) : Prop where
  saved : ∀ n, (s.kernel.info n).oldSyscall ≠ .interceptor
  table : (∀ t, s.pc t = .idle) → ∀ n, s.kernel.sysCallTable n =
    if s.kernel.intercepts n then .interceptor else originalEntry original n

/-- The entry is swapped only if it is not the interceptor yet, and restored only if no caller
    is between the flag and the swap. -/
def Apart (s : Callers T nr) : Action T nr → Prop
  | .swap t => ∀ n, s.pc t = .swap n → s.kernel.sysCallTable n ≠ .interceptor
  | .restore t => ∀ n, s.pc t = .restore n → ∀ u, s.pc u ≠ .swap n
  | _ => True

/-- A system call is intercepted and its entry saved, or the table has its entry. -/
def Swapped (original : Fin nr → Nat) (k : Kernel nr) (n : Fin nr) : Prop :=
  k.sysCallTable n = .interceptor ∧ (k.info n).oldSyscall = originalEntry original n ∨
    k.sysCallTable n = originalEntry original n ∧ (k.info n).oldSyscall ≠ .interceptor

/-- What holds in every state: the flag is set when the entry is swapped or about to be, and who
    is about to restore an entry finds it saved, or will when the swap is done. -/
structure Invariant (original : Fin nr → Nat) (s : Callers T nr) : Prop where
  swapped : ∀ n, Swapped original s.kernel n
  flag : ∀ n, s.kernel.intercepts n = true ↔
    s.kernel.sysCallTable n = .interceptor ∨ ∃ t, s.pc t = .swap n
  restoring : ∀ t n, s.pc t = .restore n →
    (s.kernel.info n).oldSyscall = originalEntry original n ∨ ∃ u, s.pc u = .swap n

variable {original : Fin nr → Nat}

/-- No entry of the kernel is the interceptor. -/
theorem originalEntry_ne (n : Fin nr) : originalEntry original n ≠ .interceptor := by
  unfold originalEntry myHelloInit
  dsimp only
  split <;> nofun

/-- The interceptor is never saved as the old entry. -/
theorem Swapped.saved {k : Kernel nr} {n : Fin nr} (h : Swapped original k n) :
    (k.info n).oldSyscall ≠ .interceptor := by
  rcases h with ⟨-, hold⟩ | ⟨-, hold⟩
  · rw [hold]
    exact originalEntry_ne n
  · exact hold

/-- The table is right at first. -/
theorem invariant_start : Invariant original (Callers.start original : Callers T nr) where
  swapped := fun n => Or.inr ⟨rfl, nofun⟩
  flag := fun n => by
    simp only [Callers.start, reduceCtorEq, exists_false, or_false]
    exact iff_of_false (by simp) (originalEntry_ne n)
  restoring := nofun

/-- The invariant gives what is wanted. -/
theorem Invariant.intercepts {s : Callers T nr} (h : Invariant original s) :
    Intercepts original s where
  saved := fun n => (h.swapped n).saved
  table := fun hidle n => by
    have hnone : ¬ ∃ t, s.pc t = .swap n := fun ⟨t, ht⟩ => by
      rw [hidle t] at ht
      cases ht
    have hflag := (h.flag n).trans (or_iff_left hnone)
    rcases h.swapped n with ⟨htable, -⟩ | ⟨htable, -⟩
    · rw [if_pos (hflag.mpr htable), htable]
    · rw [if_neg fun hset => originalEntry_ne n (htable ▸ hflag.mp hset), htable]

/-! ### Steps -/

variable [DecidableEq T]

/-- Who is at `q` after one caller that was not has moved to `p`. -/
theorem exists_update_pc {pc : T → Pc nr} {t : T} {p q : Pc nr} (hne : pc t ≠ q) :
    (∃ u, Function.update pc t p u = q) ↔ p = q ∨ ∃ u, pc u = q := by
  constructor
  · rintro ⟨u, hu⟩
    by_cases hut : u = t
    · subst hut
      exact Or.inl (by rwa [Function.update_self] at hu)
    · exact Or.inr ⟨u, by rwa [Function.update_of_ne hut] at hu⟩
  · rintro (rfl | ⟨u, hu⟩)
    · exact ⟨t, Function.update_self ..⟩
    · have hut : u ≠ t := by
        rintro rfl
        exact hne hu
      exact ⟨u, by rw [Function.update_of_ne hut, hu]⟩

/-- A request to release that passes its tests. -/
theorem releaseTest_none {k : Kernel nr} {uid : Nat} {n : Fin nr}
    (h : k.releaseTest uid n = none) : k.intercepts n = true := by
  unfold Kernel.releaseTest at h
  split at h
  · cases h
  · split at h
    · next hset => exact hset
    · cases h

/-- A caller that begins a request does not change the module. -/
theorem Invariant.begin {s s' : Callers T nr} (h : Invariant original s) {t : T} {n : Fin nr}
    {error : Option Int} {pc : Pc nr} (hs : s.begin t n error pc = some s')
    (hswap : ∀ m, pc ≠ .swap m)
    (hrestore : ∀ m, error = none → pc = .restore m → s.kernel.intercepts m = true) :
    Invariant original s' := by
  unfold Callers.begin at hs
  split at hs <;> [skip; cases hs]
  next hidle =>
  obtain rfl := Option.some.inj hs
  split <;> [skip; exact h]
  next herror =>
  have hswaps : ∀ m, (∃ u, Function.update s.pc t pc u = .swap m) ↔ ∃ u, s.pc u = .swap m := by
    intro m
    rw [exists_update_pc (by rw [hidle.1]; nofun), or_iff_right (hswap m)]
  refine ⟨h.swapped, fun m => (h.flag m).trans (or_congr_right (hswaps m).symm), ?_⟩
  intro u m hu
  dsimp only at hu ⊢
  rw [hswaps m]
  by_cases hut : u = t
  · subst hut
    rw [Function.update_self] at hu
    -- Whoever restores an entry has seen the flag, behind which it was swapped or is about to be.
    rcases (h.flag m).mp (hrestore m herror hu) with htable | hex
    · rcases h.swapped m with ⟨-, hold⟩ | ⟨hentry, -⟩
      · exact Or.inl hold
      · exact absurd (hentry ▸ htable) (originalEntry_ne m)
    · exact Or.inr hex
  · rw [Function.update_of_ne hut] at hu
    exact h.restoring u m hu

/-- The flag is set before the entries are swapped. -/
theorem Invariant.set {s s' : Callers T nr} (h : Invariant original s) {t : T}
    (hs : s.set t = some s') : Invariant original s' := by
  unfold Callers.set at hs
  split at hs <;> [skip; cases hs]
  next n hpc =>
  obtain rfl := Option.some.inj hs
  -- The flag is all that changes in the table.
  have hold : ∀ m, ((s.kernel.interceptSet n).info m).oldSyscall =
      (s.kernel.info m).oldSyscall := by
    intro m
    by_cases hmn : m = n
    · subst hmn
      simp [Kernel.interceptSet]
    · simp [Kernel.interceptSet, hmn]
  have hswaps : ∀ m, (∃ u, Function.update s.pc t (.swap n) u = .swap m) ↔
      n = m ∨ ∃ u, s.pc u = .swap m := by
    intro m
    rw [exists_update_pc (by simp [hpc]), Pc.swap.injEq]
  refine ⟨fun m => ?_, fun m => ?_, fun u m hu => ?_⟩
  · have hm := h.swapped m
    rw [Swapped, ← hold] at hm
    exact hm
  · dsimp only
    rw [Kernel.intercepts_interceptSet, hswaps m, Bool.or_eq_true, decide_eq_true_eq, h.flag m,
      eq_comm (a := m), or_left_comm]
    rfl
  · dsimp only at hu ⊢
    rw [hold, hswaps m]
    by_cases hut : u = t
    · subst hut
      rw [Function.update_self] at hu
      cases hu
    · rw [Function.update_of_ne hut] at hu
      exact (h.restoring u m hu).imp_right Or.inr

/-- A swap that is apart saves the entry of the kernel. -/
theorem Invariant.swap {s s' : Callers T nr} (h : Invariant original s) {t : T}
    (hapart : Apart s (.swap t)) (hs : s.swap t = some s') : Invariant original s' := by
  unfold Callers.swap at hs
  split at hs <;> [skip; cases hs]
  next n hpc =>
  obtain rfl := Option.some.inj hs
  -- The entry that is saved is the kernel's own, because the call is not intercepted yet.
  have hentry : s.kernel.sysCallTable n = originalEntry original n := by
    rcases h.swapped n with ⟨htable, -⟩ | ⟨htable, -⟩
    · exact absurd htable (hapart n hpc)
    · exact htable
  -- Other system calls have the same entries and the same callers as before.
  have hother : ∀ m, m ≠ n →
      ((s.kernel.interceptSwap n).info m = s.kernel.info m ∧
        (s.kernel.interceptSwap n).sysCallTable m = s.kernel.sysCallTable m) ∧
      ((∃ u, Function.update s.pc t .idle u = .swap m) ↔ ∃ u, s.pc u = .swap m) := by
    intro m hmn
    refine ⟨⟨Function.update_of_ne hmn .., Function.update_of_ne hmn ..⟩, ?_⟩
    rw [exists_update_pc (by rw [hpc]; exact fun heq => hmn (Pc.swap.inj heq).symm),
      or_iff_right nofun]
  have hself : (s.kernel.interceptSwap n).sysCallTable n = .interceptor ∧
      ((s.kernel.interceptSwap n).info n).oldSyscall = originalEntry original n := by
    simp [Kernel.interceptSwap, hentry]
  refine ⟨fun m => ?_, fun m => ?_, fun u m hu => ?_⟩
  · by_cases hmn : m = n
    · subst hmn
      exact Or.inl hself
    · have hm := h.swapped m
      rwa [Swapped, ← (hother m hmn).1.1, ← (hother m hmn).1.2] at hm
  · dsimp only
    rw [Kernel.intercepts_interceptSwap]
    by_cases hmn : m = n
    · subst hmn
      exact iff_of_true ((h.flag m).mpr (Or.inr ⟨t, hpc⟩)) (Or.inl hself.1)
    · rw [h.flag m, (hother m hmn).1.2, (hother m hmn).2]
  · dsimp only at hu ⊢
    by_cases hmn : m = n
    · subst hmn
      exact Or.inl hself.2
    · have hut : u ≠ t := by
        rintro rfl
        rw [Function.update_self] at hu
        cases hu
      rw [Function.update_of_ne hut] at hu
      rw [(hother m hmn).1.1, (hother m hmn).2]
      exact h.restoring u m hu

/-- A release that is apart from swaps restores the entry of the kernel. -/
theorem Invariant.restore {s s' : Callers T nr} (h : Invariant original s) {t : T}
    (hapart : Apart s (.restore t)) (hs : s.restore t = some s') : Invariant original s' := by
  unfold Callers.restore at hs
  split at hs <;> [skip; cases hs]
  next n hpc =>
  obtain rfl := Option.some.inj hs
  -- Nobody is about to swap, so the entry is saved.
  have hnone : ¬ ∃ u, s.pc u = .swap n := fun ⟨u, hu⟩ => hapart n hpc u hu
  have hold := (h.restoring t n hpc).resolve_right hnone
  have hswaps : ∀ m, (∃ u, Function.update s.pc t .idle u = .swap m) ↔ ∃ u, s.pc u = .swap m := by
    intro m
    rw [exists_update_pc (by rw [hpc]; nofun), or_iff_right nofun]
  have hother : ∀ m, m ≠ n → (s.kernel.releaseRestore n).info m = s.kernel.info m ∧
      (s.kernel.releaseRestore n).sysCallTable m = s.kernel.sysCallTable m := fun m hmn =>
    ⟨Function.update_of_ne hmn .., Function.update_of_ne hmn ..⟩
  have hself : (s.kernel.releaseRestore n).sysCallTable n = originalEntry original n ∧
      ((s.kernel.releaseRestore n).info n).oldSyscall = originalEntry original n := by
    simp [Kernel.releaseRestore, hold]
  refine ⟨fun m => ?_, fun m => ?_, fun u m hu => ?_⟩
  · by_cases hmn : m = n
    · subst hmn
      exact Or.inr ⟨hself.1, by rw [hself.2]; exact originalEntry_ne m⟩
    · have hm := h.swapped m
      rwa [Swapped, ← (hother m hmn).1, ← (hother m hmn).2] at hm
  · dsimp only
    rw [Kernel.intercepts_releaseRestore, hswaps m]
    by_cases hmn : m = n
    · subst hmn
      rw [hself.1, or_iff_left hnone]
      exact iff_of_false (by simp) (originalEntry_ne m)
    · simp [hmn, h.flag m, (hother m hmn).2]
  · dsimp only at hu ⊢
    rw [hswaps m]
    by_cases hmn : m = n
    · subst hmn
      exact Or.inl hself.2
    · have hut : u ≠ t := by
        rintro rfl
        rw [Function.update_self] at hu
        cases hu
      rw [Function.update_of_ne hut] at hu
      rw [(hother m hmn).1]
      exact h.restoring u m hu

/-- **Invariant.**  Every step that keeps apart from the others keeps it. -/
theorem invariant_step {s s' : Callers T nr} {a : Action T nr} (h : Invariant original s)
    (hapart : Apart s a) (hs : step s a = some s') : Invariant original s' := by
  cases a with
  | intercept t n => exact h.begin hs nofun nofun
  | set t => exact h.set hs
  | swap t => exact h.swap hapart hs
  | release t n =>
    refine h.begin hs nofun fun m herror heq => ?_
    cases heq
    exact releaseTest_none herror
  | restore t => exact h.restore hapart hs

/-- **Interception by several callers.**  In every run of any number of callers in which no entry
    is swapped while it is the interceptor, and none is restored while a caller is between the
    flag and the swap: no saved entry is ever the interceptor, and whenever no request is under
    way, the entries of the table are the interceptor where the flag is set, and else those that
    the module has found. -/
theorem always_intercepts (original : Fin nr → Nat) (as : List (Action T nr))
    (hapart : EachStep step Apart (.start original) as) :
    Always step (Intercepts original) (.start original) as :=
  (always_of_inductive (fun _ _ _ h hC hs => invariant_step h hC hs) invariant_start hapart).mono
    fun _ h => h.intercepts

instance decidableApart [Fintype T] (s : Callers T nr) : (a : Action T nr) → Decidable (Apart s a)
  | .swap t => inferInstanceAs
    (Decidable (∀ n, s.pc t = .swap n → s.kernel.sysCallTable n ≠ .interceptor))
  | .restore t => inferInstanceAs
    (Decidable (∀ n, s.pc t = .restore n → ∀ u, s.pc u ≠ .swap n))
  | .intercept _ _ | .set _ | .release _ _ => isTrue trivial

/-- Two callers intercept a system call each, and each releases that of the other. -/
theorem always_intercepts_two : Always step (Intercepts fun _ => 7)
    (.start fun _ => 7 : Callers Bool 4)
    [.intercept true 2, .intercept false 3, .set false, .set true, .swap true, .swap false,
      .release false 2, .release true 3, .restore true, .restore false] :=
  always_intercepts _ _ (by decide)

/-- **A race.**  Two callers find the system call free, and the second one saves the interceptor
    that the first one has put into the table. -/
theorem not_intercepts : ¬ ∀ (original : Fin 4 → Nat) (as : List (Action Bool 4)),
    Always step (Intercepts original) (.start original) as := by
  intro h
  have hlast := (h (fun _ => 7) [.intercept true 2, .intercept false 2, .set true, .set false,
    .swap true, .swap false]).last rfl
  exact hlast.saved 2 rfl

/-! ### Steps that do not keep apart -/

/-- Who swaps an entry twice saves the interceptor. -/
theorem swap_twice {s : Callers T nr} {t : T} {n : Fin nr} (hpc : s.pc t = .swap n)
    (htable : s.kernel.sysCallTable n = .interceptor) :
    ¬ Always step (Intercepts original) s [.swap t] := by
  intro h
  have hstep : step s (.swap t) =
      some ⟨s.kernel.interceptSwap n, Function.update s.pc t .idle⟩ := by
    simp [step, Callers.swap, hpc]
  refine (h.2 _ hstep).saved n ?_
  simp [Kernel.interceptSwap, htable]

/-- A request to intercept a system call whose flag is not set, made while the entry is the
    interceptor, saves the interceptor. -/
theorem intercept_swapped {s : Callers T nr} {t : T} {n : Fin nr} (hpc : s.pc t = .idle)
    (hvalid : Valid n) (hflag : s.kernel.intercepts n = false)
    (htable : s.kernel.sysCallTable n = .interceptor) :
    ¬ Always step (Intercepts original) s [.intercept t n, .set t, .swap t] := by
  intro h
  have htest : step s (.intercept t n) = some { s with pc := Function.update s.pc t (.set n) } := by
    simp [step, Callers.begin, hpc, hvalid, Kernel.interceptTest, hflag]
  have hset : step { s with pc := Function.update s.pc t (.set n) } (.set t) =
      some ⟨s.kernel.interceptSet n,
        Function.update (Function.update s.pc t (.set n)) t (.swap n)⟩ := by
    simp [step, Callers.set]
  exact swap_twice (n := n) (by simp) (by simpa [Kernel.interceptSet] using htable)
    ((h.2 _ htest).2 _ hset)

/-- Who restores an entry while another caller is between the flag and the swap leaves that one
    to swap it without a flag. -/
theorem restore_early {s : Callers T nr} {t u : T} {n : Fin nr} (hvalid : Valid n)
    (ht : s.pc t = .restore n) (hu : s.pc u = .swap n) :
    ¬ Always step (Intercepts original) s
      [.restore t, .swap u, .intercept t n, .set t, .swap t] := by
  intro h
  have hut : u ≠ t := by
    rintro rfl
    cases ht.symm.trans hu
  have hrestore : step s (.restore t) =
      some ⟨s.kernel.releaseRestore n, Function.update s.pc t .idle⟩ := by
    simp [step, Callers.restore, ht]
  have hswap : step ⟨s.kernel.releaseRestore n, Function.update s.pc t .idle⟩ (.swap u) =
      some ⟨(s.kernel.releaseRestore n).interceptSwap n,
        Function.update (Function.update s.pc t .idle) u .idle⟩ := by
    simp [step, Callers.swap, hut, hu]
  refine intercept_swapped ?_ hvalid ?_ ?_ ((h.2 _ hrestore).2 _ hswap)
  · simp [hut.symm]
  · rw [Kernel.intercepts_interceptSwap, Kernel.intercepts_releaseRestore]
    simp
  · simp [Kernel.interceptSwap]

end Interception

end WorkAtUPB.SystemCallMonitorLinux

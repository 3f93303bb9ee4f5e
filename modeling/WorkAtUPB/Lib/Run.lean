import Mathlib.Data.List.Basic
import Mathlib.Tactic.TypeStar

namespace WorkAtUPB.Run

/-!
# Runs of a labelled step function

A program that is driven from outside (requests, faults, packets, a scheduler) is a
function `step : σ → α → Option σ`: the state after one action, or `none` when the
action cannot be taken (or ends the program).  This file has the vocabulary for
statements about *all* its runs, and the induction over a run, once:

* `run` and `Reachable` — the state after a list of actions, the states runs reach;
* `Always` — a property holds in every state of a run;
* `EachStep` — a condition holds of every action of a run, in the state it is taken in;
* `EachStep.of_invariant` — from conditions on the actions to properties of the actions;
* `always_of_inductive` — an invariant that every step meeting a condition keeps holds
  along every run whose steps meet it;
* `run_countP` — a quantity that changes by one for the actions of a kind counts them;
* `run_flatMap` — a list to which each action adds is what the actions have added;
* `always_iff_eachStep` — when the condition is also necessary for one step, it is
  necessary for the run; `always_iff_eachStep_budget` for runs with a bound on the actions
  of a kind;
* `run_amortised`, `run_reaches` — a potential that every step lowers, but for what its action
  costs, bounds the length of a run, and so brings it to its end;
* `images`, `run_simulates`, `run_follows` — a run that another program follows, action by action.
-/

variable {σ α : Type*} (step : σ → α → Option σ)

/-- The state after the actions `as`, taken one after the other from `s`. -/
def run : σ → List α → Option σ
  | s, [] => some s
  | s, a :: as => (step s a).bind fun s' => run s' as

/-- `s` is the state after some list of actions taken from `init`. -/
def Reachable (init s : σ) : Prop := ∃ as, run step init as = some s

/-- `P` holds in every state that the run of `as` from `s` passes through. -/
def Always (P : σ → Prop) : σ → List α → Prop
  | s, [] => P s
  | s, a :: as => P s ∧ ∀ s', step s a = some s' → Always P s' as

/-- Every action of the run of `as` from `s` meets `C` in the state it is taken in. -/
def EachStep (C : σ → α → Prop) : σ → List α → Prop
  | _, [] => True
  | s, a :: as => C s a ∧ ∀ s', step s a = some s' → EachStep C s' as

instance decidableEachStep (C : σ → α → Prop) [∀ s a, Decidable (C s a)] :
    (s : σ) → (as : List α) → Decidable (EachStep step C s as)
  | _, [] => isTrue trivial
  | s, a :: as =>
    match h : step s a with
    | none =>
      decidable_of_iff (C s a) ⟨fun hC => ⟨hC, fun s' hs' => by cases h.symm.trans hs'⟩, And.left⟩
    | some s' =>
      have := decidableEachStep C s' as
      decidable_of_iff (C s a ∧ EachStep step C s' as)
        ⟨fun hC => ⟨hC.1, fun t ht => Option.some.inj (h.symm.trans ht) ▸ hC.2⟩,
          fun hC => ⟨hC.1, hC.2 s' h⟩⟩

variable {step}

/-- The empty run. -/
@[simp] theorem run_nil (s : σ) : run step s [] = some s := rfl

/-- The first action, and the others. -/
@[simp] theorem run_cons (s : σ) (a : α) (as : List α) :
    run step s (a :: as) = (step s a).bind fun s' => run step s' as := rfl

/-- A run that is possible takes its first step. -/
theorem run_cons_eq_some {s s'' : σ} {a : α} {as : List α} :
    run step s (a :: as) = some s'' ↔ ∃ s', step s a = some s' ∧ run step s' as = some s'' := by
  rw [run_cons, Option.bind_eq_some_iff]

/-- A run of a concatenation is the run of the second list from where the first ends. -/
theorem run_append (s : σ) (as bs : List α) :
    run step s (as ++ bs) = (run step s as).bind fun s' => run step s' bs := by
  induction as generalizing s with
  | nil => rfl
  | cons a as ih =>
    simp only [List.cons_append, run_cons]
    cases step s a with
    | none => rfl
    | some s' => exact ih s'

/-! ### Reachable states -/

/-- The state itself. -/
theorem Reachable.refl (s : σ) : Reachable step s s := ⟨[], rfl⟩

/-- One more action from a reachable state. -/
theorem Reachable.snoc {init s s' : σ} {a : α} (h : Reachable step init s)
    (hs : step s a = some s') : Reachable step init s' := by
  obtain ⟨as, has⟩ := h
  exact ⟨as ++ [a], by rw [run_append, has, Option.bind_some, run_cons, hs]; rfl⟩

/-- **Invariant rule, along a run.**  What every step keeps, every run keeps. -/
theorem run_invariant {I : σ → Prop} (hstep : ∀ s a s', I s → step s a = some s' → I s')
    {s s' : σ} {as : List α} (h : I s) (hrun : run step s as = some s') : I s' := by
  induction as generalizing s with
  | nil =>
    rw [run_nil, Option.some.injEq] at hrun
    exact hrun ▸ h
  | cons a as ih =>
    obtain ⟨t, ht, hrun⟩ := run_cons_eq_some.mp hrun
    exact ih (hstep s a t h ht) hrun

/-- **Invariant rule.**  An inductive property of the initial state holds in every
    reachable state. -/
theorem Reachable.invariant {I : σ → Prop} {init s : σ} (h : Reachable step init s)
    (h0 : I init) (hstep : ∀ s a s', I s → step s a = some s' → I s') : I s := by
  obtain ⟨as, has⟩ := h
  exact run_invariant hstep h0 has

/-- **Counting rule.**  A quantity that grows by one with each action of a kind, and does not
    change with the others, counts the actions of that kind. -/
theorem run_countP {f : σ → Int} {p : α → Bool}
    (hstep : ∀ s a s', step s a = some s' → f s' = f s + if p a then 1 else 0)
    {s s' : σ} {as : List α} (hrun : run step s as = some s') : f s' = f s + as.countP p := by
  induction as generalizing s with
  | nil =>
    rw [run_nil, Option.some.injEq] at hrun
    simp [hrun]
  | cons a as ih =>
    obtain ⟨t, ht, hrun⟩ := run_cons_eq_some.mp hrun
    rw [ih hrun, hstep s a t ht, List.countP_cons]
    split <;> omega

/-- **Logging rule.**  A list to which each action adds its own part is, after a run, the parts of
    its actions. -/
theorem run_flatMap {β : Type*} {f : σ → List β} {part : α → List β}
    (hstep : ∀ s a s', step s a = some s' → f s' = f s ++ part a)
    {s s' : σ} {as : List α} (hrun : run step s as = some s') : f s' = f s ++ as.flatMap part := by
  induction as generalizing s with
  | nil =>
    rw [run_nil, Option.some.injEq] at hrun
    simp [hrun]
  | cons a as ih =>
    obtain ⟨t, ht, hrun⟩ := run_cons_eq_some.mp hrun
    rw [ih hrun, hstep s a t ht, List.append_assoc, List.flatMap_cons]

/-! ### Properties of every state of a run -/

/-- The state a run starts in is one of its states. -/
theorem Always.head {P : σ → Prop} {s : σ} {as : List α} (h : Always step P s as) : P s := by
  cases as with
  | nil => exact h
  | cons a as => exact h.1

/-- The state a run ends in is one of its states. -/
theorem Always.last {P : σ → Prop} {s s' : σ} {as : List α} (h : Always step P s as)
    (hrun : run step s as = some s') : P s' := by
  induction as generalizing s with
  | nil =>
    rw [run_nil, Option.some.injEq] at hrun
    exact hrun ▸ h
  | cons a as ih =>
    obtain ⟨t, ht, hrun⟩ := run_cons_eq_some.mp hrun
    exact ih (h.2 t ht) hrun

/-- What follows from it also always holds. -/
theorem Always.mono {P Q : σ → Prop} (hPQ : ∀ s, P s → Q s) {s : σ} {as : List α}
    (h : Always step P s as) : Always step Q s as := by
  induction as generalizing s with
  | nil => exact hPQ s h
  | cons a as ih => exact ⟨hPQ s h.1, fun s' hs' => ih (h.2 s' hs')⟩

/-- What holds of every action holds of every action of a run. -/
theorem EachStep.of_forall_mem {p : α → Prop} {as : List α} (h : ∀ a ∈ as, p a) (s : σ) :
    EachStep step (fun _ => p) s as := by
  induction as generalizing s with
  | nil => trivial
  | cons a as ih =>
    exact ⟨h a List.mem_cons_self, fun s' _ => ih (fun b hb => h b (List.mem_cons_of_mem a hb)) s'⟩

/-- Two conditions on each step. -/
theorem EachStep.and {C D : σ → α → Prop} {s : σ} {as : List α} (hC : EachStep step C s as)
    (hD : EachStep step D s as) : EachStep step (fun s a => C s a ∧ D s a) s as := by
  induction as generalizing s with
  | nil => trivial
  | cons a as ih => exact ⟨⟨hC.1, hD.1⟩, fun s' hs' => ih (hC.2 s' hs') (hD.2 s' hs')⟩

/-- The actions of a run can be taken. -/
theorem EachStep.of_run {s s' : σ} {as : List α} (hrun : run step s as = some s') :
    EachStep step (fun s a => ∃ t, step s a = some t) s as := by
  induction as generalizing s with
  | nil => trivial
  | cons a as ih =>
    obtain ⟨t, ht, hrun⟩ := run_cons_eq_some.mp hrun
    exact ⟨⟨t, ht⟩, fun t' ht' => ih (Option.some.inj (ht.symm.trans ht') ▸ hrun)⟩

/-- The condition holds of an action of the run, in the state that the actions before it lead to. -/
theorem EachStep.of_append {C : σ → α → Prop} {s s' : σ} {as bs : List α} {a : α}
    (h : EachStep step C s (as ++ a :: bs)) (hrun : run step s as = some s') : C s' a := by
  induction as generalizing s with
  | nil =>
    rw [run_nil, Option.some.injEq] at hrun
    exact hrun ▸ h.1
  | cons b as ih =>
    obtain ⟨t, ht, hrun⟩ := run_cons_eq_some.mp hrun
    exact ih (h.2 t ht) hrun

/-- **Conditional invariant rule.**  A property that every step meeting `C` keeps holds
    in every state of a run whose steps all meet `C`. -/
theorem always_of_inductive {I : σ → Prop} {C : σ → α → Prop}
    (hstep : ∀ s a s', I s → C s a → step s a = some s' → I s')
    {s : σ} {as : List α} (h : I s) (hC : EachStep step C s as) : Always step I s as := by
  induction as generalizing s with
  | nil => exact h
  | cons a as ih =>
    exact ⟨h, fun s' hs' => ih (hstep s a s' h hC.1 hs') (hC.2 s' hs')⟩

/-- **Step rule.**  If the steps that meet `C` keep `I`, what holds of every action that meets
    `C` in a state of `I` holds of every action of a run whose actions meet `C`. -/
theorem EachStep.of_invariant {I : σ → Prop} {C Q : σ → α → Prop}
    (hI : ∀ s a s', I s → C s a → step s a = some s' → I s') (hQ : ∀ s a, I s → C s a → Q s a)
    {s : σ} {as : List α} (h : I s) (hC : EachStep step C s as) : EachStep step Q s as := by
  induction as generalizing s with
  | nil => trivial
  | cons a as ih =>
    exact ⟨hQ s a h hC.1, fun s' hs' => ih (hI s a s' h hC.1 hs') (hC.2 s' hs')⟩

/-- **Exactness rule, with a budget.**  `J` may speak about the actions still to come (how many
    of a kind there are at most, say) and is kept by the steps that keep `P`.  If a step keeps
    `P` exactly when it meets `C`, and an action that leads nowhere meets `C`, then `P` holds
    along a run exactly when every step of the run meets `C`. -/
theorem always_iff_eachStep_budget {J : σ → List α → Prop} {P : σ → Prop} {C : σ → α → Prop}
    (hJ : ∀ s a as s', J s (a :: as) → P s → step s a = some s' → P s' → J s' as)
    (hstep : ∀ s a as s', J s (a :: as) → P s → step s a = some s' → (P s' ↔ C s a))
    (hstuck : ∀ s a as, J s (a :: as) → P s → step s a = none → C s a)
    {s : σ} {as : List α} (hJs : J s as) (hPs : P s) :
    Always step P s as ↔ EachStep step C s as := by
  constructor
  · intro hall
    induction as generalizing s with
    | nil => trivial
    | cons a as ih =>
      refine ⟨?_, fun s' hs' => ?_⟩
      -- The state after the action satisfies `P`, so the action met `C`.
      rotate_left
      · have hPs' := (hall.2 s' hs').head
        exact ih (hJ s a as s' hJs hPs hs' hPs') hPs' (hall.2 s' hs')
      cases hs : step s a with
      | none => exact hstuck s a as hJs hPs hs
      | some s' => exact (hstep s a as s' hJs hPs hs).mp (hall.2 s' hs).head
  · intro hC
    induction as generalizing s with
    | nil => exact hPs
    | cons a as ih =>
      refine ⟨hPs, fun s' hs' => ?_⟩
      have hPs' := (hstep s a as s' hJs hPs hs').mpr hC.1
      exact ih (hJ s a as s' hJs hPs hs' hPs') hPs' (hC.2 s' hs')

/-- **Exactness rule.**  Let `J` be kept by the steps that keep `P`.  If a step keeps `P`
    exactly when it meets `C`, and an action that leads nowhere meets `C`, then `P` holds
    along a run exactly when every step of the run meets `C`. -/
theorem always_iff_eachStep {J P : σ → Prop} {C : σ → α → Prop}
    (hJ : ∀ s a s', J s → P s → step s a = some s' → P s' → J s')
    (hstep : ∀ s a s', J s → P s → step s a = some s' → (P s' ↔ C s a))
    (hstuck : ∀ s a, J s → P s → step s a = none → C s a)
    {s : σ} {as : List α} (hJs : J s) (hPs : P s) :
    Always step P s as ↔ EachStep step C s as :=
  always_iff_eachStep_budget (J := fun s _ => J s) (fun s a _ s' => hJ s a s')
    (fun s a _ s' => hstep s a s') (fun s a _ => hstuck s a) hJs hPs

/-! ### Runs that end -/

section Potential

variable (step) in
/-- What the actions of a run cost, each in the state it is taken in. -/
def total (cost : σ → α → Nat) : σ → List α → Nat
  | _, [] => 0
  | s, a :: as => cost s a + ((step s a).map fun s' => total cost s' as).getD 0

variable {cost : σ → α → Nat} {I : σ → Prop} {potential : σ → Nat}

/-- The first step, and the others. -/
theorem total_cons {s s' : σ} {a : α} {as : List α} (h : step s a = some s') :
    total step cost s (a :: as) = cost s a + total step cost s' as := by
  rw [total, h]
  rfl

/-- Every step costs the same number of times more. -/
theorem total_mul (c : Nat) (s : σ) (as : List α) :
    total step (fun s a => c * cost s a) s as = c * total step cost s as := by
  induction as generalizing s with
  | nil => rfl
  | cons a as ih =>
    rw [total, total, Nat.mul_add]
    cases step s a with
    | none => rfl
    | some s' =>
      simp only [Option.map_some, Option.getD_some]
      rw [ih s']

/-- **Amortised rule.**  If every step lowers a potential, but for what its action costs, a run is
    no longer than the potential that it starts with and its costs. -/
theorem run_amortised (hI : ∀ s a s', I s → step s a = some s' → I s')
    (hstep : ∀ s a s', I s → step s a = some s' → potential s' + 1 ≤ potential s + cost s a)
    {s s' : σ} {as : List α} (h : I s) (hrun : run step s as = some s') :
    potential s' + as.length ≤ potential s + total step cost s as := by
  induction as generalizing s with
  | nil =>
    rw [run_nil, Option.some.injEq] at hrun
    rw [hrun]
    exact Nat.le_refl _
  | cons a as ih =>
    obtain ⟨t, ht, hrun⟩ := run_cons_eq_some.mp hrun
    have hfirst := hstep s a t h ht
    have hrest := ih (hI s a t h ht) hrun
    rw [total_cons ht, List.length_cons]
    omega

/-- **Termination rule.**  If moreover a step can be taken in every state that is not final, and
    the costs stay within a budget, a final state is reached in time. -/
theorem run_reaches (cost : σ → α → Nat) (hI : ∀ s a s', I s → step s a = some s' → I s')
    (hstep : ∀ s a s', I s → step s a = some s' → potential s' + 1 ≤ potential s + cost s a)
    {final : σ → Prop} (hgo : ∀ s a, I s → ¬ final s → ∃ s', step s a = some s')
    {s : σ} (h : I s) (actions : Nat → α) {budget : Nat}
    (hbudget : ∀ k, total step cost s ((List.range k).map actions) ≤ budget) :
    ∃ k ≤ potential s + budget, ∃ s',
      run step s ((List.range k).map actions) = some s' ∧ final s' := by
  by_contra hnever
  -- A run that never gets there goes on for too long.
  have hgoes : ∀ k, k ≤ potential s + budget + 1 → ∃ s',
      run step s ((List.range k).map actions) = some s' := by
    intro k
    induction k with
    | zero => exact fun _ => ⟨s, rfl⟩
    | succ k ih =>
      intro hk
      obtain ⟨t, ht⟩ := ih (by omega)
      have hnot : ¬ final t := fun hfinal => hnever ⟨k, by omega, t, ht, hfinal⟩
      obtain ⟨t', ht'⟩ := hgo t (actions k) (run_invariant hI h ht) hnot
      exact ⟨t', by rw [List.range_succ, List.map_append, run_append, ht, Option.bind_some,
        List.map_singleton, run_cons, ht', Option.bind_some, run_nil]⟩
  obtain ⟨t, ht⟩ := hgoes _ (Nat.le_refl _)
  have hlength := run_amortised hI hstep h ht
  have hcost := hbudget (potential s + budget + 1)
  rw [List.length_map, List.length_range] at hlength
  omega

end Potential

/-! ### Runs of two programs -/

section Simulation

variable {τ β : Type*} {step' : τ → β → Option τ}

variable (step) in
/-- What the actions of a run are for another program, each in the state it is taken in. -/
def images (f : σ → α → List β) : σ → List α → List β
  | _, [] => []
  | s, a :: as => f s a ++ ((step s a).map fun s' => images f s' as).getD []

/-- **Simulation rule.**  If every action that meets `C` can be taken, and the other program can
    follow it from a related state to a related state, then it can follow the runs whose actions
    meet `C`. -/
theorem run_simulates {R : σ → τ → Prop} {C : σ → α → Prop} {f : σ → α → List β}
    (hstep : ∀ s t a, R s t → C s a →
      ∃ s' t', step s a = some s' ∧ run step' t (f s a) = some t' ∧ R s' t')
    {s : σ} {t : τ} {as : List α} (h : R s t) (hC : EachStep step C s as) :
    ∃ s' t', run step s as = some s' ∧ run step' t (images step f s as) = some t' ∧ R s' t' := by
  induction as generalizing s t with
  | nil => exact ⟨s, t, rfl, rfl, h⟩
  | cons a as ih =>
    obtain ⟨s', t', hs', ht', h'⟩ := hstep s t a h hC.1
    obtain ⟨s'', t'', hs'', ht'', h''⟩ := ih h' (hC.2 s' hs')
    refine ⟨s'', t'', run_cons_eq_some.mpr ⟨s', hs', hs''⟩, ?_, h''⟩
    rw [images, hs', Option.map_some, Option.getD_some, run_append, ht', Option.bind_some, ht'']

/-- **Lock-step rule.**  The same, for a program with the same actions. -/
theorem run_follows {step' : τ → α → Option τ} {R : σ → τ → Prop} {C : σ → α → Prop}
    (hstep : ∀ s t a, R s t → C s a → ∃ s' t', step s a = some s' ∧ step' t a = some t' ∧ R s' t')
    {s : σ} {t : τ} {as : List α} (h : R s t) (hC : EachStep step C s as) :
    ∃ s' t', run step s as = some s' ∧ run step' t as = some t' ∧ R s' t' := by
  induction as generalizing s t with
  | nil => exact ⟨s, t, rfl, rfl, h⟩
  | cons a as ih =>
    obtain ⟨s', t', hs', ht', h'⟩ := hstep s t a h hC.1
    obtain ⟨s'', t'', hs'', ht'', h''⟩ := ih h' (hC.2 s' hs')
    exact ⟨s'', t'', run_cons_eq_some.mpr ⟨s', hs', hs''⟩, run_cons_eq_some.mpr ⟨t', ht', ht''⟩,
      h''⟩

end Simulation

end WorkAtUPB.Run

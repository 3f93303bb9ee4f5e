import WorkAtUPB.Lib.Run

namespace WorkAtUPB.Sections

open WorkAtUPB.Run

/-!
# Sections of code that nothing comes between

Threads that share data change it by single accesses, and what such an access finds may have been
changed by another thread since the last one.  Where a section of code begins only while no other
thread is in one, the sections could as well be made in one go:

* `Code`, `Meaning` — the accesses of a section up to its end, and what they do;
* `Meaning.finish` — the whole of a section;
* `System`, `System.step` — sections that begin one at a time, access by access;
* `atomicStep`, `run_finished` — a run of accesses is a run of whole sections, in the order in which
  they begin.
-/

/-- Code that uses shared data by single accesses, each with an answer, and ends. -/
inductive Code (A : Type*) (R : A → Type*) (E : Type*) where
  | access (a : A) (rest : R a → Code A R E)
  | done (e : E)

/-- What the accesses and the end of a section do, for the thread that makes them. -/
structure Meaning (σ T A : Type*) (R : A → Type*) (E : Type*) where
  access : σ → T → (a : A) → σ × R a
  done : σ → T → E → σ

variable {σ T A : Type*} {R : A → Type*} {E B : Type*}

/-- The data after a section that nothing comes between. -/
def Meaning.finish (m : Meaning σ T A R E) (t : T) : Code A R E → σ → σ
  | .access a rest, s => m.finish t (rest (m.access s t a).2) (m.access s t a).1
  | .done e, s => m.done s t e

/-- The shared data, and the thread in a section with what is left of its code. -/
structure System (σ T A : Type*) (R : A → Type*) (E : Type*) where
  data : σ
  inside : Option (T × Code A R E)

/-- What happens: a section begins, or the thread in a section makes its next access or ends. -/
inductive Move (B : Type*) where
  | begins (b : B)
  | goes

/-- The section that begins with a move. -/
def Move.begun : Move B → Option B
  | .begins b => some b
  | .goes => none

variable (m : Meaning σ T A R E) (start : σ → B → Option (σ × T × Code A R E))

/-- One move.  A section begins only while no thread is in one. -/
def System.step (s : System σ T A R E) : Move B → Option (System σ T A R E)
  | .begins b =>
    match s.inside with
    | some _ => none
    | none => (start s.data b).map fun r => ⟨r.1, some r.2⟩
  | .goes =>
    match s.inside with
    | none => none
    | some (t, .access a rest) =>
      some ⟨(m.access s.data t a).1, some (t, rest (m.access s.data t a).2)⟩
    | some (t, .done e) => some ⟨m.done s.data t e, none⟩

/-- A whole section. -/
def atomicStep (s : σ) (b : B) : Option σ := (start s b).map fun r => m.finish r.2.1 r.2.2 r.1

/-- The data once the section that has begun is finished. -/
def System.finished (s : System σ T A R E) : σ :=
  match s.inside with
  | none => s.data
  | some (t, code) => m.finish t code s.data

variable {m start} {s s' : System σ T A R E}

theorem finished_of_outside (h : s.inside = none) : s.finished m = s.data := by
  rw [System.finished, h]

/-- **Step.**  The section is finished in advance where it begins; after that nothing is changed. -/
theorem step_finished {move : Move B} (h : s.step m start move = some s') :
    run (atomicStep m start) (s.finished m) move.begun.toList = some (s'.finished m) := by
  cases move with
  | begins b =>
    rw [System.step] at h
    cases hinside : s.inside with
    | some r =>
      rw [hinside] at h
      cases h
    | none =>
      rw [hinside] at h
      -- Nobody is inside, so the section begins and is finished at once.
      obtain ⟨r, hstart, rfl⟩ := Option.map_eq_some_iff.mp h
      rw [finished_of_outside hinside]
      refine run_cons_eq_some.mpr ⟨m.finish r.2.1 r.2.2 r.1, ?_, rfl⟩
      rw [atomicStep, hstart, Option.map_some]
  | goes =>
    rw [System.step] at h
    cases hinside : s.inside with
    | none =>
      rw [hinside] at h
      cases h
    | some r =>
      rw [hinside] at h
      rw [System.finished, hinside]
      obtain ⟨t, code⟩ := r
      cases code with
      | access a rest =>
        cases h
        rfl
      | done e =>
        cases h
        rfl

/-- **Run.**  Whatever accesses are made in between, the data is what the sections make of it one
    after the other. -/
theorem run_finished {moves : List (Move B)} (h : run (System.step m start) s moves = some s') :
    run (atomicStep m start) (s.finished m) (moves.filterMap Move.begun) =
      some (s'.finished m) := by
  induction moves generalizing s with
  | nil =>
    cases h
    rfl
  | cons move moves ih =>
    obtain ⟨t, hstep, hrest⟩ := run_cons_eq_some.mp h
    have hfirst := step_finished hstep
    have happend : (move :: moves).filterMap Move.begun =
        move.begun.toList ++ moves.filterMap Move.begun := by
      rw [List.filterMap_cons]
      cases move.begun with
      | none => rfl
      | some b => rfl
    rw [happend, run_append, hfirst]
    exact ih hrest

end WorkAtUPB.Sections

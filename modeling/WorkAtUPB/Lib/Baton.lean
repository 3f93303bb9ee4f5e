import Mathlib.Logic.ExistsUnique
import Mathlib.Logic.Function.Basic
import Mathlib.Tactic.TypeStar

namespace WorkAtUPB.Baton

/-!
# Interrupts that disable themselves

A handler disables its interrupt and sets an event; one of the threads that wait for the event goes
on, and enables the interrupt again when it has done its work.  The right to touch what the handler
and the threads share goes round like a baton:

* `Relay`, `Place` — the interrupt, the event and the threads, and where the baton can be;
* `Single` — the baton is at exactly one place;
* `Single.interrupt`, `Single.wait`, `Single.rearm` — the three ways in which it goes on;
* `single_setEnabled_iff`, `not_single_setWorking` — an interrupt enabled or disabled by somebody
  else, and a thread that goes on without the event.
-/

/-- Whether the interrupt is enabled, whether the event is set, and which threads are at work. -/
structure Relay (ι : Type*) where
  enabled : Bool
  signalled : Bool
  working : ι → Bool

/-- Where the baton can be. -/
inductive Place (ι : Type*) where
  | interrupt
  | event
  | thread (i : ι)

variable {ι : Type*} {r : Relay ι} {i : ι}

/-- The baton is at the place. -/
def Relay.At (r : Relay ι) : Place ι → Prop
  | .interrupt => r.enabled = true
  | .event => r.signalled = true
  | .thread i => r.working i = true

/-- The baton is at exactly one place. -/
def Single (r : Relay ι) : Prop := ∃! p, r.At p

/-- No two places have the baton. -/
theorem Single.eq (h : Single r) {p q : Place ι} (hp : r.At p) (hq : r.At q) : p = q :=
  ExistsUnique.unique h hp hq

/-- At the start the interrupt has it. -/
theorem single_start : Single (⟨true, false, fun _ => false⟩ : Relay ι) := by
  refine ⟨.interrupt, rfl, fun p hp => ?_⟩
  cases p with
  | interrupt => rfl
  | event | thread => exact absurd hp Bool.noConfusion

/-! ### The baton goes on -/

/-- The baton goes from `p` to `q`. -/
theorem Single.pass {r' : Relay ι} {p q : Place ι} (h : Single r) (hp : r.At p)
    (hr' : ∀ x, r'.At x ↔ x = q ∨ (r.At x ∧ x ≠ p)) : Single r' := by
  refine ⟨q, (hr' q).mpr (Or.inl rfl), fun x hx => ?_⟩
  rcases (hr' x).mp hx with heq | ⟨hat, hne⟩
  · exact heq
  · exact absurd (h.eq hat hp) hne

/-- The handler runs: the interrupt is disabled and the event is set. -/
def Relay.interrupt (r : Relay ι) : Relay ι := { r with enabled := false, signalled := true }

theorem Single.interrupt (h : Single r) (henabled : r.enabled = true) : Single r.interrupt := by
  refine h.pass (p := .interrupt) (q := .event) henabled fun x => ?_
  cases x <;> simp [Relay.At, Relay.interrupt]

variable [DecidableEq ι]

/-- A thread begins its work, or ends it. -/
def Relay.setWorking (r : Relay ι) (i : ι) (b : Bool) : Relay ι :=
  { r with working := Function.update r.working i b }

@[simp] theorem setWorking_self (r : Relay ι) (i : ι) : r.setWorking i (r.working i) = r := by
  rw [Relay.setWorking, Function.update_eq_self]

/-- A thread goes on with the event, which is reset. -/
theorem Single.wait (h : Single r) (hsignalled : r.signalled = true) :
    Single ({ r with signalled := false }.setWorking i true) := by
  refine h.pass (p := .event) (q := .thread i) hsignalled fun x => ?_
  cases x with
  | interrupt | event => simp [Relay.At, Relay.setWorking]
  | thread j =>
    by_cases hj : j = i <;> simp [Relay.At, Relay.setWorking, hj]

/-- A thread ends its work and enables the interrupt. -/
theorem Single.rearm (h : Single r) (hworking : r.working i = true) :
    Single ({ r with enabled := true }.setWorking i false) := by
  refine h.pass (p := .thread i) (q := .interrupt) hworking fun x => ?_
  cases x with
  | interrupt | event => simp [Relay.At, Relay.setWorking]
  | thread j =>
    by_cases hj : j = i <;> simp [Relay.At, Relay.setWorking, hj]

/-! ### The baton is lost or doubled -/

omit [DecidableEq ι] in
/-- If only one place changes, the baton is still at one place exactly if that does not either. -/
theorem Single.congr_iff {r' : Relay ι} {p : Place ι} (h : Single r)
    (hr' : ∀ x, x ≠ p → (r'.At x ↔ r.At x)) : Single r' ↔ (r'.At p ↔ r.At p) := by
  constructor
  · intro h'
    obtain ⟨q, hq, -⟩ := id h
    obtain ⟨q', hq', -⟩ := id h'
    by_cases heq : q = p
    · -- The baton was at `p`, and can be nowhere else.
      subst heq
      by_cases heq' : q' = q
      · subst heq'
        exact iff_of_true hq' hq
      · exact absurd (h.eq ((hr' q' heq').mp hq') hq) heq'
    · -- It was at `q`, and is there.
      have hat : r'.At q := (hr' q heq).mpr hq
      exact iff_of_false (fun hp => heq (h'.eq hat hp)) fun hp => heq (h.eq hq hp)
  · intro hp
    have hsame : r'.At = r.At := by
      funext x
      by_cases hx : x = p
      · rw [hx]
        exact propext hp
      · exact propext (hr' x hx)
    rw [Single, hsame]
    exact h

omit [DecidableEq ι] in
/-- Somebody who has not the baton writes whether the interrupt is enabled. -/
theorem single_setEnabled_iff (h : Single r) (b : Bool) :
    Single { r with enabled := b } ↔ b = r.enabled := by
  rw [h.congr_iff (p := .interrupt) fun x hx => by cases x <;> simp_all [Relay.At]]
  exact (Bool.eq_iff_iff (a := b) (b := r.enabled)).symm

/-- A thread goes on without the event. -/
theorem not_single_setWorking (h : Single r) (hidle : r.working i = false) :
    ¬ Single (r.setWorking i true) := by
  rw [h.congr_iff (p := .thread i) fun x hx => by
    cases x with
    | interrupt | event => rfl
    | thread j =>
      have hj : j ≠ i := fun heq => hx (heq ▸ rfl)
      simp [Relay.At, Relay.setWorking, hj]]
  simp [Relay.At, Relay.setWorking, hidle]

end WorkAtUPB.Baton

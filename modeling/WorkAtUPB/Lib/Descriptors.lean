import Mathlib.Data.List.Basic
import Mathlib.Tactic.TypeStar

namespace WorkAtUPB.Descriptors

/-!
# Descriptor tables

A process has a table of descriptors; each of them is free or stands for something that is open:

* `get`, `set` — one descriptor;
* `lowest`, `opened` — the least free descriptor, which is the one that an opening takes;
* `close`, `dup2` — a descriptor becomes free, or stands for what another one stands for;
* `Holds` — the first descriptors stand for the given things, and no other one is open;
* `Holds.lowest_eq`, `Holds.opened`, `Holds.close`, `Holds.dup2` — these steps for such a table.
-/

variable {δ : Type*}

/-- A descriptor beyond the list is free. -/
abbrev Table (δ : Type*) := List (Option δ)

/-- What a descriptor stands for. -/
def get (t : Table δ) (fd : Nat) : Option δ := t.getD fd none

/-- The table with another entry. -/
def set (t : Table δ) (fd : Nat) (d : Option δ) : Table δ :=
  (t ++ List.replicate (fd + 1 - t.length) none).set fd d

/-- The least free descriptor. -/
def lowest (t : Table δ) : Nat := t.findIdx Option.isNone

/-- `open`: the table and the descriptor. -/
def opened (t : Table δ) (d : δ) : Table δ × Nat := (set t (lowest t) (some d), lowest t)

/-- `close` -/
def close (t : Table δ) (fd : Nat) : Table δ := set t fd none

/-- `dup2`, which fails for a descriptor that is not open. -/
def dup2 (t : Table δ) (oldfd newfd : Nat) : Option (Table δ) :=
  (get t oldfd).map fun d => set t newfd (some d)

/-- One entry changes. -/
theorem get_set (t : Table δ) (fd : Nat) (d : Option δ) (fd' : Nat) :
    get (set t fd d) fd' = if fd' = fd then d else get t fd' := by
  have hlt : fd < (t ++ List.replicate (fd + 1 - t.length) none).length := by
    rw [List.length_append, List.length_replicate]
    omega
  rw [get, set, List.getD_eq_getElem?_getD, List.getElem?_set]
  by_cases heq : fd' = fd
  · rw [if_pos heq, if_pos heq.symm, if_pos (heq ▸ hlt), Option.getD_some]
  · rw [if_neg heq, if_neg (Ne.symm heq), get, List.getD_eq_getElem?_getD]
    by_cases hin : fd' < t.length
    · rw [List.getElem?_append_left hin]
    · rw [List.getElem?_append_right (Nat.le_of_not_lt hin), List.getElem?_replicate,
        List.getElem?_eq_none (Nat.le_of_not_lt hin)]
      split <;> rfl

/-! ### The least free descriptor -/

/-- The lowest descriptor is free. -/
theorem get_lowest (t : Table δ) : get t (lowest t) = none := by
  rw [get, List.getD_eq_getElem?_getD]
  cases hentry : t[lowest t]? with
  | none => rfl
  | some entry => exact Option.isNone_iff_eq_none.mp (List.findIdx_of_getElem?_eq_some hentry)

/-- Those below it are taken. -/
theorem isSome_of_lt_lowest {t : Table δ} {fd : Nat} (h : fd < lowest t) :
    (get t fd).isSome = true := by
  have hlt : fd < t.length := Nat.lt_of_lt_of_le h List.findIdx_le_length
  have hnot := List.not_of_lt_findIdx h
  rw [get, List.getD_eq_getElem?_getD, List.getElem?_eq_getElem hlt, Option.getD_some]
  exact Option.isSome_iff_ne_none.mpr fun hnone => by simp [hnone] at hnot

/-- The descriptors before the least free one are open. -/
theorem lowest_eq {t : Table δ} {n : Nat} (hopen : ∀ fd < n, (get t fd).isSome = true)
    (hfree : get t n = none) : lowest t = n := by
  rcases Nat.lt_trichotomy (lowest t) n with hlt | heq | hgt
  · have hsome := hopen _ hlt
    rw [get_lowest] at hsome
    exact Bool.noConfusion hsome
  · exact heq
  · have hsome := isSome_of_lt_lowest hgt
    rw [hfree] at hsome
    exact Bool.noConfusion hsome

/-! ### Tables without gaps -/

/-- The first descriptors stand for `ds`, and no other one is open. -/
def Holds (t : Table δ) (ds : List δ) : Prop := ∀ fd, get t fd = ds[fd]?

variable {t : Table δ} {ds : List δ} {r w : δ}

/-- A table without gaps. -/
theorem holds_map (ds : List δ) : Holds (ds.map some) ds := by
  intro fd
  rw [get, List.getD_eq_getElem?_getD, List.getElem?_map]
  cases ds[fd]? <;> rfl

/-- The lowest free descriptor behind a table without gaps. -/
theorem Holds.lowest_eq (h : Holds t ds) : lowest t = ds.length := by
  refine Descriptors.lowest_eq (fun fd hfd => ?_) ?_
  · rw [h, List.getElem?_eq_getElem hfd]
    rfl
  · rw [h, List.getElem?_eq_none (Nat.le_refl _)]

/-- An opening adds a descriptor at the end. -/
theorem Holds.opened (h : Holds t ds) (d : δ) :
    (opened t d).2 = ds.length ∧ Holds (opened t d).1 (ds ++ [d]) := by
  refine ⟨h.lowest_eq, fun fd => ?_⟩
  rw [Descriptors.opened, get_set, h.lowest_eq]
  by_cases heq : fd = ds.length
  · rw [if_pos heq, heq, List.getElem?_concat_length]
  · rw [if_neg heq, h]
    by_cases hlt : fd < ds.length
    · rw [List.getElem?_append_left hlt]
    · rw [List.getElem?_eq_none (Nat.le_of_not_lt hlt), List.getElem?_eq_none]
      rw [List.length_append, List.length_singleton]
      omega

/-- `dup2` replaces what another descriptor stands for. -/
theorem Holds.dup2 (h : Holds t ds) {oldfd newfd : Nat} {d : δ} (hold : ds[oldfd]? = some d)
    (hnew : newfd < ds.length) :
    ∃ t', dup2 t oldfd newfd = some t' ∧ Holds t' (ds.set newfd d) := by
  refine ⟨set t newfd (some d), by rw [Descriptors.dup2, h, hold]; rfl, fun fd => ?_⟩
  rw [get_set, List.getElem?_set]
  by_cases heq : fd = newfd
  · rw [if_pos heq, if_pos heq.symm, if_pos hnew]
  · rw [if_neg heq, if_neg (Ne.symm heq), h]

/-! ### The ends of a pipe -/

/-- Two more descriptors, one of which takes the place of a descriptor before both are closed. -/
theorem Holds.replace (h : Holds t (ds ++ [r, w])) {k fd : Nat} {d : δ} (hk : k < ds.length)
    (hfd : (ds ++ [r, w])[fd]? = some d) {keep : Nat}
    (hkeep : (fd = ds.length ∧ keep = ds.length + 1) ∨ (fd = ds.length + 1 ∧ keep = ds.length)) :
    ∃ t', Descriptors.dup2 (close t keep) fd k = some t' ∧ Holds (close t' fd) (ds.set k d) := by
  have hne : fd ≠ keep := by omega
  refine ⟨set (close t keep) k (some d), ?_, fun fd' => ?_⟩
  · rw [Descriptors.dup2, close, get_set, if_neg hne, h, hfd]
    rfl
  · rw [close, get_set, get_set, close, get_set, h, List.getElem?_set]
    by_cases hk' : fd' = k
    · rw [if_neg (by omega), if_pos hk', if_pos hk'.symm, if_pos hk]
    · rw [if_neg hk', if_neg (Ne.symm hk')]
      by_cases hlt : fd' < ds.length
      · rw [if_neg (by omega), if_neg (by omega), List.getElem?_append_left hlt]
      · rw [List.getElem?_eq_none (Nat.le_of_not_lt hlt)]
        by_cases hend : fd' = fd ∨ fd' = keep
        · rcases hend with heq | heq
          · rw [if_pos heq]
          · rw [if_neg (heq ▸ Ne.symm hne), if_pos heq]
        · rw [if_neg (fun heq => hend (Or.inl heq)), if_neg (fun heq => hend (Or.inr heq)),
            List.getElem?_eq_none]
          rw [List.length_append, List.length_cons, List.length_singleton]
          omega

end WorkAtUPB.Descriptors

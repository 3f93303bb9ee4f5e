import Mathlib.Data.List.Basic
import Mathlib.Order.Lattice

namespace WorkAtUPB.Least

/-!
# The least entry of a list, by a running minimum

A loop keeps an entry with its key, and takes another entry in its place only if the key of that is
less.  It ends with

* `FirstLeast` — the first of the entries with the least key, if that is less than the key of the
  entry before the loop;
* the entry before the loop, if no entry has a lesser key.

The two cases are `running_cases`; what the first one says about the other entries are
`FirstLeast.le` and `FirstLeast.lt`.
-/

variable {κ α : Type*} [LinearOrder κ]

/-- One round of the loop. -/
def keep (best entry : κ × α) : κ × α := if entry.1 < best.1 then entry else best

/-- The loop, from the entry `start` on. -/
def running (start : κ × α) (entries : List (κ × α)) : κ × α := entries.foldl keep start

/-- The entry has the least key, and those before it have greater ones. -/
def FirstLeast (entry : κ × α) (entries : List (κ × α)) : Prop :=
  ∃ pre post, entries = pre ++ entry :: post ∧ (∀ e ∈ pre, entry.1 < e.1) ∧
    ∀ e ∈ post, entry.1 ≤ e.1

variable {start entry e : κ × α} {entries : List (κ × α)}

@[simp] theorem running_nil : running start [] = start := rfl

@[simp] theorem running_concat :
    running start (entries ++ [e]) = keep (running start entries) e := by
  rw [running, List.foldl_append]
  rfl

theorem FirstLeast.mem (h : FirstLeast entry entries) : entry ∈ entries := by
  obtain ⟨pre, post, rfl, -, -⟩ := h
  exact List.mem_append_right _ List.mem_cons_self

theorem FirstLeast.le (h : FirstLeast entry entries) (he : e ∈ entries) : entry.1 ≤ e.1 := by
  obtain ⟨pre, post, rfl, hpre, hpost⟩ := h
  rcases List.mem_append.mp he with he | he
  · exact (hpre e he).le
  · rcases List.mem_cons.mp he with rfl | he
    · exact le_rfl
    · exact hpost e he

/-- Entries in front of the first least one have greater keys. -/
theorem FirstLeast.lt (h : FirstLeast entry entries) (before : α → α → Prop)
    (horder : entries.Pairwise fun a b => ¬ before b.2 a.2) (he : e ∈ entries)
    (hbefore : before e.2 entry.2) (hirrefl : ¬ before entry.2 entry.2) : entry.1 < e.1 := by
  obtain ⟨pre, post, rfl, hpre, -⟩ := h
  rcases List.mem_append.mp he with he | he
  · exact hpre e he
  · rcases List.mem_cons.mp he with rfl | he
    · exact absurd hbefore hirrefl
    · have hrest := (List.pairwise_append.mp horder).2.1
      exact absurd hbefore ((List.pairwise_cons.mp hrest).1 e he)

/-- An entry with a greater key may stand in front. -/
theorem FirstLeast.cons (h : FirstLeast entry entries) (he : entry.1 < e.1) :
    FirstLeast entry (e :: entries) := by
  obtain ⟨pre, post, rfl, hpre, hpost⟩ := h
  refine ⟨e :: pre, post, rfl, ?_, hpost⟩
  intro e' he'
  rcases List.mem_cons.mp he' with rfl | he'
  · exact he
  · exact hpre e' he'

/-- **Running minimum.**  The loop ends with the entry it began with, if no key is less, or with
    the first entry that has the least key. -/
theorem running_cases (start : κ × α) (entries : List (κ × α)) :
    (running start entries = start ∧ ∀ e ∈ entries, start.1 ≤ e.1) ∨
      (FirstLeast (running start entries) entries ∧ (running start entries).1 < start.1) := by
  induction entries generalizing start with
  | nil => exact .inl ⟨rfl, by simp⟩
  | cons e entries ih =>
    have hcons : running start (e :: entries) = running (keep start e) entries := rfl
    rw [hcons, keep]
    split
    · next hlt =>
      rcases ih e with ⟨hsame, hle⟩ | ⟨hleast, hless⟩
      · refine .inr ⟨⟨[], entries, ?_, by simp, ?_⟩, ?_⟩
        · rw [hsame, List.nil_append]
        · rwa [hsame]
        · rwa [hsame]
      · exact .inr ⟨hleast.cons hless, hless.trans hlt⟩
    · next hlt =>
      have hle : start.1 ≤ e.1 := not_lt.mp hlt
      rcases ih start with ⟨hsame, hall⟩ | ⟨hleast, hless⟩
      · refine .inl ⟨hsame, ?_⟩
        intro e' he'
        rcases List.mem_cons.mp he' with rfl | he'
        · exact hle
        · exact hall e' he'
      · exact .inr ⟨hleast.cons (hless.trans_le hle), hless⟩

end WorkAtUPB.Least

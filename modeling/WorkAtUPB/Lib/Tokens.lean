import Mathlib.Data.List.Infix
import Mathlib.Data.List.TakeWhile

namespace WorkAtUPB.Tokens

/-!
# Splitting a text at delimiters

A text falls into segments, the longest runs of characters that are no delimiters:

* `segments` — the segments of a text, in order;
* `next` — what tokenizers do: skip delimiters, take a run, leave what is behind it;
* `strtok` — the same, which takes the delimiter behind the run too;
* `segments_eq_next`, `segments_eq_strtok` — the segments are what they give, again and again;
* `of_mem_segments` — segments are non-empty parts of the text without delimiters;
* `head?_segments_append_iff` — when the first segment is a given text.
-/

variable {α : Type*} (p : α → Bool)

/-- The longest non-empty runs of characters that are not delimiters. -/
def segments (s : List α) : List (List α) := (s.splitOnP p).filter (!·.isEmpty)

/-- The first run, and what is behind it. -/
def next (s : List α) : Option (List α × List α) :=
  match s.dropWhile p with
  | [] => none
  | c :: s => some ((c :: s).takeWhile (!p ·), (c :: s).dropWhile (!p ·))

/-- `strtok`: the first run, and what is behind the delimiter that ends it. -/
def strtok (s : List α) : Option (List α × List α) := (next p s).map fun r => (r.1, r.2.drop 1)

variable {p} {w rest s : List α} {d : α}

/-- A run of characters of a kind ends where one follows that is not of that kind. -/
theorem takeWhile_run {q : α → Bool} (hw : ∀ c ∈ w, q c = true)
    (hrest : ∀ c ∈ rest.head?, q c = false) :
    (w ++ rest).takeWhile q = w ∧ (w ++ rest).dropWhile q = rest := by
  rw [List.takeWhile_append_of_pos hw, List.dropWhile_append_of_pos hw]
  cases rest with
  | nil => simp
  | cons d rest => simp [hrest d rfl]

@[simp] theorem segments_nil : segments p [] = [] := rfl

/-- A delimiter in front. -/
theorem segments_cons (hd : p d = true) : segments p (d :: s) = segments p s := by
  rw [segments, List.splitOnP_cons_eq_if_modifyHead, if_pos hd, List.filter_cons]
  rfl

/-- A run that is all there is. -/
theorem segments_self (hne : w ≠ []) (hw : ∀ c ∈ w, p c = false) : segments p w = [w] := by
  rw [segments, List.splitOnP_eq_singleton hw]
  simp [hne]

/-- A run in front of a delimiter. -/
theorem segments_append_cons (hne : w ≠ []) (hw : ∀ c ∈ w, p c = false) (hd : p d = true) :
    segments p (w ++ d :: rest) = w :: segments p rest := by
  rw [segments, List.splitOnP_append_cons_of_forall_mem hw d hd, List.filter_cons]
  simp [hne, segments]

/-- A run in front of what does not belong to it. -/
theorem segments_append (hne : w ≠ []) (hw : ∀ c ∈ w, p c = false)
    (hrest : ∀ c ∈ rest.head?, p c = true) : segments p (w ++ rest) = w :: segments p rest := by
  cases rest with
  | nil => rw [List.append_nil, segments_self hne hw, segments_nil]
  | cons d rest =>
    have hd : p d = true := hrest d rfl
    rw [segments_append_cons hne hw hd, segments_cons hd]

theorem segments_dropWhile : segments p (s.dropWhile p) = segments p s := by
  induction s with
  | nil => rfl
  | cons c s ih =>
    by_cases hc : p c = true
    · rw [List.dropWhile_cons_of_pos hc, ih, segments_cons hc]
    · rw [List.dropWhile_cons_of_neg hc]

/-- Delimiters in front. -/
theorem segments_skipped {skipped : List α} (hskipped : ∀ c ∈ skipped, p c = true) (s : List α) :
    segments p (skipped ++ s) = segments p s := by
  rw [← segments_dropWhile, List.dropWhile_append_of_pos hskipped, segments_dropWhile]

/-- What is behind a run begins with a delimiter. -/
theorem head?_dropWhile_not : ∀ c ∈ (s.dropWhile (!p ·)).head?, p c = true := by
  intro c hc
  have hnot := List.head?_dropWhile_not (fun c => !p c) s
  rw [Option.mem_def.mp hc] at hnot
  simpa using hnot

/-- A text is delimiters, the first run, and the rest, which begins with a delimiter. -/
theorem eq_of_next (h : next p s = some (w, rest)) :
    ∃ skipped, s = skipped ++ (w ++ rest) ∧ (∀ c ∈ skipped, p c = true) ∧ w ≠ [] ∧
      (∀ c ∈ w, p c = false) ∧ ∀ c ∈ rest.head?, p c = true := by
  have hnot := List.head?_dropWhile_not p s
  unfold next at h
  cases hdrop : s.dropWhile p with
  | nil =>
    rw [hdrop] at h
    cases h
  | cons c t =>
    rw [hdrop] at h hnot
    obtain ⟨rfl, rfl⟩ := Prod.mk.inj (Option.some.inj h)
    refine ⟨s.takeWhile p, ?_, fun x hx => List.mem_takeWhile_imp hx, ?_, ?_,
      head?_dropWhile_not⟩
    · rw [List.takeWhile_append_dropWhile, ← hdrop, List.takeWhile_append_dropWhile]
    · have hc : p c = false := hnot
      simp [hc]
    · intro x hx
      simpa using List.mem_takeWhile_imp hx

/-- A text of delimiters only. -/
theorem next_eq_none (h : next p s = none) : ∀ c ∈ s, p c = true := by
  unfold next at h
  cases hdrop : s.dropWhile p with
  | nil => exact List.dropWhile_eq_nil_iff.mp hdrop
  | cons c t =>
    rw [hdrop] at h
    cases h

/-- A run at the front is the first token. -/
theorem next_append (hne : w ≠ []) (hw : ∀ c ∈ w, p c = false)
    (hrest : ∀ c ∈ rest.head?, p c = true) : next p (w ++ rest) = some (w, rest) := by
  obtain ⟨c, t, rfl⟩ := List.exists_cons_of_ne_nil hne
  have hc : p c = false := hw c List.mem_cons_self
  have hrun : ∀ x ∈ c :: t, (!p x) = true := fun x hx => by simp [hw x hx]
  have hdrop : ((c :: t) ++ rest).dropWhile p = (c :: t) ++ rest := by
    simp [hc]
  obtain ⟨htake, hdropRun⟩ := takeWhile_run hrun fun d hd => by simp [hrest d hd]
  rw [next, hdrop]
  show some (((c :: t) ++ rest).takeWhile (!p ·), ((c :: t) ++ rest).dropWhile (!p ·)) = _
  rw [htake, hdropRun]

/-- **Tokenizing.**  The first segment is the first run, and the others are those behind it. -/
theorem segments_eq_next (s : List α) :
    segments p s = match next p s with
      | none => []
      | some (w, rest) => w :: segments p rest := by
  cases hnext : next p s with
  | none =>
    rw [← segments_dropWhile, List.dropWhile_eq_nil_iff.mpr (next_eq_none hnext)]
    rfl
  | some r =>
    obtain ⟨w, rest⟩ := r
    obtain ⟨skipped, rfl, hskipped, hne, hw, hrest⟩ := eq_of_next hnext
    rw [segments_skipped hskipped]
    exact segments_append hne hw hrest

theorem segments_eq_strtok (s : List α) :
    segments p s = match strtok p s with
      | none => []
      | some (w, rest) => w :: segments p rest := by
  rw [segments_eq_next, strtok]
  cases hnext : next p s with
  | none => rfl
  | some r =>
    obtain ⟨w, rest⟩ := r
    obtain ⟨skipped, -, -, -, -, hrest⟩ := eq_of_next hnext
    show w :: segments p rest = w :: segments p (rest.drop 1)
    cases rest with
    | nil => rfl
    | cons d rest =>
      have hd : p d = true := hrest d rfl
      rw [segments_cons hd, List.drop_succ_cons, List.drop_zero]

/-- What is left is shorter. -/
theorem length_lt_of_strtok (h : strtok p s = some (w, rest)) : rest.length < s.length := by
  rw [strtok, Option.map_eq_some_iff] at h
  obtain ⟨⟨w', rest'⟩, hnext, heq⟩ := h
  obtain ⟨rfl, rfl⟩ := Prod.mk.inj heq
  obtain ⟨skipped, rfl, -, hne, -, -⟩ := eq_of_next hnext
  have hpos := List.length_pos_iff.mpr hne
  simp only [List.length_append, List.length_drop]
  omega

/-- A run at the front that a delimiter ends. -/
theorem strtok_append_cons (hne : w ≠ []) (hw : ∀ c ∈ w, p c = false) (hd : p d = true) :
    strtok p (w ++ d :: rest) = some (w, rest) := by
  have hrest : ∀ c ∈ (d :: rest).head?, p c = true := by
    intro c hc
    obtain rfl := Option.some.inj hc
    exact hd
  rw [strtok, next_append hne hw hrest]
  rfl

/-- A segment is a non-empty part of the text without delimiters. -/
theorem of_mem_segments (h : w ∈ segments p s) :
    w ≠ [] ∧ (∀ c ∈ w, p c = false) ∧ w <:+: s := by
  induction hlen : s.length using Nat.strong_induction_on generalizing s with
  | _ n ih =>
    subst hlen
    rw [segments_eq_next] at h
    cases hnext : next p s with
    | none =>
      rw [hnext] at h
      cases h
    | some r =>
      obtain ⟨first, rest⟩ := r
      obtain ⟨skipped, rfl, -, hne, hrun, -⟩ := eq_of_next hnext
      rw [hnext] at h
      rcases List.mem_cons.mp h with rfl | h
      · exact ⟨hne, hrun, List.infix_append' skipped w rest⟩
      · have hlt : rest.length < (skipped ++ (first ++ rest)).length := by
          have hpos := List.length_pos_iff.mpr hne
          simp only [List.length_append]
          omega
        obtain ⟨hne', hrun', hpart⟩ := ih rest.length hlt h rfl
        refine ⟨hne', hrun', hpart.trans ?_⟩
        rw [← List.append_assoc]
        exact (List.suffix_append (skipped ++ first) rest).isInfix

/-- A run at the front goes on up to the first delimiter. -/
theorem segments_append_run (hne : w ≠ []) (hw : ∀ c ∈ w, p c = false) (rest : List α) :
    segments p (w ++ rest) =
      (w ++ rest.takeWhile (!p ·)) :: segments p (rest.dropWhile (!p ·)) := by
  have hrun : ∀ c ∈ w ++ rest.takeWhile (!p ·), p c = false := by
    intro c hc
    rcases List.mem_append.mp hc with hc | hc
    · exact hw c hc
    · simpa using List.mem_takeWhile_imp hc
  have hne' : w ++ rest.takeWhile (!p ·) ≠ [] := by simp [hne]
  conv_lhs => rw [← List.takeWhile_append_dropWhile (p := (!p ·)) (l := rest), ← List.append_assoc]
  exact segments_append hne' hrun head?_dropWhile_not

/-- **First segment.**  A text at the front is the first segment exactly if it is a run that a
    delimiter follows. -/
theorem head?_segments_append_iff (hne : w ≠ []) :
    (segments p (w ++ rest)).head? = some w ↔
      (∀ c ∈ w, p c = false) ∧ ∀ c ∈ rest.head?, p c = true := by
  constructor
  · intro h
    obtain ⟨-, hw, -⟩ := of_mem_segments (List.mem_of_mem_head? h)
    refine ⟨hw, ?_⟩
    rw [segments_append_run hne hw, List.head?_cons, Option.some_inj,
      List.append_right_eq_self] at h
    intro c hc
    cases rest with
    | nil => cases hc
    | cons d rest =>
      cases hc
      by_contra hd
      simp [hd] at h
  · rintro ⟨hw, hrest⟩
    rw [segments_append hne hw hrest, List.head?_cons]

end WorkAtUPB.Tokens

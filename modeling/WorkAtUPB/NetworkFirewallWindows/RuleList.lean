import Mathlib.Data.List.Nodup
import Mathlib.Data.List.Infix
import Mathlib.Logic.Function.Basic
import Mathlib.Tactic.TypeStar

namespace WorkAtUPB.NetworkFirewallWindows

/-!
# NetworkFirewallWindows — lists of rules in memory (`rules.c`)

A list of rules is linked through its entries.  `destroy_list` pops the entry behind a pointer that
it moves to the entry it has just freed:

* `Chain`, `IsList` — pointers that lead through a list of entries;
* `Heap`, `Event` — the pointers in memory, and what has been done with the entries;
* `popEntryList`, `destroyLoop`, `destroyList` — the loop; what a freed entry holds is arbitrary;
* `Destroyed` — what should be the case in the end;
* `destroyList_destroyed_iff` — it is for the empty list only;
* `destroyList_untouched` — what becomes of a list whose memory is not used again.
-/

variable {α : Type*}

/-! ### Lists -/

/-- The pointers lead from `a` through the entries, and end there. -/
def Chain (next : α → Option α) : α → List α → Prop
  | a, [] => next a = none
  | a, b :: entries => next a = some b ∧ Chain next b entries

/-- The pointers lead from the head through the entries, which are different from each other. -/
structure IsList (next : α → Option α) (head : α) (entries : List α) : Prop where
  chain : Chain next head entries
  nodup : (head :: entries).Nodup

variable {next next' : α → Option α} {a b i j : α} {entries : List α}

theorem Chain.next_eq (h : Chain next a entries) : next a = entries.head? := by
  cases entries with
  | nil => exact h
  | cons b entries => exact h.1

/-- Only the pointers of the entries matter, and where the first one is. -/
theorem Chain.congr (h : Chain next a entries) (ha : next' b = next a)
    (hentries : ∀ c ∈ entries, next' c = next c) : Chain next' b entries := by
  induction entries generalizing a b with
  | nil => exact ha.trans h
  | cons c entries ih =>
    obtain ⟨hnext, hrest⟩ := h
    exact ⟨ha.trans hnext, ih hrest (hentries c List.mem_cons_self)
      fun d hd => hentries d (List.mem_cons_of_mem c hd)⟩

/-! ### Memory -/

/-- What is done with an entry: its timer is cancelled, it is freed, `Next` is read or written. -/
inductive Event (α : Type*) where
  | cancel (a : α)
  | free (a : α)
  | read (a : α)
  | write (a : α)
  deriving DecidableEq

/-- The field `Next` at each address, and the events, the last one first. -/
structure Heap (α : Type*) where
  next : α → Option α
  trace : List (Event α)

namespace Heap

/-- `a->Next`. -/
def read (h : Heap α) (a : α) : Option α × Heap α := (h.next a, ⟨h.next, .read a :: h.trace⟩)

/-- `KeCancelTimer`. -/
def cancel (h : Heap α) (a : α) : Heap α := ⟨h.next, .cancel a :: h.trace⟩

variable [DecidableEq α]

/-- `a->Next = b`. -/
def write (h : Heap α) (a : α) (b : Option α) : Heap α :=
  ⟨Function.update h.next a b, .write a :: h.trace⟩

/-- `ExFreePoolWithTag`; what is then at the address depends on `left`. -/
def free (left : Heap α → α → Option α) (h : Heap α) (a : α) : Heap α :=
  ⟨Function.update h.next a (left h a), .free a :: h.trace⟩

end Heap

variable [DecidableEq α]

/-- `PushEntryList`. -/
def pushEntryList (h : Heap α) (head a : α) : Heap α :=
  let (first, h) := h.read head
  (h.write a first).write head (some a)

/-- `PopEntryList`. -/
def popEntryList (h : Heap α) (j : α) : Heap α :=
  match h.read j with
  | (none, h) => h
  | (some first, h) =>
    let (next, h) := h.read first
    h.write j next

/-- The body of the loop, for the entry `i`. -/
def destroyEntry (left : Heap α → α → Option α) (h : Heap α) (j i : α) : Heap α :=
  let h := h.cancel i
  let h := popEntryList h j
  h.free left i

/-- The loop; `none` if it takes more than `fuel` rounds. -/
def destroyLoop (left : Heap α → α → Option α) : Nat → Heap α → α → Option α → Option (Heap α)
  | _, h, _, none => some h
  | 0, _, _, some _ => none
  | fuel + 1, h, j, some i =>
    let (next, h) := (destroyEntry left h j i).read i
    destroyLoop left fuel h i next

/-- `destroy_list`. -/
def destroyList (left : Heap α → α → Option α) (fuel : Nat) (h : Heap α) (head : α) :
    Option (Heap α) :=
  let (next, h) := h.read head
  destroyLoop left fuel h head next

/-- Every entry is cancelled and freed once, and not read after that, and none is left. -/
structure Destroyed (head : α) (entries : List α) (h : Heap α) : Prop where
  cancelled : ∀ a ∈ entries, h.trace.count (.cancel a) = 1
  freed : ∀ a ∈ entries, h.trace.count (.free a) = 1
  not_read : ∀ a later earlier, h.trace = later ++ .free a :: earlier → .read a ∉ later
  emptied : h.next head = none

variable {left : Heap α → α → Option α} {h h' : Heap α} {fuel : Nat}

/-- A new entry becomes the first one. -/
theorem IsList.push (hlist : IsList h.next a entries) (hb : b ∉ a :: entries) :
    IsList (pushEntryList h a b).next a (b :: entries) := by
  obtain ⟨hchain, hnodup⟩ := hlist
  obtain ⟨hba, hbentries⟩ := not_or.mp (fun hmem => hb (List.mem_cons.mpr hmem))
  obtain ⟨ha, hnodup⟩ := List.nodup_cons.mp hnodup
  refine ⟨⟨Function.update_self .., hchain.congr ?_ ?_⟩, ?_⟩
  · show Function.update (Function.update h.next b (h.next a)) a (some b) b = h.next a
    rw [Function.update_of_ne hba, Function.update_self]
  · intro c hc
    have hca : c ≠ a := fun heq => ha (heq ▸ hc)
    have hcb : c ≠ b := fun heq => hbentries (heq ▸ hc)
    show Function.update (Function.update h.next b (h.next a)) a (some b) c = h.next c
    rw [Function.update_of_ne hca, Function.update_of_ne hcb]
  · simp [ha, hbentries, hnodup, Ne.symm hba]

/-! ### One round -/

/-- The events of a pop come behind what has been done before. -/
theorem popEntryList_trace (h : Heap α) (j : α) : h.trace <:+ (popEntryList h j).trace := by
  unfold popEntryList
  cases hnext : h.next j with
  | none =>
    simp only [Heap.read, hnext]
    exact List.suffix_cons _ _
  | some first =>
    simp only [Heap.read, hnext]
    exact ⟨[.write j, .read first, .read j], rfl⟩

/-- A freed entry is read at the end of each round. -/
theorem destroyEntry_trace (left : Heap α → α → Option α) (h : Heap α) (j i : α) :
    ∃ earlier, ((destroyEntry left h j i).read i).2.trace = .read i :: .free i :: earlier ∧
      h.trace <:+ earlier :=
  ⟨_, rfl, (List.suffix_cons _ _).trans (popEntryList_trace (h.cancel i) j)⟩

theorem destroyLoop_trace {next : Option α} (hloop : destroyLoop left fuel h j next = some h') :
    h.trace <:+ h'.trace := by
  induction fuel generalizing h j next with
  | zero =>
    cases next with
    | none =>
      obtain rfl := Option.some.inj hloop
      exact List.suffix_rfl
    | some i => cases hloop
  | succ fuel ih =>
    cases next with
    | none =>
      obtain rfl := Option.some.inj hloop
      exact List.suffix_rfl
    | some i =>
      obtain ⟨earlier, htrace, hsuffix⟩ := destroyEntry_trace left h j i
      refine (hsuffix.trans ⟨[.read i, .free i], rfl⟩).trans ?_
      rw [List.cons_append, List.cons_append, List.nil_append, ← htrace]
      exact ih hloop

/-- **Use after free.**  If there is an entry, the first one is read after it has been freed. -/
theorem not_destroyed_of_next {next : Option α} {head : α} (hnext : next = some i)
    (hloop : destroyLoop left fuel h j next = some h') : ¬ Destroyed head entries h' := by
  subst hnext
  intro hdestroyed
  cases fuel with
  | zero => cases hloop
  | succ fuel =>
    obtain ⟨earlier, htrace, -⟩ := destroyEntry_trace left h j i
    have hrest : ((destroyEntry left h j i).read i).2.trace <:+ h'.trace := destroyLoop_trace hloop
    obtain ⟨later, hlater⟩ := hrest
    rw [htrace] at hlater
    refine hdestroyed.not_read i (later ++ [.read i]) earlier ?_ (by simp)
    rw [← hlater, List.append_assoc]
    rfl

/-- **Destroying a list.**  A list is destroyed as it should be exactly if it is empty. -/
theorem destroyList_destroyed_iff (left : Heap α → α → Option α) (next : α → Option α) (head : α)
    (entries : List α) (hlist : IsList next head entries) :
    (∃ fuel h', destroyList left fuel ⟨next, []⟩ head = some h' ∧ Destroyed head entries h') ↔
      entries = [] := by
  constructor
  · rintro ⟨fuel, h', hdestroy, hdestroyed⟩
    by_contra hne
    obtain ⟨i, rest, rfl⟩ := List.exists_cons_of_ne_nil hne
    exact not_destroyed_of_next hlist.chain.next_eq hdestroy hdestroyed
  · rintro rfl
    have hnext : next head = none := hlist.chain
    refine ⟨0, ⟨next, [.read head]⟩, ?_, by simp, by simp, ?_, hnext⟩
    · rw [destroyList]
      simp only [Heap.read, hnext, destroyLoop]
    · intro a later earlier heq
      simp [List.cons_eq_append_iff] at heq

/-- A head without entries. -/
theorem destroyList_destroyed_nil :
    (∃ fuel h', destroyList (fun h a => h.next a) fuel ⟨fun _ => none, []⟩ 0 = some h' ∧
      Destroyed 0 [] h') ↔ ([] : List Nat) = [] :=
  destroyList_destroyed_iff _ _ 0 [] ⟨rfl, by simp⟩

/-- A list of one entry, in memory that is not used again. -/
theorem not_destroyList_destroyed :
    ¬ ∀ (left : Heap Nat → Nat → Option Nat) (next : Nat → Option Nat) (head : Nat)
      (entries : List Nat), IsList next head entries →
      ∃ fuel h', destroyList left fuel ⟨next, []⟩ head = some h' ∧ Destroyed head entries h' := by
  intro hall
  obtain ⟨fuel, h', hdestroy, hdestroyed⟩ :=
    hall (fun h a => h.next a) (fun a => if a = 0 then some 1 else none) 0 [1]
      ⟨⟨rfl, rfl⟩, by simp⟩
  exact not_destroyed_of_next rfl hdestroy hdestroyed

/-! ### All rounds

What becomes of a list whose entries hold what they held, after they have been freed. -/

/-- An entry holds what it held. -/
def untouched (h : Heap α) (a : α) : Option α := h.next a

/-- **Step.**  The entry before gets the pointer of the entry that is freed. -/
theorem destroyEntry_untouched (hnext : h.next j = some i) :
    destroyEntry untouched h j i = ⟨Function.update h.next j (h.next i),
      [.free i, .write j, .read i, .read j, .cancel i] ++ h.trace⟩ := by
  have hpop : popEntryList (h.cancel i) j = ⟨Function.update h.next j (h.next i),
      [.write j, .read i, .read j, .cancel i] ++ h.trace⟩ := by
    simp [popEntryList, Heap.read, Heap.cancel, Heap.write, hnext]
  rw [destroyEntry, hpop]
  simp [Heap.free, untouched]

/-- **Run.**  By induction on the entries: each is cancelled and freed, and the pointer that led to
    the first one leads to the second one in the end. -/
theorem destroyLoop_untouched (hchain : Chain h.next j entries) (hnodup : (j :: entries).Nodup) :
    ∃ h', destroyLoop untouched entries.length h j entries.head? = some h' ∧
      h'.next j = entries.tail.head? ∧ (∀ a ∉ j :: entries, h'.next a = h.next a) ∧
      ∀ a, h'.trace.count (.cancel a) = h.trace.count (.cancel a) + entries.count a ∧
        h'.trace.count (.free a) = h.trace.count (.free a) + entries.count a := by
  induction entries generalizing h j with
  | nil => exact ⟨h, rfl, hchain, fun _ _ => rfl, fun _ => ⟨rfl, rfl⟩⟩
  | cons i rest ih =>
    obtain ⟨hnext, hrest⟩ := hchain
    obtain ⟨hj, hnodup⟩ := List.nodup_cons.mp hnodup
    have hstep := destroyEntry_untouched hnext
    -- Unlinking the first entry writes to the pointer that led to it, and to nothing else.
    have hne : ∀ c ∈ i :: rest, Function.update h.next j (h.next i) c = h.next c := by
      intro c hc
      have hcj : c ≠ j := fun heq => hj (heq ▸ hc)
      exact Function.update_of_ne hcj _ _
    obtain ⟨h', hloop, hfirst, hframe, hcount⟩ :=
      ih (h := ((destroyEntry untouched h j i).read i).2) (j := i)
        (hrest.congr (by rw [hstep]; exact hne i List.mem_cons_self)
          (fun c hc => by rw [hstep]; exact hne c (List.mem_cons_of_mem i hc))) hnodup
    refine ⟨h', ?_, ?_, ?_, ?_⟩
    · have hread : ((destroyEntry untouched h j i).read i).1 = rest.head? := by
        rw [hstep]
        exact (hne i List.mem_cons_self).trans hrest.next_eq
      rw [← hread] at hloop
      exact hloop
    · rw [hframe j hj, hstep]
      exact (Function.update_self ..).trans hrest.next_eq
    · intro a ha
      obtain ⟨haj, ha⟩ := not_or.mp (fun hmem => ha (List.mem_cons.mpr hmem))
      rw [hframe a ha, hstep]
      exact Function.update_of_ne haj _ _
    · intro a
      obtain ⟨hcancel, hfree⟩ := hcount a
      rw [hcancel, hfree, hstep]
      simp [Heap.read, List.count_cons]
      omega

/-- In such memory, every entry is cancelled and freed once, but the head keeps pointing to the
    second entry. -/
theorem destroyList_untouched {head : α} (hlist : IsList next head entries) :
    ∃ h', destroyList untouched entries.length ⟨next, []⟩ head = some h' ∧
      (∀ a ∈ entries, h'.trace.count (.cancel a) = 1 ∧ h'.trace.count (.free a) = 1) ∧
      h'.next head = entries.tail.head? := by
  have hnodup := (List.nodup_cons.mp hlist.nodup).2
  obtain ⟨h', hloop, hfirst, -, hcount⟩ :=
    destroyLoop_untouched (h := ⟨next, [.read head]⟩) hlist.chain hlist.nodup
  refine ⟨h', ?_, ?_, hfirst⟩
  · rw [← hlist.chain.next_eq] at hloop
    exact hloop
  · intro a ha
    have hone : entries.count a = 1 := List.count_eq_one_of_mem hnodup ha
    obtain ⟨hcancel, hfree⟩ := hcount a
    rw [hcancel, hfree, hone]
    simp

end WorkAtUPB.NetworkFirewallWindows

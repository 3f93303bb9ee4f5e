import Mathlib.Logic.Function.Basic
import Mathlib.Data.Fintype.Basic
import Mathlib.Tactic.FinCases

namespace WorkAtUPB.Mirroring

/-!
# Mirrored blocks guarded by checksums

A *replica* stores a block and a checksum for every index; a *mirror* is two replicas.
`f` is the checksum function.  Nothing is assumed about it except, where a torn write has
to be recognised, that two given blocks have different checksums.

* `Synced` — both replicas hold a given block with its checksum: the purpose of the mirror;
* `Transfer`, `transferAll` — the single-replica updates a write is made of;
* `heal` — compare the two copies and overwrite the bad one, or the second if both are good
  but differ, with the other;
* `heal_synced`, `heal_frame`, `heal_isSome_iff`, `heal_valid` — what `heal` does;
* `heal_torn_write` — after any prefix of a write, `heal` restores the old block or
  completes the new one;
* `Repairable`, `heal_repairable` — some copy matches its checksum and all that do hold a given
  block: then `heal` leaves both replicas with it.
-/

variable {ι β γ : Type*}

/-- A block and a checksum for every index. -/
@[ext] structure Replica (ι β γ : Type*) where
  block : ι → β
  sum : ι → γ

/-- Two replicas. -/
abbrev Mirror (ι β γ : Type*) := Fin 2 → Replica ι β γ

/-- The copy of block `i` in `r` matches its checksum. -/
def Replica.Valid (f : β → γ) (r : Replica ι β γ) (i : ι) : Prop := r.sum i = f (r.block i)

instance [DecidableEq γ] (f : β → γ) (r : Replica ι β γ) (i : ι) : Decidable (r.Valid f i) :=
  inferInstanceAs (Decidable (r.sum i = f (r.block i)))

/-- Both replicas hold `b` at `i`, with the checksum of `b`. -/
def Synced (f : β → γ) (m : Mirror ι β γ) (i : ι) (b : β) : Prop :=
  ∀ k, (m k).block i = b ∧ (m k).sum i = f b

/-- The two mirrors agree on everything kept at `i`. -/
def SameAt (m m' : Mirror ι β γ) (i : ι) : Prop :=
  ∀ k, (m' k).block i = (m k).block i ∧ (m' k).sum i = (m k).sum i

/-- A mirror is the same as itself. -/
theorem SameAt.refl (m : Mirror ι β γ) (i : ι) : SameAt m m i := fun _ => ⟨rfl, rfl⟩

/-- Being the same at a sector is transitive. -/
theorem SameAt.trans {m₁ m₂ m₃ : Mirror ι β γ} {i : ι} (h₁ : SameAt m₁ m₂ i)
    (h₂ : SameAt m₂ m₃ i) : SameAt m₁ m₃ i :=
  fun k => ⟨(h₂ k).1.trans (h₁ k).1, (h₂ k).2.trans (h₁ k).2⟩

/-- Only the copies of the sector matter. -/
theorem Synced.of_sameAt {f : β → γ} {m m' : Mirror ι β γ} {i : ι} {b : β}
    (h : Synced f m i b) (hsame : SameAt m m' i) : Synced f m' i b :=
  fun k => ⟨(hsame k).1.trans (h k).1, (hsame k).2.trans (h k).2⟩

/-! ### Transfers -/

variable [DecidableEq ι]

/-- One update of one replica at an index. -/
inductive Transfer (β γ : Type*) where
  | block (k : Fin 2) (b : β)
  | sum (k : Fin 2) (c : γ)

/-- The mirror after a transfer at index `i`. -/
def Transfer.apply (i : ι) (m : Mirror ι β γ) : Transfer β γ → Mirror ι β γ
  | .block k b => Function.update m k { m k with block := Function.update (m k).block i b }
  | .sum k c => Function.update m k { m k with sum := Function.update (m k).sum i c }

/-- The mirror after a list of transfers at index `i`. -/
def transferAll (i : ι) (m : Mirror ι β γ) (ts : List (Transfer β γ)) : Mirror ι β γ :=
  ts.foldl (Transfer.apply i) m

/-- No transfers. -/
@[simp] theorem transferAll_nil (i : ι) (m : Mirror ι β γ) : transferAll i m [] = m := rfl

/-- The first transfer, and the others. -/
@[simp] theorem transferAll_cons (i : ι) (m : Mirror ι β γ) (t : Transfer β γ)
    (ts : List (Transfer β γ)) :
    transferAll i m (t :: ts) = transferAll i (t.apply i m) ts := rfl

/-- Some transfers behind others. -/
theorem transferAll_append (i : ι) (m : Mirror ι β γ) (ts us : List (Transfer β γ)) :
    transferAll i m (ts ++ us) = transferAll i (transferAll i m ts) us := by
  simp [transferAll]

/-- A transfer leaves the other sectors. -/
theorem Transfer.apply_sameAt (t : Transfer β γ) (m : Mirror ι β γ) {i j : ι} (hj : j ≠ i) :
    SameAt m (t.apply i m) j := by
  intro k
  cases t with
  | block k' b =>
    by_cases hk : k = k'
    · subst hk; simp [Transfer.apply, hj]
    · simp [Transfer.apply, hk]
  | sum k' c =>
    by_cases hk : k = k'
    · subst hk; simp [Transfer.apply, hj]
    · simp [Transfer.apply, hk]

/-- Transfers at `i` leave every other index alone. -/
theorem transferAll_sameAt (ts : List (Transfer β γ)) (m : Mirror ι β γ) {i j : ι} (hj : j ≠ i) :
    SameAt m (transferAll i m ts) j := by
  induction ts generalizing m with
  | nil => exact SameAt.refl m j
  | cons t ts ih => exact (t.apply_sameAt m hj).trans (ih (t.apply i m))

/-- Block and checksum to the first replica, then to the second. -/
def writeTransfers (f : β → γ) (b : β) : List (Transfer β γ) :=
  (List.finRange 2).flatMap fun k => [.block k b, .sum k (f b)]

omit [DecidableEq ι] in
/-- The four transfers of a write. -/
theorem writeTransfers_eq (f : β → γ) (b : β) :
    writeTransfers f b = [.block 0 b, .sum 0 (f b), .block 1 b, .sum 1 (f b)] := rfl

/-- A complete write leaves both replicas with the new block. -/
theorem synced_write (f : β → γ) (m : Mirror ι β γ) (i : ι) (b : β) :
    Synced f (transferAll i m (writeTransfers f b)) i b := by
  intro k
  fin_cases k <;> simp [writeTransfers_eq, Transfer.apply]

/-! ### Healing -/

/-- The transfers that make replica `k` a copy of replica `src` at `i`. -/
def copyTransfers (m : Mirror ι β γ) (i : ι) (src k : Fin 2) : List (Transfer β γ) :=
  [.block k ((m src).block i), .sum k ((m src).sum i)]

/-- After a copy, the target is in sync with a valid source. -/
theorem synced_copy {f : β → γ} {m : Mirror ι β γ} {i : ι} {src k : Fin 2} (hne : src ≠ k)
    (hv : (m src).Valid f i) :
    Synced f (transferAll i m (copyTransfers m i src k)) i ((m src).block i) := by
  intro l
  have hl : l = src ∨ l = k := by omega
  rcases hl with rfl | rfl
  · exact ⟨by simp [copyTransfers, Transfer.apply, hne],
      by simpa [copyTransfers, Transfer.apply, hne] using (show _ = _ from hv)⟩
  · exact ⟨by simp [copyTransfers, Transfer.apply],
      by simpa [copyTransfers, Transfer.apply] using (show _ = _ from hv)⟩

variable [DecidableEq γ]

/-- Compare the two copies at `i` and repair: unless both are valid with one checksum, the first
    valid copy overwrites the other.  `none` if neither matches its checksum. -/
def heal (f : β → γ) (m : Mirror ι β γ) (i : ι) : Option (Mirror ι β γ) :=
  if ∀ k l, (m k).Valid f i ∧ f ((m k).block i) = f ((m l).block i) then
    some m
  else
    ((List.finRange 2).find? fun k => (m k).Valid f i).map fun src =>
      transferAll i m (copyTransfers m i src src.rev)

omit [DecidableEq ι] [DecidableEq γ] in
/-- Two copies have nothing to repair if both are valid with one checksum. -/
theorem forall_valid_iff (f : β → γ) (m : Mirror ι β γ) (i : ι) :
    (∀ k l, (m k).Valid f i ∧ f ((m k).block i) = f ((m l).block i)) ↔
      (m 0).Valid f i ∧ (m 1).Valid f i ∧ f ((m 0).block i) = f ((m 1).block i) := by
  simp only [Fin.forall_fin_two]
  constructor
  · rintro ⟨⟨-, h0, hf⟩, ⟨h1, -⟩, -⟩
    exact ⟨h0, h1, hf⟩
  · rintro ⟨h0, h1, hf⟩
    exact ⟨⟨⟨h0, trivial⟩, h0, hf⟩, ⟨h1, hf.symm⟩, h1, trivial⟩

omit [DecidableEq ι] in
/-- The first copy that is valid, of the two that there are. -/
theorem find_valid_eq (f : β → γ) (m : Mirror ι β γ) (i : ι) :
    (List.finRange 2).find? (fun k => (m k).Valid f i) =
      if (m 0).Valid f i then some 0 else if (m 1).Valid f i then some 1 else none := by
  have hlist : List.finRange 2 = [0, 1] := rfl
  simp only [hlist, List.find?_cons, List.find?_nil]
  by_cases h0 : (m 0).Valid f i <;> by_cases h1 : (m 1).Valid f i <;> simp [h0, h1]

/-- The four outcomes of a repair. -/
theorem heal_eq (f : β → γ) (m : Mirror ι β γ) (i : ι) :
    heal f m i =
      if (m 0).Valid f i ∧ (m 1).Valid f i ∧ f ((m 0).block i) = f ((m 1).block i) then
        some m
      else if (m 0).Valid f i then
        some (transferAll i m (copyTransfers m i 0 1))
      else if (m 1).Valid f i then
        some (transferAll i m (copyTransfers m i 1 0))
      else
        none := by
  simp only [heal, forall_valid_iff, find_valid_eq]
  split
  · rfl
  split
  · rfl
  split <;> rfl

/-- Healing a mirror whose copies are in order changes nothing. -/
theorem heal_synced {f : β → γ} {m : Mirror ι β γ} {i : ι} {b : β} (h : Synced f m i b) :
    heal f m i = some m := by
  have hv : ∀ k, (m k).Valid f i := fun k => by rw [Replica.Valid, (h k).1, (h k).2]
  have hf : f ((m 0).block i) = f ((m 1).block i) := by rw [(h 0).1, (h 1).1]
  rw [heal_eq, if_pos ⟨hv 0, hv 1, hf⟩]

/-- Healing index `i` leaves every other index alone. -/
theorem heal_frame {f : β → γ} {m m' : Mirror ι β γ} {i j : ι} (h : heal f m i = some m')
    (hj : j ≠ i) : SameAt m m' j := by
  rw [heal_eq] at h
  split at h
  · rw [← Option.some.inj h]; exact SameAt.refl m j
  split at h
  · rw [← Option.some.inj h]; exact transferAll_sameAt _ m hj
  split at h
  · rw [← Option.some.inj h]; exact transferAll_sameAt _ m hj
  · cases h

/-- Healing succeeds exactly when some copy matches its checksum. -/
theorem heal_isSome_iff (f : β → γ) (m : Mirror ι β γ) (i : ι) :
    (heal f m i).isSome ↔ (m 0).Valid f i ∨ (m 1).Valid f i := by
  rw [heal_eq]
  split
  · rename_i h; simp [h.1]
  split
  · rename_i h; simp [h]
  split
  · rename_i h; simp [h]
  · rename_i h0 h1; simp [h0, h1]

/-- After healing, both copies match their checksums, which are the same. -/
theorem heal_valid {f : β → γ} {m m' : Mirror ι β γ} {i : ι} (h : heal f m i = some m') :
    (m' 0).sum i = (m' 1).sum i ∧ ∀ k, (m' k).Valid f i := by
  have hsynced : ∀ {b}, Synced f m' i b → (m' 0).sum i = (m' 1).sum i ∧ ∀ k, (m' k).Valid f i := by
    intro b hb
    refine ⟨(hb 0).2.trans (hb 1).2.symm, fun k => ?_⟩
    rw [Replica.Valid, (hb k).1, (hb k).2]
  rw [heal_eq] at h
  split at h
  · rename_i hboth
    obtain ⟨h0, h1, hf⟩ := hboth
    rw [← Option.some.inj h]
    exact ⟨h0.trans (hf.trans h1.symm), fun k => by fin_cases k <;> assumption⟩
  split at h
  · rename_i h0
    rw [← Option.some.inj h] at hsynced ⊢
    exact hsynced (synced_copy (by decide) h0)
  split at h
  · rename_i h1
    rw [← Option.some.inj h] at hsynced ⊢
    exact hsynced (synced_copy (by decide) h1)
  · cases h

/-- **Torn writes heal.**  Let the mirror hold `old` at `i`, and let any prefix of the
    transfers writing `new` (with another checksum) take place.  Then healing succeeds and
    leaves both replicas with `old` or both with `new`. -/
theorem heal_torn_write {f : β → γ} {m : Mirror ι β γ} {i : ι} {old new : β}
    (hold : Synced f m i old) (hne : f old ≠ f new) (n : Nat) :
    ∃ m' b, heal f (transferAll i m ((writeTransfers f new).take n)) i = some m' ∧
      (b = old ∨ b = new) ∧ Synced f m' i b := by
  set t := transferAll i m ((writeTransfers f new).take n) with ht
  -- the copies at `i` after `n` transfers, replica by replica
  have h0b := (hold 0).1
  have h0s := (hold 0).2
  have h1b := (hold 1).1
  have h1s := (hold 1).2
  match n with
  | 0 =>
    exact ⟨t, old, heal_synced (by simpa [ht] using hold), Or.inl rfl, by simpa [ht] using hold⟩
  | 1 =>
    -- the first copy is torn: its data is new, its checksum old
    have hbad : ¬ (t 0).Valid f i := by
      simpa [ht, writeTransfers_eq, Transfer.apply, Replica.Valid, h0s] using hne
    have hgood : (t 1).Valid f i := by
      simp [ht, writeTransfers_eq, Transfer.apply, Replica.Valid, h1b, h1s]
    have hblock : (t 1).block i = old := by simp [ht, writeTransfers_eq, Transfer.apply, h1b]
    refine ⟨_, (t 1).block i, ?_, Or.inl hblock, synced_copy (show (1 : Fin 2) ≠ 0 by decide) hgood⟩
    rw [heal_eq, if_neg (fun h => hbad h.1), if_neg hbad, if_pos hgood]
  | 2 =>
    -- both copies are in order but differ: the first wins
    have hgood : (t 0).Valid f i := by
      simp [ht, writeTransfers_eq, Transfer.apply, Replica.Valid]
    have hblock : (t 0).block i = new := by simp [ht, writeTransfers_eq, Transfer.apply]
    have hdiff : f ((t 0).block i) ≠ f ((t 1).block i) := by
      simpa [ht, writeTransfers_eq, Transfer.apply, h1b] using hne.symm
    refine ⟨_, (t 0).block i, ?_, Or.inr hblock, synced_copy (show (0 : Fin 2) ≠ 1 by decide) hgood⟩
    rw [heal_eq, if_neg (fun h => hdiff h.2.2), if_pos hgood]
  | 3 =>
    -- the second copy is torn
    have hgood : (t 0).Valid f i := by
      simp [ht, writeTransfers_eq, Transfer.apply, Replica.Valid]
    have hblock : (t 0).block i = new := by simp [ht, writeTransfers_eq, Transfer.apply]
    have hbad : ¬ (t 1).Valid f i := by
      simpa [ht, writeTransfers_eq, Transfer.apply, Replica.Valid, h1s] using hne
    refine ⟨_, (t 0).block i, ?_, Or.inr hblock, synced_copy (show (0 : Fin 2) ≠ 1 by decide) hgood⟩
    rw [heal_eq, if_neg (fun h => hbad h.2.1), if_pos hgood]
  | n + 4 =>
    have hsync : Synced f t i new := by
      have hall : (writeTransfers f new).take (n + 4) = writeTransfers f new :=
        List.take_of_length_le (by simp [writeTransfers_eq])
      rw [ht, hall]
      exact synced_write f m i new
    exact ⟨t, new, heal_synced hsync, Or.inr rfl, hsync⟩

/-! ### Damaged copies -/

/-- Some copy at `i` matches its checksum, and every copy that does holds `b`. -/
structure Repairable (f : β → γ) (m : Mirror ι β γ) (i : ι) (b : β) : Prop where
  valid : ∃ k, (m k).Valid f i
  block : ∀ k, (m k).Valid f i → (m k).block i = b

omit [DecidableEq ι] [DecidableEq γ] in
/-- What is in sync can be repaired. -/
theorem Synced.repairable {f : β → γ} {m : Mirror ι β γ} {i : ι} {b : β} (h : Synced f m i b) :
    Repairable f m i b :=
  ⟨⟨0, by rw [Replica.Valid, (h 0).1, (h 0).2]⟩, fun k _ => (h k).1⟩

omit [DecidableEq ι] [DecidableEq γ] in
/-- Only the copies of the sector matter here, too. -/
theorem Repairable.of_sameAt {f : β → γ} {m m' : Mirror ι β γ} {i : ι} {b : β}
    (h : Repairable f m i b) (hsame : SameAt m m' i) : Repairable f m' i b := by
  have hvalid : ∀ k, (m' k).Valid f i ↔ (m k).Valid f i := fun k => by
    rw [Replica.Valid, Replica.Valid, (hsame k).1, (hsame k).2]
  exact ⟨h.valid.imp fun k => (hvalid k).mpr,
    fun k hk => (hsame k).1.trans (h.block k ((hvalid k).mp hk))⟩

/-- Healing what is repairable leaves both replicas with the block. -/
theorem heal_repairable {f : β → γ} {m : Mirror ι β γ} {i : ι} {b : β}
    (h : Repairable f m i b) : ∃ m', heal f m i = some m' ∧ Synced f m' i b := by
  rw [heal_eq]
  split
  · rename_i hboth
    refine ⟨m, rfl, fun k => ?_⟩
    -- Both copies match their checksums, so both hold the block.
    have hk : (m k).Valid f i := by
      fin_cases k
      · exact hboth.1
      · exact hboth.2.1
    exact ⟨h.block k hk, hk.trans (by rw [h.block k hk])⟩
  split
  · rename_i h0
    exact ⟨_, rfl, h.block 0 h0 ▸ synced_copy (by decide) h0⟩
  split
  · rename_i h1
    exact ⟨_, rfl, h.block 1 h1 ▸ synced_copy (by decide) h1⟩
  · rename_i h0 h1
    -- Some copy is valid.
    have hnone : ∀ k, ¬ (m k).Valid f i := by
      intro k
      fin_cases k
      · exact h0
      · exact h1
    obtain ⟨k, hk⟩ := h.valid
    exact absurd hk (hnone k)

end WorkAtUPB.Mirroring

import Mathlib.Algebra.Order.Monoid.Unbundled.Basic
import Mathlib.Data.List.Chain

namespace WorkAtUPB.Lease

/-!
# Leases and their renewals

A lease runs out `timeout` after it was renewed last; some renewals open a lease that has run out,
the others only keep one open.  Whether a lease is open is a question about the renewals alone:

* `Renewal`, `Chain` — a renewal, and a chain of renewals that never lets the lease run out;
* `KeptOpen` — some chain has not run out;
* `Tracks` — the deadline that is kept for a lease belongs to its renewals, with `Tracks.open`,
  `Tracks.renew`, `Tracks.lapse` and `Tracks.wait` for what can happen to it;
* `Tracks.isSome_iff` — there is a deadline exactly while the lease is kept open.
-/

/-- A renewal, and whether it opens a lease that has run out. -/
structure Renewal (T : Type*) where
  time : T
  opens : Bool
  deriving DecidableEq, Repr

variable {T : Type*} [Add T] [LinearOrder T]

/-- The renewal `b` comes before the lease that `a` renewed runs out. -/
def InTime (timeout : T) (a b : Renewal T) : Prop := b.time < a.time + timeout

/-- Renewals of the log, the first of which opens the lease and each of the others comes before it
    runs out. -/
structure Chain (timeout : T) (log chain : List (Renewal T)) : Prop where
  sublist : chain.Sublist log
  opened : ∃ first ∈ chain.head?, first.opens = true
  inTime : chain.IsChain (InTime timeout)

/-- Some chain of renewals has not run out. -/
def KeptOpen (timeout now : T) (log : List (Renewal T)) : Prop :=
  ∃ chain, Chain timeout log chain ∧ ∃ last ∈ chain.getLast?, now < last.time + timeout

/-- The deadline of a lease is that of its last renewal, which is the end of a chain; without a
    deadline all the renewals have run out. -/
structure Tracks (timeout : T) (log : List (Renewal T)) (now : T) (expires : Option T) :
    Prop where
  past : ∀ a ∈ log, a.time ≤ now
  closed : expires = none → ∀ a ∈ log, a.time + timeout ≤ now
  latest : ∀ d ∈ expires, ∀ a ∈ log, a.time + timeout ≤ d
  chain : ∀ d ∈ expires, ∃ chain, Chain timeout log chain ∧
    ∃ last ∈ chain.getLast?, last.time + timeout = d

variable {timeout now d : T} {log chain : List (Renewal T)} {expires : Option T}

/-! ### What can happen to a lease -/

theorem tracks_nil (timeout now : T) : Tracks timeout [] now none :=
  ⟨nofun, nofun, nofun, nofun⟩

/-- Time goes on. -/
theorem Tracks.wait {now' : T} (h : Tracks timeout log now expires) (hle : now ≤ now') :
    Tracks timeout log now' expires where
  past := fun a ha => (h.past a ha).trans hle
  closed := fun hnone a ha => (h.closed hnone a ha).trans hle
  latest := h.latest
  chain := h.chain

/-- The renewals up to now run out before a lease that is renewed now. -/
theorem Tracks.latest_concat [AddRightMono T] (h : Tracks timeout log now expires) (opens : Bool) :
    ∀ a ∈ log ++ [⟨now, opens⟩], a.time + timeout ≤ now + timeout := by
  intro a ha
  rcases List.mem_append.mp ha with ha | ha
  · exact add_le_add_left (h.past a ha) timeout
  · exact (List.mem_singleton.mp ha) ▸ le_rfl

theorem Tracks.past_concat (h : Tracks timeout log now expires) (opens : Bool) :
    ∀ a ∈ log ++ [⟨now, opens⟩], a.time ≤ now := by
  intro a ha
  rcases List.mem_append.mp ha with ha | ha
  · exact h.past a ha
  · exact (List.mem_singleton.mp ha) ▸ le_rfl

/-- A renewal at the end of a chain that has not run out. -/
theorem Chain.concat (h : Chain timeout log chain) {b : Renewal T}
    (hlast : ∀ last ∈ chain.getLast?, InTime timeout last b) :
    Chain timeout (log ++ [b]) (chain ++ [b]) where
  sublist := h.sublist.append (List.Sublist.refl _)
  opened := by
    obtain ⟨first, hfirst, hopens⟩ := h.opened
    exact ⟨first, List.mem_head?_append_of_mem_head? hfirst, hopens⟩
  inTime := h.inTime.append (List.isChain_singleton b) fun last hmem b' hb' =>
    Option.mem_some.mp hb' ▸ hlast last hmem

/-- A renewal opens a lease. -/
theorem Tracks.open [AddRightMono T] (h : Tracks timeout log now none) :
    Tracks timeout (log ++ [⟨now, true⟩]) now (some (now + timeout)) where
  past := h.past_concat true
  closed := nofun
  latest := fun _ hd => Option.mem_some.mp hd ▸ h.latest_concat true
  chain := fun _ hd => ⟨[⟨now, true⟩],
    ⟨List.sublist_append_right _ _, ⟨_, rfl, rfl⟩, List.isChain_singleton _⟩,
    _, rfl, Option.mem_some.mp hd⟩

/-- A renewal keeps a lease open. -/
theorem Tracks.renew [AddRightMono T] (h : Tracks timeout log now (some d)) (hlive : now < d)
    (opens : Bool) : Tracks timeout (log ++ [⟨now, opens⟩]) now (some (now + timeout)) where
  past := h.past_concat opens
  closed := nofun
  latest := fun _ hd => Option.mem_some.mp hd ▸ h.latest_concat opens
  chain := fun d' hd' => by
    obtain ⟨chain, hchain, last, hlast, hd⟩ := h.chain d rfl
    refine ⟨chain ++ [⟨now, opens⟩], hchain.concat fun last' hlast' => ?_, _,
      List.getLast?_concat, Option.mem_some.mp hd'⟩
    have heq : last' = last := Option.mem_unique hlast' hlast
    show now < last'.time + timeout
    rw [heq, hd]
    exact hlive

/-- A lease runs out. -/
theorem Tracks.lapse (h : Tracks timeout log now (some d)) (hdue : d ≤ now) :
    Tracks timeout log now none where
  past := h.past
  closed := fun _ a ha => (h.latest d rfl a ha).trans hdue
  latest := nofun
  chain := nofun

/-! ### What the deadline says -/

/-- **Leases.**  When no deadline has passed, there is one exactly if some chain of renewals has not
    run out. -/
theorem Tracks.isSome_iff (h : Tracks timeout log now expires) (hlive : ∀ d ∈ expires, now < d) :
    expires.isSome = true ↔ KeptOpen timeout now log := by
  constructor
  · intro hsome
    obtain ⟨d, hd⟩ := Option.isSome_iff_exists.mp hsome
    obtain ⟨chain, hchain, last, hlast, heq⟩ := h.chain d hd
    exact ⟨chain, hchain, last, hlast, heq ▸ hlive d hd⟩
  · rintro ⟨chain, hchain, last, hlast, hnow⟩
    by_contra hnone
    have hmem : last ∈ log := hchain.sublist.mem (List.mem_of_getLast? hlast)
    exact absurd hnow (not_lt.mpr (h.closed (Option.not_isSome_iff_eq_none.mp hnone) last hmem))

end WorkAtUPB.Lease

import Mathlib.Algebra.Group.Nat.Defs
import Mathlib.Logic.Function.Iterate
import WorkAtUPB.Lib.Least
import WorkAtUPB.SchedulingService.JobMapper

namespace WorkAtUPB.SchedulingService

open Least

/-!
# The choice of the least loaded server

Servers answer `getCPU` and `getMem` with percentages from 0 to 99, and the scheduler keeps the
server whose sum is the least so far:

* `getCPU`, `getMem`, `Answer` — what a server (`Server.java`) answers;
* `foldl_pickServer` — the loop of `getScheduledServer` is the running minimum of `Least`;
* `ChoosesLeastLoaded` — the first server with the least load is chosen, and none only if none
  answers;
* `getScheduledServer_leastLoaded_iff` — when this is so.

The number of registered servers is read from a `short`, which is negative from 32768 servers on.
-/

/-! ### What servers answer -/

/-- `ServerImpl.getCPU`. -/
def getCPU (currentTimeMillis : Nat) : String := toString (currentTimeMillis % 100) ++ "%"

/-- `ServerImpl.getMem`. -/
def getMem (currentTimeMillis : Nat) : String := toString (currentTimeMillis % 100) ++ "%"

/-- The times at which a server runs `getCPU` and `getMem`. -/
structure Answer where
  cpuTime : Nat
  memTime : Nat
  deriving DecidableEq, Repr

/-- What the scheduler gets from the server whose name resolves to `server`. -/
def Answer.reply {S : Type*} (a : Answer) (server : S) : Reply S where
  server := server
  cpu := getCPU a.cpuTime
  mem := getMem a.memTime

/-- The sum of the loads. -/
def Answer.load (a : Answer) : Nat := a.cpuTime % 100 + a.memTime % 100

theorem Answer.load_lt (a : Answer) : a.load < 200 := by
  unfold Answer.load
  omega

/-- Digits are read as a number. -/
theorem parseDigits_eq {ds : List Char} (hne : ds ≠ []) (hds : ∀ c ∈ ds, c.isDigit = true) :
    parseDigits ds = some (Nat.ofDigitChars 10 ds 0) := by
  have hfold : ∀ v, ds.foldlM (fun v c =>
      if c.isDigit then some (v * 10 + (c.toNat - '0'.toNat)) else none) v =
        some (Nat.ofDigitChars 10 ds v) := by
    clear hne
    induction ds with
    | nil => exact fun v => rfl
    | cons c ds ih =>
      intro v
      rw [List.foldlM_cons, if_pos (hds c List.mem_cons_self), Option.bind_eq_bind,
        Option.bind_some, ih fun c hc => hds c (List.mem_cons_of_mem _ hc), Nat.mul_comm v 10]
      rfl
  rw [parseDigits, if_neg hne, hfold]

/-- A percentage is read as the number that it is. -/
theorem parsePercent_percent (n : Nat) (hn : n < 100) :
    parsePercent (toString n ++ "%") = some (BitVec.ofNat 32 n) := by
  have hdigits : (toString n ++ "%").toList.dropLast = Nat.toDigits 10 n := by
    have htext : (toString n ++ "%").toList = Nat.toDigits 10 n ++ ['%'] := by
      simp [Nat.toList_repr]
    rw [htext, List.dropLast_concat]
  have hisDigit : ∀ c ∈ Nat.toDigits 10 n, c.isDigit = true := fun c hc =>
    Nat.isDigit_of_mem_toDigits (by omega) (by omega) hc
  have hparse := parseDigits_eq Nat.toDigits_ne_nil hisDigit
  rw [Nat.ofDigitChars_toDigits (by omega) (by omega)] at hparse
  rw [parsePercent, hdigits]
  unfold parseInt
  split
  -- A number has no sign in front.
  · next heq => exact absurd (hisDigit '-' (heq ▸ List.mem_cons_self)) (by decide)
  · next heq => exact absurd (hisDigit '+' (heq ▸ List.mem_cons_self)) (by decide)
  · rw [hparse, Option.bind_some, if_pos (by omega)]

/-- The load of a server is the sum of the two numbers. -/
theorem Answer.load_reply {S : Type*} (a : Answer) (server : S) :
    (a.reply server).load = some (BitVec.ofNat 32 a.load) := by
  have hcpu : parsePercent (a.reply server).cpu = some (BitVec.ofNat 32 (a.cpuTime % 100)) :=
    parsePercent_percent _ (Nat.mod_lt _ (by omega))
  have hmem : parsePercent (a.reply server).mem = some (BitVec.ofNat 32 (a.memTime % 100)) :=
    parsePercent_percent _ (Nat.mod_lt _ (by omega))
  rw [Reply.load, hcpu, hmem, Answer.load, BitVec.ofNat_add]
  rfl

/-! ### The loop -/

/-- The id of the server that registers after `i` others. -/
def serverID (i : Nat) : Short := BitVec.ofNat 16 i

/-- The counter after `n` servers have registered, which is what `getServers` returns. -/
theorem serverIdCounter_registered {S : Type*} (s : SchedulerImpl S)
    (hs : s.serverIdCounter = 0) (n : Nat) :
    ((fun s => s.getServerID.2)^[n] s).serverIdCounter = serverID n := by
  induction n with
  | zero => exact hs
  | succ n ih =>
    rw [Function.iterate_succ_apply']
    show ((fun s => s.getServerID.2)^[n] s).serverIdCounter + 1 = _
    rw [ih]
    exact (BitVec.ofNat_add n 1).symm

section

variable (contact : Short → Option Answer)

/-- The loads and ids of the servers below `m` that answer. -/
def entries (m : Nat) : List (Nat × Option Nat) :=
  (List.range m).filterMap fun i =>
    (contact (serverID i)).map fun a => (a.load, some i)

/-- What the scheduler gets for the name with the number `i`; the reference is called after the
    id of its server. -/
def replies (i : Nat) : Option (Reply Short) :=
  (contact (serverID i)).map fun a => a.reply (serverID i)

/-- `load` and `server`, for the least load and its server. -/
def picked (best : Nat × Option Nat) : BitVec 32 × Option Short :=
  (BitVec.ofNat 32 best.1, best.2.map serverID)

/-- Small numbers compare as the `int`s that they are. -/
theorem slt_ofNat {m n : Nat} (hm : m < 2 ^ 31) (hn : n < 2 ^ 31) :
    (BitVec.ofNat 32 m).slt (BitVec.ofNat 32 n) = decide (m < n) := by
  have htoInt : ∀ k < 2 ^ 31, (BitVec.ofNat 32 k).toInt = k := by
    intro k hk
    rw [BitVec.toInt_ofNat']
    exact Int.bmod_eq_of_le (by omega) (by omega)
  rw [BitVec.slt, htoInt m hm, htoInt n hn]
  exact decide_eq_decide.mpr Int.ofNat_lt

/-- One round on a server that answers. -/
theorem pickServer_picked {best : Nat × Option Nat} (hbest : best.1 ≤ 200) (i : Nat) (a : Answer) :
    pickServer (picked best) (some (a.reply (serverID i))) =
      picked (keep best (a.load, some i)) := by
  have hlt := a.load_lt
  have hround : pickServer (picked best) (some (a.reply (serverID i))) =
      if (BitVec.ofNat 32 a.load).slt (BitVec.ofNat 32 best.1) then
        (BitVec.ofNat 32 a.load, some (serverID i)) else picked best := by
    simp only [pickServer, Answer.load_reply]
    rfl
  rw [hround, slt_ofNat (by omega) (by omega), keep]
  by_cases hless : a.load < best.1
  · simp [hless, picked]
  · simp [hless]

/-- **The loop.**  It finds the running minimum of the loads below 200. -/
theorem foldl_pickServer (m : Nat) :
    (List.range m).foldl (fun best i => pickServer best (replies contact i)) (maxLoad, none) =
        picked (running (200, none) (entries contact m)) ∧
      (running (200, none) (entries contact m)).1 ≤ 200 := by
  induction m with
  | zero => exact ⟨rfl, le_rfl⟩
  | succ m ih =>
    obtain ⟨ih, hle⟩ := ih
    rw [List.range_succ, List.foldl_append, ih, List.foldl_cons, List.foldl_nil, replies]
    cases hcontact : contact (serverID m) with
    | none =>
      have hentries : entries contact (m + 1) = entries contact m := by
        simp [entries, List.range_succ, hcontact]
      rw [hentries]
      exact ⟨rfl, hle⟩
    | some a =>
      have hentries : entries contact (m + 1) = entries contact m ++ [(a.load, some m)] := by
        simp [entries, List.range_succ, hcontact]
      rw [hentries, running_concat]
      refine ⟨pickServer_picked hle m a, ?_⟩
      rw [keep]
      split
      · exact a.load_lt.le
      · exact hle

/-! ### The choice -/

/-- The server that registered after `i` others, of `n` servers: no server that answers has a
    lesser load, and none before it has the same. -/
structure LeastLoaded (n i : Nat) (a : Answer) : Prop where
  registered : i < n
  answers : contact (serverID i) = some a
  least : ∀ j < n, ∀ b ∈ contact (serverID j), a.load ≤ b.load
  first : ∀ j < i, ∀ b ∈ contact (serverID j), a.load < b.load

/-- Of `n` registered servers, the first one with the least load is chosen; `null` is returned
    exactly if none answers. -/
structure ChoosesLeastLoaded (n : Nat) (chosen : Option Short) : Prop where
  leastLoaded : ∀ server, chosen = some server →
    ∃ i a, LeastLoaded contact n i a ∧ server = serverID i
  eq_none_iff : chosen = none ↔ ∀ i < n, contact (serverID i) = none

variable {contact}

theorem mem_entries {m : Nat} {entry : Nat × Option Nat} :
    entry ∈ entries contact m ↔
      ∃ i < m, ∃ a, contact (serverID i) = some a ∧ entry = (a.load, some i) := by
  simp only [entries, List.mem_filterMap, List.mem_range, Option.map_eq_some_iff,
    @eq_comm _ _ entry]

/-- The entries are in the order of the numbers. -/
theorem pairwise_entries (m : Nat) :
    (entries contact m).Pairwise fun a b => ¬ b.2.getD 0 < a.2.getD 0 := by
  refine List.pairwise_filterMap.mpr (List.pairwise_lt_range.imp ?_)
  intro i j hij a ha b hb
  obtain ⟨_, -, rfl⟩ := Option.map_eq_some_iff.mp ha
  obtain ⟨_, -, rfl⟩ := Option.map_eq_some_iff.mp hb
  exact Nat.not_lt.mpr (Nat.le_of_lt hij)

/-- What the first `m` servers are searched for. -/
theorem picked_running_cases (contact : Short → Option Answer) (m : Nat) :
    ((picked (running (200, none) (entries contact m))).2 = none ∧
        ∀ i < m, contact (serverID i) = none) ∨
      ∃ i a, (picked (running (200, none) (entries contact m))).2 = some (serverID i) ∧
        LeastLoaded contact m i a := by
  rcases running_cases (200, none) (entries contact m) with ⟨hsame, hle⟩ | ⟨hleast, -⟩
  -- All loads are below 200, so there is no entry at all.
  · refine .inl ⟨by rw [hsame]; rfl, ?_⟩
    intro i hi
    cases hcontact : contact (serverID i) with
    | none => rfl
    | some a =>
      have hload := hle (a.load, some i) (mem_entries.mpr ⟨i, hi, a, hcontact, rfl⟩)
      exact absurd a.load_lt (Nat.not_lt.mpr hload)
  · obtain ⟨i, hi, a, hcontact, heq⟩ := mem_entries.mp hleast.mem
    rw [heq] at hleast ⊢
    refine .inr ⟨i, a, rfl, hi, hcontact, ?_, ?_⟩
    · intro j hj b hb
      exact hleast.le (mem_entries.mpr ⟨j, hj, b, hb, rfl⟩)
    · intro j hj b hb
      exact hleast.lt (fun a b => a.getD 0 < b.getD 0) (pairwise_entries m)
        (mem_entries.mpr ⟨j, hj.trans hi, b, hb, rfl⟩) hj (Nat.lt_irrefl i)

/-- Searching the first `m` of `n` servers finds the least loaded one exactly if no other server
    has a load less than all of theirs. -/
theorem chooses_iff {m n : Nat} (hmn : m ≤ n) :
    ChoosesLeastLoaded contact n (picked (running (200, none) (entries contact m))).2 ↔
      ∀ i < n, ∀ a ∈ contact (serverID i),
        ∃ j < m, ∃ b ∈ contact (serverID j), b.load ≤ a.load := by
  rcases picked_running_cases contact m with ⟨hnone, hall⟩ | ⟨j, b, hsome, hleast⟩
  · rw [hnone]
    constructor
    · intro h i hi a ha
      rw [h.eq_none_iff.mp rfl i hi] at ha
      cases ha
    · refine fun h => ⟨nofun, iff_of_true rfl fun i hi => Option.eq_none_iff_forall_not_mem.mpr ?_⟩
      intro a ha
      obtain ⟨j, hj, b, hb, -⟩ := h i hi a ha
      rw [hall j hj] at hb
      cases hb
  · rw [hsome]
    constructor
    -- The least loaded one may have another number, but it has the same id.
    · intro h i hi a ha
      obtain ⟨i', a', hleast', hid⟩ := h.leastLoaded _ rfl
      have hsame : a' = b := by
        have hcontact := hleast'.answers
        rw [← hid, hleast.answers] at hcontact
        exact (Option.some.inj hcontact).symm
      exact ⟨j, hleast.registered, b, hleast.answers, hsame ▸ hleast'.least i hi a ha⟩
    · intro h
      have hj := hleast.registered.trans_le hmn
      refine ⟨?_, iff_of_false nofun fun hall => ?_⟩
      · rintro server heq
        refine ⟨j, b, ⟨hj, hleast.answers, ?_, hleast.first⟩, (Option.some.inj heq).symm⟩
        intro i hi a ha
        obtain ⟨k, hk, c, hc, hca⟩ := h i hi a ha
        exact (hleast.least k hk c hc).trans hca
      · have hanswers := hleast.answers
        rw [hall j hj] at hanswers
        cases hanswers

end

theorem getScheduledServer_eq (servers : Short) (contact : Short → Option Answer) :
    getScheduledServer servers (replies contact) =
      (picked (running (200, none) (entries contact servers.toInt.toNat))).2 :=
  congrArg Prod.snd (foldl_pickServer contact _).1

theorem toNat_serverID_le (n : Nat) : (serverID n).toInt.toNat ≤ n := by
  have hlt : (serverID n).toInt ≤ (serverID n).toNat := by
    rw [BitVec.toInt_eq_toNat_cond]
    split <;> omega
  have hle : (serverID n).toNat ≤ n := by
    rw [serverID, BitVec.toNat_ofNat]
    exact Nat.mod_le _ _
  omega

/-- With fewer than 32768 registered servers the least loaded one is chosen. -/
theorem getScheduledServer_leastLoaded (n : Nat) (hn : n < 2 ^ 15)
    (contact : Short → Option Answer) :
    ChoosesLeastLoaded contact n (getScheduledServer (serverID n) (replies contact)) := by
  have htoNat : (serverID n).toInt.toNat = n := by
    rw [serverID, BitVec.toInt_ofNat', Int.bmod_eq_of_le (by omega) (by omega), Int.toNat_natCast]
  rw [getScheduledServer_eq, htoNat]
  exact (chooses_iff le_rfl).mpr fun i hi a ha => ⟨i, hi, a, ha, le_rfl⟩

/-- **Least-loaded choice.**  After `n` servers have registered, `getScheduledServer` chooses the
    least loaded one exactly if each server that answers is matched by one that answers with no
    greater load among those below the `short` that `n` is. -/
theorem getScheduledServer_leastLoaded_iff (n : Nat) (contact : Short → Option Answer) :
    ChoosesLeastLoaded contact n (getScheduledServer (serverID n) (replies contact)) ↔
      ∀ i < n, ∀ a ∈ contact (serverID i),
        ∃ j < (serverID n).toInt.toNat, ∃ b ∈ contact (serverID j), b.load ≤ a.load := by
  rw [getScheduledServer_eq]
  exact chooses_iff (toNat_serverID_le n)

/-- With 32768 registered servers none is chosen, though the first one answers. -/
theorem not_getScheduledServer_leastLoaded :
    ¬ ∀ (n : Nat) (contact : Short → Option Answer),
      ChoosesLeastLoaded contact n (getScheduledServer (serverID n) (replies contact)) := by
  intro h
  have hnone := (h 32768 fun id => if id = 0 then some ⟨0, 0⟩ else none).eq_none_iff.mp rfl 0
    (by decide)
  exact absurd hnone (by decide)

end WorkAtUPB.SchedulingService

import WorkAtUPB.NetworkFirewall.Timers
import WorkAtUPB.NetworkFirewallWindows.RuleList

namespace WorkAtUPB.NetworkFirewallWindows

open WorkAtUPB.NetworkFirewall (Fwr Proto Timer RulesList State WellFormed matchRule TIMEOUT)

/-!
# NetworkFirewallWindows — the operations on rules (`rules.c`)

The lists are linked in memory, and an entry that is freed can be given again:

* `forEntries` — the loop over the entries of a list, which a `return` ends; it has a number of
  rounds to spend, and `forEntries_eq` says that the entries are enough;
* `Memory` — the links, the entries, and the addresses in use;
* `addRule`, `delRule`, `searchRule`, `keSetTimer` — the operations in memory;
* `Represents` — memory that holds the three lists of rules of the Linux module;
* `Represents.addRule`, `.searchRule`, `.delRule`, `.keSetTimer` — each operation does in memory
  what the one of the Linux module does on its lists.
-/

/-! ### Loops over a list -/

section Loop

variable {α β γ : Type} (next : α → Option α) (body : β → α → α → Except γ β)

/-- `for (j = head, i = head->Next; i; j = i, i = i->Next)`, where `.error` is a `return`. -/
def forEntries : Nat → β → α → Option α → Option (Except γ β)
  | _, b, _, none => some (.ok b)
  | 0, _, _, some _ => none
  | fuel + 1, b, j, some i =>
    match body b j i with
    | .error result => some (.error result)
    | .ok b => forEntries fuel b i (next i)

/-- The same over the entries themselves. -/
def forList : β → α → List α → Except γ β
  | b, _, [] => .ok b
  | b, j, i :: rest =>
    match body b j i with
    | .error result => .error result
    | .ok b => forList b i rest

variable {next body}

theorem forEntries_eq {fuel : Nat} {b : β} {j : α} {entries : List α}
    (hchain : Chain next j entries) (hfuel : entries.length ≤ fuel) :
    forEntries next body fuel b j (next j) = some (forList body b j entries) := by
  induction entries generalizing fuel b j with
  | nil => cases fuel <;> rw [show next j = none from hchain] <;> rfl
  | cons i rest ih =>
    obtain ⟨hnext, hrest⟩ := hchain
    obtain ⟨fuel, rfl⟩ : ∃ n, fuel = n + 1 := ⟨fuel - 1, by rw [List.length_cons] at hfuel; omega⟩
    rw [hnext, forEntries, forList]
    cases body b j i with
    | error result => rfl
    | ok b => exact ih hrest (Nat.le_of_succ_le_succ hfuel)

/-- The entry before the rest of a list. -/
def before (j : α) (entries : List α) : α := (j :: entries).getLast (List.cons_ne_nil _ _)

/-- A loop that returns at the first entry with a property. -/
theorem forList_find (p : α → Bool) (result : α → α → γ)
    (hbody : ∀ b j i, body b j i = if p i then .error (result j i) else .ok b) (b : β) (j : α)
    (entries : List α) :
    (forList body b j entries = .ok b ∧ entries.find? p = none) ∨
      ∃ done i rest, entries = done ++ i :: rest ∧ entries.find? p = some i ∧
        (∀ a ∈ done, p a = false) ∧
        forList body b j entries = .error (result (before j done) i) := by
  induction entries generalizing j with
  | nil => exact Or.inl ⟨rfl, rfl⟩
  | cons i rest ih =>
    rw [forList, hbody]
    by_cases hp : p i = true
    · rw [if_pos hp]
      exact Or.inr ⟨[], i, rest, rfl, List.find?_cons_of_pos hp, nofun, rfl⟩
    · rw [if_neg hp, List.find?_cons_of_neg hp]
      rcases ih i with ⟨hloop, hfind⟩ | ⟨done, i', rest', rfl, hfind, hdone, hloop⟩
      · exact Or.inl ⟨hloop, hfind⟩
      · refine Or.inr ⟨i :: done, i', rest', rfl, hfind, ?_, hloop⟩
        exact List.forall_mem_cons.mpr ⟨Bool.eq_false_iff.mpr hp, hdone⟩

end Loop

/-! ### Links -/

section Links

variable {α : Type} {next next' : α → Option α} {head j a : α} {entries done rest : List α}

/-- Only the links of the head and of the entries matter. -/
theorem IsList.congr (h : IsList next head entries)
    (hnext : ∀ c ∈ head :: entries, next' c = next c) :
    IsList next' head entries :=
  ⟨h.chain.congr (hnext head List.mem_cons_self) fun c hc => hnext c (List.mem_cons_of_mem _ hc),
    h.nodup⟩

variable [DecidableEq α]

/-- The link that led to an entry leads to the one behind it. -/
theorem Chain.unlink (hchain : Chain next j (done ++ a :: rest))
    (hnodup : (j :: (done ++ a :: rest)).Nodup) :
    Chain (Function.update next (before j done) (next a)) j (done ++ rest) := by
  induction done generalizing j with
  | nil =>
    obtain ⟨hnext, hrest⟩ := hchain
    refine hrest.congr (Function.update_self ..) fun c hc => Function.update_of_ne ?_ _ _
    rintro rfl
    exact (List.nodup_cons.mp hnodup).1 (List.mem_cons_of_mem a hc)
  | cons c done ih =>
    obtain ⟨hnext, hrest⟩ := hchain
    obtain ⟨hj, hnodup⟩ := List.nodup_cons.mp hnodup
    have hlast : before c done ∈ c :: done := List.getLast_mem _
    refine ⟨?_, ih hrest hnodup⟩
    rw [show before j (c :: done) = before c done from rfl, Function.update_of_ne, hnext]
    rintro rfl
    exact hj (List.mem_append_left _ hlast)

/-- `PopEntryList` behind the entry before writes this link. -/
theorem popEntryList_next {h : Heap α} (hchain : Chain h.next head (done ++ a :: rest)) :
    (popEntryList h (before head done)).next =
      Function.update h.next (before head done) (h.next a) := by
  have hbefore : ∀ {j : α} {done : List α}, Chain h.next j (done ++ a :: rest) →
      h.next (before j done) = some a := by
    intro j done hchain
    induction done generalizing j with
    | nil => exact hchain.1
    | cons c done ih => exact ih hchain.2
  rw [popEntryList]
  simp only [Heap.read, hbefore hchain]
  rfl

theorem IsList.pop {h : Heap α} (hlist : IsList h.next head (done ++ a :: rest)) :
    IsList (popEntryList h (before head done)).next head (done ++ rest) := by
  rw [popEntryList_next hlist.chain]
  refine ⟨hlist.chain.unlink hlist.nodup, hlist.nodup.sublist ?_⟩
  exact ((List.sublist_cons_self a rest).append_left done).cons_cons head

end Links

/-! ### The operations -/

/-- `static_rules`, `tcp_dynamic_rules` and `udp_dynamic_rules`. -/
inductive Head where
  | static
  | tcp
  | udp
  deriving DecidableEq, Repr

/-- The addresses of the heads, and those that `ExAllocatePoolWithTag` gives. -/
inductive Addr where
  | head (list : Head)
  | pool (n : Nat)
  deriving DecidableEq, Repr

/-- The links, what `struct rules_list_t` holds besides at each address, and the addresses of the
    pool in use. -/
structure Memory where
  heap : Heap Addr
  entry : Addr → RulesList
  used : List Addr

/-- `STATUS_SUCCESS`, `STATUS_INSUFFICIENT_RESOURCES` and `STATUS_ILLEGAL_FUNCTION`. -/
inductive Ntstatus where
  | success
  | insufficientResources
  | illegalFunction
  deriving DecidableEq, Repr

/-- What `add_rule` gets from the pool: the address of the entry, and memory for the rule. -/
structure ExAllocatePool where
  ple : Option Nat
  rule : Bool
  deriving DecidableEq, Repr

/-- When a timer that is set now is due, in units of 100 ns. -/
def due (now : Nat) : Nat := now + TIMEOUT * 1000 * 10

/-- The memory with another state of a timer. -/
def Memory.setTimer (m : Memory) (a : Addr) (expires : Option Nat) : Memory :=
  { m with
    entry := Function.update m.entry a
      { m.entry a with timer := { (m.entry a).timer with expires } } }

/-- `KeSetTimer`, with the delay that the driver uses. -/
def keSetTimer (now : Nat) (m : Memory) (a : Addr) : Memory := m.setTimer a (some (due now))

/-- `KeCancelTimer`. -/
def keCancelTimer (m : Memory) (a : Addr) : Memory :=
  { m.setTimer a none with heap := m.heap.cancel a }

/-- The timer that `add_rule` initializes; `proto` is `none` for -1. -/
def initializeTimer (now : Nat) : Option Proto → Timer
  | none => { function := none, expires := none }
  | some .tcp => { function := some .tcp, expires := none }
  | some .udp => { function := some .udp, expires := some (due now) }

/-- `add_rule`; memory for an entry without a rule is not freed. -/
def addRule (now rulePtr : Nat) (m : Memory) (rule : Fwr) (head : Head) (onStack : Bool)
    (proto : Option Proto) (pool : ExAllocatePool) : Ntstatus × Memory :=
  match pool.ple with
  | none => (.insufficientResources, m)
  | some n =>
    let ple := Addr.pool n
    let heap := m.heap.write ple none
    let used := ple :: m.used
    if onStack = true ∧ pool.rule = false then (.insufficientResources, { m with heap, used })
    else
      let entry := { rulePtr, rule, timer := initializeTimer now proto }
      (.success,
        { heap := pushEntryList heap (.head head) ple
          entry := Function.update m.entry ple entry
          used })

/-- `search_rule`. -/
def searchRule (m : Memory) (rule : Fwr) (head : Head) : Option (Option Addr) :=
  (forEntries m.heap.next
    (fun () _ i => if matchRule rule (m.entry i).rule then .error i else .ok ())
    m.used.length () (.head head) (m.heap.next (.head head))).map
      fun
      | .error ple => some ple
      | .ok () => none

/-- `del_rule`, with the address of the pointer to the rule of `context`; the bytes that it compares
    begin with that pointer.  What a freed entry holds depends on `left`. -/
def delRule (left : Heap Addr → Addr → Option Addr) (m : Memory) (context : Addr) (head : Head) :
    Option (Ntstatus × Memory) :=
  (forEntries m.heap.next
    (fun () j i =>
      if (m.entry i).rulePtr == (m.entry context).rulePtr then .error (j, i) else .ok ())
    m.used.length () (.head head) (m.heap.next (.head head))).map
      fun
      | .error (j, i) =>
        let m := keCancelTimer m i
        let heap := popEntryList m.heap j
        (.success, { m with heap := heap.free left i, used := m.used.erase i })
      | .ok () => (.insufficientResources, m)

/-! ### What the memory holds -/

/-- The list of the Linux module. -/
def Head.rules (s : State) : Head → List RulesList
  | .static => s.staticRules
  | .tcp => s.tcpDynamicRules
  | .udp => s.udpDynamicRules

/-- The Linux module with another list. -/
def Head.setRules (s : State) : Head → List RulesList → State
  | .static, list => { s with staticRules := list }
  | .tcp, list => { s with tcpDynamicRules := list }
  | .udp, list => { s with udpDynamicRules := list }

@[simp] theorem Head.rules_setRules (s : State) (l : Head) (list : List RulesList) :
    l.rules (l.setRules s list) = list := by
  cases l <;> rfl

theorem Head.rules_setRules_of_ne (s : State) {l l' : Head} (hne : l' ≠ l)
    (list : List RulesList) : l'.rules (l.setRules s list) = l'.rules s := by
  cases l <;> cases l' <;> first | rfl | exact absurd rfl hne

@[simp] theorem Head.setRules_rules (s : State) (l : Head) : l.setRules s (l.rules s) = s := by
  cases l <;> rfl

/-- The three lists are linked through different entries in use, which hold the entries of the
    Linux module, and no other timer is set. -/
structure Represents (m : Memory) (as : Head → List Addr) (s : State) : Prop where
  isList : ∀ l, IsList m.heap.next (.head l) (as l)
  apart : ∀ l l', ∀ a ∈ as l, a ∈ as l' → l = l'
  used : ∀ l, ∀ a ∈ as l, a ∈ m.used
  pool : ∀ l, Addr.head l ∉ m.used
  unarmed : ∀ a, (∀ l, a ∉ as l) → (m.entry a).timer.expires = none
  entries : ∀ l, (as l).map m.entry = l.rules s

variable {m : Memory} {as : Head → List Addr} {s : State} {l : Head} {a : Addr}

namespace Represents

/-- A list has no more entries than there are addresses in use. -/
theorem length_le (h : Represents m as s) (l : Head) : (as l).length ≤ m.used.length :=
  (List.subperm_of_subset (List.nodup_cons.mp (h.isList l).nodup).2 (h.used l)).length_le

/-- Neither a head nor an entry in use is at an address that is not in use. -/
theorem ne_of_notMem (h : Represents m as s) {n : Nat} (hn : Addr.pool n ∉ m.used) (l : Head) :
    ∀ c ∈ .head l :: as l, c ≠ .pool n := by
  refine List.forall_mem_cons.mpr ⟨nofun, ?_⟩
  rintro c hc rfl
  exact hn (h.used l _ hc)

/-- Memory whose other list is untouched. -/
theorem isList_of_ne (h : Represents m as s) {l' : Head} (hne : l' ≠ l) {next' : Addr → Option Addr}
    (hnext : ∀ c, c ∉ .head l :: as l → next' c = m.heap.next c) :
    IsList next' (.head l') (as l') := by
  refine (h.isList l').congr fun c hc => hnext c fun hc' => ?_
  rcases List.mem_cons.mp hc with rfl | hc
  · rcases List.mem_cons.mp hc' with heq | hc'
    · exact hne (Addr.head.inj heq)
    · exact h.pool l' (h.used l _ hc')
  · rcases List.mem_cons.mp hc' with rfl | hc'
    · exact h.pool l (h.used l' _ hc)
    · exact hne (h.apart l' l c hc hc')

/-- **Search.**  The entry found is the one that the Linux module finds. -/
theorem searchRule (h : Represents m as s) (rule : Fwr) (l : Head) :
    ∃ found, searchRule m rule l = some found ∧ (∀ a ∈ found, a ∈ as l) ∧
      found.map m.entry = NetworkFirewall.searchRule rule (l.rules s) := by
  refine ⟨(as l).find? fun a => matchRule rule (m.entry a).rule, ?_,
    fun a ha => List.mem_of_find?_eq_some ha, ?_⟩
  · rw [NetworkFirewallWindows.searchRule, forEntries_eq (h.isList l).chain (h.length_le l),
      Option.map_some]
    rcases forList_find (fun i => matchRule rule (m.entry i).rule) (fun _ i => i)
      (fun _ _ _ => rfl) () (Addr.head l) (as l) with ⟨hloop, hfind⟩ |
        ⟨done, i, rest, -, hfind, -, hloop⟩
    · rw [hloop, hfind]
    · rw [hloop, hfind]
  · rw [NetworkFirewall.searchRule, ← h.entries l, List.find?_map]
    rfl

/-- **Setting a timer.** -/
theorem keSetTimer (h : Represents m as s) (hnodup : ((l.rules s).map RulesList.rulePtr).Nodup)
    (ha : a ∈ as l) (now : Nat) :
    Represents (keSetTimer now m a) as
      (l.setRules s (NetworkFirewall.modTimer (m.entry a).rulePtr (due now) (l.rules s))) where
  isList := h.isList
  apart := h.apart
  used := h.used
  pool := h.pool
  unarmed := fun c hc => by
    have hne : c ≠ a := fun heq => hc l (heq ▸ ha)
    exact (congrArg (fun e : RulesList => e.timer.expires) (Function.update_of_ne hne _ _)).trans
      (h.unarmed c hc)
  entries := fun l' => by
    by_cases hl : l' = l
    · subst hl
      rw [Head.rules_setRules, NetworkFirewall.modTimer, ← h.entries l', List.map_map]
      refine List.map_congr_left fun c hc => ?_
      rw [← h.entries l', List.map_map] at hnodup
      show Function.update m.entry a _ c = if (m.entry c).rulePtr = _ then _ else _
      by_cases hc' : c = a
      · rw [hc', Function.update_self, if_pos rfl]
      · have hptr : (m.entry c).rulePtr ≠ (m.entry a).rulePtr := fun heq =>
          hc' (List.inj_on_of_nodup_map hnodup hc ha heq)
        rw [Function.update_of_ne hc', if_neg hptr]
    · rw [Head.rules_setRules_of_ne s hl, ← h.entries l']
      refine List.map_congr_left fun c hc => Function.update_of_ne ?_ _ _
      rintro rfl
      exact hl (h.apart l' l c hc ha)

/-- Other memory in use, with a link that no list goes through. -/
theorem write (h : Represents m as s) {n : Nat} (hn : Addr.pool n ∉ m.used) (b : Option Addr) :
    Represents { m with heap := m.heap.write (.pool n) b, used := .pool n :: m.used } as s where
  isList := fun l => (h.isList l).congr fun c hc =>
    Function.update_of_ne (h.ne_of_notMem hn l c hc) _ _
  apart := h.apart
  used := fun l c hc => List.mem_cons_of_mem _ (h.used l c hc)
  pool := fun l hmem => (List.mem_cons.mp hmem).elim nofun (h.pool l)
  unarmed := h.unarmed
  entries := h.entries

/-- Memory in which one list is another one, and the others are as they were. -/
theorem replace (h : Represents m as s) {m' : Memory} {list : List Addr} {entries : List RulesList}
    (hlist : IsList m'.heap.next (.head l) list)
    (hnext : ∀ l', l' ≠ l → IsList m'.heap.next (.head l') (as l'))
    (hused : ∀ c ∈ list, c ∈ m'.used) (hapart : ∀ c ∈ list, ∀ l', l' ≠ l → c ∉ as l')
    (hother : ∀ l', l' ≠ l → ∀ c ∈ as l', c ∈ m'.used ∧ m'.entry c = m.entry c)
    (hpool : ∀ l', Addr.head l' ∉ m'.used)
    (hunarmed : ∀ c ∉ list, (∀ l', l' ≠ l → c ∉ as l') → (m'.entry c).timer.expires = none)
    (hentries : list.map m'.entry = entries) :
    Represents m' (Function.update as l list) (l.setRules s entries) := by
  have hself : Function.update as l list l = list := Function.update_self ..
  have hsame : ∀ l', l' ≠ l → Function.update as l list l' = as l' :=
    fun l' hne => Function.update_of_ne hne _ _
  refine ⟨fun l' => ?_, fun l₁ l₂ c h₁ h₂ => ?_, fun l' c hc => ?_, hpool, fun c hc => ?_,
    fun l' => ?_⟩
  · by_cases hl : l' = l
    · rwa [hl, hself]
    · rw [hsame l' hl]
      exact hnext l' hl
  -- No entry is in two lists.
  · by_cases hl₁ : l₁ = l
    · by_cases hl₂ : l₂ = l
      · exact hl₁.trans hl₂.symm
      · rw [hl₁, hself] at h₁
        rw [hsame l₂ hl₂] at h₂
        exact absurd h₂ (hapart c h₁ l₂ hl₂)
    · rw [hsame l₁ hl₁] at h₁
      by_cases hl₂ : l₂ = l
      · rw [hl₂, hself] at h₂
        exact absurd h₁ (hapart c h₂ l₁ hl₁)
      · rw [hsame l₂ hl₂] at h₂
        exact h.apart l₁ l₂ c h₁ h₂
  · by_cases hl : l' = l
    · rw [hl, hself] at hc
      exact hused c hc
    · rw [hsame l' hl] at hc
      exact (hother l' hl c hc).1
  · exact hunarmed c (fun hmem => hc l (hself.symm ▸ hmem))
      fun l' hl hmem => hc l' ((hsame l' hl).symm ▸ hmem)
  · by_cases hl : l' = l
    · rw [hl, hself, Head.rules_setRules, hentries]
    · rw [hsame l' hl, Head.rules_setRules_of_ne s hl, ← h.entries l']
      exact List.map_congr_left fun c hc => (hother l' hl c hc).2

/-- A new entry at the head of a list. -/
theorem push (h : Represents m as s) {n : Nat} (hn : Addr.pool n ∉ m.used) (l : Head)
    (ple : RulesList) :
    Represents
      { heap := pushEntryList (m.heap.write (.pool n) none) (.head l) (.pool n)
        entry := Function.update m.entry (.pool n) ple
        used := .pool n :: m.used }
      (Function.update as l (.pool n :: as l)) (l.setRules s (ple :: l.rules s)) := by
  have hw := h.write hn none
  -- The address was not in use, so it is in no list.
  have hnotMem : ∀ l, Addr.pool n ∉ as l := fun l hmem => hn (h.used l _ hmem)
  have hentry : ∀ l', ∀ c ∈ as l', Function.update m.entry (.pool n) ple c = m.entry c := by
    intro l' c hc
    refine Function.update_of_ne ?_ _ _
    rintro rfl
    exact hnotMem l' hc
  refine h.replace ?_ (fun l' hl => ?_) (List.forall_mem_cons.mpr ⟨List.mem_cons_self, ?_⟩)
    (List.forall_mem_cons.mpr ⟨fun l' _ => hnotMem l', ?_⟩) ?_ hw.pool ?_ ?_
  · refine (hw.isList l).push fun hmem => ?_
    rcases List.mem_cons.mp hmem with heq | hmem
    · cases heq
    · exact hnotMem l hmem
  · refine (hw.isList l').congr fun c hc => ?_
    -- No other list goes through this head or the new entry.
    have hhead : c ≠ .head l := by
      rintro rfl
      rcases List.mem_cons.mp hc with heq | hc
      · exact hl (Addr.head.inj heq).symm
      · exact h.pool l (h.used l' _ hc)
    show Function.update (Function.update _ (Addr.pool n) _) (Addr.head l) _ c = _
    rw [Function.update_of_ne hhead, Function.update_of_ne (h.ne_of_notMem hn l' c hc)]
  · exact fun c hc => List.mem_cons_of_mem _ (h.used l c hc)
  · exact fun c hc l' hl hc' => hl (h.apart l' l c hc' hc)
  · exact fun l' _ c hc => ⟨List.mem_cons_of_mem _ (h.used l' c hc), hentry l' c hc⟩
  · intro c hc hothers
    obtain ⟨hne, hc⟩ := not_or.mp (fun hmem => hc (List.mem_cons.mpr hmem))
    refine (congrArg (fun e : RulesList => e.timer.expires) (Function.update_of_ne hne _ _)).trans
      (h.unarmed c fun l' => ?_)
    by_cases hl : l' = l
    · exact hl ▸ hc
    · exact hothers l' hl
  · show Function.update m.entry (.pool n) ple (.pool n) :: _ = _
    rw [Function.update_self, ← h.entries l]
    exact congrArg (ple :: ·) (List.map_congr_left (hentry l))

/-- The timers of the two systems are the same, with ten million jiffies in a second. -/
theorem initializeTimer_eq (now : Nat) (proto : Option Proto) :
    initializeTimer now proto = NetworkFirewall.setupTimer 10000000 now proto := by
  rcases proto with _ | _ | _ <;> rfl

/-- **Adding a rule.** -/
theorem addRule (h : Represents m as s) (pool : ExAllocatePool)
    (hpool : ∀ n ∈ pool.ple, Addr.pool n ∉ m.used) (now rulePtr : Nat) (rule : Fwr) (l : Head)
    (onStack : Bool) (proto : Option Proto) :
    ∃ as', Represents (addRule now rulePtr m rule l onStack proto pool).2 as'
      (l.setRules s (NetworkFirewall.addRule 10000000 now rulePtr rule (l.rules s) onStack proto
        ⟨pool.ple.isSome, pool.rule⟩).2) := by
  obtain ⟨_ | n, memory⟩ := pool
  · exact ⟨as, (Head.setRules_rules s l).symm ▸ h⟩
  · have hn : Addr.pool n ∉ m.used := hpool n rfl
    by_cases hmemory : onStack = true ∧ memory = false
    · have hleaked := h.write hn none
      refine ⟨as, ?_⟩
      rw [NetworkFirewallWindows.addRule, NetworkFirewall.addRule]
      simp only [Option.isSome_some, if_pos hmemory, Bool.true_eq_false, if_false]
      rwa [Head.setRules_rules]
    · refine ⟨Function.update as l (.pool n :: as l), ?_⟩
      rw [NetworkFirewallWindows.addRule, NetworkFirewall.addRule]
      simp only [Option.isSome_some, if_neg hmemory, Bool.true_eq_false, if_false,
        initializeTimer_eq]
      exact h.push hn l _

/-- **Deleting a rule.**  The entry is unlinked and freed; its timer is no longer set. -/
theorem delRule (h : Represents m as s) (left : Heap Addr → Addr → Option Addr) (ha : a ∈ as l) :
    ∃ m' as', delRule left m a l = some (.success, m') ∧ Represents m' as'
      (l.setRules s (NetworkFirewall.delRule (m.entry a).rulePtr (l.rules s))) := by
  rcases forList_find (fun i => (m.entry i).rulePtr == (m.entry a).rulePtr) (fun j i => (j, i))
    (fun _ _ _ => rfl) () (Addr.head l) (as l) with ⟨-, hfind⟩ |
      ⟨done, i, rest, heq, hfind, hdone, hloop⟩
  · exact absurd (beq_self_eq_true _) (List.find?_eq_none.mp hfind a ha)
  have hi : i ∈ as l := List.mem_of_find?_eq_some hfind
  have hptr : ((m.entry i).rulePtr == (m.entry a).rulePtr) = true :=
    (List.find?_some hfind :)
  have hlist : IsList (m.heap.cancel i).next (.head l) (done ++ i :: rest) := heq ▸ h.isList l
  have hperm : (done ++ i :: rest).Perm (i :: (done ++ rest)) := List.perm_middle
  have hnotMem : i ∉ done ++ rest :=
    (List.nodup_cons.mp (hperm.nodup_iff.mp (List.nodup_cons.mp hlist.nodup).2)).1
  have hmem : ∀ {c}, c ∈ as l ↔ c = i ∨ c ∈ done ++ rest := by
    intro c
    rw [heq, hperm.mem_iff, List.mem_cons]
  have hne : ∀ c ∈ done ++ rest, c ≠ i := fun c hc heq => hnotMem (heq ▸ hc)
  have hothers : ∀ l', l' ≠ l → ∀ c ∈ as l', c ≠ i :=
    fun l' hl c hc heq => hl (h.apart l' l c hc (heq ▸ hi))
  have hhead : ∀ l', Addr.head l' ≠ i := fun l' heq => h.pool l' (heq ▸ h.used l i hi)
  -- what the freed entry holds does not matter to the lists
  have hfree : ∀ {l' : Head} {entries : List Addr} {heap : Heap Addr},
      IsList heap.next (.head l') entries → (∀ c ∈ entries, c ≠ i) →
      IsList (heap.free left i).next (.head l') entries := by
    intro l' entries heap hheap hentries
    refine hheap.congr fun c hc => Function.update_of_ne ?_ _ _
    rcases List.mem_cons.mp hc with rfl | hc
    · exact hhead l'
    · exact hentries c hc
  have hentry : ∀ c, c ≠ i → (keCancelTimer m i).entry c = m.entry c :=
    fun c hc => Function.update_of_ne hc _ _
  have hused : ∀ {l' c}, c ∈ as l' → c ≠ i → c ∈ m.used.erase i :=
    fun hc hci => (List.mem_erase_of_ne hci).mpr (h.used _ _ hc)
  have hdel : NetworkFirewallWindows.delRule left m a l = some (.success,
      { keCancelTimer m i with
        heap := (popEntryList (m.heap.cancel i) (before (.head l) done)).free left i
        used := m.used.erase i }) := by
    rw [NetworkFirewallWindows.delRule, forEntries_eq (h.isList l).chain (h.length_le l), hloop,
      Option.map_some]
    rfl
  refine ⟨_, _, hdel, h.replace (hfree hlist.pop hne) ?_
    (fun c hc => hused (hmem.mpr (Or.inr hc)) (hne c hc)) ?_ ?_ ?_ ?_ ?_⟩
  · intro l' hl
    refine hfree (h.isList_of_ne hl fun c hc => ?_) (hothers l' hl)
    rw [popEntryList_next hlist.chain, Function.update_of_ne]
    · rfl
    · intro hbefore
      have hlast : c ∈ .head l :: done := hbefore ▸ List.getLast_mem _
      refine hc ((List.mem_cons.mp hlast).elim (fun hcl => ?_) fun hlast => ?_)
      · rw [hcl]
        exact List.mem_cons_self
      · exact List.mem_cons_of_mem _ (hmem.mpr (Or.inr (List.mem_append_left _ hlast)))
  · exact fun c hc l' hl hc' => hl (h.apart l' l c hc' (hmem.mpr (Or.inr hc)))
  · exact fun l' hl c hc => ⟨hused hc (hothers l' hl c hc), hentry c (hothers l' hl c hc)⟩
  · exact fun l' hl' => h.pool l' (List.mem_of_mem_erase hl')
  · intro c hc hcothers
    by_cases hci : c = i
    · rw [hci]
      show (Function.update m.entry i _ i).timer.expires = none
      rw [Function.update_self]
    · rw [hentry c hci]
      refine h.unarmed c fun l' hc' => ?_
      by_cases hl : l' = l
      · subst hl
        exact (hmem.mp hc').elim hci hc
      · exact hcothers l' hl hc'
  · rw [NetworkFirewall.delRule, ← h.entries l, heq,
      (List.map_append : (done ++ i :: rest).map m.entry = _), List.map_cons,
      List.eraseP_append_right _ ?_,
      List.eraseP_cons_of_pos (p := fun ple : RulesList => ple.rulePtr == (m.entry a).rulePtr) hptr,
      ← List.map_append]
    · exact List.map_congr_left fun c hc => hentry c (hne c hc)
    · intro ple hple
      obtain ⟨c, hc, rfl⟩ := List.mem_map.mp hple
      rw [hdone c hc]
      exact Bool.false_ne_true

end Represents

end WorkAtUPB.NetworkFirewallWindows

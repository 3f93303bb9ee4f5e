import Mathlib.Data.List.Basic

namespace WorkAtUPB.NetworkFirewall

/-!
# NetworkFirewallLinux — rules and rule lists (`rules.c`)

* `Fwr`, `matchRule` — a rule, and the test under its masks and port ranges;
* `RulesList` — a list entry: its rule and its timer;
* `addRule`, `delRule`, `searchRule`, `modTimer` — the operations on a list.

Addresses and ports are kept as they are stored.  A list is its entries from the head on; an
entry is named by the address of its rule, which the allocator never gives twice (rules are
not freed).
-/

/-- `struct fwr`. -/
structure Fwr where
  ipSrc : UInt32
  ipDst : UInt32
  ipSrcMask : UInt32
  ipDstMask : UInt32
  portSrc : UInt16 × UInt16
  portDst : UInt16 × UInt16
  deriving DecidableEq, Repr

/-- The protocols that dynamic rules are for. -/
inductive Proto where
  | tcp
  | udp
  deriving DecidableEq, Repr

/-- `struct timer_list`: the callback, by the list it deletes from (`null_timer_callback` is
    `none`), and when it is due, if it is armed. -/
structure Timer where
  function : Option Proto
  expires : Option Nat
  deriving DecidableEq, Repr

/-- `struct rules_list_t`, with the address of its rule. -/
structure RulesList where
  rulePtr : Nat
  rule : Fwr
  timer : Timer
  deriving DecidableEq, Repr

/-- `TIMEOUT`, in milliseconds. -/
def TIMEOUT : Nat := 300

/-- When a timer armed now is due; `hz` is the number of jiffies in a second. -/
def deadline (hz jiffies : Nat) : Nat := jiffies + TIMEOUT * hz / 1000

/-- `ENOMEM`. -/
def ENOMEM : Int := 12

/-- Which of the two allocations of `add_rule` succeed. -/
structure Kmalloc where
  ple : Bool
  rule : Bool
  deriving DecidableEq, Repr

/-- The timer that `add_rule` sets up; `proto` is `none` for -1. -/
def setupTimer (hz jiffies : Nat) : Option Proto → Timer
  | none => { function := none, expires := none }
  | some .tcp => { function := some .tcp, expires := none }
  | some .udp => { function := some .udp, expires := some (deadline hz jiffies) }

/-- `add_rule`: a new entry at the head of the list.  A rule `on_stack` is copied, which takes
    a second allocation. -/
def addRule (hz jiffies : Nat) (rulePtr : Nat) (rule : Fwr) (head : List RulesList)
    (onStack : Bool) (proto : Option Proto) (kmalloc : Kmalloc) : Int × List RulesList :=
  if kmalloc.ple = false then (-ENOMEM, head)
  else if onStack = true ∧ kmalloc.rule = false then (-ENOMEM, head)
  else (0, { rulePtr, rule, timer := setupTimer hz jiffies proto } :: head)

/-- `del_rule`, called with the entry that owns the timer: the bytes it compares begin with
    the address of the rule, so it deletes that entry. -/
def delRule (rulePtr : Nat) (head : List RulesList) : List RulesList :=
  head.eraseP fun ple => ple.rulePtr == rulePtr

/-- `match_rule`: the addresses agree under the masks of `dest`, and the ports lie in its
    ranges. -/
def matchRule (src dest : Fwr) : Bool :=
  (src.ipSrc &&& dest.ipSrcMask) == (dest.ipSrc &&& dest.ipSrcMask) &&
    (src.ipDst &&& dest.ipDstMask) == (dest.ipDst &&& dest.ipDstMask) &&
    decide (src.portSrc.1 ≥ dest.portSrc.1) && decide (src.portSrc.2 ≤ dest.portSrc.2) &&
    decide (src.portDst.1 ≥ dest.portDst.1) && decide (src.portDst.2 ≤ dest.portDst.2)

/-- `search_rule`: the first entry whose rule matches. -/
def searchRule (rule : Fwr) (head : List RulesList) : Option RulesList :=
  head.find? fun ple => matchRule rule ple.rule

/-- `mod_timer` on an entry of the list. -/
def modTimer (rulePtr expires : Nat) (head : List RulesList) : List RulesList :=
  head.map fun ple =>
    if ple.rulePtr = rulePtr then { ple with timer := { ple.timer with expires := some expires } }
    else ple

/-! ### What the operations do to the rules of a list -/

/-- `add_rule` brings no rule into the list but the one it was given. -/
theorem addRule_rule {hz jiffies rulePtr : Nat} {rule : Fwr} {head : List RulesList}
    {onStack : Bool} {proto : Option Proto} {kmalloc : Kmalloc} {ple : RulesList}
    (h : ple ∈ (addRule hz jiffies rulePtr rule head onStack proto kmalloc).2) :
    ple ∈ head ∨ ple.rule = rule := by
  unfold addRule at h
  split at h
  · exact Or.inl h
  split at h
  · exact Or.inl h
  · rcases List.mem_cons.mp h with rfl | h
    · exact Or.inr rfl
    · exact Or.inl h

theorem delRule_mem {rulePtr : Nat} {head : List RulesList} {ple : RulesList}
    (h : ple ∈ delRule rulePtr head) : ple ∈ head := List.mem_of_mem_eraseP h

/-- `mod_timer` leaves the rules as they are. -/
theorem modTimer_rule {rulePtr expires : Nat} {head : List RulesList} {ple : RulesList}
    (h : ple ∈ modTimer rulePtr expires head) : ∃ ple' ∈ head, ple'.rule = ple.rule := by
  obtain ⟨ple', hmem, rfl⟩ := List.mem_map.mp h
  refine ⟨ple', hmem, ?_⟩
  split <;> rfl

/-- The entry that a search finds matches. -/
theorem searchRule_some {rule : Fwr} {head : List RulesList} {ple : RulesList}
    (h : searchRule rule head = some ple) : ple ∈ head ∧ matchRule rule ple.rule = true := by
  rw [searchRule, List.find?_eq_some_iff_append] at h
  obtain ⟨hmatch, before, after, rfl, -⟩ := h
  exact ⟨List.mem_append_right _ List.mem_cons_self, hmatch⟩

/-- If it finds none, none matches. -/
theorem searchRule_none {rule : Fwr} {head : List RulesList} (h : searchRule rule head = none) :
    ∀ ple ∈ head, ¬ matchRule rule ple.rule = true := by
  rw [searchRule, List.find?_eq_none] at h
  exact h

/-- Where a packet matches a rule for single ports, it has these ports. -/
theorem matchRule_ports {src dest : Fwr} (h : matchRule src dest = true)
    {srcPort dstPort port port' : UInt16} (hsrc : src.portSrc = (srcPort, srcPort))
    (hdst : src.portDst = (dstPort, dstPort)) (hport : dest.portSrc = (port, port))
    (hport' : dest.portDst = (port', port')) : srcPort = port ∧ dstPort = port' := by
  simp only [matchRule, Bool.and_eq_true, decide_eq_true_eq, hsrc, hdst, hport, hport'] at h
  obtain ⟨⟨⟨⟨-, h1⟩, h2⟩, h3⟩, h4⟩ := h
  exact ⟨UInt16.le_antisymm h2 h1, UInt16.le_antisymm h4 h3⟩

end WorkAtUPB.NetworkFirewall

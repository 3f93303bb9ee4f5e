import WorkAtUPB.Lib.Run
import Mathlib.Logic.Function.Basic

namespace WorkAtUPB.NetworkFirewall

open WorkAtUPB.Run

/-!
# NetworkFirewallLinux — the hooks and the enabled flag

`ipfirewall_init`, `ipfirewall_exit` and the requests `FW_ENABLE` and `FW_DISABLE`, where every
call that may fail does or does not:

* `Ipfirewall`, `Ipfirewall.step` — the module with what it has registered, one operation at a time;
* `Follows` — the hooks are registered exactly while the module is loaded and the flag set, and
  none was registered twice, or unregistered without being registered;
* `ErrorRestores` — a request to enable that fails changes nothing;
* `hooksFollow_iff` — a run goes so exactly if no start gets just the first hook registered, and
  no request to enable a disabled firewall gets less than both;
* `reachable_deviceFollows` — the device is there exactly while the module is loaded, in every
  run.

The lists that `ipfirewall_exit` also destroys play no part here.
-/

/-- `my_nfho_out` and `my_nfho_in`. -/
inductive Hook where
  | myNfhoOut
  | myNfhoIn
  deriving DecidableEq, Repr

/-- `ENOTTY`. -/
def ENOTTY : Int := 25

/-- The module, and what it has registered: its device numbers, its device and its hooks.
    `enabled` is `ipfirewall_enabled`; `misused` tells that a registered hook was registered, or
    one that was not registered unregistered. -/
structure Ipfirewall where
  loaded : Bool
  region : Bool
  cdev : Bool
  enabled : Bool
  registered : Hook → Bool
  misused : Bool

/-- Nothing is loaded or registered. -/
def Ipfirewall.unloaded : Ipfirewall where
  loaded := false
  region := false
  cdev := false
  enabled := false
  registered := fun _ => false
  misused := false

/-! ### The operations

The outcome of a call that may fail is the number of its error, 0 for success. -/

/-- `nf_register_hook`. -/
def nfRegisterHook (hook : Hook) (errno : Nat) (s : Ipfirewall) : Int × Ipfirewall :=
  if errno ≠ 0 then (-errno, s)
  else
    (0, { s with
      registered := Function.update s.registered hook true
      misused := s.misused || s.registered hook })

/-- `nf_unregister_hook`. -/
def nfUnregisterHook (hook : Hook) (s : Ipfirewall) : Ipfirewall :=
  { s with
    registered := Function.update s.registered hook false
    misused := s.misused || !s.registered hook }

/-- The label `cdev_add_failed`. -/
def cdevAddFailed (err : Int) (s : Ipfirewall) : Int × Ipfirewall :=
  (err, { s with region := false })

/-- The label `hook_failed`. -/
def hookFailed (err : Int) (s : Ipfirewall) : Int × Ipfirewall :=
  cdevAddFailed err { s with cdev := false }

/-- `ipfirewall_init`, by the outcomes of the four calls that may fail. -/
def ipfirewallInit (region cdevAdd out inn : Nat) (s : Ipfirewall) : Int × Ipfirewall :=
  let s := { s with enabled := false }
  if region ≠ 0 then (-region, s)
  else
    let s := { s with region := true }
    if cdevAdd ≠ 0 then cdevAddFailed (-cdevAdd) s
    else
      let s := { s with cdev := true }
      let (err, s) := nfRegisterHook .myNfhoOut out s
      if err ≠ 0 then hookFailed err s
      else
        let (err, s) := nfRegisterHook .myNfhoIn inn s
        if err ≠ 0 then hookFailed err s
        else (0, { s with enabled := true })

/-- The request `FW_ENABLE`. -/
def fwEnable (out inn : Nat) (s : Ipfirewall) : Int × Ipfirewall :=
  if s.enabled = false then
    let s := { s with enabled := true }
    let (err, s) := nfRegisterHook .myNfhoOut out s
    if err ≠ 0 then (-ENOTTY, s)
    else
      let (err, s) := nfRegisterHook .myNfhoIn inn s
      if err ≠ 0 then (-ENOTTY, s) else (0, s)
  else (0, s)

/-- The request `FW_DISABLE`. -/
def fwDisable (s : Ipfirewall) : Int × Ipfirewall :=
  if s.enabled = true then
    let s := { s with enabled := false }
    (0, nfUnregisterHook .myNfhoIn (nfUnregisterHook .myNfhoOut s))
  else (0, s)

/-- `ipfirewall_exit`. -/
def ipfirewallExit (s : Ipfirewall) : Ipfirewall :=
  let s :=
    if s.enabled = true then nfUnregisterHook .myNfhoIn (nfUnregisterHook .myNfhoOut s) else s
  { s with cdev := false, region := false }

/-- What may be done with the module. -/
inductive Op where
  | init (region cdevAdd out inn : Nat)
  | enable (out inn : Nat)
  | disable
  | exit
  deriving DecidableEq, Repr

/-- One operation.  A module that is loaded is not loaded again, and the others are for a loaded
    one; it stays loaded if its start does not fail. -/
def Ipfirewall.step (s : Ipfirewall) : Op → Option Ipfirewall
  | .init region cdevAdd out inn =>
    if s.loaded then none
    else
      let (err, s) := ipfirewallInit region cdevAdd out inn s
      some { s with loaded := decide (err = 0) }
  | .enable out inn => if s.loaded then some (fwEnable out inn s).2 else none
  | .disable => if s.loaded then some (fwDisable s).2 else none
  | .exit => if s.loaded then some { ipfirewallExit s with loaded := false } else none

/-! ### What is to hold -/

/-- The hooks follow the flag of the loaded module. -/
structure Follows (s : Ipfirewall) : Prop where
  hooks : ∀ hook, s.registered hook = (s.loaded && s.enabled)
  proper : s.misused = false

/-- A request to enable that returns an error leaves the flag and the hooks as they were. -/
def ErrorRestores (s : Ipfirewall) : Op → Prop
  | .enable out inn => s.loaded = true → (fwEnable out inn s).1 ≠ 0 →
      (fwEnable out inn s).2.enabled = s.enabled ∧
        (fwEnable out inn s).2.registered = s.registered
  | _ => True

/-- Of the two hooks, a start registers both or fails before the first, and a request to enable a
    disabled firewall registers both. -/
def RegistersBoth (s : Ipfirewall) : Op → Prop
  | .init region cdevAdd out inn =>
    s.loaded = false → region = 0 → cdevAdd = 0 → out = 0 → inn = 0
  | .enable out inn => s.loaded = true → s.enabled = false → out = 0 ∧ inn = 0
  | _ => True

/-- In the run of the operations from the unloaded module the hooks follow the flag after each, and
    requests that fail change nothing. -/
def HooksFollow (ops : List Op) : Prop :=
  Always Ipfirewall.step Follows .unloaded ops ∧
    EachStep Ipfirewall.step ErrorRestores .unloaded ops

/-! ### What the operations do -/

theorem update_both (f : Hook → Bool) (b : Bool) :
    Function.update (Function.update f .myNfhoOut b) .myNfhoIn b = fun _ => b := by
  funext hook
  cases hook <;> rfl

theorem nfRegisterHook_of_ne {hook : Hook} {errno : Nat} (h : errno ≠ 0) (s : Ipfirewall) :
    nfRegisterHook hook errno s = (-(errno : Int), s) := if_pos h

/-- The hooks are registered without misuse if neither is. -/
theorem nfRegisterHook_both {s : Ipfirewall} (h : s.registered = fun _ => false) :
    (nfRegisterHook .myNfhoIn 0 (nfRegisterHook .myNfhoOut 0 s).2) =
      (0, { s with registered := fun _ => true }) := by
  have hin : Function.update s.registered .myNfhoOut true .myNfhoIn = false := by
    rw [h]
    rfl
  have hout : s.registered .myNfhoOut = false := by rw [h]
  show ((0 : Int), ({ s with
    registered := Function.update (Function.update s.registered .myNfhoOut true) .myNfhoIn true
    misused := (s.misused || s.registered .myNfhoOut) ||
      Function.update s.registered .myNfhoOut true .myNfhoIn } : Ipfirewall)) = _
  rw [update_both, hin, hout, Bool.or_false, Bool.or_false]

/-- With the first hook alone they are neither both registered nor both not. -/
theorem not_follows_of_first {s : Ipfirewall} (h : s.registered .myNfhoOut = true)
    (h' : s.registered .myNfhoIn = false) : ¬ Follows s := by
  intro hfollows
  have hsame := (hfollows.hooks .myNfhoOut).trans (hfollows.hooks .myNfhoIn).symm
  rw [h, h'] at hsame
  cases hsame

/-- The hooks are unregistered without misuse if both are registered. -/
theorem nfUnregisterHook_both {s : Ipfirewall} (h : s.registered = fun _ => true) :
    nfUnregisterHook .myNfhoIn (nfUnregisterHook .myNfhoOut s) =
      { s with registered := fun _ => false } := by
  have hin : Function.update s.registered .myNfhoOut false .myNfhoIn = true := by
    rw [h]
    rfl
  have hout : s.registered .myNfhoOut = true := by rw [h]
  simp only [nfUnregisterHook, update_both, hin, hout, Bool.not_true, Bool.or_false]

/-- What a start does: it fails at one of the four calls, or registers everything. -/
theorem ipfirewallInit_cases (region cdevAdd out inn : Nat) (s : Ipfirewall) :
    (region ≠ 0 ∧
      ipfirewallInit region cdevAdd out inn s = (-(region : Int), { s with enabled := false })) ∨
    (region = 0 ∧ cdevAdd ≠ 0 ∧ ipfirewallInit region cdevAdd out inn s =
      (-(cdevAdd : Int), { s with enabled := false, region := false })) ∨
    (region = 0 ∧ cdevAdd = 0 ∧ out ≠ 0 ∧ ipfirewallInit region cdevAdd out inn s =
      (-(out : Int), { s with enabled := false, region := false, cdev := false })) ∨
    (region = 0 ∧ cdevAdd = 0 ∧ out = 0 ∧ inn ≠ 0 ∧ ipfirewallInit region cdevAdd out inn s =
      (-(inn : Int), { (nfRegisterHook .myNfhoOut 0 s).2 with
        enabled := false, region := false, cdev := false })) ∨
    (region = 0 ∧ cdevAdd = 0 ∧ out = 0 ∧ inn = 0 ∧ ipfirewallInit region cdevAdd out inn s =
      (0, { (nfRegisterHook .myNfhoIn 0 (nfRegisterHook .myNfhoOut 0 s).2).2 with
        enabled := true, region := true, cdev := true })) := by
  by_cases hregion : region = 0
  rotate_left
  · exact Or.inl ⟨hregion, if_pos hregion⟩
  refine Or.inr ?_
  by_cases hcdev : cdevAdd = 0
  rotate_left
  · subst hregion
    exact Or.inl ⟨rfl, hcdev, if_pos hcdev⟩
  refine Or.inr ?_
  subst hregion hcdev
  by_cases hout : out = 0
  rotate_left
  · refine Or.inl ⟨rfl, rfl, hout, ?_⟩
    simp [ipfirewallInit, nfRegisterHook_of_ne hout, hookFailed, cdevAddFailed, hout]
  refine Or.inr ?_
  subst hout
  by_cases hin : inn = 0
  rotate_left
  · refine Or.inl ⟨rfl, rfl, rfl, hin, ?_⟩
    simp [ipfirewallInit, nfRegisterHook, hookFailed, cdevAddFailed, hin]
  · subst hin
    exact Or.inr ⟨rfl, rfl, rfl, rfl, rfl⟩

/-- What a request to enable does: nothing for an enabled firewall; else it fails at one of the
    two calls, with the flag set, or registers both hooks. -/
theorem fwEnable_cases (out inn : Nat) (s : Ipfirewall) :
    (s.enabled = true ∧ fwEnable out inn s = (0, s)) ∨
    (s.enabled = false ∧ out ≠ 0 ∧ fwEnable out inn s = (-ENOTTY, { s with enabled := true })) ∨
    (s.enabled = false ∧ out = 0 ∧ inn ≠ 0 ∧ fwEnable out inn s =
      (-ENOTTY, { (nfRegisterHook .myNfhoOut 0 s).2 with enabled := true })) ∨
    (s.enabled = false ∧ out = 0 ∧ inn = 0 ∧ fwEnable out inn s =
      (0, { (nfRegisterHook .myNfhoIn 0 (nfRegisterHook .myNfhoOut 0 s).2).2 with
        enabled := true })) := by
  by_cases henabled : s.enabled = false
  rotate_left
  · exact Or.inl ⟨Bool.not_eq_false _ |>.mp henabled, if_neg henabled⟩
  refine Or.inr ?_
  by_cases hout : out = 0
  rotate_left
  · refine Or.inl ⟨henabled, hout, ?_⟩
    simp [fwEnable, nfRegisterHook_of_ne hout, henabled, hout]
  refine Or.inr ?_
  subst hout
  by_cases hin : inn = 0
  rotate_left
  · refine Or.inl ⟨henabled, rfl, hin, ?_⟩
    simp [fwEnable, nfRegisterHook, henabled, hin]
  · subst hin
    refine Or.inr ⟨henabled, rfl, rfl, ?_⟩
    simp [fwEnable, nfRegisterHook, henabled]

/-- What one operation does, and when it can be done. -/
theorem step_cases {s s' : Ipfirewall} {op : Op} (hs : s.step op = some s') :
    (∃ region cdevAdd out inn, op = .init region cdevAdd out inn ∧ s.loaded = false ∧
      s' = { (ipfirewallInit region cdevAdd out inn s).2 with
        loaded := decide ((ipfirewallInit region cdevAdd out inn s).1 = 0) }) ∨
    (∃ out inn, op = .enable out inn ∧ s.loaded = true ∧ s' = (fwEnable out inn s).2) ∨
    (op = .disable ∧ s.loaded = true ∧ s' = (fwDisable s).2) ∨
    (op = .exit ∧ s.loaded = true ∧ s' = { ipfirewallExit s with loaded := false }) := by
  cases op with
  | init region cdevAdd out inn =>
    rw [Ipfirewall.step] at hs
    split at hs
    next => cases hs
    next hloaded =>
      exact Or.inl ⟨_, _, _, _, rfl, Bool.eq_false_iff.mpr hloaded, (Option.some.inj hs).symm⟩
  | enable out inn =>
    obtain ⟨hloaded, hs⟩ := Option.ite_none_right_eq_some.mp hs
    exact Or.inr (Or.inl ⟨_, _, rfl, hloaded, (Option.some.inj hs).symm⟩)
  | disable =>
    obtain ⟨hloaded, hs⟩ := Option.ite_none_right_eq_some.mp hs
    exact Or.inr (Or.inr (Or.inl ⟨rfl, hloaded, (Option.some.inj hs).symm⟩))
  | exit =>
    obtain ⟨hloaded, hs⟩ := Option.ite_none_right_eq_some.mp hs
    exact Or.inr (Or.inr (Or.inr ⟨rfl, hloaded, (Option.some.inj hs).symm⟩))

/-! ### Runs -/

theorem Follows.registered_eq {s : Ipfirewall} (h : Follows s) :
    s.registered = fun _ => s.loaded && s.enabled := funext h.hooks

/-- A start keeps the hooks with the flag exactly if it does not fail at the second hook. -/
theorem follows_init_iff {s : Ipfirewall} (h : Follows s) (hloaded : s.loaded = false)
    {region cdevAdd out inn : Nat} :
    Follows { (ipfirewallInit region cdevAdd out inn s).2 with
        loaded := decide ((ipfirewallInit region cdevAdd out inn s).1 = 0) } ↔
      (region = 0 → cdevAdd = 0 → out = 0 → inn = 0) := by
  have hregistered := h.registered_eq
  rw [hloaded, Bool.false_and] at hregistered
  have hnone : ∀ hook, s.registered hook = false := fun hook => by rw [hregistered]
  have hproper := h.proper
  rcases ipfirewallInit_cases region cdevAdd out inn s with ⟨hregion, hinit⟩ |
    ⟨-, hcdev, hinit⟩ | ⟨-, -, hout, hinit⟩ | ⟨hregion, hcdev, hout, hin, hinit⟩ |
    ⟨-, -, -, hin, hinit⟩
  · rw [hinit]
    exact iff_of_true ⟨fun hook => (hnone hook).trans (Bool.and_false _).symm, hproper⟩
      fun hzero => absurd hzero hregion
  · rw [hinit]
    exact iff_of_true ⟨fun hook => (hnone hook).trans (Bool.and_false _).symm, hproper⟩
      fun _ hzero => absurd hzero hcdev
  · rw [hinit]
    exact iff_of_true ⟨fun hook => (hnone hook).trans (Bool.and_false _).symm, hproper⟩
      fun _ _ hzero => absurd hzero hout
  · rw [hinit]
    refine iff_of_false (not_follows_of_first rfl ?_) fun hzero =>
      hin (hzero hregion hcdev hout)
    exact hnone .myNfhoIn
  · rw [hinit, nfRegisterHook_both hregistered]
    exact iff_of_true ⟨fun _ => rfl, hproper⟩ fun _ _ _ => hin

/-- A request to enable keeps the hooks with the flag exactly if it does not fail. -/
theorem follows_enable_iff {s : Ipfirewall} (h : Follows s) (hloaded : s.loaded = true)
    {out inn : Nat} :
    Follows (fwEnable out inn s).2 ↔ (s.enabled = false → out = 0 ∧ inn = 0) := by
  have hregistered := h.registered_eq
  rw [hloaded, Bool.true_and] at hregistered
  rcases fwEnable_cases out inn s with ⟨henabled, heq⟩ | ⟨henabled, hout, heq⟩ |
    ⟨henabled, hout, hin, heq⟩ | ⟨henabled, hout, hin, heq⟩
  · rw [heq]
    exact iff_of_true h fun hfalse => by rw [henabled] at hfalse; cases hfalse
  · -- the flag is set, but no hook registered
    rw [heq]
    refine iff_of_false (fun hfollows => ?_) fun hzero => hout (hzero henabled).1
    have hflag : s.registered .myNfhoOut = (s.loaded && true) := hfollows.hooks .myNfhoOut
    rw [hregistered, henabled, hloaded] at hflag
    cases hflag
  · rw [heq]
    refine iff_of_false (not_follows_of_first rfl ?_) fun hzero => hin (hzero henabled).2
    show s.registered .myNfhoIn = false
    rw [hregistered, henabled]
  · rw [henabled] at hregistered
    rw [heq, nfRegisterHook_both hregistered]
    refine iff_of_true ⟨fun _ => ?_, h.proper⟩ fun _ => ⟨hout, hin⟩
    show true = (s.loaded && true)
    rw [hloaded]
    rfl

/-- A request to disable keeps the hooks with the flag. -/
theorem follows_disable {s : Ipfirewall} (h : Follows s) (hloaded : s.loaded = true) :
    Follows (fwDisable s).2 := by
  have hregistered := h.registered_eq
  rw [hloaded, Bool.true_and] at hregistered
  unfold fwDisable
  split
  next henabled =>
    dsimp only
    rw [nfUnregisterHook_both (by rw [henabled] at hregistered; exact hregistered)]
    exact ⟨fun _ => (Bool.and_false _).symm, h.proper⟩
  next => exact h

/-- So does the exit, after which no hook is registered. -/
theorem follows_exit {s : Ipfirewall} (h : Follows s) (hloaded : s.loaded = true) :
    Follows { ipfirewallExit s with loaded := false } := by
  have hregistered := h.registered_eq
  rw [hloaded, Bool.true_and] at hregistered
  unfold ipfirewallExit
  dsimp only
  split
  next henabled =>
    rw [nfUnregisterHook_both (by rw [henabled] at hregistered; exact hregistered)]
    exact ⟨fun _ => rfl, h.proper⟩
  next henabled =>
    rw [Bool.not_eq_true] at henabled
    rw [henabled] at hregistered
    exact ⟨fun hook => by show s.registered hook = _; rw [hregistered]; rfl, h.proper⟩

/-- One operation keeps the hooks with the flag exactly if it registers both, where it is to. -/
theorem step_follows_iff {s s' : Ipfirewall} {op : Op} (h : Follows s) (hs : s.step op = some s') :
    Follows s' ↔ RegistersBoth s op := by
  rcases step_cases hs with ⟨region, cdevAdd, out, inn, rfl, hloaded, rfl⟩ |
    ⟨out, inn, rfl, hloaded, rfl⟩ | ⟨rfl, hloaded, rfl⟩ | ⟨rfl, hloaded, rfl⟩
  · rw [follows_init_iff h hloaded]
    exact ⟨fun hzero _ => hzero, fun hzero => hzero hloaded⟩
  · rw [follows_enable_iff h hloaded]
    exact ⟨fun hzero _ => hzero, fun hzero => hzero hloaded⟩
  · exact iff_of_true (follows_disable h hloaded) trivial
  · exact iff_of_true (follows_exit h hloaded) trivial

/-- An operation that cannot be done here registers nothing. -/
theorem registersBoth_of_stuck {s : Ipfirewall} {op : Op} (hs : s.step op = none) :
    RegistersBoth s op := by
  cases op with
  | init region cdevAdd out inn =>
    intro hloaded
    rw [Ipfirewall.step, hloaded] at hs
    cases hs
  | enable out inn =>
    intro hloaded
    rw [Ipfirewall.step, hloaded] at hs
    cases hs
  | disable => trivial
  | exit => trivial

/-- A request that registers both hooks returns no error. -/
theorem errorRestores_of_registersBoth {s : Ipfirewall} {op : Op} (h : RegistersBoth s op) :
    ErrorRestores s op := by
  cases op with
  | enable out inn =>
    intro hloaded herror
    rcases fwEnable_cases out inn s with ⟨-, heq⟩ | ⟨henabled, hout, -⟩ |
      ⟨henabled, -, hin, -⟩ | ⟨-, -, -, heq⟩
    · exact absurd (congrArg Prod.fst heq) herror
    · exact absurd (h hloaded henabled).1 hout
    · exact absurd (h hloaded henabled).2 hin
    · exact absurd (congrArg Prod.fst heq) herror
  | init region cdevAdd out inn => trivial
  | disable => trivial
  | exit => trivial

theorem follows_unloaded : Follows .unloaded := ⟨fun _ => rfl, rfl⟩

theorem always_follows_iff (ops : List Op) :
    Always Ipfirewall.step Follows .unloaded ops ↔
      EachStep Ipfirewall.step RegistersBoth .unloaded ops :=
  always_iff_eachStep (J := fun _ => True) (fun _ _ _ _ _ _ _ => trivial)
    (fun _ _ _ _ h hs => step_follows_iff h hs) (fun _ _ _ _ hs => registersBoth_of_stuck hs)
    trivial follows_unloaded

/-- **Hooks and flag.**  In every run the hooks follow the flag exactly if no start registers just
    the first hook and no request to enable a disabled firewall registers less than both. -/
theorem hooksFollow_iff (ops : List Op) :
    HooksFollow ops ↔ EachStep Ipfirewall.step RegistersBoth .unloaded ops := by
  rw [HooksFollow, always_follows_iff]
  constructor
  · exact And.left
  · intro hboth
    refine ⟨hboth, EachStep.of_invariant (I := fun _ => True) (fun _ _ _ _ _ _ => trivial)
      (fun s op _ h => errorRestores_of_registersBoth h) trivial hboth⟩

/-- **Half a start.**  A start that fails at the second hook leaves the first one registered; and
    after a request to enable that failed, one to disable unregisters hooks that are not there. -/
theorem not_hooksFollow :
    (∃ s, run Ipfirewall.step .unloaded [.init 0 0 0 4] = some s ∧ s.loaded = false ∧
      s.registered .myNfhoOut = true) ∧
    (∃ s, run Ipfirewall.step .unloaded [.init 0 0 0 0, .disable, .enable 4 0, .disable] = some s ∧
      s.misused = true) ∧
    ¬ HooksFollow [.init 0 0 0 4] ∧
    ¬ HooksFollow [.init 0 0 0 0, .disable, .enable 4 0, .disable] := by
  refine ⟨⟨_, rfl, rfl, rfl⟩, ⟨_, rfl, rfl⟩, fun h => ?_, fun h => ?_⟩
  · have hlast := h.1.last rfl
    cases hlast.hooks .myNfhoOut
  · have hlast := h.1.last rfl
    cases hlast.proper

/-! ### The device -/

/-- The device and its numbers are registered exactly while the module is loaded. -/
structure DeviceFollows (s : Ipfirewall) : Prop where
  region : s.region = s.loaded
  cdev : s.cdev = s.loaded

/-- A start registers the device and its numbers, or releases what it registered of them. -/
theorem deviceFollows_init {s : Ipfirewall} (h : DeviceFollows s) (hloaded : s.loaded = false)
    {region cdevAdd out inn : Nat} :
    DeviceFollows { (ipfirewallInit region cdevAdd out inn s).2 with
      loaded := decide ((ipfirewallInit region cdevAdd out inn s).1 = 0) } := by
  have hregion := h.region.trans hloaded
  have hcdev := h.cdev.trans hloaded
  have hfails : ∀ errno : Nat, errno ≠ 0 → decide (-(errno : Int) = 0) = false :=
    fun errno hne => decide_eq_false (by omega)
  rcases ipfirewallInit_cases region cdevAdd out inn s with ⟨hne, hinit⟩ | ⟨-, hne, hinit⟩ |
    ⟨-, -, hne, hinit⟩ | ⟨-, -, -, hne, hinit⟩ | ⟨-, -, -, -, hinit⟩
  · rw [hinit]
    exact ⟨hregion.trans (hfails _ hne).symm, hcdev.trans (hfails _ hne).symm⟩
  · rw [hinit]
    exact ⟨(hfails _ hne).symm, hcdev.trans (hfails _ hne).symm⟩
  · rw [hinit]
    exact ⟨(hfails _ hne).symm, (hfails _ hne).symm⟩
  · rw [hinit]
    exact ⟨(hfails _ hne).symm, (hfails _ hne).symm⟩
  · rw [hinit]
    exact ⟨rfl, rfl⟩

theorem step_deviceFollows {s s' : Ipfirewall} {op : Op} (h : DeviceFollows s)
    (hs : s.step op = some s') : DeviceFollows s' := by
  rcases step_cases hs with ⟨region, cdevAdd, out, inn, -, hloaded, rfl⟩ |
    ⟨out, inn, -, -, rfl⟩ | ⟨-, -, rfl⟩ | ⟨-, -, rfl⟩
  · exact deviceFollows_init h hloaded
  · rcases fwEnable_cases out inn s with ⟨-, heq⟩ | ⟨-, -, heq⟩ | ⟨-, -, -, heq⟩ |
      ⟨-, -, -, heq⟩ <;> rw [heq] <;> exact ⟨h.region, h.cdev⟩
  · unfold fwDisable
    split <;> exact ⟨h.region, h.cdev⟩
  · exact ⟨rfl, rfl⟩

/-- Whatever fails, in every state the device is there exactly while the module is loaded. -/
theorem reachable_deviceFollows {s : Ipfirewall}
    (h : Reachable Ipfirewall.step .unloaded s) : DeviceFollows s :=
  h.invariant ⟨rfl, rfl⟩ fun _ _ _ => step_deviceFollows

end WorkAtUPB.NetworkFirewall

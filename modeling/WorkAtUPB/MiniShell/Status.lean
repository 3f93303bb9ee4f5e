import WorkAtUPB.MiniShell.ControlFlow

namespace WorkAtUPB.MiniShell

/-!
# The status of a command tree

A status is 0 for success.  It is right below `&`, as `displayCommand_result` says; in `a & b` the
child ends with the bitwise or of the status of `b` and the shifted status of `a`, of which `exit`
keeps the low byte:

* `waitpid_or_eq_zero_iff` — the status of `a` is lost, and that of `b` if it is shifted itself;
* `shifted` — the status of a command has been shifted by `waitpid`;
* `StatusMeans`, `Reported` — the status says whether the command succeeds; when it does;
* `displayCommand_statusMeans_iff` — these are the same for every tree of the grammar.
-/

variable {α : Type*}

/-! ### What `exit` keeps -/

/-- `exit` keeps the low byte. -/
theorem exit_eq_mod (status : Int32) : exit status = (status.toBitVec.toNat % 256 : Nat) := by
  rw [exit, ← Int32.toInt_toBitVec, BitVec.toInt_eq_toNat_cond]
  split <;> omega

/-- The status word of a child is zero if the low byte of its status is. -/
theorem waitpid_exit_eq_zero {status : Int32} : waitpid (exit status) = 0 ↔ exit status = 0 := by
  have hlo : 0 ≤ exit status := Int.emod_nonneg _ (by decide)
  have hhi : exit status < 256 := Int.emod_lt_of_pos _ (by decide)
  rw [← Int32.toInt_inj, waitpid, Int32.toInt_ofInt_of_le (by omega) (by omega), Int32.toInt_zero]
  omega

/-- The status word of a child that has exited has no low byte. -/
theorem exit_waitpid_exit (status : Int32) : exit (waitpid (exit status)) = 0 := by
  have hlo : 0 ≤ exit status := Int.emod_nonneg _ (by decide)
  have hhi : exit status < 256 := Int.emod_lt_of_pos _ (by decide)
  rw [exit, waitpid, Int32.toInt_ofInt_of_le (by omega) (by omega)]
  omega

/-- The low byte of a bitwise or. -/
theorem exit_or_of_exit_eq_zero {status word : Int32} (h : exit word = 0) :
    exit (status ||| word) = exit status := by
  rw [exit_eq_mod] at h
  have hword : word.toBitVec.toNat % 256 = 0 := by exact_mod_cast h
  have hor : (status.toBitVec.toNat ||| word.toBitVec.toNat) % 2 ^ 8 =
      status.toBitVec.toNat % 2 ^ 8 ||| word.toBitVec.toNat % 2 ^ 8 := Nat.or_mod_two_pow
  rw [exit_eq_mod, exit_eq_mod, Int32.toBitVec_or, BitVec.toNat_or]
  simp_all

/-- **`&`.**  Of the two statuses only the low byte of the right one counts. -/
theorem waitpid_or_eq_zero_iff (left right : Int32) :
    waitpid (exit (right ||| waitpid (exit left))) = 0 ↔ exit right = 0 := by
  rw [waitpid_exit_eq_zero, exit_or_of_exit_eq_zero (exit_waitpid_exit left)]

/-! ### Shifted statuses -/

/-- The status that a command has comes from `waitpid`, where `ok` says which simple commands
    succeed. -/
def shifted (ok : α → Bool) : Command α → Bool
  | .simple _ => false
  | .bind .sequential _ cmd2 => shifted ok cmd2
  | .bind .parallel _ _ => true
  | .bind .conditionalZero cmd1 cmd2 =>
    if (reference ok cmd1).succeeds then shifted ok cmd2 else shifted ok cmd1
  | .bind .conditionalNzero cmd1 cmd2 =>
    if (reference ok cmd1).succeeds then shifted ok cmd1 else shifted ok cmd2
  | .bind .pipe _ _ => true

variable {execute : α → Int32}

/-- Below `&`, the low byte of a status is zero if the command succeeds or the status is
    shifted. -/
theorem exit_result_eq_zero_iff (hexecute : ∀ scmd, IsStatus (execute scmd)) {c : Command α}
    (hc : c.Producible) (htight : Operator.parallel.precedence < c.precedence) :
    exit (displayCommand execute c).result = 0 ↔
      (reference (fun scmd => execute scmd = 0) c).succeeds = true ∨
        shifted (fun scmd => execute scmd = 0) c = true := by
  induction c with
  | simple scmd =>
    -- A simple command has a status that `exit` keeps, which is not shifted.
    have hkept := waitpid_exit_eq_zero.symm.trans (waitpid_exit_eq_zero_iff (hexecute scmd))
    simpa [displayCommand, reference, shifted] using hkept
  | bind op cmd1 cmd2 ih1 ih2 =>
    obtain ⟨hprec1, hprec2, hc1, hc2⟩ := hc
    have htight1 := lt_of_lt_of_le htight hprec1
    have hleft := displayCommand_result hexecute hc1 htight1
    have hlow1 := ih1 hc1 htight1
    have hlow2 := ih2 hc2 (htight.trans hprec2)
    cases op with
    | sequential => simp [Command.precedence, Operator.precedence] at htight
    | parallel => simp [Command.precedence] at htight
    | conditionalZero =>
      cases hguard : (reference (fun scmd => execute scmd = 0) cmd1).succeeds with
      | true =>
        have hzero := hleft.mpr hguard
        simp [displayCommand, reference, shifted, hguard, hzero, hlow2]
      | false =>
        rw [hguard] at hleft hlow1
        simp [displayCommand, reference, shifted, hguard, hleft, hlow1]
    | conditionalNzero =>
      cases hguard : (reference (fun scmd => execute scmd = 0) cmd1).succeeds with
      | true =>
        have hzero := hleft.mpr hguard
        -- The right operand is not run, and the status is 0.
        have hlow : exit (displayCommand execute cmd1).result = 0 := hlow1.mpr (.inl hguard)
        rw [hzero] at hlow
        simp [displayCommand, reference, hguard, hzero, hlow]
      | false =>
        rw [hguard] at hleft
        simp [displayCommand, reference, shifted, hguard, hleft, hlow2]
    -- The status of a pipe is always shifted.
    | pipe => simp [displayCommand, shifted, exit_waitpid_exit]

/-! ### The status of a tree -/

/-- The status is zero exactly when the command succeeds. -/
def StatusMeans (execute : α → Int32) (c : Command α) : Prop :=
  (displayCommand execute c).result = 0 ↔
    (reference (fun scmd => execute scmd = 0) c).succeeds = true

/-- In the last command of a sequence, `&` has two operands that succeed, or a right one that fails
    with a status that is not shifted. -/
def Reported (ok : α → Bool) : Command α → Prop
  | .bind .sequential _ cmd2 => Reported ok cmd2
  | .bind .parallel cmd1 cmd2 =>
    if (reference ok cmd2).succeeds then (reference ok cmd1).succeeds = true
    else shifted ok cmd2 = false
  | _ => True

/-- The status of `a & b`. -/
theorem statusMeans_parallel_iff (hexecute : ∀ scmd, IsStatus (execute scmd))
    {cmd1 cmd2 : Command α} (hc2 : cmd2.Producible)
    (hprec2 : Operator.parallel.precedence < cmd2.precedence) :
    StatusMeans execute (.bind .parallel cmd1 cmd2) ↔
      Reported (fun scmd => execute scmd = 0) (.bind .parallel cmd1 cmd2) := by
  have hzero : (displayCommand execute (.bind .parallel cmd1 cmd2)).result = 0 ↔
      (reference (fun scmd => execute scmd = 0) cmd2).succeeds = true ∨
        shifted (fun scmd => execute scmd = 0) cmd2 = true :=
    (waitpid_or_eq_zero_iff _ _).trans (exit_result_eq_zero_iff hexecute hc2 hprec2)
  rw [StatusMeans, hzero]
  cases hright : (reference (fun scmd => execute scmd = 0) cmd2).succeeds with
  | true => simp [reference, Reported, hright]
  | false => simp [reference, Reported, hright]

/-- The status means what it says if the status of the last command is reported, and only then. -/
theorem statusMeans_iff_reported (hexecute : ∀ scmd, IsStatus (execute scmd)) {c : Command α}
    (hc : c.Producible) : StatusMeans execute c ↔ Reported (fun scmd => execute scmd = 0) c := by
  induction c with
  | simple scmd =>
    have htight : Operator.parallel.precedence < (Command.simple scmd).precedence := by
      show 1 < 4
      decide
    exact iff_of_true (displayCommand_result hexecute hc htight) trivial
  | bind op cmd1 cmd2 ih1 ih2 =>
    obtain ⟨hprec1, hprec2, hc1, hc2⟩ := hc
    cases op with
    | sequential => exact ih2 hc2
    | parallel => exact statusMeans_parallel_iff hexecute hc2 hprec2
    | conditionalZero | conditionalNzero | pipe =>
      refine iff_of_true (displayCommand_result hexecute ⟨hprec1, hprec2, hc1, hc2⟩ ?_) trivial
      simp [Command.precedence, Operator.precedence]

/-- **Statuses.**  For every tree of the grammar, with simple commands whose statuses are from -1
    to 255, the status says whether the tree succeeds exactly if the status of its last command is
    reported. -/
theorem displayCommand_statusMeans_iff (execute : α → Int32)
    (hexecute : ∀ scmd, IsStatus (execute scmd)) (c : Command α) (hc : c.Producible) :
    StatusMeans execute c ↔ Reported (fun scmd => execute scmd = 0) c :=
  statusMeans_iff_reported hexecute hc

/-- `true & false`. -/
theorem displayCommand_statusMeans_right :
    StatusMeans (fun scmd : Bool => if scmd then 0 else 1)
      (.bind .parallel (.simple true) (.simple false)) :=
  (displayCommand_statusMeans_iff _
    (by intro scmd; split <;> exact ⟨by decide, by decide⟩)
    (.bind .parallel (.simple true) (.simple false)) (by decide)).mpr rfl

/-- `false & true` has the status 0. -/
theorem not_displayCommand_statusMeans :
    ¬ ∀ execute : Bool → Int32, (∀ scmd, IsStatus (execute scmd)) →
      ∀ c : Command Bool, c.Producible → StatusMeans execute c := by
  intro h
  have hstatus := h (fun scmd => if scmd then 0 else 1)
    (by intro scmd; split <;> exact ⟨by decide, by decide⟩)
    (.bind .parallel (.simple false) (.simple true)) (by decide)
  exact absurd (hstatus.mp (by decide)) (by decide)

end WorkAtUPB.MiniShell

import WorkAtUPB.MiniShell.TreeTraveler

namespace WorkAtUPB.MiniShell

/-!
# What a command tree runs

The shell decides by statuses that have been through `exit` and `waitpid`, where 256 and its
multiples become 0.  The grammar keeps such a status from being truncated again: the operand whose
status a pipe passes on is a simple command, and `&` is never an operand of `&&` or `||`.

* `reference` — what a tree means: which simple commands it runs, and whether it succeeds;
* `displayCommand_result` — below `&`, a status is zero exactly when the command succeeds;
* `displayCommand_ran` — every tree of the grammar runs what it means.
-/

variable {α : Type*}

/-- Whether a command succeeds, and the simple commands that it runs. -/
structure Meaning (α : Type*) where
  succeeds : Bool
  runs : Multiset α

/-- The meaning of a command, where `ok` says which simple commands succeed. -/
def reference (ok : α → Bool) : Command α → Meaning α
  | .simple scmd => ⟨ok scmd, {scmd}⟩
  | .bind .sequential cmd1 cmd2 =>
    let left := reference ok cmd1
    let right := reference ok cmd2
    ⟨right.succeeds, left.runs + right.runs⟩
  | .bind .parallel cmd1 cmd2 =>
    let left := reference ok cmd1
    let right := reference ok cmd2
    ⟨left.succeeds && right.succeeds, left.runs + right.runs⟩
  | .bind .conditionalZero cmd1 cmd2 =>
    let left := reference ok cmd1
    let right := reference ok cmd2
    ⟨left.succeeds && right.succeeds,
      if left.succeeds then left.runs + right.runs else left.runs⟩
  | .bind .conditionalNzero cmd1 cmd2 =>
    let left := reference ok cmd1
    let right := reference ok cmd2
    ⟨left.succeeds || right.succeeds,
      if left.succeeds then left.runs else left.runs + right.runs⟩
  | .bind .pipe cmd1 cmd2 =>
    let left := reference ok cmd1
    let right := reference ok cmd2
    ⟨right.succeeds, left.runs + right.runs⟩

/-- The simple commands of a tree. -/
def Command.leaves : Command α → Multiset α
  | .simple scmd => {scmd}
  | .bind _ cmd1 cmd2 => cmd1.leaves + cmd2.leaves

/-- No simple command runs more often than it stands in the tree. -/
theorem reference_runs_le (ok : α → Bool) (c : Command α) : (reference ok c).runs ≤ c.leaves := by
  induction c with
  | simple scmd => exact le_rfl
  | bind op cmd1 cmd2 ih1 ih2 =>
    have hboth := add_le_add ih1 ih2
    have hleft : (reference ok cmd1).runs ≤ cmd1.leaves + cmd2.leaves :=
      ih1.trans (Multiset.le_add_right _ _)
    cases op with
    | sequential | parallel | pipe => exact hboth
    | conditionalZero =>
      simp only [reference, Command.leaves]
      split <;> assumption
    | conditionalNzero =>
      simp only [reference, Command.leaves]
      split <;> assumption

/-! ### Statuses below `&` -/

/-- A status of a simple command survives `exit` and `waitpid` as zero or not zero. -/
theorem waitpid_exit_eq_zero_iff {status : Int32} (h : IsStatus status) :
    waitpid (exit status) = 0 ↔ status = 0 := by
  obtain ⟨hlo, hhi⟩ := h
  rw [← Int32.toInt_inj, ← Int32.toInt_inj, waitpid, exit,
    Int32.toInt_ofInt_of_le (by omega) (by omega), Int32.toInt_zero]
  omega

variable {execute : α → Int32}

/-- What binds more tightly than a pipe is a simple command. -/
theorem Command.eq_simple {c : Command α} (h : Operator.pipe.precedence < c.precedence) :
    ∃ scmd, c = .simple scmd := by
  cases c with
  | simple scmd => exact ⟨scmd, rfl⟩
  | bind op cmd1 cmd2 =>
    cases op <;> simp only [Command.precedence, Operator.precedence] at h <;> omega

/-- Commands without `;` and `&` have the status zero exactly when they succeed. -/
theorem displayCommand_result (hexecute : ∀ scmd, IsStatus (execute scmd)) {c : Command α}
    (hc : c.Producible) (htight : Operator.parallel.precedence < c.precedence) :
    (displayCommand execute c).result = 0 ↔
      (reference (fun scmd => execute scmd = 0) c).succeeds = true := by
  induction c with
  | simple scmd => exact (decide_eq_true_iff).symm
  | bind op cmd1 cmd2 ih1 ih2 =>
    obtain ⟨hprec1, hprec2, hc1, hc2⟩ := hc
    have htight1 := ih1 hc1 (lt_of_lt_of_le htight hprec1)
    have htight2 := ih2 hc2 (htight.trans hprec2)
    cases op with
    | sequential => simp [Command.precedence, Operator.precedence] at htight
    | parallel => simp [Command.precedence] at htight
    | conditionalZero =>
      simp only [displayCommand, reference, Bool.and_eq_true, ← htight1, ← htight2]
      by_cases hleft : (displayCommand execute cmd1).result = 0
      · rw [if_pos hleft, and_iff_right hleft]
      · rw [if_neg hleft]
        exact iff_of_false hleft fun h => hleft h.1
    | conditionalNzero =>
      simp only [displayCommand, reference, Bool.or_eq_true, ← htight1, ← htight2]
      by_cases hleft : (displayCommand execute cmd1).result = 0
      · rw [if_neg (not_not.mpr hleft), or_iff_left_of_imp fun _ => hleft]
      · rw [if_pos hleft, or_iff_right hleft]
    | pipe =>
      -- The last command of a pipe is a simple one.
      obtain ⟨scmd, rfl⟩ := Command.eq_simple hprec2
      exact (waitpid_exit_eq_zero_iff (hexecute scmd)).trans htight2

/-- **Control flow.**  Every tree of the grammar, with simple commands whose statuses are from -1
    to 255, runs the simple commands that the reference semantics runs, each as often as it does,
    and none more often than it stands in the tree. -/
theorem displayCommand_ran (execute : α → Int32) (hexecute : ∀ scmd, IsStatus (execute scmd))
    (c : Command α) (hc : c.Producible) :
    (displayCommand execute c).ran = (reference (fun scmd => execute scmd = 0) c).runs ∧
      (displayCommand execute c).ran ≤ c.leaves := by
  have hran : (displayCommand execute c).ran =
      (reference (fun scmd => execute scmd = 0) c).runs := by
    induction c with
    | simple scmd => rfl
    | bind op cmd1 cmd2 ih1 ih2 =>
      obtain ⟨hprec1, hprec2, hc1, hc2⟩ := hc
      have hboth := congrArg₂ (· + ·) (ih1 hc1) (ih2 hc2)
      cases op with
      | sequential | parallel | pipe => exact hboth
      | conditionalZero =>
        -- The left operand stands below `&`, where a status says what it is to say.
        have hguard := displayCommand_result hexecute hc1
          (lt_of_lt_of_le (by decide) hprec1)
        simp only [displayCommand, reference, ← hguard]
        split
        · exact hboth
        · exact ih1 hc1
      | conditionalNzero =>
        have hguard := displayCommand_result hexecute hc1
          (lt_of_lt_of_le (by decide) hprec1)
        simp only [displayCommand, reference, ← hguard, ite_not]
        split
        · exact ih1 hc1
        · exact hboth
  exact ⟨hran, hran ▸ reference_runs_le _ c⟩

/-- `a | b && c`, where `b` fails with the status -1, runs `a` and `b`. -/
theorem displayCommand_ran_pipe :
    (displayCommand (fun scmd : Nat => if scmd = 1 then -1 else 0)
      (.bind .conditionalZero (.bind .pipe (.simple 0) (.simple 1)) (.simple 2))).ran =
      {0, 1} :=
  (displayCommand_ran _ (by intro scmd; split <;> exact ⟨by decide, by decide⟩)
    (.bind .conditionalZero (.bind .pipe (.simple 0) (.simple 1)) (.simple 2))
    (by decide)).1.trans (by decide)

end WorkAtUPB.MiniShell

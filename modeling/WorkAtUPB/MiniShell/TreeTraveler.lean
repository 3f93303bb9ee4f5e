import Mathlib.Algebra.Order.Group.Multiset
import Mathlib.Data.List.Basic

namespace WorkAtUPB.MiniShell

/-!
# MiniShellLinux — running a command tree (`tema1_mini_shell.cpp`, `parser.h`)

* `Command`, `Producible` — the trees, and those that the grammar produces;
* `executeSimpleCommand` — the status of a simple command;
* `displayCommand` — the status of a tree, and the simple commands that were run for it.

A status goes from a process to its parent through `exit` and `waitpid`.  What runs in a child
counts as run for the tree; `fork`, `pipe` and `waitpid` succeed.
-/

/-- `operator_t`, without `OP_NONE` and `OP_DUMMY`. -/
inductive Operator where
  | sequential
  | parallel
  | conditionalZero
  | conditionalNzero
  | pipe
  deriving DecidableEq, Repr

/-- `command_t`: `OP_NONE` with a simple command, or an operator with two commands. -/
inductive Command (α : Type*) where
  | simple (scmd : α)
  | bind (op : Operator) (cmd1 cmd2 : Command α)
  deriving DecidableEq, Repr

/-! ### The grammar -/

/-- How tightly an operator binds. -/
def Operator.precedence : Operator → Nat
  | .sequential => 0
  | .parallel => 1
  | .conditionalZero => 2
  | .conditionalNzero => 2
  | .pipe => 3

/-- How tightly the outermost operator of a command binds; a simple command is held together by
    none. -/
def Command.precedence {α : Type*} : Command α → Nat
  | .simple _ => 4
  | .bind op _ _ => op.precedence

/-- The trees that the grammar produces: operators associate to the left, so the left operand
    binds at least as tightly as the operator and the right one more tightly. -/
def Command.Producible {α : Type*} : Command α → Prop
  | .simple _ => True
  | .bind op cmd1 cmd2 =>
    op.precedence ≤ cmd1.precedence ∧ op.precedence < cmd2.precedence ∧
      cmd1.Producible ∧ cmd2.Producible

instance Command.decidableProducible {α : Type*} : (c : Command α) → Decidable c.Producible
  | .simple _ => inferInstanceAs (Decidable True)
  | .bind op cmd1 cmd2 =>
    have := cmd1.decidableProducible
    have := cmd2.decidableProducible
    inferInstanceAs (Decidable (op.precedence ≤ cmd1.precedence ∧
      op.precedence < cmd2.precedence ∧ cmd1.Producible ∧ cmd2.Producible))

/-! ### Statuses -/

/-- `exit`: the parent sees the status modulo 256. -/
def exit (status : Int32) : Int := status.toInt % 256

/-- `waitpid`: the status word of a child that has exited. -/
def waitpid (code : Int) : Int32 := Int32.ofInt (code * 256)

/-- `WIFEXITED`. -/
def WIFEXITED (status : Int32) : Bool := status &&& 0x7f == 0

/-- `WEXITSTATUS`. -/
def WEXITSTATUS (status : Int32) : Int := status.toInt / 256 % 256

/-- What the system answers while a simple command is run: `chdir` and `setenv` with 0 or -1, and
    the status word of the child. -/
structure Answers where
  chdir : Int32
  setenv : Int32
  status : Int32
  deriving DecidableEq, Repr

/-- `execute_simple_command`, for the command word `load`, where `size_t` is no wider than the
    `unsigned int` `pos`. -/
def executeSimpleCommand (load : String) (answers : Answers) : Int32 :=
  if load = "cd" then answers.chdir
  else if load = "true" then 0
  else if load = "false" then 1
  else if '=' ∈ load.toList then answers.setenv
  else if WIFEXITED answers.status then Int32.ofInt (WEXITSTATUS answers.status)
  else -1

/-- The statuses of simple commands. -/
def IsStatus (status : Int32) : Prop := -1 ≤ status.toInt ∧ status.toInt ≤ 255

/-- A simple command has a status from -1 to 255. -/
theorem executeSimpleCommand_isStatus (load : String) {answers : Answers}
    (hchdir : answers.chdir = 0 ∨ answers.chdir = -1)
    (hsetenv : answers.setenv = 0 ∨ answers.setenv = -1) :
    IsStatus (executeSimpleCommand load answers) := by
  have hanswer : ∀ status : Int32, status = 0 ∨ status = -1 → IsStatus status := by
    rintro status (rfl | rfl)
    · exact ⟨by decide, by decide⟩
    · exact ⟨by decide, by decide⟩
  unfold executeSimpleCommand
  split
  · exact hanswer _ hchdir
  split
  · exact ⟨by decide, by decide⟩
  split
  · exact ⟨by decide, by decide⟩
  split
  · exact hanswer _ hsetenv
  split
  · rw [IsStatus, WEXITSTATUS, Int32.toInt_ofInt_of_le (by omega) (by omega)]
    omega
  · exact ⟨by decide, by decide⟩

/-! ### Running a tree -/

variable {α : Type*}

/-- The status of a command, and the simple commands run for it by this process and its
    descendants. -/
structure Outcome (α : Type*) where
  result : Int32
  ran : Multiset α

/-- `display_command`; `execute` is the status that each simple command has. -/
def displayCommand (execute : α → Int32) : Command α → Outcome α
  | .simple scmd => ⟨execute scmd, {scmd}⟩
  | .bind .sequential cmd1 cmd2 =>
    let left := displayCommand execute cmd1
    let right := displayCommand execute cmd2
    ⟨right.result, left.ran + right.ran⟩
  | .bind .parallel cmd1 cmd2 =>
    -- the child runs `cmd2`, and its own child `cmd1`
    let left := displayCommand execute cmd1
    let right := displayCommand execute cmd2
    let status2 := waitpid (exit left.result)
    let status1 := waitpid (exit (right.result ||| status2))
    ⟨status1, left.ran + right.ran⟩
  | .bind .conditionalZero cmd1 cmd2 =>
    let left := displayCommand execute cmd1
    if left.result = 0 then
      let right := displayCommand execute cmd2
      ⟨right.result, left.ran + right.ran⟩
    else left
  | .bind .conditionalNzero cmd1 cmd2 =>
    let left := displayCommand execute cmd1
    if left.result ≠ 0 then
      let right := displayCommand execute cmd2
      ⟨right.result, left.ran + right.ran⟩
    else left
  | .bind .pipe cmd1 cmd2 =>
    -- as for `parallel`, but nobody waits for `cmd1`
    let left := displayCommand execute cmd1
    let right := displayCommand execute cmd2
    let status1 := waitpid (exit right.result)
    ⟨status1, left.ran + right.ran⟩

end WorkAtUPB.MiniShell

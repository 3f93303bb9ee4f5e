import Mathlib.Data.Multiset.MapFold
import WorkAtUPB.Lib.Descriptors
import WorkAtUPB.MiniShell.TreeTraveler

namespace WorkAtUPB.MiniShell

open Descriptors

/-!
# MiniShellLinux — the processes of a command tree (`tema1_mini_shell.cpp`)

`TreeTraveler` has the statuses of a tree.  Here it is run by processes, each with its environment,
its working directory and its descriptors:

* `Process`, `SimpleCommand` — a process, and a simple command with the words of its redirections;
* `displaySimple` — the words of a simple command, with the variables of the process;
* `executeSimple` — `execute_simple_command`, with the descriptors of the child;
* `Process.displayCommand` — the tree, with the child processes of `&` and `|`;
* `mainLoop` — the lines of a session.

`fork`, `pipe` and `waitpid` succeed, there is memory for `setenv`, and a command has fewer than 99
parameters.  A `size_t` is no wider than an `unsigned int`, as where both have 32 bits: `find` is
compared with `npos` through the `unsigned int` `pos`, and where a `size_t` is wider every word that
is no builtin would pass for an assignment.
-/

/-! ### Processes -/

/-- The operand of an operator. -/
inductive Side where
  | left
  | right
  deriving DecidableEq, Repr

/-- A place in a tree, from its root. -/
abbrev Path := List Side

/-- How a file is opened: `O_RDONLY`, or `O_CREAT | O_WRONLY` with `O_TRUNC` or `O_APPEND`. -/
inductive Mode where
  | read
  | truncate
  | append
  deriving DecidableEq, Repr

/-- What a descriptor stands for: what the shell has been started with, an end of the pipe that was
    made for a place of the tree, or a file that was opened in a directory. -/
inductive Description where
  | inherited (fd : Nat)
  | pipeRead (path : Path)
  | pipeWrite (path : Path)
  | file (cwd name : String) (mode : Mode)
  deriving DecidableEq, Repr

/-- The environment, the working directory and the descriptors of a process. -/
structure Process where
  env : String → Option String
  cwd : String
  fds : Table Description

/-- A process that was started for a tree: a child of the shell that goes on with an operand, or one
    that calls `execvp`. -/
inductive Started where
  | shell (path : Path) (process : Process)
  | program (path : Path) (args : List String) (process : Process)

/-- The place of the operand that the process stands for. -/
def Started.path : Started → Path
  | .shell path _ | .program path _ _ => path

/-- The descriptors of the process. -/
def Started.fds : Started → Table Description
  | .shell _ process | .program _ _ process => process.fds

/-- What the system answers to the simple command at a place: the directory for `chdir`, whether a
    file can be opened, and the status word of the program, if `execvp` finds it. -/
structure Replies where
  chdir : String → Option String
  canOpen : String → Mode → Bool
  program : List String → Option Int32

/-! ### Words -/

/-- A part of `word_t`. -/
structure Part where
  string : String
  expand : Bool
  deriving DecidableEq, Repr

/-- `simple_command_t` -/
structure SimpleCommand where
  verb : List (List Part)
  params : List (List Part)
  input : List (List Part)
  out : List (List Part)
  err : List (List Part)
  ioFlags : Nat
  deriving DecidableEq, Repr

/-- `MyInternalCommand` -/
structure MyInternalCommand where
  command : List (List String)
  params : List (List String)
  input : List (List String)
  out : List (List String)
  err : List (List String)
  ioFlags : Nat
  deriving DecidableEq, Repr

/-- `IO_OUT_APPEND`. -/
def IO_OUT_APPEND : Nat := 0x01

/-- `IO_ERR_APPEND`. -/
def IO_ERR_APPEND : Nat := 0x02

/-- `display_word` -/
def displayWord (env : String → Option String) (w : List Part) : List String :=
  w.map fun part => if part.expand then (env part.string).getD "" else part.string

/-- `display_list` -/
def displayList (env : String → Option String) (w : List (List Part)) : List (List String) :=
  w.map (displayWord env)

/-- `display_simple` -/
def displaySimple (env : String → Option String) (s : SimpleCommand) : MyInternalCommand where
  command := displayList env s.verb
  params := displayList env s.params
  input := displayList env s.input
  out := displayList env s.out
  err := displayList env s.err
  ioFlags := s.ioFlags

/-- `flatten`, for a list of words. -/
def flatten (data : List (List String)) : List String := data.map String.join

/-! ### Simple commands -/

/-- `redirect`; the process calls `exit(1)` if there is no table. -/
def redirect (fds : Table Description) (oldfd newfd : Int) : Option (Table Description) :=
  if newfd < 0 then some fds
  else if oldfd < 0 then none
  else dup2 fds oldfd.toNat newfd.toNat

/-- `open` -/
def openFile (replies : Replies) (p : Process) (name : String) (mode : Mode) : Process × Int :=
  if replies.canOpen name mode then
    let (fds, fd) := opened p.fds (.file p.cwd name mode)
    ({ p with fds := fds }, fd)
  else (p, -1)

/-- `open_flag` of a file for output. -/
def openFlag (ioFlags append : Nat) : Mode :=
  if ioFlags &&& append = 0 then .truncate else .append

/-- The redirection of standard input in a child, or `none` where it calls `exit(1)`. -/
def redirectStdin (replies : Replies) (p : Process) (input : String) : Option Process :=
  if input ≠ "" then
    let (q, fd) := openFile replies p input .read
    (redirect q.fds fd 0).map fun fds => { q with fds := fds }
  else some p

/-- The redirection of standard output, and `fdout`. -/
def redirectStdout (replies : Replies) (p : Process) (out : String) (ioFlags : Nat) :
    Option (Process × Int) :=
  if out ≠ "" then
    let (q, fdout) := openFile replies p out (openFlag ioFlags IO_OUT_APPEND)
    (redirect q.fds fdout 1).map fun fds => ({ q with fds := fds }, fdout)
  else some (p, -1)

/-- The redirection of standard error. -/
def redirectStderr (replies : Replies) (p : Process) (fdout : Int) (out err : String)
    (ioFlags : Nat) : Option Process :=
  if err ≠ "" then
    let (q, fderr) := if err = out then (p, fdout)
      else openFile replies p err (openFlag ioFlags IO_ERR_APPEND)
    (redirect q.fds fderr 2).map fun fds => { q with fds := fds }
  else some p

/-- The redirections of a child. -/
def redirections (replies : Replies) (p : Process) (com : MyInternalCommand) : Option Process := do
  let input := String.join (flatten com.input)
  let out := String.join (flatten com.out)
  let err := String.join (flatten com.err)
  let p ← redirectStdin replies p input
  let (p, fdout) ← redirectStdout replies p out com.ioFlags
  redirectStderr replies p fdout out err com.ioFlags

/-- The status of a command, the process afterwards, and the processes that were started for it. -/
structure Shell where
  result : Int32
  process : Process
  started : Multiset Started

/-- `execute_simple_command` -/
def executeSimple (replies : Replies) (path : Path) (p : Process) (com : MyInternalCommand) :
    Shell :=
  let load := String.join (flatten com.command)
  let params := flatten com.params
  if load = "cd" then
    match replies.chdir (String.join params) with
    | some cwd => ⟨0, { p with cwd := cwd }, 0⟩
    | none => ⟨-1, p, 0⟩
  else if load = "true" then ⟨0, p, 0⟩
  else if load = "false" then ⟨1, p, 0⟩
  else if '=' ∈ load.toList then
    let name := String.ofList (load.toList.takeWhile (· ≠ '='))
    let value := String.ofList ((load.toList.dropWhile (· ≠ '=')).drop 1)
    -- `setenv` does not take an empty name.
    if name = "" then ⟨-1, p, 0⟩
    else ⟨0, { p with env := Function.update p.env name (some value) }, 0⟩
  else
    let (status, started) := match redirections replies p com with
      | none => (waitpid (exit 1), 0)
      | some child =>
        let args := load :: params
        ((replies.program args).getD (waitpid (exit (-1))), {.program path args child})
    ⟨if WIFEXITED status then Int32.ofInt (WEXITSTATUS status) else -1, p, started⟩

/-! ### Trees -/

/-- The descriptors of the child that runs the left operand of a pipe, or `none` for `exit(1)`. -/
def pipeLeft (fds : Table Description) (path : Path) : Option (Table Description) :=
  let (fds, fds0) := opened fds (.pipeRead path)
  let (fds, fds1) := opened fds (.pipeWrite path)
  (redirect (close fds fds0) fds1 1).map fun fds => close fds fds1

/-- Those of the child that runs the right operand. -/
def pipeRight (fds : Table Description) (path : Path) : Option (Table Description) :=
  let (fds, fds0) := opened fds (.pipeRead path)
  let (fds, fds1) := opened fds (.pipeWrite path)
  (redirect (close fds fds1) fds0 0).map fun fds => close fds fds0

/-- `display_command`, for the command at a place of the tree. -/
def Process.displayCommand (replies : Path → Replies) (path : Path) :
    Command SimpleCommand → Process → Shell
  | .simple scmd, p => executeSimple (replies path) path p (displaySimple p.env scmd)
  | .bind .sequential cmd1 cmd2, p =>
    let left := displayCommand replies (path ++ [.left]) cmd1 p
    let right := displayCommand replies (path ++ [.right]) cmd2 left.process
    ⟨right.result, right.process, left.started + right.started⟩
  | .bind .parallel cmd1 cmd2, p =>
    let left := displayCommand replies (path ++ [.left]) cmd1 p
    let right := displayCommand replies (path ++ [.right]) cmd2 p
    let status2 := waitpid (exit left.result)
    let status1 := waitpid (exit (right.result ||| status2))
    ⟨status1, p, {.shell (path ++ [.left]) p, .shell (path ++ [.right]) p} +
      (left.started + right.started)⟩
  | .bind .conditionalZero cmd1 cmd2, p =>
    let left := displayCommand replies (path ++ [.left]) cmd1 p
    if left.result = 0 then
      let right := displayCommand replies (path ++ [.right]) cmd2 left.process
      ⟨right.result, right.process, left.started + right.started⟩
    else left
  | .bind .conditionalNzero cmd1 cmd2, p =>
    let left := displayCommand replies (path ++ [.left]) cmd1 p
    if left.result ≠ 0 then
      let right := displayCommand replies (path ++ [.right]) cmd2 left.process
      ⟨right.result, right.process, left.started + right.started⟩
    else left
  | .bind .pipe cmd1 cmd2, p =>
    let startedLeft := match pipeLeft p.fds path with
      | none => 0
      | some fds =>
        let child : Process := { p with fds := fds }
        {.shell (path ++ [.left]) child} +
          (displayCommand replies (path ++ [.left]) cmd1 child).started
    let (result, startedRight) := match pipeRight p.fds path with
      | none => (1, 0)
      | some fds =>
        let child : Process := { p with fds := fds }
        let right := displayCommand replies (path ++ [.right]) cmd2 child
        (right.result, {.shell (path ++ [.right]) child} + right.started)
    ⟨waitpid (exit result), p, startedLeft + startedRight⟩

/-! ### Sessions -/

/-- A tree that `parse_line` gives. -/
abbrev Tree := { root : Command SimpleCommand // root.Producible }

/-- What a line is for `main`: `exit` or `quit`, a parse error, an empty line or a tree. -/
inductive Line where
  | quit
  | parseError
  | empty
  | command (root : Tree)

/-- The loop of `main` from the `n`-th tree on, with what becomes of each tree. -/
def mainLoop (replies : Nat → Path → Replies) (n : Nat) (p : Process) : List Line → List Shell
  | [] => []
  | .quit :: _ => []
  | .parseError :: lines => mainLoop replies n p lines
  | .empty :: lines => mainLoop replies n p lines
  | .command root :: lines =>
    let shell := Process.displayCommand (replies n) [] root.1 p
    shell :: mainLoop replies (n + 1) shell.process lines

/-- The shell as it is started: with three descriptors. -/
def Process.start (env : String → Option String) (cwd : String) : Process :=
  ⟨env, cwd, [some (.inherited 0), some (.inherited 1), some (.inherited 2)]⟩

end WorkAtUPB.MiniShell

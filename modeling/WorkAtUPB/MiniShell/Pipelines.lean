import WorkAtUPB.MiniShell.Processes

namespace WorkAtUPB.MiniShell

open Descriptors

/-!
# What the processes of a command tree have

A command is run in a context: an environment, a directory and three streams.  The operands of `|`
get its pipe for one stream, those of `&` and `|` change no other context than their own, and a
redirection replaces a stream.

* `Context`, `effect` — what a tree means in a context: its operators go by what succeeds;
* `Carries` — the descriptors of a process are the three streams and, beyond them, files;
* `executeSimple_has`, `holds_pipeLeft`, `holds_pipeRight` — the processes of a simple command and
  of a pipe have the contexts that are meant;
* `effect_rightly` — an end of a pipe is held only for the operand on its side.
-/

/-! ### Contexts -/

/-- What a command is run with. -/
structure Context where
  env : String → Option String
  cwd : String
  stdin : Description
  stdout : Description
  stderr : Description

/-- The streams, as descriptors 0, 1 and 2. -/
def Context.streams (ctx : Context) : List Description := [ctx.stdin, ctx.stdout, ctx.stderr]

/-- A part of the shell or a program, and its context. -/
inductive Run where
  | shell (path : Path) (context : Context)
  | program (path : Path) (args : List String) (context : Context)

/-- The place of the operand. -/
def Run.path : Run → Path
  | .shell path _ | .program path _ _ => path

/-- The context that it runs in. -/
def Run.context : Run → Context
  | .shell _ context | .program _ _ context => context

/-- Whether a command succeeds, the context that it leaves, and what runs for it. -/
structure Effect where
  succeeds : Bool
  context : Context
  ran : Multiset Run

/-- A file, if it can be opened. -/
def Context.openStream (ctx : Context) (replies : Replies) (name : String) (mode : Mode) :
    Option Description :=
  if replies.canOpen name mode then some (.file ctx.cwd name mode) else none

/-- The streams of a simple command: named files, opened one after the other, replace the streams,
    and standard error is standard output if both have the same name. -/
def Context.redirected (ctx : Context) (replies : Replies) (com : MyInternalCommand) :
    Option Context := do
  let input := String.join (flatten com.input)
  let out := String.join (flatten com.out)
  let err := String.join (flatten com.err)
  let stdin ← (if input = "" then some ctx.stdin else ctx.openStream replies input .read)
  let stdout ← (if out = "" then some ctx.stdout
    else ctx.openStream replies out (openFlag com.ioFlags IO_OUT_APPEND))
  let stderr ← (if err = "" then some ctx.stderr
    else if err = out then some stdout
    else ctx.openStream replies err (openFlag com.ioFlags IO_ERR_APPEND))
  some { ctx with stdin := stdin, stdout := stdout, stderr := stderr }

/-- A simple command in a context; a program succeeds if it exits with the status 0. -/
def simpleEffect (replies : Replies) (path : Path) (ctx : Context) (com : MyInternalCommand) :
    Effect :=
  let load := String.join (flatten com.command)
  let params := flatten com.params
  if load = "cd" then
    match replies.chdir (String.join params) with
    | some cwd => ⟨true, { ctx with cwd := cwd }, 0⟩
    | none => ⟨false, ctx, 0⟩
  else if load = "true" then ⟨true, ctx, 0⟩
  else if load = "false" then ⟨false, ctx, 0⟩
  else if '=' ∈ load.toList then
    let name := String.ofList (load.toList.takeWhile (· ≠ '='))
    let value := String.ofList ((load.toList.dropWhile (· ≠ '=')).drop 1)
    if name = "" then ⟨false, ctx, 0⟩
    else ⟨true, { ctx with env := Function.update ctx.env name (some value) }, 0⟩
  else
    match ctx.redirected replies com with
    | none => ⟨false, ctx, 0⟩
    | some child =>
      let args := load :: params
      match replies.program args with
      | none => ⟨false, ctx, {.program path args child}⟩
      | some status =>
        ⟨WIFEXITED status && WEXITSTATUS status == 0, ctx, {.program path args child}⟩

/-- What a tree means in a context. -/
def effect (replies : Path → Replies) (path : Path) : Command SimpleCommand → Context → Effect
  | .simple scmd, ctx => simpleEffect (replies path) path ctx (displaySimple ctx.env scmd)
  | .bind .sequential cmd1 cmd2, ctx =>
    let left := effect replies (path ++ [.left]) cmd1 ctx
    let right := effect replies (path ++ [.right]) cmd2 left.context
    ⟨right.succeeds, right.context, left.ran + right.ran⟩
  | .bind .parallel cmd1 cmd2, ctx =>
    let left := effect replies (path ++ [.left]) cmd1 ctx
    let right := effect replies (path ++ [.right]) cmd2 ctx
    ⟨left.succeeds && right.succeeds, ctx,
      {.shell (path ++ [.left]) ctx, .shell (path ++ [.right]) ctx} + (left.ran + right.ran)⟩
  | .bind .conditionalZero cmd1 cmd2, ctx =>
    let left := effect replies (path ++ [.left]) cmd1 ctx
    if left.succeeds then
      let right := effect replies (path ++ [.right]) cmd2 left.context
      ⟨right.succeeds, right.context, left.ran + right.ran⟩
    else left
  | .bind .conditionalNzero cmd1 cmd2, ctx =>
    let left := effect replies (path ++ [.left]) cmd1 ctx
    if left.succeeds then left
    else
      let right := effect replies (path ++ [.right]) cmd2 left.context
      ⟨right.succeeds, right.context, left.ran + right.ran⟩
  | .bind .pipe cmd1 cmd2, ctx =>
    let writer := { ctx with stdout := .pipeWrite path }
    let reader := { ctx with stdin := .pipeRead path }
    let left := effect replies (path ++ [.left]) cmd1 writer
    let right := effect replies (path ++ [.right]) cmd2 reader
    ⟨right.succeeds, ctx, {.shell (path ++ [.left]) writer} + left.ran +
      ({.shell (path ++ [.right]) reader} + right.ran)⟩

/-! ### The descriptors of a process -/

/-- A file, and no end of a pipe. -/
def Description.IsFile : Description → Prop
  | .file .. => True
  | .inherited _ | .pipeRead _ | .pipeWrite _ => False

/-- The first descriptors are the streams, and the others that are open are files. -/
structure Carries (fds : Table Description) (ds : List Description) : Prop where
  streams : ∀ fd < ds.length, get fds fd = ds[fd]?
  files : ∀ fd, ds.length ≤ fd → ∀ d ∈ get fds fd, d.IsFile

/-- A process of the shell, with its context. -/
structure Process.Has (p : Process) (ctx : Context) : Prop where
  env : p.env = ctx.env
  cwd : p.cwd = ctx.cwd
  fds : Holds p.fds ctx.streams

/-- A program, with its context. -/
structure Process.RunsIn (p : Process) (ctx : Context) : Prop where
  env : p.env = ctx.env
  cwd : p.cwd = ctx.cwd
  fds : Carries p.fds ctx.streams

/-- A process, and what it is there for. -/
inductive Matches : Started → Run → Prop where
  | shell (path : Path) {p : Process} {ctx : Context} (h : p.Has ctx) :
      Matches (.shell path p) (.shell path ctx)
  | program (path : Path) (args : List String) {p : Process} {ctx : Context} (h : p.RunsIn ctx) :
      Matches (.program path args p) (.program path args ctx)

/-- A table without gaps carries its streams. -/
theorem carries_of_holds {fds : Table Description} {ds : List Description} (h : Holds fds ds) :
    Carries fds ds where
  streams := fun fd _ => h fd
  files := fun fd hfd d hd => by
    rw [h, List.getElem?_eq_none hfd] at hd
    cases hd

/-- Streams are below the descriptors that are free. -/
theorem Carries.le_lowest {fds : Table Description} {ds : List Description} (h : Carries fds ds) :
    ds.length ≤ lowest fds := by
  by_contra hlt
  have hfree := get_lowest fds
  rw [h.streams _ (by omega), List.getElem?_eq_getElem (by omega)] at hfree
  cases hfree

/-- A file is opened, beyond the streams. -/
theorem Carries.opened {fds : Table Description} {ds : List Description} (h : Carries fds ds)
    {d : Description} (hd : d.IsFile) :
    Carries (opened fds d).1 ds ∧ get (opened fds d).1 (opened fds d).2 = some d := by
  have hle := h.le_lowest
  refine ⟨⟨fun fd hfd => ?_, fun fd hfd d' hd' => ?_⟩, ?_⟩
  · rw [Descriptors.opened, get_set, if_neg (by omega), h.streams fd hfd]
  · rw [Descriptors.opened, get_set] at hd'
    split at hd'
    · obtain rfl := Option.mem_some.mp hd'
      exact hd
    · exact h.files fd hfd d' hd'
  · rw [Descriptors.opened, get_set, if_pos rfl]

/-- What is open takes the place of a stream. -/
theorem Carries.redirect {fds : Table Description} {ds : List Description} (h : Carries fds ds)
    {fd : Nat} {d : Description} (hfd : get fds fd = some d) {k : Nat} (hk : k < ds.length) :
    ∃ fds', redirect fds fd k = some fds' ∧ Carries fds' (ds.set k d) ∧
      ∀ fd' ≠ k, get fds' fd' = get fds fd' := by
  refine ⟨set fds k (some d), ?_, ⟨fun fd' hfd' => ?_, fun fd' hfd' d' hd' => ?_⟩,
    fun fd' hne => by rw [get_set, if_neg hne]⟩
  · rw [MiniShell.redirect, if_neg (by omega), if_neg (by omega), Int.toNat_natCast,
      Int.toNat_natCast, dup2, hfd]
    rfl
  · rw [List.length_set] at hfd'
    rw [get_set, List.getElem?_set]
    by_cases heq : fd' = k
    · rw [if_pos heq, if_pos heq.symm, if_pos hk]
    · rw [if_neg heq, if_neg (Ne.symm heq), h.streams fd' hfd']
  · rw [List.length_set] at hfd'
    rw [get_set, if_neg (by omega)] at hd'
    exact h.files fd' hfd' d' hd'

/-! ### Redirections -/

/-- Two computations that fail together, one behind the other. -/
theorem rel_bind {α β γ δ : Type*} {r : α → β → Prop} {q : γ → δ → Prop} {a : Option α}
    {b : Option β} {f : α → Option γ} {g : β → Option δ} (h : Option.Rel r a b)
    (hfg : ∀ x y, r x y → Option.Rel q (f x) (g y)) : Option.Rel q (a.bind f) (b.bind g) := by
  cases h with
  | some hxy => exact hfg _ _ hxy
  | none => exact .none

/-- A process in a child that redirects its streams, and the streams so far. -/
structure Redirecting (ctx : Context) (p : Process) (ds : List Description) : Prop where
  env : p.env = ctx.env
  cwd : p.cwd = ctx.cwd
  fds : Carries p.fds ds

variable {ctx : Context} {p : Process} {ds : List Description} {k : Nat}

/-- A file is opened for a stream and takes its place. -/
theorem Redirecting.openFile (h : Redirecting ctx p ds) (replies : Replies) (name : String)
    (mode : Mode) (hk : k < ds.length) :
    Option.Rel
      (fun (q : Process × Int) d =>
        Redirecting ctx q.1 (ds.set k d) ∧ 0 ≤ q.2 ∧ get q.1.fds q.2.toNat = some d)
      ((redirect (openFile replies p name mode).1.fds (openFile replies p name mode).2 k).map
        fun fds => ({ (openFile replies p name mode).1 with fds := fds },
          (openFile replies p name mode).2))
      (ctx.openStream replies name mode) := by
  rw [MiniShell.openFile, Context.openStream, ← h.cwd]
  split
  · obtain ⟨hopened, hget⟩ := h.fds.opened (d := .file p.cwd name mode) trivial
    obtain ⟨fds', hredirect, hcarries, hsame⟩ := hopened.redirect hget hk
    have hle : ds.length ≤ (opened p.fds (.file p.cwd name mode)).2 := h.fds.le_lowest
    simp only [hredirect, Option.map_some]
    refine .some ⟨⟨h.env, h.cwd, hcarries⟩, Int.natCast_nonneg _, ?_⟩
    rw [Int.toNat_natCast, hsame _ (by omega)]
    exact hget
  · rw [redirect, if_neg (by omega), if_pos (show (-1 : Int) < 0 by decide)]
    exact .none

/-- What is open takes the place of a stream. -/
theorem Redirecting.redirect (h : Redirecting ctx p ds) {fd : Int} (hfd : 0 ≤ fd)
    {d : Description} (hget : get p.fds fd.toNat = some d) (hk : k < ds.length) :
    ∃ fds, redirect p.fds fd k = some fds ∧ Redirecting ctx { p with fds := fds } (ds.set k d) := by
  obtain ⟨fds, hredirect, hcarries, -⟩ := h.fds.redirect hget hk
  rw [Int.toNat_of_nonneg hfd] at hredirect
  exact ⟨fds, hredirect, h.env, h.cwd, hcarries⟩

/-- Two results that stay related. -/
theorem rel_map {α β γ δ : Type*} {r : β → γ → Prop} {q : δ → γ → Prop} {a : Option α}
    {b : Option γ} {f : α → β} {g : α → δ} (h : Option.Rel r (a.map f) b)
    (hq : ∀ x y, r (f x) y → q (g x) y) : Option.Rel q (a.map g) b := by
  cases a with
  | none =>
    cases h
    exact .none
  | some x =>
    cases h with
    | some hxy => exact .some (hq x _ hxy)

variable {stdin stdout stderr : Description}

/-- The child has the input of its context. -/
theorem redirectStdin_rel (h : Redirecting ctx p [stdin, stdout, stderr]) (replies : Replies)
    (input : String) :
    Option.Rel (fun q d => Redirecting ctx q [d, stdout, stderr]) (redirectStdin replies p input)
      (if input = "" then some stdin else ctx.openStream replies input .read) := by
  rw [redirectStdin]
  by_cases hinput : input = ""
  · rw [if_pos hinput, if_neg (not_not.mpr hinput)]
    exact .some h
  · rw [if_neg hinput, if_pos hinput]
    exact rel_map (h.openFile replies input .read (k := 0) (Nat.succ_pos _)) fun _ _ hq => hq.1

/-- The child has the output of its context. -/
theorem redirectStdout_rel (h : Redirecting ctx p [stdin, stdout, stderr]) (replies : Replies)
    (out : String) (ioFlags : Nat) :
    Option.Rel
      (fun (q : Process × Int) d => Redirecting ctx q.1 [stdin, d, stderr] ∧
        (out ≠ "" → 0 ≤ q.2 ∧ get q.1.fds q.2.toNat = some d))
      (redirectStdout replies p out ioFlags)
      (if out = "" then some stdout
        else ctx.openStream replies out (openFlag ioFlags IO_OUT_APPEND)) := by
  rw [redirectStdout]
  by_cases hout : out = ""
  · rw [if_pos hout, if_neg (not_not.mpr hout)]
    exact .some ⟨h, fun hne => absurd hout hne⟩
  · rw [if_neg hout, if_pos hout]
    exact rel_map (h.openFile replies out _ (k := 1) (show 1 < 3 by decide))
      fun _ _ hq => ⟨hq.1, fun _ => hq.2⟩

/-- The child has the error stream of its context. -/
theorem redirectStderr_rel (h : Redirecting ctx p [stdin, stdout, stderr]) (replies : Replies)
    {fdout : Int} {out : String}
    (hout : out ≠ "" → 0 ≤ fdout ∧ get p.fds fdout.toNat = some stdout) (err : String)
    (ioFlags : Nat) :
    Option.Rel (fun q d => Redirecting ctx q [stdin, stdout, d])
      (redirectStderr replies p fdout out err ioFlags)
      (if err = "" then some stderr else if err = out then some stdout
        else ctx.openStream replies err (openFlag ioFlags IO_ERR_APPEND)) := by
  rw [redirectStderr]
  by_cases herr : err = ""
  · rw [if_pos herr, if_neg (not_not.mpr herr)]
    exact .some h
  rw [if_neg herr, if_pos herr]
  by_cases hsame : err = out
  · -- Standard output has been redirected to the same file.
    obtain ⟨hfd, hget⟩ := hout (hsame ▸ herr)
    obtain ⟨fds, hredirect, hredirecting⟩ := h.redirect hfd hget (k := 2) (show 2 < 3 by decide)
    have hredirect' : redirect p.fds fdout 2 = some fds := hredirect
    simp only [if_pos hsame, hredirect', Option.map_some]
    exact .some hredirecting
  · simp only [if_neg hsame]
    exact rel_map (h.openFile replies err _ (k := 2) (show 2 < 3 by decide)) fun _ _ hq => hq.1

/-- The child redirects its streams as the context says, or exits. -/
theorem redirections_rel (h : p.Has ctx) (replies : Replies) (com : MyInternalCommand) :
    Option.Rel Process.RunsIn (redirections replies p com) (ctx.redirected replies com) := by
  have hstart : Redirecting ctx p [ctx.stdin, ctx.stdout, ctx.stderr] :=
    ⟨h.env, h.cwd, carries_of_holds h.fds⟩
  rw [redirections, Context.redirected]
  refine rel_bind (redirectStdin_rel hstart replies _) fun p stdin hin => ?_
  refine rel_bind (redirectStdout_rel hin replies _ _) fun q stdout hout => ?_
  have herr := redirectStderr_rel hout.1 replies hout.2 (String.join (flatten com.err)) com.ioFlags
  have hbind := rel_bind (q := Process.RunsIn) (f := some)
    (g := fun stderr => some { ctx with stdin := stdin, stdout := stdout, stderr := stderr }) herr
    fun q stderr hq => .some ⟨hq.env, hq.cwd, hq.fds⟩
  rwa [Option.bind_fun_some] at hbind

/-! ### The ends of a pipe -/

/-- A redirection to a descriptor that is not negative. -/
theorem redirect_natCast (fds : Table Description) (oldfd newfd : Nat) :
    redirect fds oldfd newfd = dup2 fds oldfd newfd := by
  rw [redirect, if_neg (by omega), if_neg (by omega), Int.toNat_natCast, Int.toNat_natCast]

/-- Both ends of a pipe take the two least descriptors. -/
theorem holds_pipe {fds : Table Description} (h : Holds fds ds) (path : Path) :
    (opened fds (.pipeRead path)).2 = ds.length ∧
    (opened (opened fds (.pipeRead path)).1 (.pipeWrite path)).2 = ds.length + 1 ∧
    Holds (opened (opened fds (.pipeRead path)).1 (.pipeWrite path)).1
      (ds ++ [.pipeRead path, .pipeWrite path]) := by
  obtain ⟨hread, hfirst⟩ := h.opened (.pipeRead path)
  obtain ⟨hwrite, hsecond⟩ := hfirst.opened (.pipeWrite path)
  rw [List.append_assoc] at hsecond
  exact ⟨hread, hwrite.trans List.length_append, hsecond⟩

variable {fds : Table Description}

/-- The child for the left operand has the writing end for standard output, and only that. -/
theorem holds_pipeLeft (h : Holds fds [stdin, stdout, stderr]) (path : Path) :
    ∃ fds', pipeLeft fds path = some fds' ∧ Holds fds' [stdin, .pipeWrite path, stderr] := by
  obtain ⟨hread, hwrite, hpipe⟩ := holds_pipe h path
  obtain ⟨t, hdup, hholds⟩ : ∃ t, dup2 (close _ 3) 4 1 = some t ∧ Holds (close t 4) _ :=
    hpipe.replace (show 1 < 3 by decide) rfl (Or.inr ⟨rfl, rfl⟩)
  refine ⟨close t 4, ?_, hholds⟩
  have hredirect := (redirect_natCast _ 4 1).trans hdup
  simp only [pipeLeft, hread, hwrite]
  exact congrArg (Option.map fun fds => close fds 4) hredirect

/-- The child for the right operand has the reading end for standard input, and only that. -/
theorem holds_pipeRight (h : Holds fds [stdin, stdout, stderr]) (path : Path) :
    ∃ fds', pipeRight fds path = some fds' ∧ Holds fds' [.pipeRead path, stdout, stderr] := by
  obtain ⟨hread, hwrite, hpipe⟩ := holds_pipe h path
  obtain ⟨t, hdup, hholds⟩ : ∃ t, dup2 (close _ 4) 3 0 = some t ∧ Holds (close t 3) _ :=
    hpipe.replace (show 0 < 3 by decide) rfl (Or.inl ⟨rfl, rfl⟩)
  refine ⟨close t 3, ?_, hholds⟩
  have hredirect := (redirect_natCast _ 3 0).trans hdup
  simp only [pipeRight, hread, hwrite]
  exact congrArg (Option.map fun fds => close fds 3) hredirect

/-! ### Simple commands -/

/-- The processes of a command have the contexts of the effect, and the shell keeps its
    descriptors. -/
structure Shell.Has (s : Shell) (fds : Table Description) (e : Effect) : Prop where
  process : s.process.Has e.context
  fds : s.process.fds = fds
  started : Multiset.Rel Matches s.started e.ran

/-- One process, and one of what runs. -/
theorem rel_singleton {s : Started} {r : Run} (h : Matches s r) :
    Multiset.Rel Matches {s} {r} := .cons h .zero

/-- A simple command starts a process with its context, if any. -/
theorem executeSimple_has (h : p.Has ctx) (replies : Replies) (path : Path)
    (com : MyInternalCommand) :
    (executeSimple replies path p com).Has p.fds (simpleEffect replies path ctx com) := by
  have hnothing : ∀ status succeeds, Shell.Has ⟨status, p, 0⟩ p.fds ⟨succeeds, ctx, 0⟩ :=
    fun _ _ => ⟨h, rfl, .zero⟩
  simp only [executeSimple, simpleEffect]
  split
  · -- `cd`
    cases replies.chdir (String.join (flatten com.params)) with
    | none => exact hnothing _ _
    | some cwd => exact ⟨⟨h.env, rfl, h.fds⟩, rfl, .zero⟩
  split
  · exact hnothing _ _
  split
  · exact hnothing _ _
  split
  · -- An assignment.
    split
    · exact hnothing _ _
    · exact ⟨⟨by rw [h.env], h.cwd, h.fds⟩, rfl, .zero⟩
  have hrel := redirections_rel h replies com
  cases hmodel : redirections replies p com with
  | none =>
    rw [hmodel] at hrel
    cases hctx : ctx.redirected replies com with
    | none => exact hnothing _ _
    | some child =>
      rw [hctx] at hrel
      cases hrel
  | some q =>
    rw [hmodel] at hrel
    cases hctx : ctx.redirected replies com with
    | none =>
      rw [hctx] at hrel
      cases hrel
    | some child =>
      rw [hctx] at hrel
      have hruns : q.RunsIn child := by
        cases hrel
        assumption
      cases replies.program (String.join (flatten com.command) :: flatten com.params) with
      | none => exact ⟨h, rfl, rel_singleton (.program _ _ hruns)⟩
      | some status => exact ⟨h, rfl, rel_singleton (.program _ _ hruns)⟩

/-! ### Who holds the ends of a pipe -/

/-- An end of a pipe is held for something in the operand on its side. -/
def Description.Below (q : Path) : Description → Prop
  | .pipeRead path => path ++ [.right] <+: q
  | .pipeWrite path => path ++ [.left] <+: q
  | .inherited _ | .file .. => True

/-- What is below an operand is below the operands around it. -/
theorem Description.Below.mono {d : Description} {q q' : Path} (h : d.Below q) (hq : q <+: q') :
    d.Below q' := by
  cases d with
  | inherited | file => trivial
  | pipeRead | pipeWrite => exact List.IsPrefix.trans h hq

/-- A file is no end of a pipe. -/
theorem Description.IsFile.below {d : Description} (h : d.IsFile) (q : Path) : d.Below q := by
  cases d with
  | file => trivial
  | inherited | pipeRead | pipeWrite => exact h.elim

/-- The streams of the context are held rightly at the place. -/
def Context.Below (ctx : Context) (q : Path) : Prop := ∀ d ∈ ctx.streams, d.Below q

/-- The three streams. -/
theorem Context.below_iff {q : Path} :
    ctx.Below q ↔ ctx.stdin.Below q ∧ ctx.stdout.Below q ∧ ctx.stderr.Below q := by
  simp [Context.Below, Context.streams]

/-- The same for a context. -/
theorem Context.Below.mono {q q' : Path} (h : ctx.Below q) (hq : q <+: q') : ctx.Below q' :=
  fun d hd => (h d hd).mono hq

/-- A stream that is opened is a file. -/
theorem openStream_below {replies : Replies} {name : String} {mode : Mode} {d : Description}
    (hd : ctx.openStream replies name mode = some d) (q : Path) : d.Below q := by
  rw [Context.openStream] at hd
  obtain ⟨-, hd⟩ := Option.ite_none_right_eq_some.mp hd
  obtain rfl := Option.some.inj hd
  trivial

/-- Redirections lead to files. -/
theorem redirected_below {replies : Replies} {com : MyInternalCommand} {child : Context} {q : Path}
    (h : ctx.Below q) (hchild : ctx.redirected replies com = some child) : child.Below q := by
  obtain ⟨hin, hout, herr⟩ := Context.below_iff.mp h
  rw [Context.redirected] at hchild
  obtain ⟨stdin, hstdin, hchild⟩ := Option.bind_eq_some_iff.mp hchild
  obtain ⟨stdout, hstdout, hchild⟩ := Option.bind_eq_some_iff.mp hchild
  obtain ⟨stderr, hstderr, hchild⟩ := Option.bind_eq_some_iff.mp hchild
  obtain rfl := Option.some.inj hchild
  have hstdout' : stdout.Below q := by
    split at hstdout
    · exact Option.some.inj hstdout ▸ hout
    · exact openStream_below hstdout q
  refine Context.below_iff.mpr ⟨?_, hstdout', ?_⟩
  · split at hstdin
    · exact Option.some.inj hstdin ▸ hin
    · exact openStream_below hstdin q
  · split at hstderr
    · exact Option.some.inj hstderr ▸ herr
    split at hstderr
    · exact Option.some.inj hstderr ▸ hstdout'
    · exact openStream_below hstderr q

/-- The streams of the shell stay. -/
theorem simpleEffect_streams (replies : Replies) (path : Path) (com : MyInternalCommand) :
    (simpleEffect replies path ctx com).context.streams = ctx.streams := by
  simp only [simpleEffect]
  repeat' split
  all_goals rfl

/-- A tree leaves the streams as they are. -/
theorem effect_streams (replies : Path → Replies) (c : Command SimpleCommand) (path : Path)
    (ctx : Context) : (effect replies path c ctx).context.streams = ctx.streams := by
  induction c generalizing path ctx with
  | simple scmd => exact simpleEffect_streams (replies path) path _
  | bind op cmd1 cmd2 ih1 ih2 =>
    have hboth := (ih2 (path ++ [.right]) (effect replies (path ++ [.left]) cmd1 ctx).context).trans
      (ih1 (path ++ [.left]) ctx)
    cases op with
    | sequential => exact hboth
    | parallel | pipe => rfl
    | conditionalZero =>
      simp only [effect]
      split
      · exact hboth
      · exact ih1 _ ctx
    | conditionalNzero =>
      simp only [effect]
      split
      · exact ih1 _ ctx
      · exact hboth

/-- What runs for a tree holds the ends of pipes rightly. -/
def Rightly (path : Path) (r : Run) : Prop := path <+: r.path ∧ r.context.Below r.path

/-- What runs rightly below an operand does so in the tree. -/
theorem Rightly.of_append {side : Side} {r : Run} (h : Rightly (path ++ [side]) r) :
    Rightly path r :=
  ⟨(List.prefix_append _ _).trans h.1, h.2⟩

/-- A simple command runs with the pipes around it. -/
theorem simpleEffect_rightly (replies : Replies) (com : MyInternalCommand) (h : ctx.Below path) :
    ∀ r ∈ (simpleEffect replies path ctx com).ran, Rightly path r := by
  have hprogram : ∀ {args : List String} {child : Context} {r : Run}, ctx.redirected replies com =
      some child → r ∈ ({.program path args child} : Multiset Run) → Rightly path r := by
    intro args child r hchild hr
    rw [Multiset.mem_singleton.mp hr]
    exact ⟨List.prefix_rfl, redirected_below h hchild⟩
  intro r hr
  simp only [simpleEffect] at hr
  repeat' split at hr
  all_goals first | exact absurd hr (Multiset.notMem_zero r) | exact hprogram ‹_› hr

/-- So do all commands of a tree. -/
theorem effect_rightly (replies : Path → Replies) (c : Command SimpleCommand) (path : Path)
    (h : ctx.Below path) : ∀ r ∈ (effect replies path c ctx).ran, Rightly path r := by
  induction c generalizing path ctx with
  | simple scmd => exact simpleEffect_rightly (replies path) _ h
  | bind op cmd1 cmd2 ih1 ih2 =>
    -- An operand may hold what its command may.
    have hside : ∀ {side : Side} {ctx' : Context}, ctx'.streams = ctx.streams →
        ctx'.Below (path ++ [side]) := by
      intro side ctx' hstreams d hd
      rw [hstreams] at hd
      exact (h d hd).mono (List.prefix_append _ _)
    have hleft : ∀ r ∈ (effect replies (path ++ [.left]) cmd1 ctx).ran, Rightly path r :=
      fun r hr => (ih1 _ (hside rfl) r hr).of_append
    have hright : ∀ {ctx' : Context}, ctx'.streams = ctx.streams →
        ∀ r ∈ (effect replies (path ++ [.right]) cmd2 ctx').ran, Rightly path r :=
      fun hstreams r hr => (ih2 _ (hside hstreams) r hr).of_append
    have hboth : ∀ r ∈ (effect replies (path ++ [.left]) cmd1 ctx).ran +
        (effect replies (path ++ [.right]) cmd2
          (effect replies (path ++ [.left]) cmd1 ctx).context).ran, Rightly path r := by
      intro r hr
      rcases Multiset.mem_add.mp hr with hr | hr
      · exact hleft r hr
      · exact hright (effect_streams replies cmd1 _ ctx) r hr
    intro r hr
    cases op with
    | sequential => exact hboth r hr
    | parallel =>
      have hshell : ∀ side, Rightly path (.shell (path ++ [side]) ctx) := fun _ =>
        ⟨List.prefix_append _ _, hside rfl⟩
      rcases Multiset.mem_add.mp hr with hr | hr
      · rcases Multiset.mem_cons.mp hr with rfl | hr
        · exact hshell .left
        · rw [Multiset.mem_singleton.mp hr]
          exact hshell .right
      · rcases Multiset.mem_add.mp hr with hr | hr
        · exact hleft r hr
        · exact hright rfl r hr
    | conditionalZero =>
      simp only [effect] at hr
      split at hr
      · exact hboth r hr
      · exact hleft r hr
    | conditionalNzero =>
      simp only [effect] at hr
      split at hr
      · exact hleft r hr
      · exact hboth r hr
    | pipe =>
      -- Either operand gets one end, and the rest of the streams.
      obtain ⟨hin, hout, herr⟩ := Context.below_iff.mp h
      have hwriter : Context.Below { ctx with stdout := .pipeWrite path } (path ++ [.left]) :=
        Context.below_iff.mpr ⟨hin.mono (List.prefix_append _ _), List.prefix_rfl,
          herr.mono (List.prefix_append _ _)⟩
      have hreader : Context.Below { ctx with stdin := .pipeRead path } (path ++ [.right]) :=
        Context.below_iff.mpr ⟨List.prefix_rfl, hout.mono (List.prefix_append _ _),
          herr.mono (List.prefix_append _ _)⟩
      rcases Multiset.mem_add.mp hr with hr | hr
      · rcases Multiset.mem_add.mp hr with hr | hr
        · rw [Multiset.mem_singleton.mp hr]
          exact ⟨List.prefix_append _ _, hwriter⟩
        · exact (ih1 _ hwriter r hr).of_append
      · rcases Multiset.mem_add.mp hr with hr | hr
        · rw [Multiset.mem_singleton.mp hr]
          exact ⟨List.prefix_append _ _, hreader⟩
        · exact (ih2 _ hreader r hr).of_append

/-- Every descriptor of a process is right, if the streams of its context are. -/
theorem Matches.below {s : Started} {r : Run} (h : Matches s r) (hr : r.context.Below r.path)
    (fd : Nat) : ∀ d ∈ get s.fds fd, d.Below s.path := by
  intro d hd
  cases h with
  | shell path h =>
    exact hr d (List.mem_of_getElem? ((h.fds fd).symm.trans hd))
  | program path args h =>
    by_cases hlt : fd < 3
    · exact hr d (List.mem_of_getElem? ((h.fds.streams fd hlt).symm.trans hd))
    · exact (h.fds.files fd (Nat.le_of_not_lt hlt) d hd).below path

end WorkAtUPB.MiniShell

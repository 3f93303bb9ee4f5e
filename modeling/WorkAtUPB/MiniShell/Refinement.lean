import Mathlib.Data.Multiset.Bind
import WorkAtUPB.MiniShell.Status
import WorkAtUPB.MiniShell.Pipelines

namespace WorkAtUPB.MiniShell

open Descriptors

/-!
# The control flow of the processes

In a tree that is run, a simple command stands at a place, in the context that is left by what runs
before it.  Its status is what `execute_simple_command` makes of the answers that the system gives
there:

* `Placed`, `placed` — a tree with the places and the contexts of its simple commands;
* `simpleStatus` — the status of a simple command;
* `displayCommand_has` — the processes of a tree have the contexts that it means, and its status is
  the one of `displayCommand`;
* `effect_programs` — the programs are those of the simple commands that `displayCommand` runs;
* `mainLoop_pipelines`, `mainLoop_follows` — so it is for the trees of a session.
-/

/-! ### Simple commands in their places -/

/-- A simple command, its place and its context. -/
structure Placed where
  path : Path
  context : Context
  command : SimpleCommand

/-- The context of the left operand. -/
def Operator.leftContext (path : Path) (ctx : Context) : Operator → Context
  | .sequential | .parallel | .conditionalZero | .conditionalNzero => ctx
  | .pipe => { ctx with stdout := .pipeWrite path }

/-- The context of the right operand, where the left one leaves `after`. -/
def Operator.rightContext (path : Path) (ctx after : Context) : Operator → Context
  | .sequential | .conditionalZero | .conditionalNzero => after
  | .parallel => ctx
  | .pipe => { ctx with stdin := .pipeRead path }

/-- The tree with the places and the contexts. -/
def placed (replies : Path → Replies) (path : Path) :
    Command SimpleCommand → Context → Command Placed
  | .simple scmd, ctx => .simple ⟨path, ctx, scmd⟩
  | .bind op cmd1 cmd2, ctx =>
    let after := (effect replies (path ++ [.left]) cmd1 ctx).context
    .bind op (placed replies (path ++ [.left]) cmd1 (op.leftContext path ctx))
      (placed replies (path ++ [.right]) cmd2 (op.rightContext path ctx after))

/-- The tree keeps its operators. -/
theorem precedence_placed (replies : Path → Replies) (path : Path) (c : Command SimpleCommand)
    (ctx : Context) : (placed replies path c ctx).precedence = c.precedence := by
  cases c <;> rfl

/-- It stays a tree of the grammar. -/
theorem producible_placed (replies : Path → Replies) (path : Path) {c : Command SimpleCommand}
    (ctx : Context) (hc : c.Producible) : (placed replies path c ctx).Producible := by
  induction c generalizing path ctx with
  | simple scmd => trivial
  | bind op cmd1 cmd2 ih1 ih2 =>
    obtain ⟨hprec1, hprec2, hc1, hc2⟩ := hc
    refine ⟨?_, ?_, ih1 _ _ hc1, ih2 _ _ hc2⟩
    · rwa [precedence_placed]
    · rwa [precedence_placed]

/-- What the system answers to `execute_simple_command`. -/
def Replies.answers (replies : Replies) (ctx : Context) (com : MyInternalCommand) : Answers where
  chdir := if (replies.chdir (String.join (flatten com.params))).isSome then 0 else -1
  setenv :=
    let load := String.join (flatten com.command)
    if String.ofList (load.toList.takeWhile (· ≠ '=')) = "" then -1 else 0
  status :=
    match ctx.redirected replies com with
    | none => waitpid (exit 1)
    | some _ =>
      let args := String.join (flatten com.command) :: flatten com.params
      (replies.program args).getD (waitpid (exit (-1)))

/-- The status of a simple command in a context. -/
def simpleStatus (replies : Replies) (ctx : Context) (com : MyInternalCommand) : Int32 :=
  executeSimpleCommand (String.join (flatten com.command)) (replies.answers ctx com)

/-- The status of a simple command in its place. -/
def Placed.status (replies : Path → Replies) (x : Placed) : Int32 :=
  simpleStatus (replies x.path) x.context (displaySimple x.context.env x.command)

/-- What a simple command means in its place. -/
def Placed.effect (replies : Path → Replies) (x : Placed) : Effect :=
  simpleEffect (replies x.path) x.path x.context (displaySimple x.context.env x.command)

/-- The status of a simple command is one that `execute_simple_command` gives. -/
theorem status_isStatus (replies : Path → Replies) (x : Placed) : IsStatus (x.status replies) := by
  refine executeSimpleCommand_isStatus _ ?_ ?_
  · exact ite_eq_or_eq _ _ _
  · exact (ite_eq_or_eq _ _ _).symm

/-- The status of a child that could not redirect a stream. -/
theorem status_exit_one : (if WIFEXITED (waitpid (exit 1)) = true
    then Int32.ofInt (WEXITSTATUS (waitpid (exit 1))) else -1) = 1 := by decide

/-- The status of a child that could not find its program. -/
theorem status_exit_neg_one : (if WIFEXITED (waitpid (exit (-1))) = true
    then Int32.ofInt (WEXITSTATUS (waitpid (exit (-1)))) else -1) = 255 := by decide

/-- A child has the status zero if it exits with it. -/
theorem status_eq_zero_iff (status : Int32) :
    (if WIFEXITED status = true then Int32.ofInt (WEXITSTATUS status) else -1) = 0 ↔
      (WIFEXITED status && WEXITSTATUS status == 0) = true := by
  cases WIFEXITED status with
  | false => simp
  | true =>
    have hlo : 0 ≤ WEXITSTATUS status := Int.emod_nonneg _ (by decide)
    have hhi : WEXITSTATUS status < 256 := Int.emod_lt_of_pos _ (by decide)
    rw [if_pos rfl, Bool.true_and, beq_iff_eq, ← Int32.toInt_inj,
      Int32.toInt_ofInt_of_le (by omega) (by omega), Int32.toInt_zero]

/-- A simple command succeeds with the status zero. -/
theorem simpleStatus_eq_zero_iff (replies : Replies) (path : Path) (ctx : Context)
    (com : MyInternalCommand) :
    simpleStatus replies ctx com = 0 ↔ (simpleEffect replies path ctx com).succeeds = true := by
  simp only [simpleStatus, executeSimpleCommand, simpleEffect, Replies.answers]
  split
  · cases replies.chdir (String.join (flatten com.params)) <;> simp
  split
  · simp
  split
  · simp
  split
  · split <;> simp
  rcases Option.eq_none_or_eq_some (ctx.redirected replies com) with hctx | ⟨child, hctx⟩
  · simp [hctx, status_exit_one]
  rcases Option.eq_none_or_eq_some
    (replies.program (String.join (flatten com.command) :: flatten com.params)) with h | ⟨status, h⟩
  · simp [hctx, h, status_exit_neg_one]
  · simp only [hctx, h, Option.getD_some]
    exact status_eq_zero_iff status

/-- The process of the shell has this status. -/
theorem executeSimple_result {p : Process} {ctx : Context} (h : p.Has ctx) (replies : Replies)
    (path : Path) (com : MyInternalCommand) :
    (executeSimple replies path p com).result = simpleStatus replies ctx com := by
  simp only [executeSimple, simpleStatus, executeSimpleCommand, Replies.answers]
  split
  · cases replies.chdir (String.join (flatten com.params)) <;> rfl
  split
  · rfl
  split
  · rfl
  split
  · split <;> rfl
  -- The child exits in `redirect` where the context has no such streams.
  have hrel := redirections_rel h replies com
  rcases Option.eq_none_or_eq_some (ctx.redirected replies com) with hctx | ⟨child, hctx⟩
  · have hnone : redirections replies p com = none := by
      rw [hctx] at hrel
      generalize redirections replies p com = child at hrel
      cases hrel
      rfl
    simp only [hctx, hnone]
  · obtain ⟨q, hsome⟩ : ∃ q, redirections replies p com = some q := by
      rw [hctx] at hrel
      generalize redirections replies p com = child at hrel
      cases hrel
      exact ⟨_, rfl⟩
    simp only [hctx, hsome]

/-! ### Trees -/

/-- A tree succeeds if the reference says so. -/
theorem effect_succeeds (replies : Path → Replies) (path : Path) (c : Command SimpleCommand)
    (ctx : Context) :
    (effect replies path c ctx).succeeds =
      (reference (fun x => (x.effect replies).succeeds) (placed replies path c ctx)).succeeds := by
  induction c generalizing path ctx with
  | simple scmd => rfl
  | bind op cmd1 cmd2 ih1 ih2 =>
    cases op with
    | sequential | pipe => exact ih2 _ _
    | parallel => exact congrArg₂ (· && ·) (ih1 _ _) (ih2 _ _)
    | conditionalZero =>
      simp only [effect, placed, reference, Operator.leftContext, Operator.rightContext, ← ih1,
        ← ih2]
      cases h : (effect replies (path ++ [.left]) cmd1 ctx).succeeds <;> simp [h]
    | conditionalNzero =>
      simp only [effect, placed, reference, Operator.leftContext, Operator.rightContext, ← ih1,
        ← ih2]
      cases h : (effect replies (path ++ [.left]) cmd1 ctx).succeeds <;> simp [h]

/-- The simple commands that succeed are those with the status zero. -/
theorem status_eq_zero (replies : Path → Replies) :
    (fun x : Placed => decide (x.status replies = 0)) = fun x => (x.effect replies).succeeds := by
  funext x
  rw [Bool.eq_iff_iff, decide_eq_true_iff]
  exact simpleStatus_eq_zero_iff _ x.path _ _

variable {c : Command SimpleCommand}

/-- Below `&` the status of a tree says whether it succeeds. -/
theorem result_eq_zero_iff (replies : Path → Replies) (path : Path) (ctx : Context)
    (hc : c.Producible) (htight : Operator.parallel.precedence < c.precedence) :
    (displayCommand (Placed.status replies) (placed replies path c ctx)).result = 0 ↔
      (effect replies path c ctx).succeeds = true := by
  rw [← precedence_placed replies path c ctx] at htight
  rw [displayCommand_result (status_isStatus replies) (producible_placed replies path ctx hc)
    htight,
    status_eq_zero, effect_succeeds]

/-- **Processes.**  The processes that a tree of the grammar starts have the contexts that the tree
    means, and the shell itself has the environment and the directory, its old descriptors, and the
    status that `displayCommand` gives. -/
theorem displayCommand_has (replies : Path → Replies) (path : Path) {p : Process} {ctx : Context}
    (h : p.Has ctx) (hc : c.Producible) :
    (Process.displayCommand replies path c p).Has p.fds (effect replies path c ctx) ∧
    (Process.displayCommand replies path c p).result =
      (displayCommand (Placed.status replies) (placed replies path c ctx)).result := by
  induction c generalizing path p ctx with
  | simple scmd =>
    rw [Process.displayCommand, effect, h.env]
    exact ⟨executeSimple_has h (replies path) path _, executeSimple_result h (replies path) path _⟩
  | bind op cmd1 cmd2 ih1 ih2 =>
    obtain ⟨hprec1, hprec2, hc1, hc2⟩ := hc
    obtain ⟨hleft, hresult1⟩ := ih1 (path ++ [.left]) h hc1
    obtain ⟨hright, hresult2⟩ := ih2 (path ++ [.right]) hleft.process hc2
    rw [hleft.fds] at hright
    -- Two operands, of which the right one goes on with what the left one leaves.
    have hboth : ∀ result succeeds, Shell.Has ⟨result, _, _ + _⟩ p.fds ⟨succeeds, _, _ + _⟩ :=
      fun _ _ => ⟨hright.process, hright.fds, hleft.started.add hright.started⟩
    cases op with
    | sequential => exact ⟨hboth _ _, hresult2⟩
    | parallel =>
      -- Both children begin with the process of the shell, which stays as it is.
      obtain ⟨hchild, hresult⟩ := ih2 (path ++ [.right]) h hc2
      refine ⟨⟨h, rfl, ?_⟩, ?_⟩
      · exact (Multiset.Rel.cons (.shell _ h) (rel_singleton (.shell _ h))).add
          (hleft.started.add hchild.started)
      · simp only [Process.displayCommand, placed, displayCommand, Operator.leftContext,
          Operator.rightContext, hresult1, hresult]
    | conditionalZero =>
      -- The status of a left operand is that of `displayCommand`, and decides alike.
      have hguard := result_eq_zero_iff replies (path ++ [.left]) ctx hc1
        (lt_of_lt_of_le (by decide) hprec1)
      simp only [Process.displayCommand, effect, placed, displayCommand, Operator.leftContext,
        Operator.rightContext, hresult1, hguard]
      split
      · exact ⟨hboth _ _, hresult2⟩
      · exact ⟨hleft, hresult1⟩
    | conditionalNzero =>
      have hguard := result_eq_zero_iff replies (path ++ [.left]) ctx hc1
        (lt_of_lt_of_le (by decide) hprec1)
      simp only [Process.displayCommand, effect, placed, displayCommand, Operator.leftContext,
        Operator.rightContext, hresult1, ne_eq, hguard, ite_not]
      split
      · exact ⟨hleft, hresult1⟩
      · exact ⟨hboth _ _, hresult2⟩
    | pipe =>
      -- The children of a pipe have its ends in place of a stream.
      obtain ⟨fds1, hfds1, hholds1⟩ := holds_pipeLeft h.fds path
      obtain ⟨fds2, hfds2, hholds2⟩ := holds_pipeRight h.fds path
      have hwriter : Process.Has { p with fds := fds1 } { ctx with stdout := .pipeWrite path } :=
        ⟨h.env, h.cwd, hholds1⟩
      have hreader : Process.Has { p with fds := fds2 } { ctx with stdin := .pipeRead path } :=
        ⟨h.env, h.cwd, hholds2⟩
      obtain ⟨hchild1, -⟩ := ih1 (path ++ [.left]) hwriter hc1
      obtain ⟨hchild2, hresult⟩ := ih2 (path ++ [.right]) hreader hc2
      simp only [Process.displayCommand, effect, placed, displayCommand, Operator.leftContext,
        Operator.rightContext, hfds1, hfds2, hresult]
      exact ⟨⟨h, rfl, ((rel_singleton (.shell _ hwriter)).add hchild1.started).add
        ((rel_singleton (.shell _ hreader)).add hchild2.started)⟩, trivial⟩

/-! ### Programs -/

/-- A process that calls `execvp`. -/
def Started.isProgram : Started → Bool
  | .program .. => true
  | .shell .. => false

/-- What runs is a program. -/
def Run.isProgram : Run → Bool
  | .program .. => true
  | .shell .. => false

/-- A shell is no program. -/
@[simp] theorem Run.isProgram_shell (path : Path) (ctx : Context) :
    (Run.shell path ctx).isProgram = false := rfl

/-- Programs stand for programs. -/
theorem Matches.isProgram {s : Started} {r : Run} (h : Matches s r) :
    s.isProgram = r.isProgram := by
  cases h <;> rfl

/-- Programs are there for programs. -/
theorem rel_filter_isProgram {ss : Multiset Started} {rs : Multiset Run}
    (h : Multiset.Rel Matches ss rs) :
    Multiset.Rel Matches (ss.filter (·.isProgram)) (rs.filter (·.isProgram)) := by
  induction h with
  | zero => exact .zero
  | @cons s r ss rs hmatches _ ih =>
    rw [Multiset.filter_cons, Multiset.filter_cons, hmatches.isProgram]
    split
    · exact (rel_singleton hmatches).add ih
    · exact Multiset.Rel.zero.add ih

/-- Only a program runs for a simple command. -/
theorem simpleEffect_programs (replies : Replies) (path : Path) (ctx : Context)
    (com : MyInternalCommand) :
    (simpleEffect replies path ctx com).ran.filter (·.isProgram) =
      (simpleEffect replies path ctx com).ran := by
  simp only [simpleEffect]
  repeat' split
  all_goals rfl

/-- The programs of the simple commands of a tree that are run. -/
def programs (replies : Path → Replies) (ran : Multiset Placed) : Multiset Run :=
  ran.bind fun x => (x.effect replies).ran

/-- Some commands are run, and others. -/
theorem programs_add (replies : Path → Replies) (ran1 ran2 : Multiset Placed) :
    programs replies (ran1 + ran2) = programs replies ran1 + programs replies ran2 :=
  Multiset.add_bind ..

/-- **Programs.**  The programs that run for a tree are those of the simple commands that
    `displayCommand` runs. -/
theorem effect_programs (replies : Path → Replies) (path : Path) (ctx : Context)
    (hc : c.Producible) :
    (effect replies path c ctx).ran.filter (·.isProgram) =
      programs replies
        (displayCommand (Placed.status replies) (placed replies path c ctx)).ran := by
  induction c generalizing path ctx with
  | simple scmd =>
    exact (simpleEffect_programs ..).trans (Multiset.singleton_bind ..).symm
  | bind op cmd1 cmd2 ih1 ih2 =>
    obtain ⟨hprec1, hprec2, hc1, hc2⟩ := hc
    cases op with
    | sequential =>
      simp only [effect, placed, displayCommand, Operator.leftContext, Operator.rightContext,
        Multiset.filter_add, ih1 _ _ hc1, ih2 _ _ hc2, programs_add]
    | parallel =>
      simp [effect, placed, displayCommand, Operator.leftContext, Operator.rightContext,
        Multiset.filter_add, ih1 _ _ hc1, ih2 _ _ hc2, programs_add]
    | conditionalZero =>
      -- What the operator goes by is what succeeds.
      have hguard := result_eq_zero_iff replies (path ++ [.left]) ctx hc1
        (lt_of_lt_of_le (by decide) hprec1)
      simp only [effect, placed, displayCommand, Operator.leftContext, Operator.rightContext,
        hguard]
      split
      · simp only [Multiset.filter_add, ih1 _ _ hc1, ih2 _ _ hc2, programs_add]
      · exact ih1 _ _ hc1
    | conditionalNzero =>
      have hguard := result_eq_zero_iff replies (path ++ [.left]) ctx hc1
        (lt_of_lt_of_le (by decide) hprec1)
      simp only [effect, placed, displayCommand, Operator.leftContext, Operator.rightContext, ne_eq,
        hguard, ite_not]
      split
      · exact ih1 _ _ hc1
      · simp only [Multiset.filter_add, ih1 _ _ hc1, ih2 _ _ hc2, programs_add]
    | pipe =>
      simp [effect, placed, displayCommand, Operator.leftContext, Operator.rightContext,
        Multiset.filter_add, ih1 _ _ hc1, ih2 _ _ hc2, programs_add]

/-! ### Sessions -/

/-- The context of the shell as it is started. -/
def Context.start (env : String → Option String) (cwd : String) : Context :=
  ⟨env, cwd, .inherited 0, .inherited 1, .inherited 2⟩

/-- A tree that `main` gets to, the context that it is run in, and what the system answers there. -/
structure Entered where
  replies : Path → Replies
  root : Tree
  context : Context

/-- What the tree means. -/
def Entered.effect (e : Entered) : Effect := MiniShell.effect e.replies [] e.root.1 e.context

/-- The tree with the places and the contexts of its simple commands. -/
def Entered.tree (e : Entered) : Command Placed := placed e.replies [] e.root.1 e.context

/-- What `displayCommand` makes of the tree. -/
def Entered.outcome (e : Entered) : Outcome Placed :=
  MiniShell.displayCommand (Placed.status e.replies) e.tree

/-- The trees of a session; the next one is run in the context that a tree leaves. -/
def session (replies : Nat → Path → Replies) (n : Nat) (ctx : Context) : List Line → List Entered
  | [] => []
  | .quit :: _ => []
  | .parseError :: lines => session replies n ctx lines
  | .empty :: lines => session replies n ctx lines
  | .command root :: lines =>
    let e : Entered := ⟨replies n, root, ctx⟩
    e :: session replies (n + 1) e.effect.context lines

/-- The shell starts with its context. -/
theorem start_has (env : String → Option String) (cwd : String) :
    (Process.start env cwd).Has (.start env cwd) :=
  ⟨rfl, rfl, holds_map (Context.start env cwd).streams⟩

/-- **Session.**  By induction on the lines: the next tree finds the context that the last one
    leaves. -/
theorem mainLoop_has (replies : Nat → Path → Replies) (n : Nat) (lines : List Line) {p : Process}
    {ctx : Context} (h : p.Has ctx) :
    List.Forall₂ (fun s e => Shell.Has s p.fds e.effect ∧ s.result = e.outcome.result)
      (mainLoop replies n p lines) (session replies n ctx lines) := by
  induction lines generalizing n p ctx with
  | nil => exact .nil
  | cons line lines ih =>
    cases line with
    | quit => exact .nil
    | parseError | empty => exact ih n h
    | command root =>
      have hroot := displayCommand_has (replies n) [] h root.2
      have hrest := ih (n + 1) hroot.1.process
      rw [hroot.1.fds] at hrest
      exact .cons hroot hrest

/-- The trees of a session run rightly. -/
theorem session_rightly (replies : Nat → Path → Replies) (n : Nat) (lines : List Line)
    {ctx : Context} (h : ctx.Below []) :
    ∀ e ∈ session replies n ctx lines, ∀ r ∈ e.effect.ran, Rightly [] r := by
  induction lines generalizing n ctx with
  | nil => exact fun _ he => absurd he List.not_mem_nil
  | cons line lines ih =>
    cases line with
    | quit => exact fun _ he => absurd he List.not_mem_nil
    | parseError | empty => exact ih n h
    | command root =>
      intro e he
      rcases List.mem_cons.mp he with rfl | he
      · exact effect_rightly (replies n) root.1 [] h
      · have hkept : (effect (replies n) [] root.1 ctx).context.Below [] := by
          intro d hd
          rw [effect_streams] at hd
          exact h d hd
        exact ih (n + 1) hkept e he

/-- An element has one that it is related to. -/
theorem exists_mem_of_forall₂ {α β : Type*} {r : α → β → Prop} {as : List α} {bs : List β}
    (h : List.Forall₂ r as bs) {a : α} (ha : a ∈ as) : ∃ b ∈ bs, r a b := by
  induction h with
  | nil => cases ha
  | cons hab _ ih =>
    rcases List.mem_cons.mp ha with rfl | ha
    · exact ⟨_, List.mem_cons_self, hab⟩
    · obtain ⟨b, hb, hab⟩ := ih ha
      exact ⟨b, List.mem_cons_of_mem _ hb, hab⟩

/-- The processes of a tree have the contexts that it means, and its status says whether it
    succeeds exactly if the status of its last command is reported. -/
structure Shell.Means (s : Shell) (fds : Table Description) (e : Entered) : Prop where
  has : s.Has fds e.effect
  status : (s.result = 0 ↔ e.effect.succeeds = true) ↔
    Reported (fun x => (x.effect e.replies).succeeds) e.tree

/-- What has the contexts and the status that are meant. -/
theorem Shell.Has.means {s : Shell} {fds : Table Description} {e : Entered} (h : s.Has fds e.effect)
    (hresult : s.result = e.outcome.result) : s.Means fds e where
  has := h
  status := by
    have hstatus := statusMeans_iff_reported (status_isStatus e.replies)
      (producible_placed e.replies [] e.context e.root.2)
    rw [StatusMeans, status_eq_zero, ← effect_succeeds] at hstatus
    rw [hresult]
    exact hstatus

/-- **Sessions.**  For all lines, whatever the system answers: the processes of every tree have the
    contexts that it means, by what succeeds in it; it leaves the shell with the environment and the
    directory that it means, with its three descriptors, and with a status that says whether it
    succeeds, exactly if the status of its last command is reported; and no descriptor of any
    process is an end of a pipe but for the operand on its side. -/
theorem mainLoop_pipelines (replies : Nat → Path → Replies) (env : String → Option String)
    (cwd : String) (lines : List Line) :
    List.Forall₂ (fun s e => Shell.Means s (Process.start env cwd).fds e)
      (mainLoop replies 0 (.start env cwd) lines) (session replies 0 (.start env cwd) lines) ∧
    ∀ shell ∈ mainLoop replies 0 (.start env cwd) lines, ∀ s ∈ shell.started, ∀ fd,
      ∀ d ∈ get s.fds fd, d.Below s.path := by
  have hhas := mainLoop_has replies 0 lines (start_has env cwd)
  refine ⟨hhas.imp fun _ _ h => h.1.means h.2, fun shell hshell s hs => ?_⟩
  obtain ⟨e, he, hshellHas, -⟩ := exists_mem_of_forall₂ hhas hshell
  obtain ⟨r, hr, hmatches⟩ := Multiset.exists_mem_of_rel_of_mem hshellHas.started hs
  have hstart : (Context.start env cwd).Below [] :=
    Context.below_iff.mpr ⟨trivial, trivial, trivial⟩
  exact hmatches.below (session_rightly replies 0 lines hstart e he r hr).2

/-- The processes of a tree follow `displayCommand`, where a simple command has the status that
    `executeSimpleCommand` makes of what the system answers in its place: the tree has the status
    that it gives, and the programs started are those of the simple commands that it runs, each with
    the context that its command is run in. -/
structure FollowsControlFlow (s : Shell) (e : Entered) : Prop where
  result : s.result = e.outcome.result
  started : Multiset.Rel Matches (s.started.filter (·.isProgram)) (programs e.replies e.outcome.ran)

/-- **Control flow of a session.**  For all lines, whatever the system answers: the processes of
    every tree follow `displayCommand`. -/
theorem mainLoop_follows (replies : Nat → Path → Replies) (env : String → Option String)
    (cwd : String) (lines : List Line) :
    List.Forall₂ FollowsControlFlow (mainLoop replies 0 (.start env cwd) lines)
      (session replies 0 (.start env cwd) lines) := by
  refine (mainLoop_has replies 0 lines (start_has env cwd)).imp fun s e h => ⟨h.2, ?_⟩
  have hprograms := rel_filter_isProgram h.1.started
  rwa [Entered.effect, effect_programs _ _ _ e.root.2] at hprograms

end WorkAtUPB.MiniShell

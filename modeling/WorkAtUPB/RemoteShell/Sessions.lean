import Mathlib.Logic.Function.Basic
import WorkAtUPB.Lib.Run
import WorkAtUPB.RemoteShell.Service

namespace WorkAtUPB.RemoteShell

open CharArray Run Stdio Tokens

/-!
# RemoteShellRPC — the sessions of several clients (`rclient.c`, `rserver.c`)

Any number of clients read lines, split them and send them to one server, in any order.  At the end
of its input a client goes on: `fgets` leaves its buffer alone, which `strtok` has cut behind the
first command:

* `Client`, `Session`, `Session.round` — the client's loop and the server's answer, in the arrays
  of both;
* `Talk`, `Talks`, `Talks.round` — the same without arrays: what is run, and what is shown;
* `Fits` — a line has at most 16 commands, none too long to be redirected, and the output of each
  can be read;
* `Follows` — a session against the talks;
* `sessions_follow` — while the lines fit, sessions follow the talks.
-/

/-! ### The programs -/

/-- A client: what is left of its input, the string in `buffer`, the command that it has sent last,
    whether it has left its loop, and what it has printed of the responses. -/
structure Client where
  stdin : List UInt8
  text : List UInt8
  command : Command
  ended : Bool
  stdout : List UInt8

/-- The string in `buffer` behind `fgets`, and what is left of the input. -/
def Client.fgets (c : Client) : List UInt8 × List UInt8 :=
  match Stdio.fgets 1024 c.stdin with
  | some (w, rest) => (contents w, rest)
  | none => (c.text, c.stdin)

def COMMAND : Nat := 222

def SIMPLE_COMMAND : Nat := 333

/-- `get_command_type`. -/
def getCommandType (command : Command) : Nat :=
  if command.nCommands = 1 then SIMPLE_COMMAND else COMMAND

/-- The server and its clients. -/
structure Session (ι : Type*) where
  server : Server
  clients : ι → Client

variable {ι : Type*}

/-- The server has been started, and the clients, whose commands are not initialised. -/
def Session.start (command : ι → Command) (stdin : ι → List UInt8) : Session ι where
  server := ⟨List.replicate 1024 0, List.replicate 128 0, []⟩
  clients := fun i => ⟨stdin i, [], command i, false, []⟩

section Programs

variable [DecidableEq ι] (popen : Popen) (oaFlavor : ι → OaFlavor)

/-- The procedure that a client calls. -/
def Client.call (c : Client) (server : Server) (oaFlavor : OaFlavor) :
    Option (Server × List UInt8) :=
  if getCommandType c.command = SIMPLE_COMMAND then
    server.executeSimpleCommand1Svc popen c.command ⟨1, oaFlavor⟩
  else server.executeCommand1Svc popen c.command ⟨2, oaFlavor⟩

/-- `prompt` with a response. -/
def Client.prompt (c : Client) (reponse : List UInt8) : Client :=
  { c with stdout := c.stdout ++ contents reponse ++ [10] }

/-- One round of the loop of a client. -/
def Session.round (s : Session ι) (i : ι) : Option (Session ι) :=
  let c := s.clients i
  if c.ended then none
  else
    let (line, rest) := c.fgets
    (parseCommand line c.command).bind fun (more, command) =>
      let c := { c with stdin := rest, text := firstText line, command := command }
      if more = 0 then
        some { s with clients := Function.update s.clients i { c with ended := true } }
      else (c.call popen s.server (oaFlavor i)).map fun (server, reponse) =>
        ⟨server, Function.update s.clients i (c.prompt reponse)⟩

end Programs

/-! ### What they are for -/

/-- A client without its buffer: the command that it repeats at the end of its input. -/
structure Talk where
  stdin : List UInt8
  again : List (List UInt8)
  ended : Bool
  stdout : List UInt8

/-- The commands that are asked for next, and what is left of the input; `none` is the end. -/
def Talk.next (t : Talk) : Option (List (List UInt8)) × List UInt8 :=
  match Stdio.fgets 1024 t.stdin with
  | some (w, rest) =>
    (if isQuit (firstWord (contents w)) then none else some (segments isDelimiter (contents w)),
      rest)
  | none => (some t.again, t.stdin)

/-- All clients, and what has been run for them. -/
structure Talks (ι : Type*) where
  called : List (List UInt8)
  talks : ι → Talk

def Talks.start (stdin : ι → List UInt8) : Talks ι where
  called := []
  talks := fun i => ⟨stdin i, [], false, []⟩

/-- What is run for a client that has asked for some commands. -/
def granted (oaFlavor : OaFlavor) (commands : List (List UInt8)) : List (List UInt8) :=
  if oaFlavor = .authUnix then commands.map (· ++ redirection) else []

section Talks

variable [DecidableEq ι] (popen : Popen) (oaFlavor : ι → OaFlavor)

/-- A client asks for some commands and is shown the last answer, or leaves. -/
def Talks.round (t : Talks ι) (i : ι) : Option (Talks ι) :=
  let talk := t.talks i
  if talk.ended then none
  else match talk.next with
    | (none, rest) => some { t with
        talks := Function.update t.talks i { talk with stdin := rest, ended := true } }
    | (some commands, rest) =>
      let run := granted (oaFlavor i) commands
      some {
        called := t.called ++ run
        talks := Function.update t.talks i { talk with
          stdin := rest
          again := commands.take 1
          stdout := talk.stdout ++ lastAnswer popen t.called run ++ [10] } }

omit [DecidableEq ι] in
/-- The client has not left; its line has at most 16 commands, behind each there is room for the
    redirection, and the outputs can be read. -/
def Fits (t : Talks ι) (i : ι) : Prop :=
  (t.talks i).ended = false ∧ ∀ commands ∈ (t.talks i).next.1,
    commands.length ≤ MAX_CMDS ∧ (∀ w ∈ commands, w.length + 5 < MAX_LEN) ∧
      ∀ r ∈ answers popen t.called (granted (oaFlavor i) commands), Readable r

end Talks

/-- While a client is in its loop, its buffer holds the command to repeat, and does not end it. -/
structure Client.Follows (c : Client) (t : Talk) : Prop where
  stdin : c.stdin = t.stdin
  ended : c.ended = t.ended
  stdout : c.stdout = t.stdout
  buffer : t.ended = false → 0 ∉ c.text ∧ segments isDelimiter c.text = t.again ∧
    isQuit (firstWord c.text) = false

/-- The server has run what it should have, and its arrays have their sizes. -/
structure Session.Follows (s : Session ι) (t : Talks ι) : Prop where
  sized : s.server.Sized
  called : s.server.called = t.called
  clients : ∀ i, (s.clients i).Follows (t.talks i)

/-! ### The buffer of a client -/

/-- What `strtok` leaves of a line. -/
theorem firstText_cases (line : List UInt8) :
    (firstText line = line ∧ segments isDelimiter line = []) ∨
    ∃ skipped w rest, line = skipped ++ (w ++ rest) ∧ firstText line = skipped ++ w ∧
      (∀ c ∈ skipped, isDelimiter c = true) ∧ w ≠ [] ∧ (∀ c ∈ w, isDelimiter c = false) ∧
      ∀ c ∈ rest.head?, isDelimiter c = true := by
  rw [firstText, segments_eq_next]
  cases hnext : next isDelimiter line with
  | none => exact Or.inl ⟨rfl, rfl⟩
  | some r =>
    obtain ⟨w, rest⟩ := r
    obtain ⟨skipped, rfl, hskipped, hne, hw, hrest⟩ := eq_of_next hnext
    refine Or.inr ⟨skipped, w, rest, rfl, ?_, hskipped, hne, hw, hrest⟩
    have hlength : (skipped ++ (w ++ rest)).length - rest.length = (skipped ++ w).length := by
      simp only [List.length_append]
      omega
    dsimp only
    rw [hlength, ← List.append_assoc, List.take_left]

/-- Of the commands of a line the first one is left. -/
theorem segments_firstText (line : List UInt8) :
    segments isDelimiter (firstText line) = (segments isDelimiter line).take 1 := by
  rcases firstText_cases line with
    ⟨hsame, hnil⟩ | ⟨skipped, w, rest, rfl, htext, hskipped, hne, hw, hrest⟩
  · rw [hsame, hnil]
    rfl
  · rw [htext, segments_skipped hskipped, segments_skipped hskipped, segments_self hne hw,
      segments_append hne hw hrest]
    rfl

theorem firstWord_firstText (line : List UInt8) : firstWord (firstText line) = firstWord line := by
  rcases firstText_cases line with
    ⟨hsame, -⟩ | ⟨skipped, w, rest, rfl, htext, hskipped, -, hw, hrest⟩
  · rw [hsame]
  · rw [htext]
    cases skipped with
    | nil =>
      have hrun : ∀ c ∈ w, (!isDelimiter c) = true := fun c hc => by simp [hw c hc]
      have hend : ∀ c ∈ rest.head?, (!isDelimiter c) = false := fun c hc => by simp [hrest c hc]
      rw [List.nil_append, List.nil_append, firstWord, firstWord, (takeWhile_run hrun hend).1,
        List.takeWhile_eq_self_iff]
      exact hrun
    | cons c skipped =>
      have hc := hskipped c List.mem_cons_self
      rw [List.cons_append, List.cons_append, firstWord_cons hc, firstWord_cons hc]

theorem mem_of_mem_firstText {line : List UInt8} {c : UInt8} (h : c ∈ firstText line) :
    c ∈ line := by
  unfold firstText at h
  split at h
  · exact h
  · exact List.mem_of_mem_take h

/-! ### What a client sends -/

theorem isText_of_sprintf {a : List UInt8} {str : List UInt8}
    (h : sprintf (List.replicate MAX_LEN 0) str = some a) : IsText a := by
  unfold sprintf at h
  split at h <;> [skip; cases h]
  next hfit =>
  obtain rfl := Option.some.inj h
  refine ⟨?_, ?_⟩
  · rw [Bytes.length_splice (by simpa using hfit), List.length_replicate]
  · rw [Bytes.splice_zero]
    simp

/-- The simple commands that are stored are strings in their arrays. -/
theorem isText_storeAll {commands commands' : Vector (List UInt8) MAX_CMDS} {i n : Nat}
    {strs : List (List UInt8)} (h : storeAll commands i strs = some (commands', n))
    (hinit : ∀ a ∈ commands.toList.take i, IsText a) : ∀ a ∈ commands'.toList.take n, IsText a := by
  induction strs generalizing commands i with
  | nil =>
    obtain ⟨rfl, rfl⟩ := Prod.mk.inj (Option.some.inj h)
    exact hinit
  | cons str strs ih =>
    obtain ⟨commands₁, hstore, hrest⟩ := Option.bind_eq_some_iff.mp h
    refine ih hrest ?_
    unfold storeCommand at hstore
    split at hstore <;> [skip; cases hstore]
    next hi =>
    obtain ⟨a, hsprintf, rfl⟩ := Option.map_eq_some_iff.mp hstore
    have hsize : i < commands.toList.length := by simpa using hi
    intro b hb
    rw [Vector.toList_set, List.take_add_one, List.take_set_of_le (Nat.le_refl i),
      List.getElem?_set_self hsize, Option.toList_some] at hb
    rcases List.mem_append.mp hb with hb | hb
    · exact hinit b hb
    · obtain rfl := List.mem_singleton.mp hb
      exact isText_of_sprintf hsprintf

variable {line : List UInt8}

theorem parseCommand_quit (hnul : 0 ∉ line) (hquit : isQuit (firstWord line) = true)
    (command : Command) : parseCommand line command = some (0, command) := by
  rw [parseCommand, contents_eq_self_iff.mpr hnul]
  exact if_pos (by rwa [isQuit_firstText])

/-- A line that fits is split into the commands of the request. -/
theorem parseCommand_eq (hnul : 0 ∉ line) (hquit : isQuit (firstWord line) = false)
    (hroom : (segments isDelimiter line).length ≤ MAX_CMDS)
    (hlength : ∀ w ∈ segments isDelimiter line, w.length + 5 < MAX_LEN) (command : Command) :
    ∃ command', parseCommand line command = some (1, command') ∧
      (command'.commands.toList.take command'.nCommands).map contents = segments isDelimiter line ∧
      ∀ a ∈ command'.commands.toList.take command'.nCommands, IsText a := by
  have hstrs : ∀ w ∈ segments isDelimiter line, 0 ∉ w ∧ w.length < MAX_LEN := by
    intro w hw
    obtain ⟨-, -, hpart⟩ := of_mem_segments hw
    have hshort := hlength w hw
    exact ⟨fun h => hnul (hpart.subset h), by omega⟩
  obtain ⟨commands, hstore, htake⟩ := storeAll_eq command.commands (by rwa [Nat.zero_add]) hstrs
  rw [Nat.zero_add] at hstore htake
  refine ⟨⟨_, commands⟩, ?_, htake, isText_storeAll hstore (by simp)⟩
  rw [parseCommand, contents_eq_self_iff.mpr hnul]
  dsimp only
  rw [if_neg (by rw [isQuit_firstText, hquit]; exact Bool.false_ne_true),
    storeLoop_eq (Nat.le_refl _), hstore]
  rfl

/-! ### Rounds -/

section Rounds

variable {popen : Popen} {oaFlavor : ι → OaFlavor} {s : Session ι} {t : Talks ι} {i : ι}

/-- What a client reads is what it should ask for. -/
theorem Client.Follows.next {c : Client} {talk : Talk} (h : c.Follows talk)
    (htalk : talk.ended = false) : 0 ∉ c.fgets.1 ∧ talk.next =
      (if isQuit (firstWord c.fgets.1) then none else some (segments isDelimiter c.fgets.1),
        c.fgets.2) := by
  obtain ⟨hnul, hagain, hgoesOn⟩ := h.buffer htalk
  rw [Client.fgets, Talk.next, h.stdin]
  cases Stdio.fgets 1024 talk.stdin with
  | some r => exact ⟨zero_notMem_contents, rfl⟩
  | none => exact ⟨hnul, by rw [hgoesOn, if_neg Bool.false_ne_true, hagain]⟩

/-- Both procedures run what is granted. -/
theorem call_eq {c : Client} {server : Server} {texts : List (List UInt8)} (hs : server.Sized)
    (htexts : (c.command.commands.toList.take c.command.nCommands).map contents = texts)
    (hcmd : ∀ a ∈ c.command.commands.toList.take c.command.nCommands, IsText a)
    (hroom : ∀ w ∈ texts, w.length + 5 < MAX_LEN) {flavor : OaFlavor}
    (hreadable : ∀ r ∈ answers popen server.called (granted flavor texts), Readable r) :
    ∃ server' reponse, c.call popen server flavor = some (server', reponse) ∧ server'.Sized ∧
      server'.called = server.called ++ granted flavor texts ∧
      contents reponse = lastAnswer popen server.called (granted flavor texts) := by
  have hgranted : ∀ rqProc, rqProc ≠ 0 → granted flavor texts =
      if checkUnix ⟨rqProc, flavor⟩ then texts.map (· ++ redirection) else [] := by
    intro rqProc hproc
    rw [granted, checkUnix, if_neg hproc]
    cases flavor with
    | authUnix | other => rfl
  rw [Client.call]
  split
  · exact executeCommand1Svc_eq hs htexts hcmd hroom (hgranted 1 (by decide)) hreadable
  · exact executeCommand1Svc_eq hs htexts hcmd hroom (hgranted 2 (by decide)) hreadable

variable [DecidableEq ι]

theorem Session.Follows.update (h : s.Follows t) {server : Server} {called : List (List UInt8)}
    (hserver : server.Sized) (hcalled : server.called = called) {c : Client} {talk : Talk}
    (hc : c.Follows talk) : Session.Follows ⟨server, Function.update s.clients i c⟩
      ⟨called, Function.update t.talks i talk⟩ where
  sized := hserver
  called := hcalled
  clients := fun j => by
    show (Function.update s.clients i c j).Follows (Function.update t.talks i talk j)
    by_cases hji : j = i
    · subst hji
      rwa [Function.update_self, Function.update_self]
    · rw [Function.update_of_ne hji, Function.update_of_ne hji]
      exact h.clients j

/-- **Step.**  A round of a client whose line fits. -/
theorem Session.Follows.round (h : s.Follows t) (hfits : Fits popen oaFlavor t i) :
    ∃ t' s', t.round popen oaFlavor i = some t' ∧ s.round popen oaFlavor i = some s' ∧
      s'.Follows t' := by
  obtain ⟨hgoing, hline⟩ := hfits
  have hc := h.clients i
  obtain ⟨hnul, hnext⟩ := hc.next hgoing
  rw [hnext] at hline
  have hgoes : (s.clients i).ended = false := hc.ended.trans hgoing
  rw [Talks.round, hgoing, if_neg Bool.false_ne_true, Session.round, hgoes,
    if_neg Bool.false_ne_true, hnext]
  cases hquit : isQuit (firstWord (s.clients i).fgets.1) with
  | true =>
    dsimp only
    -- The client leaves, and calls nothing.
    rw [parseCommand_quit hnul hquit, if_pos rfl, Option.bind_some, if_pos rfl]
    exact ⟨_, _, rfl, rfl, h.update h.sized h.called ⟨rfl, rfl, hc.stdout, nofun⟩⟩
  | false =>
    rw [hquit] at hline
    obtain ⟨hroom, hlength, hreadable⟩ := hline _ rfl
    obtain ⟨command, hparse, htexts, hcmd⟩ :=
      parseCommand_eq hnul hquit hroom hlength (s.clients i).command
    -- The call gets what the client has parsed, whatever others have left in the arrays.
    obtain ⟨server, reponse, hcall, hserver, hcalled, hreponse⟩ := call_eq
      (c := ⟨(s.clients i).fgets.2, firstText (s.clients i).fgets.1, command, false,
        (s.clients i).stdout⟩)
      h.sized htexts hcmd hlength (h.called ▸ hreadable)
    dsimp only
    rw [hparse, if_neg Bool.false_ne_true, Option.bind_some]
    dsimp only
    rw [if_neg (show ¬(1 : Int) = 0 by decide), hcall, Option.map_some]
    refine ⟨_, _, rfl, rfl, h.update hserver (h.called ▸ hcalled) ⟨rfl, rfl, ?_, fun _ => ?_⟩⟩
    · rw [Client.prompt, hreponse, h.called, hc.stdout]
    · refine ⟨fun hzero => hnul (mem_of_mem_firstText hzero), segments_firstText _, ?_⟩
      rw [Client.prompt, firstWord_firstText, hquit]

omit [DecidableEq ι] in
theorem follows_start (command : ι → Command) (stdin : ι → List UInt8) :
    (Session.start command stdin).Follows (Talks.start stdin) where
  sized := ⟨List.length_replicate .., List.length_replicate ..⟩
  called := rfl
  clients := fun _ => ⟨rfl, rfl, rfl, fun _ => ⟨List.not_mem_nil, rfl, rfl⟩⟩

/-- **Sessions.**  For any number of clients with any input, whatever the system answers, in every
    order of their rounds in which the lines fit: no array is written outside of its bounds; the
    server runs, in this order, the commands of the lines of the clients with credentials, with
    errors redirected, and nothing else; a client is shown for each of its lines the status and the
    beginning of the output of the last command, whatever has been asked for in between by the
    others; it leaves exactly at a line that begins with `quit` or `exit`, and at the end of its
    input goes on with the first command of its last line. -/
theorem sessions_follow (popen : Popen) (oaFlavor : ι → OaFlavor) (command : ι → Command)
    (stdin : ι → List UInt8) {is : List ι}
    (hfits : EachStep (Talks.round popen oaFlavor) (Fits popen oaFlavor) (.start stdin) is) :
    ∃ (t : Talks ι) (s : Session ι), run (Talks.round popen oaFlavor) (.start stdin) is = some t ∧
      run (Session.round popen oaFlavor) (.start command stdin) is = some s ∧
      s.server.called = t.called ∧
      ∀ i, (s.clients i).ended = (t.talks i).ended ∧ (s.clients i).stdout = (t.talks i).stdout := by
  have hround : ∀ (t : Talks ι) (s : Session ι) i, s.Follows t → Fits popen oaFlavor t i →
      ∃ t' s', t.round popen oaFlavor i = some t' ∧ s.round popen oaFlavor i = some s' ∧
        s'.Follows t' := fun _ _ _ h hC => h.round hC
  obtain ⟨t, s, ht, hs, hfollows⟩ := run_follows hround (follows_start command stdin) hfits
  exact ⟨t, s, ht, hs, hfollows.called, fun i =>
    ⟨(hfollows.clients i).ended, (hfollows.clients i).stdout⟩⟩

end Rounds

instance decidableFitsFrom : (n : Nat) → (ws : List (List UInt8)) → Decidable (FitsFrom n ws)
  | _, [] => isTrue fitsFrom_nil
  | n, w :: ws =>
    have := decidableFitsFrom (n + w.length) ws
    decidable_of_iff _ fitsFrom_cons.symm

instance decidableReadable : (r : Option (List UInt8 × Int)) → Decidable (Readable r)
  | none => isTrue nofun
  | some (output, _) => decidable_of_iff (FitsFrom 0 (pieces 128 output))
      ⟨fun h _ _ heq => (Prod.mk.inj (Option.some.inj heq)).1 ▸ h, fun h => h _ _ rfl⟩

instance decidableFits (popen : Popen) (oaFlavor : ι → OaFlavor) (t : Talks ι) (i : ι) :
    Decidable (Fits popen oaFlavor t i) := instDecidableAnd

/-- The lines of two clients, and the end of the input of the first one, if every command is
    answered with its text. -/
theorem sessions_follow_echo : ∃ (t : Talks Bool) (s : Session Bool),
    run (Talks.round (fun _ command => some (command ++ [10], 0)) fun _ => .authUnix)
      (.start fun i => if i then ascii "ls;pwd\n" else ascii "id\nquit\n")
      [true, false, true, false] = some t ∧
    run (Session.round (fun _ command => some (command ++ [10], 0)) fun _ => .authUnix)
      (.start (fun _ => ⟨0, Vector.replicate 16 []⟩)
        fun i => if i then ascii "ls;pwd\n" else ascii "id\nquit\n")
      [true, false, true, false] = some s ∧
    s.server.called = t.called ∧
    ∀ i, (s.clients i).ended = (t.talks i).ended ∧ (s.clients i).stdout = (t.talks i).stdout :=
  sessions_follow _ _ _ _ (by decide)

end WorkAtUPB.RemoteShell

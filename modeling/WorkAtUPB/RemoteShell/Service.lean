import WorkAtUPB.RemoteShell.Client
import WorkAtUPB.RemoteShell.Server

namespace WorkAtUPB.RemoteShell

open CharArray Decimal Stdio

/-!
# RemoteShellRPC — the requests of all clients (`rserver.c`)

All requests use the same static arrays, and the commands of one request the same response:

* `Server` — the arrays, and the commands that have been given to `popen`;
* `Server.executeStringCommand`, `Server.executeCommand`, `Server.executeCommand1Svc` — a command,
  the commands of a request, and the request with its check;
* `map_executeStringCommand` — the first of them answers as `executeStringCommand` does;
* `answer`, `answers` — what the response to a command says, and what `popen` gives for commands
  one after the other;
* `executeCommand1Svc_eq` — the response is the answer to the last command, whatever the arrays
  hold from the requests before.
-/

/-- What `popen` and `pclose` give for a command behind the commands before it: its output and its
    status, or nothing if it cannot be run. -/
abbrev Popen := List (List UInt8) → List UInt8 → Option (List UInt8 × Int)

/-- The arrays `buffer` and `__buffer`, and the commands that have been given to `popen`. -/
structure Server where
  buffer : List UInt8
  scratch : List UInt8
  called : List (List UInt8)

/-- The arrays behind the loop of `execute_string_command`. -/
def readArrays (buffer scratch : List UInt8) :
    List (List UInt8) → Option (List UInt8 × List UInt8)
  | [] => some (buffer, scratch)
  | w :: ws =>
    match iteration buffer scratch w with
    | none => none
    | some (buffer, scratch, true) => some (buffer, scratch)
    | some (buffer, scratch, false) => readArrays buffer scratch ws

/-- What is behind a command for the shell. -/
def redirection : List UInt8 := ascii " 2>&1"

namespace Server

variable (popen : Popen) (s : Server)

/-- `execute_string_command`: the server, and the array `reponse->result`. -/
def executeStringCommand (command result : List UInt8) : Option (Server × List UInt8) := do
  let command ← strcat command (redirection ++ [0])
  let called := s.called ++ [contents command]
  match popen s.called (contents command) with
  | none =>
    let result ← sprintf result (ascii "command execution failed!")
    some ({ s with called := called }, result)
  | some (output, status) =>
    let (buffer, scratch) ← readArrays (s.buffer.set 0 0) s.scratch (pieces 128 output)
    let result ← snprintf result 1023
      (ascii "[" ++ intText status ++ ascii "] " ++ contents buffer ++ ascii "\n")
    some (⟨buffer, scratch, called⟩, result)

/-- The loop of `execute_command`. -/
def executeCommands : Server → List UInt8 → List (List UInt8) → Option (Server × List UInt8)
  | s, result, [] => some (s, result)
  | s, result, command :: commands => do
    let (s, result) ← s.executeStringCommand popen command result
    executeCommands s result commands

/-- `execute_command`. -/
def executeCommand (cmd : Command) (result : List UInt8) : Option (Server × List UInt8) :=
  s.executeCommands popen (result.set 0 0) (cmd.commands.toList.take cmd.nCommands)

end Server

/-- The credentials of a request. -/
inductive OaFlavor where
  | authUnix
  | other
  deriving DecidableEq, Repr

/-- `struct svc_req`: the number of the procedure, and the credentials. -/
structure SvcReq where
  rqProc : Nat
  oaFlavor : OaFlavor

/-- `check_unix`. -/
def checkUnix (req : SvcReq) : Bool :=
  if req.rqProc = 0 then false
  else
    match req.oaFlavor with
    | .authUnix => true
    | .other => false

/-- `execute_command_1_svc`: the server, and the response. -/
def Server.executeCommand1Svc (popen : Popen) (s : Server) (cmd : Command) (req : SvcReq) :
    Option (Server × List UInt8) :=
  let reponse := List.replicate MAX_LEN 0
  if !checkUnix req then some (s, reponse) else s.executeCommand popen cmd reponse

/-- `execute_simple_command_1_svc`, which does the same. -/
def Server.executeSimpleCommand1Svc (popen : Popen) (s : Server) (cmd : Command) (req : SvcReq) :
    Option (Server × List UInt8) :=
  s.executeCommand1Svc popen cmd req

/-! ### Answers -/

/-- What the response to a command says. -/
def answer : Option (List UInt8 × Int) → List UInt8
  | none => ascii "command execution failed!"
  | some (output, status) =>
    (ascii "[" ++ intText status ++ ascii "] " ++ output.take 1023 ++ ascii "\n").take 1022

/-- What `popen` gives for the commands, one after the other. -/
def answers (popen : Popen) : List (List UInt8) → List (List UInt8) →
    List (Option (List UInt8 × Int))
  | _, [] => []
  | called, command :: commands =>
    popen called command :: answers popen (called ++ [command]) commands

/-- The answer to the last command; without any there is no text. -/
def lastAnswer (popen : Popen) (called commands : List (List UInt8)) : List UInt8 :=
  ((answers popen called commands).getLast?.map answer).getD []

/-- The output of a command that could be run can be read. -/
def Readable (r : Option (List UInt8 × Int)) : Prop :=
  ∀ output status, r = some (output, status) → FitsFrom 0 (pieces 128 output)

/-- The static arrays have their sizes. -/
structure Server.Sized (s : Server) : Prop where
  length_buffer : s.buffer.length = 1024
  length_scratch : s.scratch.length = 128

/-- An array of 1024 characters with a string in it. -/
structure IsText (a : List UInt8) : Prop where
  length : a.length = MAX_LEN
  terminated : 0 ∈ a

/-! ### One command -/

variable {buffer scratch command result output : List UInt8} {ws : List (List UInt8)}

/-- **Run of the loop.**  The array holds the first 1023 bytes of the output. -/
theorem readArrays_eq (h : Arrays buffer scratch) (hlt : (contents buffer).length < 1023)
    (hws : ∀ w ∈ ws, w.length ≤ 127) (hfits : FitsFrom (contents buffer).length ws) :
    ∃ buffer' scratch', readArrays buffer scratch ws = some (buffer', scratch') ∧
      buffer'.length = 1024 ∧ scratch'.length = 128 ∧
      contents buffer' = (contents buffer ++ ws.flatten).take 1023 := by
  induction ws generalizing buffer scratch with
  | nil =>
    refine ⟨buffer, scratch, rfl, h.length_buffer, h.length_scratch, ?_⟩
    rw [List.flatten_nil, List.append_nil, List.take_of_length_le hlt.le]
  | cons w ws ih =>
    obtain ⟨hfirst, hrest⟩ := fitsFrom_cons.mp hfits
    obtain ⟨hle, hnul⟩ := hfirst hlt
    have hself : contents w = w := contents_eq_self_iff.mpr hnul
    obtain ⟨buffer', scratch', hiteration, h', hcontents⟩ :=
      iteration_eq h (hws w List.mem_cons_self) (by rwa [hself])
    rw [hself] at hcontents
    have hlength : (contents buffer').length = (contents buffer).length + w.length := by
      rw [hcontents, List.length_append]
    rw [List.flatten_cons, ← List.append_assoc, ← hcontents, readArrays, hiteration]
    -- The loop ends when 1023 bytes are there, or goes on with the next piece.
    by_cases hfull : 1023 ≤ (contents buffer').length
    · rw [decide_eq_true hfull]
      refine ⟨buffer', scratch', rfl, h'.length_buffer, h'.length_scratch, ?_⟩
      rw [List.take_left' (by omega)]
    · rw [decide_eq_false hfull]
      exact ih h' (by omega) (fun w hw => hws w (List.mem_cons_of_mem _ hw)) (hlength ▸ hrest)

/-- The array `buffer` behind the loop is what the last iteration leaves. -/
theorem map_readArrays (buffer scratch : List UInt8) (ws : List (List UInt8)) :
    (readArrays buffer scratch ws).map Prod.fst =
      (loop buffer scratch ws).getLast?.getD (some buffer) := by
  induction ws generalizing buffer scratch with
  | nil => rfl
  | cons w ws ih =>
    rw [readArrays]
    cases hiteration : iteration buffer scratch w with
    | none => rw [loop_cons_eq_none hiteration]; rfl
    | some r =>
      obtain ⟨buffer', scratch', left⟩ := r
      rw [loop_cons_eq_some hiteration]
      cases left with
      | true => rfl
      | false =>
        rw [if_neg Bool.false_ne_true, List.getLast?_cons]
        exact ih buffer' scratch'

/-- The response is that of `executeStringCommand`, with what `popen` gives now. -/
theorem map_executeStringCommand (popen : Popen) (s : Server) (command result : List UInt8) :
    (s.executeStringCommand popen command result).map Prod.snd =
      RemoteShell.executeStringCommand (popen s.called) command s.buffer s.scratch result := by
  have hredirection : ascii " 2>&1" = redirection := rfl
  rw [Server.executeStringCommand, RemoteShell.executeStringCommand, hredirection]
  cases strcat command (redirection ++ [0]) with
  | none => rfl
  | some command =>
    simp only [Option.bind_eq_bind, Option.bind_some]
    cases popen s.called (contents command) with
    | none => cases sprintf result (ascii "command execution failed!") <;> rfl
    | some r =>
      obtain ⟨output, status⟩ := r
      have hread : readOutput s.buffer s.scratch output =
          (readArrays (s.buffer.set 0 0) s.scratch (pieces 128 output)).map Prod.fst :=
        (map_readArrays _ _ _).symm
      simp only [hread]
      cases readArrays (s.buffer.set 0 0) s.scratch (pieces 128 output) with
      | none => rfl
      | some arrays =>
        simp only [Option.map_some, Option.bind_some]
        cases snprintf result 1023 (ascii "[" ++ intText status ++ ascii "] " ++
          contents arrays.1 ++ ascii "\n") <;> rfl

theorem answer_eq (output : List UInt8) (status : Int)
    (hbuffer : contents buffer = output.take 1023) (hresult : result.length = MAX_LEN) :
    ∃ result', snprintf result 1023
        (ascii "[" ++ intText status ++ ascii "] " ++ contents buffer ++ ascii "\n") =
          some result' ∧ result'.length = MAX_LEN ∧
        contents result' = answer (some (output, status)) := by
  have hnul : 0 ∉ ascii "[" ++ intText status ++ ascii "] " ++ contents buffer ++ ascii "\n" := by
    have hstatus := zero_notMem_intText status
    have hcontents : 0 ∉ contents buffer := zero_notMem_contents
    simp only [List.mem_append, not_or]
    exact ⟨⟨⟨⟨by decide, hstatus⟩, by decide⟩, hcontents⟩, by decide⟩
  rw [hbuffer] at hnul ⊢
  have hlength := List.length_take_le 1022
    (ascii "[" ++ intText status ++ ascii "] " ++ output.take 1023 ++ ascii "\n")
  obtain ⟨result', hsprintf, hlength', -, hcontents⟩ := sprintf_eq
    (fun h => hnul (List.mem_of_mem_take h)) (a := result)
    (by rw [hresult]; exact Nat.lt_of_le_of_lt hlength (by decide))
  exact ⟨result', hsprintf, hlength'.trans hresult, hcontents⟩

variable {popen : Popen} {s : Server}

/-- **Step.**  A command that there is room behind is run with its errors redirected, and the
    response answers it, whatever the arrays hold. -/
theorem executeStringCommand_eq (hs : s.Sized) (hcommand : IsText command)
    (hroom : (contents command).length + 5 < MAX_LEN) (hresult : result.length = MAX_LEN)
    (hreadable : Readable (popen s.called (contents command ++ redirection))) :
    ∃ s' result', s.executeStringCommand popen command result = some (s', result') ∧ s'.Sized ∧
      s'.called = s.called ++ [contents command ++ redirection] ∧ result'.length = MAX_LEN ∧
      contents result' = answer (popen s.called (contents command ++ redirection)) := by
  have hredirection : contents (redirection ++ [0]) = redirection :=
    contents_terminated (by decide)
  obtain ⟨command', hstrcat, -, -, hcontents⟩ := strcat_eq hcommand.terminated
    (b := redirection ++ [0]) (List.mem_append_right _ (List.mem_singleton_self 0))
    (by rw [hredirection, hcommand.length]; exact hroom)
  rw [hredirection] at hcontents
  rw [Server.executeStringCommand, hstrcat, Option.bind_eq_bind, Option.bind_some, hcontents]
  cases hpopen : popen s.called (contents command ++ redirection) with
  -- `popen` fails, and the answer is a text of its own.
  | none =>
    obtain ⟨result', hsprintf, hlength, -, htext⟩ :=
      sprintf_eq (a := result) (w := ascii "command execution failed!") (by decide)
        (by rw [hresult]; decide)
    exact ⟨{ s with called := s.called ++ [contents command ++ redirection] }, result',
      by simp only [hsprintf, Option.bind_some],
      ⟨hs.length_buffer, hs.length_scratch⟩, rfl, hlength.trans hresult, htext⟩
  | some r =>
    obtain ⟨output, status⟩ := r
    -- Both arrays are cleared before the output is read.
    obtain ⟨hinit, hnil⟩ := arrays_init hs.length_buffer hs.length_scratch
    obtain ⟨buffer, scratch, hread, hbuffer, hscratch, hshown⟩ :=
      readArrays_eq hinit (by rw [hnil]; decide) (fun w hw => length_le_of_mem_pieces hw)
        (by rw [hnil]; exact hreadable output status hpopen)
    rw [hnil, List.nil_append, flatten_pieces (by decide)] at hshown
    obtain ⟨result', hsnprintf, hlength, htext⟩ := answer_eq output status hshown hresult
    exact ⟨⟨buffer, scratch, s.called ++ [contents command ++ redirection]⟩, result',
      by simp only [hread, hsnprintf, Option.bind_eq_bind, Option.bind_some],
      ⟨hbuffer, hscratch⟩, rfl, hlength, htext⟩

/-! ### The commands of a request -/

theorem getLast?_answers_cons (popen : Popen) (called : List (List UInt8)) (command : List UInt8)
    (commands : List (List UInt8)) (text : List UInt8) :
    ((answers popen called (command :: commands)).getLast?.map answer).getD text =
      ((answers popen (called ++ [command]) commands).getLast?.map answer).getD
        (answer (popen called command)) := by
  rw [answers]
  cases answers popen (called ++ [command]) commands with
  | nil => rfl
  | cons r rs => rw [List.getLast?_cons_cons]; simp [List.getLast?_cons]

/-- **Run.**  The commands are run one after the other, and the response answers the last one. -/
theorem executeCommands_eq {commands : List (List UInt8)} (hs : s.Sized)
    (hcommands : ∀ a ∈ commands, IsText a ∧ (contents a).length + 5 < MAX_LEN)
    (hresult : result.length = MAX_LEN)
    (hreadable : ∀ r ∈ answers popen s.called (commands.map (contents · ++ redirection)),
      Readable r) :
    ∃ s' result', s.executeCommands popen result commands = some (s', result') ∧ s'.Sized ∧
      s'.called = s.called ++ commands.map (contents · ++ redirection) ∧
      contents result' =
        ((answers popen s.called (commands.map (contents · ++ redirection))).getLast?.map
          answer).getD (contents result) := by
  induction commands generalizing s result with
  | nil => exact ⟨s, result, rfl, hs, (List.append_nil _).symm, rfl⟩
  | cons command commands ih =>
    obtain ⟨htext, hroom⟩ := hcommands command List.mem_cons_self
    rw [List.map_cons, answers] at hreadable
    obtain ⟨s₁, result₁, hfirst, hs₁, hcalled₁, hlength₁, hcontents₁⟩ :=
      executeStringCommand_eq hs htext hroom hresult (hreadable _ List.mem_cons_self)
    obtain ⟨s₂, result₂, hrest, hs₂, hcalled₂, hcontents₂⟩ := ih hs₁
      (fun a ha => hcommands a (List.mem_cons_of_mem _ ha)) hlength₁
      (fun r hr => hreadable r (List.mem_cons_of_mem _ (hcalled₁ ▸ hr)))
    refine ⟨s₂, result₂, ?_, hs₂, ?_, ?_⟩
    · rw [Server.executeCommands, hfirst, Option.bind_eq_bind, Option.bind_some]
      exact hrest
    · rw [hcalled₂, hcalled₁, List.append_assoc, List.singleton_append, List.map_cons]
    · rw [hcontents₂, hcalled₁, hcontents₁, List.map_cons, getLast?_answers_cons]

/-- **Requests.**  The commands of a request with credentials are run in order, and the response is
    the answer to the last one; without credentials nothing is run. -/
theorem executeCommand1Svc_eq {cmd : Command} {req : SvcReq} {texts : List (List UInt8)}
    (hs : s.Sized) (htexts : (cmd.commands.toList.take cmd.nCommands).map contents = texts)
    (hcmd : ∀ a ∈ cmd.commands.toList.take cmd.nCommands, IsText a)
    (hroom : ∀ w ∈ texts, w.length + 5 < MAX_LEN) {commands : List (List UInt8)}
    (hcommands : commands = if checkUnix req then texts.map (· ++ redirection) else [])
    (hreadable : ∀ r ∈ answers popen s.called commands, Readable r) :
    ∃ s' reponse, s.executeCommand1Svc popen cmd req = some (s', reponse) ∧ s'.Sized ∧
      s'.called = s.called ++ commands ∧ contents reponse = lastAnswer popen s.called commands := by
  rw [Server.executeCommand1Svc]
  cases hcheck : checkUnix req with
  | false =>
    rw [hcheck, if_neg Bool.false_ne_true] at hcommands
    subst hcommands
    exact ⟨s, _, rfl, hs, (List.append_nil _).symm, rfl⟩
  | true =>
    -- The commands of the request are those that the client has filled in.
    have hmap : commands =
        (cmd.commands.toList.take cmd.nCommands).map (contents · ++ redirection) := by
      rw [hcommands, hcheck, if_pos rfl, ← htexts, List.map_map]
      rfl
    subst hmap
    have hlength : ((List.replicate MAX_LEN (0 : UInt8)).set 0 0).length = MAX_LEN := by
      rw [List.length_set, List.length_replicate]
    obtain ⟨s', reponse, hexecute, hs', hcalled, hcontents⟩ := executeCommands_eq hs
      (fun a ha => ⟨hcmd a ha, hroom _ (htexts ▸ List.mem_map_of_mem ha)⟩) hlength hreadable
    exact ⟨s', reponse, hexecute, hs', hcalled, hcontents⟩

end WorkAtUPB.RemoteShell

import WorkAtUPB.Lib.CharArray
import WorkAtUPB.Lib.Stdio
import WorkAtUPB.Lib.Tokens

namespace WorkAtUPB.RemoteShell

open CharArray Stdio Tokens

/-!
# RemoteShellRPC — splitting a line into commands (`rclient.c`, `rshell.x`)

The client splits a line at semicolons and ends of lines, and puts the parts into an array of 16
simple commands, without counting them first:

* `storeCommand`, `storeLoop`, `parseCommand` — the arrays after each command; `none` is a write
  behind the last of them;
* `storeLoop_eq` — the loop stores the segments of the line, one after the other;
* `storeAll_eq`, `storeAll_eq_none` — which there is room for, or not;
* `parseCommand_splitsLine_iff` — the line is split up to 16 segments, if it does not begin with
  `quit` or `exit`.
-/

/-- The size of the text of a simple command. -/
def MAX_LEN : Nat := 1024

/-- The number of simple commands. -/
def MAX_CMDS : Nat := 16

/-- `Command`; a simple command is an array of characters. -/
structure Command where
  nCommands : Nat
  commands : Vector (List UInt8) MAX_CMDS

/-- The delimiters of `strtok`: `";\n"`. -/
def isDelimiter (c : UInt8) : Bool := c = 59 || c = 10

/-- `tolower`. -/
def tolower (c : UInt8) : UInt8 := if 65 ≤ c ∧ c ≤ 90 then c + 32 else c

/-- `!strcasecmp`. -/
def sameIgnoringCase (s t : List UInt8) : Bool := s.map tolower = t.map tolower

/-- The two comparisons that leave `parse_command`. -/
def isQuit (s : List UInt8) : Bool :=
  sameIgnoringCase s (ascii "quit") || sameIgnoringCase s (ascii "exit")

/-- The string in `buffer` after the first `strtok`, which ends it behind the first token. -/
def firstText (line : List UInt8) : List UInt8 :=
  match next isDelimiter line with
  | none => line
  | some (_, rest) => line.take (line.length - rest.length)

/-- `memset` and `strcpy` of the simple command `i`. -/
def storeCommand (commands : Vector (List UInt8) MAX_CMDS) (i : Nat) (str : List UInt8) :
    Option (Vector (List UInt8) MAX_CMDS) :=
  if h : i < MAX_CMDS then
    (sprintf (List.replicate MAX_LEN 0) str).map fun command => commands.set i command h
  else none

/-- The loop, with what `strtok` gave last: a token, and where it goes on. -/
def storeLoop : Nat → Vector (List UInt8) MAX_CMDS → Nat → Option (List UInt8 × List UInt8) →
    Option (Vector (List UInt8) MAX_CMDS × Nat)
  | _, commands, i, none => some (commands, i)
  | 0, _, _, some _ => none
  | fuel + 1, commands, i, some (str, rest) => do
    let commands ← storeCommand commands i str
    storeLoop fuel commands (i + 1) (strtok isDelimiter rest)

/-- `parse_command`: what it returns, and `command`. -/
def parseCommand (buffer : List UInt8) (command : Command) : Option (Int × Command) :=
  let line := contents buffer
  let str := strtok isDelimiter line
  if isQuit (firstText line) then some (0, command)
  else do
    let (commands, i) ← storeLoop line.length command.commands 0 str
    some (1, ⟨i, commands⟩)

/-- The segments of the line are stored, in order, and counted. -/
def SplitsLine (line : List UInt8) (r : Option (Int × Command)) : Prop :=
  ∃ command, r = some (1, command) ∧ command.nCommands = (segments isDelimiter line).length ∧
    (command.commands.toList.take command.nCommands).map contents = segments isDelimiter line

/-! ### Storing -/

/-- The simple commands from `i` on are stored. -/
def storeAll : Vector (List UInt8) MAX_CMDS → Nat → List (List UInt8) →
    Option (Vector (List UInt8) MAX_CMDS × Nat)
  | commands, i, [] => some (commands, i)
  | commands, i, str :: strs => do
    let commands ← storeCommand commands i str
    storeAll commands (i + 1) strs

variable {commands : Vector (List UInt8) MAX_CMDS} {i : Nat} {line str : List UInt8}
  {strs : List (List UInt8)}

/-- The loop stores the segments of the line. -/
theorem storeLoop_eq {fuel : Nat} (h : line.length ≤ fuel) :
    storeLoop fuel commands i (strtok isDelimiter line) =
      storeAll commands i (segments isDelimiter line) := by
  induction fuel generalizing line commands i with
  | zero =>
    obtain rfl := List.length_eq_zero_iff.mp (Nat.le_zero.mp h)
    rfl
  | succ fuel ih =>
    rw [segments_eq_strtok]
    cases hstrtok : strtok isDelimiter line with
    | none => rfl
    | some r =>
      obtain ⟨str, rest⟩ := r
      have hlt := length_lt_of_strtok hstrtok
      show (storeCommand commands i str).bind _ = (storeCommand commands i str).bind _
      congr 1
      funext commands
      exact ih (by omega)

/-- **Step.**  A command is stored behind the others. -/
theorem storeCommand_eq (commands : Vector (List UInt8) MAX_CMDS) (hi : i < MAX_CMDS)
    (hnul : 0 ∉ str) (hlength : str.length < MAX_LEN) :
    ∃ commands', storeCommand commands i str = some commands' ∧
      (commands'.toList.take (i + 1)).map contents =
        (commands.toList.take i).map contents ++ [str] := by
  have hfit : str.length < (List.replicate MAX_LEN (0 : UInt8)).length := by
    rwa [List.length_replicate]
  have hsize : i < commands.toList.length := by simpa using hi
  refine ⟨_, by rw [storeCommand, dif_pos hi, sprintf, if_pos hfit, Option.map_some], ?_⟩
  rw [Vector.toList_set, List.take_add_one, List.take_set_of_le (Nat.le_refl i),
    List.getElem?_set_self hsize, Option.toList_some, List.map_append, List.map_singleton,
    contents_splice hnul]

theorem storeCommand_eq_none (hi : MAX_CMDS ≤ i) : storeCommand commands i str = none :=
  dif_neg (Nat.not_lt.mpr hi)

/-- **Run.**  Commands that there is room for are stored. -/
theorem storeAll_eq (commands : Vector (List UInt8) MAX_CMDS) (hroom : i + strs.length ≤ MAX_CMDS)
    (hstrs : ∀ str ∈ strs, 0 ∉ str ∧ str.length < MAX_LEN) :
    ∃ commands', storeAll commands i strs = some (commands', i + strs.length) ∧
      (commands'.toList.take (i + strs.length)).map contents =
        (commands.toList.take i).map contents ++ strs := by
  induction strs generalizing commands i with
  | nil => exact ⟨commands, rfl, by simp⟩
  | cons str strs ih =>
    rw [List.length_cons] at hroom ⊢
    obtain ⟨hnul, hlength⟩ := hstrs str List.mem_cons_self
    obtain ⟨commands₁, hstore, htake⟩ :=
      storeCommand_eq commands (show i < MAX_CMDS by omega) hnul hlength
    obtain ⟨commands₂, hrest, htake'⟩ := ih commands₁ (show i + 1 + strs.length ≤ MAX_CMDS by omega)
      (fun str hstr => hstrs str (List.mem_cons_of_mem _ hstr))
    have hsum : i + (strs.length + 1) = i + 1 + strs.length := by omega
    refine ⟨commands₂, ?_, ?_⟩
    · rw [storeAll, hstore, hsum]
      exact hrest
    · rw [hsum, htake', htake, List.append_assoc, List.singleton_append]

/-- If there is no room for all of them, the one behind the last entry is written. -/
theorem storeAll_eq_none (hi : i ≤ MAX_CMDS) (hroom : MAX_CMDS < i + strs.length)
    (hstrs : ∀ str ∈ strs, 0 ∉ str ∧ str.length < MAX_LEN) : storeAll commands i strs = none := by
  induction strs generalizing commands i with
  | nil =>
    rw [List.length_nil] at hroom
    omega
  | cons str strs ih =>
    rw [List.length_cons] at hroom
    rw [storeAll]
    by_cases hlt : i < MAX_CMDS
    · obtain ⟨hnul, hlength⟩ := hstrs str List.mem_cons_self
      obtain ⟨commands₁, hstore, -⟩ := storeCommand_eq commands hlt hnul hlength
      rw [hstore]
      exact ih (by omega) (by omega) (fun str hstr => hstrs str (List.mem_cons_of_mem _ hstr))
    · rw [storeCommand_eq_none (by omega)]
      rfl

/-! ### Leaving -/

/-- The word at the beginning of a line. -/
def firstWord (line : List UInt8) : List UInt8 := line.takeWhile (!isDelimiter ·)

/-- A text that begins with a delimiter is not `quit` or `exit`. -/
theorem isQuit_cons {c : UInt8} (hc : isDelimiter c = true) : isQuit (c :: line) = false := by
  have hcases : c = 59 ∨ c = 10 := by simpa [isDelimiter] using hc
  rcases hcases with rfl | rfl
  · simp [isQuit, sameIgnoringCase, ascii, tolower]
  · simp [isQuit, sameIgnoringCase, ascii, tolower]

theorem firstWord_cons {c : UInt8} (hc : isDelimiter c = true) : firstWord (c :: line) = [] :=
  List.takeWhile_cons_of_neg (by simp [hc])

/-- A text in front of which there are only delimiters. -/
theorem isQuit_append {skipped : List UInt8} (w rest : List UInt8)
    (hskipped : ∀ c ∈ skipped, isDelimiter c = true)
    (hfirst : skipped = [] → firstWord rest = w) :
    isQuit (skipped ++ w) = isQuit (firstWord (skipped ++ rest)) := by
  cases skipped with
  | nil => rw [List.nil_append, List.nil_append, hfirst rfl]
  | cons c skipped =>
    have hc := hskipped c List.mem_cons_self
    rw [List.cons_append, List.cons_append, isQuit_cons hc, firstWord_cons hc]
    rfl

/-- The comparisons are with the word at the beginning of the line. -/
theorem isQuit_firstText (line : List UInt8) :
    isQuit (firstText line) = isQuit (firstWord line) := by
  rw [firstText]
  cases hnext : next isDelimiter line with
  | none =>
    have hquit := isQuit_append [] [] (next_eq_none hnext) (fun _ => rfl)
    rwa [List.append_nil] at hquit
  | some r =>
    obtain ⟨w, rest⟩ := r
    obtain ⟨skipped, rfl, hskipped, -, hw, hrest⟩ := eq_of_next hnext
    have hlength : (skipped ++ (w ++ rest)).length - rest.length = (skipped ++ w).length := by
      simp only [List.length_append]
      omega
    have hword : firstWord (w ++ rest) = w :=
      (takeWhile_run (fun c hc => by simp [hw c hc]) fun c hc => by simp [hrest c hc]).1
    show isQuit (List.take _ _) = _
    rw [hlength, ← List.append_assoc, List.take_left, List.append_assoc]
    exact isQuit_append w (w ++ rest) hskipped (fun _ => hword)

/-! ### Lines -/

/-- **Splitting.**  A line is split into its segments exactly if there are at most 16 of them and it
    does not begin with `quit` or `exit`. -/
theorem parseCommand_splitsLine_iff (buffer : List UInt8) (command : Command)
    (hbuffer : buffer.length = 1024) (hnul : 0 ∈ buffer) :
    SplitsLine (contents buffer) (parseCommand buffer command) ↔
      (segments isDelimiter (contents buffer)).length ≤ MAX_CMDS ∧
        isQuit (firstWord (contents buffer)) = false := by
  have hline := length_contents_lt hnul
  rw [hbuffer] at hline
  have hstrs : ∀ str ∈ segments isDelimiter (contents buffer), 0 ∉ str ∧ str.length < MAX_LEN := by
    intro str hstr
    obtain ⟨-, -, hpart⟩ := of_mem_segments hstr
    exact ⟨fun h => zero_notMem_contents (hpart.subset h), hpart.length_le.trans_lt hline⟩
  rw [parseCommand]
  dsimp only
  rw [isQuit_firstText, storeLoop_eq (Nat.le_refl _)]
  cases hquit : isQuit (firstWord (contents buffer)) with
  -- For `quit` the client does not parse at all.
  | true =>
    rw [if_pos rfl]
    refine iff_of_false ?_ (fun h => Bool.false_ne_true h.2.symm)
    rintro ⟨command', heq, -⟩
    simp at heq
  | false =>
    rw [if_neg Bool.false_ne_true, and_iff_left rfl]
    by_cases hroom : (segments isDelimiter (contents buffer)).length ≤ MAX_CMDS
    · obtain ⟨commands, hstore, htake⟩ :=
        storeAll_eq command.commands (by rwa [Nat.zero_add]) hstrs
      rw [Nat.zero_add] at hstore htake
      rw [hstore]
      exact iff_of_true ⟨_, rfl, rfl, htake⟩ hroom
    -- The seventeenth command is stored behind the array.
    · rw [storeAll_eq_none (Nat.zero_le _) (by omega) hstrs]
      refine iff_of_false ?_ hroom
      rintro ⟨command', heq, -⟩
      simp at heq

/-- A line with two commands is split. -/
theorem parseCommand_splitsLine_two :
    SplitsLine (contents (ascii "ls;pwd\n" ++ List.replicate 1017 0))
      (parseCommand (ascii "ls;pwd\n" ++ List.replicate 1017 0) ⟨0, Vector.replicate 16 []⟩) :=
  (parseCommand_splitsLine_iff _ _
    (by rw [List.length_append, List.length_replicate]; decide)
    (List.mem_append_right _ (List.mem_replicate.mpr ⟨by decide, rfl⟩))).mpr
    ⟨by decide +kernel, by decide +kernel⟩

/-- A line with 17 commands: the last one is stored behind the array. -/
theorem not_parseCommand_splitsLine :
    ¬ ∀ (buffer : List UInt8) (command : Command), buffer.length = 1024 → 0 ∈ buffer →
      (∀ str ∈ (segments isDelimiter (contents buffer)).head?, isQuit str = false) →
      SplitsLine (contents buffer) (parseCommand buffer command) := by
  intro h
  have hnone : parseCommand (ascii "a;b;c;d;e;f;g;h;i;j;k;l;m;n;o;p;q\n" ++ List.replicate 990 0)
      ⟨0, Vector.replicate 16 []⟩ = none := by decide +kernel
  obtain ⟨command, heq, -⟩ := h
    (ascii "a;b;c;d;e;f;g;h;i;j;k;l;m;n;o;p;q\n" ++ List.replicate 990 0)
      ⟨0, Vector.replicate 16 []⟩
    (by rw [List.length_append, List.length_replicate]; decide)
    (List.mem_append_right _ (List.mem_replicate.mpr ⟨by decide, rfl⟩)) (by decide +kernel)
  rw [hnone] at heq
  cases heq

end WorkAtUPB.RemoteShell

import WorkAtUPB.Lib.CharArray
import WorkAtUPB.Lib.Stdio

namespace WorkAtUPB.RemoteShell

open CharArray Decimal Stdio

/-!
# RemoteShellRPC — the output of a command (`rserver.c`)

The server appends the output of a command to a buffer, a line of at most 127 bytes at a time, until
the buffer holds 1023 bytes.  It looks at the length only behind the line:

* `iteration`, `loop` — what the buffer is after each iteration; `none` is a write behind its end;
* `readOutput`, `executeStringCommand` — the buffer in the end, and the response;
* `StaysInside` — the buffer always holds a string, which is the lines that were read;
* `FitsFrom` — no line goes from below the limit to above it, and none has a zero byte;
* `buffers_staysInside_iff` — the one is equivalent to the other;
* `readOutput_prefix` — then the beginning of the output is shown.
-/

/-- The body of the loop, after `fgets` has put the line `w` into `__buffer`: the arrays `buffer`
    and `__buffer`, and whether the loop is left. -/
def iteration (buffer scratch w : List UInt8) : Option (List UInt8 × List UInt8 × Bool) := do
  let scratch ← sprintf scratch w
  let buffer ← strcat buffer scratch
  let length ← strlen buffer
  some (buffer, scratch, decide (1023 ≤ length))

/-- The array `buffer` after each iteration. -/
def loop (buffer scratch : List UInt8) : List (List UInt8) → List (Option (List UInt8))
  | [] => []
  | w :: ws =>
    match iteration buffer scratch w with
    | none => [none]
    | some (buffer, _, true) => [some buffer]
    | some (buffer, scratch, false) => some buffer :: loop buffer scratch ws

/-- The array `buffer` after each iteration, from `buffer[0] = '\0'` on. -/
def buffers (buffer scratch output : List UInt8) : List (Option (List UInt8)) :=
  loop (buffer.set 0 0) scratch (pieces 128 output)

/-- The array `buffer` behind the loop. -/
def readOutput (buffer scratch output : List UInt8) : Option (List UInt8) :=
  (buffers buffer scratch output).getLast?.getD (some (buffer.set 0 0))

/-- `execute_string_command`: the array `reponse->result`.  `popen` gives the output of a command
    and the result of `pclose`, or `none` if it fails. -/
def executeStringCommand (popen : List UInt8 → Option (List UInt8 × Int))
    (command buffer scratch result : List UInt8) : Option (List UInt8) := do
  let command ← strcat command (ascii " 2>&1" ++ [0])
  match popen (contents command) with
  | none => sprintf result (ascii "command execution failed!")
  | some (output, status) =>
    let buffer ← readOutput buffer scratch output
    snprintf result 1023
      (ascii "[" ++ intText status ++ ascii "] " ++ contents buffer ++ ascii "\n")

/-- The array holds the bytes as a string, which is at most 1023 bytes long. -/
def HoldsOutput (w : List UInt8) (b : Option (List UInt8)) : Prop :=
  ∃ a, b = some a ∧ (contents a).length ≤ 1023 ∧ contents a = w

/-- After each iteration the array holds `w` and the lines that have been read. -/
def StaysInside (w : List UInt8) (ws : List (List UInt8)) (bs : List (Option (List UInt8))) :
    Prop :=
  ∀ k b, bs[k]? = some b → HoldsOutput (w ++ (ws.take (k + 1)).flatten) b

/-- Behind `n` bytes: a line that is read goes up to 1023 bytes at most, and has no zero byte. -/
def FitsFrom (n : Nat) (ws : List (List UInt8)) : Prop :=
  ∀ k w, ws[k]? = some w → n + (ws.take k).flatten.length < 1023 →
    n + (ws.take k).flatten.length + w.length ≤ 1023 ∧ 0 ∉ w

/-! ### One iteration -/

variable {n : Nat} {buffer scratch w output : List UInt8} {ws : List (List UInt8)}
  {b : Option (List UInt8)} {bs : List (Option (List UInt8))}

/-- The first iteration, and the others. -/
theorem staysInside_cons {v : List UInt8} :
    StaysInside v (w :: ws) (b :: bs) ↔ HoldsOutput (v ++ w) b ∧ StaysInside (v ++ w) ws bs := by
  refine ⟨fun h => ⟨?_, fun k b hk => ?_⟩, fun ⟨hfirst, hrest⟩ k b' hk => ?_⟩
  · simpa using h 0 b rfl
  · simpa using h (k + 1) b hk
  · cases k with
    | zero =>
      obtain rfl := Option.some.inj hk
      simpa using hfirst
    | succ k => simpa using hrest k b' hk

theorem staysInside_nil (v : List UInt8) : StaysInside v ws [] := fun _ _ hk => nomatch hk

/-- The first line, and the others. -/
theorem fitsFrom_cons : FitsFrom n (w :: ws) ↔
    (n < 1023 → n + w.length ≤ 1023 ∧ 0 ∉ w) ∧ FitsFrom (n + w.length) ws := by
  refine ⟨fun h => ⟨?_, fun k w' hk hlt => ?_⟩, fun ⟨hfirst, hrest⟩ k w' hk => ?_⟩
  · simpa using h 0 w rfl
  · have hnext := h (k + 1) w' hk
    rw [List.take_succ_cons, List.flatten_cons, List.length_append, ← Nat.add_assoc] at hnext
    exact hnext hlt
  · cases k with
    | zero =>
      obtain rfl := Option.some.inj hk
      simpa using hfirst
    | succ k =>
      rw [List.take_succ_cons, List.flatten_cons, List.length_append, ← Nat.add_assoc]
      exact hrest k w' hk

theorem fitsFrom_nil : FitsFrom n [] := fun _ _ hk => nomatch hk

/-- Behind the limit nothing is read. -/
theorem fitsFrom_of_le (h : 1023 ≤ n) : FitsFrom n ws := fun _ _ _ hlt => by omega

/-- The arrays have their sizes, and there is a string in `buffer`. -/
structure Arrays (buffer scratch : List UInt8) : Prop where
  length_buffer : buffer.length = 1024
  terminated : 0 ∈ buffer
  length_scratch : scratch.length = 128

/-- `fgets` puts a line into `__buffer`. -/
theorem sprintf_scratch (hscratch : scratch.length = 128) (hw : w.length ≤ 127) :
    ∃ scratch', sprintf scratch w = some scratch' ∧ scratch'.length = 128 ∧ 0 ∈ scratch' ∧
      contents scratch' = contents w := by
  have hfit : w.length < scratch.length := by omega
  have hlen : 0 + (w ++ [0]).length ≤ scratch.length := by simp; omega
  refine ⟨_, if_pos hfit, ?_, ?_, ?_⟩
  · rw [Bytes.length_splice hlen, hscratch]
  · rw [Bytes.splice_zero]
    simp
  · rw [Bytes.splice_zero, List.append_assoc, List.singleton_append, contents_append_zero]

/-- **Step.**  A line that fits is appended. -/
theorem iteration_eq (h : Arrays buffer scratch) (hw : w.length ≤ 127)
    (hfit : (contents buffer).length + (contents w).length ≤ 1023) :
    ∃ buffer' scratch', iteration buffer scratch w =
        some (buffer', scratch', decide (1023 ≤ (contents buffer').length)) ∧
      Arrays buffer' scratch' ∧ contents buffer' = contents buffer ++ contents w := by
  obtain ⟨scratch', hsprintf, hlength, hnul, hcontents⟩ := sprintf_scratch h.length_scratch hw
  have hlt : (contents buffer).length + (contents scratch').length < buffer.length := by
    rw [hcontents, h.length_buffer]
    omega
  obtain ⟨buffer', hstrcat, hlength', hnul', hcontents'⟩ := strcat_eq h.terminated hnul hlt
  refine ⟨buffer', scratch', ?_, ⟨hlength'.trans h.length_buffer, hnul', hlength⟩, ?_⟩
  · rw [iteration, hsprintf, Option.bind_eq_bind, Option.bind_some, hstrcat, Option.bind_some,
      strlen, if_pos hnul']
    rfl
  · rw [hcontents', hcontents]

/-- A line that does not fit is written behind the end. -/
theorem iteration_eq_none (h : Arrays buffer scratch) (hw : w.length ≤ 127)
    (hfit : 1023 < (contents buffer).length + (contents w).length) :
    iteration buffer scratch w = none := by
  obtain ⟨scratch', hsprintf, hlength, hnul, hcontents⟩ := sprintf_scratch h.length_scratch hw
  have hle : buffer.length ≤ (contents buffer).length + (contents scratch').length := by
    rw [hcontents, h.length_buffer]
    omega
  rw [iteration, hsprintf, Option.bind_eq_bind, Option.bind_some, strcat_eq_none hle]
  rfl

theorem loop_cons_eq_none (h : iteration buffer scratch w = none) :
    loop buffer scratch (w :: ws) = [none] := by
  rw [loop, h]

theorem loop_cons_eq_some {buffer' scratch' : List UInt8} {left : Bool}
    (h : iteration buffer scratch w = some (buffer', scratch', left)) :
    loop buffer scratch (w :: ws) =
      some buffer' :: if left then [] else loop buffer' scratch' ws := by
  cases left with
  | true => rw [loop, h, if_pos rfl]
  | false => rw [loop, h, if_neg Bool.false_ne_true]

theorem not_holdsOutput_none (v : List UInt8) : ¬ HoldsOutput v none :=
  fun ⟨_, ha, _⟩ => nomatch ha

/-! ### All iterations -/

/-- **Run.**  By induction on the lines: the first one that does not fit, or has a zero byte, is
    also the first one behind which the buffer is not as it should be. -/
theorem staysInside_loop_iff (ws : List (List UInt8)) (h : Arrays buffer scratch)
    (hlt : (contents buffer).length < 1023)
    (hws : ∀ w ∈ ws, w.length ≤ 127) :
    StaysInside (contents buffer) ws (loop buffer scratch ws) ↔
      FitsFrom (contents buffer).length ws := by
  induction ws generalizing buffer scratch with
  | nil => exact iff_of_true (staysInside_nil _) fitsFrom_nil
  | cons w ws ih =>
    have hw : w.length ≤ 127 := hws w List.mem_cons_self
    have hws' : ∀ w ∈ ws, w.length ≤ 127 := fun w hw => hws w (List.mem_cons_of_mem _ hw)
    rw [fitsFrom_cons]
    by_cases hfit : (contents buffer).length + (contents w).length ≤ 1023
    · obtain ⟨buffer', scratch', hiteration, h', hcontents⟩ := iteration_eq h hw hfit
      have hlength : (contents buffer').length =
          (contents buffer).length + (contents w).length := by
        rw [hcontents, List.length_append]
      rw [loop_cons_eq_some hiteration, staysInside_cons]
      by_cases hnul : 0 ∈ w
      · -- Only a part of the line is in the buffer.
        have hne : contents w ≠ w := fun heq => contents_eq_self_iff.mp heq hnul
        refine iff_of_false ?_ (fun hfits => (hfits.1 hlt).2 hnul)
        rintro ⟨⟨a, ha, -, hcontents'⟩, -⟩
        obtain rfl := Option.some.inj ha
        exact hne (List.append_cancel_left (hcontents.symm.trans hcontents'))
      · have hself : contents w = w := contents_eq_self_iff.mpr hnul
        rw [hself] at hcontents hfit hlength
        have hsum : (contents buffer').length ≤ 1023 := hlength ▸ hfit
        have hfirst : HoldsOutput (contents buffer ++ w) (some buffer') :=
          ⟨buffer', rfl, hsum, hcontents⟩
        rw [and_iff_right hfirst, and_iff_right (fun _ => ⟨hfit, hnul⟩), ← hcontents, ← hlength]
        by_cases hfull : 1023 ≤ (contents buffer').length
        · rw [if_pos (decide_eq_true hfull)]
          exact iff_of_true (staysInside_nil _) (fitsFrom_of_le hfull)
        · rw [if_neg (by simpa using hfull)]
          exact ih h' (Nat.lt_of_not_le hfull) hws'
    · have hle : (contents w).length ≤ w.length := (List.takeWhile_prefix _).length_le
      rw [loop_cons_eq_none (iteration_eq_none h hw (Nat.lt_of_not_le hfit)), staysInside_cons]
      refine iff_of_false (fun hstays => not_holdsOutput_none _ hstays.1) (fun hfits => ?_)
      have hfits' := (hfits.1 hlt).1
      omega

/-- The arrays in front of the loop. -/
theorem arrays_init (hbuffer : buffer.length = 1024) (hscratch : scratch.length = 128) :
    Arrays (buffer.set 0 0) scratch ∧ contents (buffer.set 0 0) = [] := by
  obtain ⟨c, tail, rfl⟩ : ∃ c tail, buffer = c :: tail :=
    List.exists_cons_of_ne_nil (by rintro rfl; cases hbuffer)
  exact ⟨⟨by simpa using hbuffer, List.mem_cons_self, hscratch⟩, rfl⟩

/-- **The buffer.**  It always holds the lines that were read, within its bounds, exactly for
    outputs of which no line goes from below the limit to above it, and no line that is read has a
    zero byte. -/
theorem buffers_staysInside_iff (buffer scratch output : List UInt8)
    (hbuffer : buffer.length = 1024)
    (hscratch : scratch.length = 128) :
    StaysInside [] (pieces 128 output) (buffers buffer scratch output) ↔
      FitsFrom 0 (pieces 128 output) := by
  obtain ⟨hinit, hnil⟩ := arrays_init hbuffer hscratch
  have hiff := staysInside_loop_iff (pieces 128 output) hinit (by rw [hnil]; decide)
    (fun w hw => length_le_of_mem_pieces hw)
  rwa [hnil] at hiff

/-- An empty array holds an output of two lines. -/
theorem buffers_staysInside_lines :
    StaysInside [] (pieces 128 [97, 10, 98, 10])
      (buffers (List.replicate 1024 0) (List.replicate 128 0) [97, 10, 98, 10]) :=
  (buffers_staysInside_iff _ _ _ (List.length_replicate ..) (List.length_replicate ..)).mpr
    (fitsFrom_cons.mpr ⟨by decide, fitsFrom_cons.mpr ⟨by decide, fitsFrom_nil⟩⟩)

/-- A line of 1100 characters: the ninth piece of it is written behind the end of the buffer. -/
theorem not_buffers_staysInside :
    ¬ ∀ buffer scratch output : List UInt8, buffer.length = 1024 → scratch.length = 128 →
      StaysInside [] (pieces 128 output) (buffers buffer scratch output) := by
  intro h
  have hoverflow : (buffers (List.replicate 1024 0) (List.replicate 128 0)
      (List.replicate 1100 97))[8]? = some none := by decide +kernel
  exact not_holdsOutput_none _
    (h _ _ _ (List.length_replicate ..) (List.length_replicate ..) 8 none hoverflow)

/-- What is in the buffer in the end is the beginning of the output. -/
theorem readOutput_prefix (h : FitsFrom 0 (pieces 128 output)) (hbuffer : buffer.length = 1024)
    (hscratch : scratch.length = 128) :
    ∃ a, readOutput buffer scratch output = some a ∧ (contents a).length ≤ 1023 ∧
      contents a <+: output := by
  obtain ⟨hinit, hnil⟩ := arrays_init hbuffer hscratch
  have hstays := (staysInside_loop_iff (pieces 128 output) hinit (by rw [hnil]; decide)
    (fun w hw => length_le_of_mem_pieces hw)).mpr (by rwa [hnil])
  rw [hnil] at hstays
  rw [readOutput]
  cases hlast : (buffers buffer scratch output).getLast? with
  | none => exact ⟨_, rfl, by simp [hnil], by simp [hnil]⟩
  | some b =>
    rw [List.getLast?_eq_getElem?] at hlast
    obtain ⟨a, rfl, hlength, hcontents⟩ := hstays _ _ hlast
    refine ⟨a, rfl, hlength, ?_⟩
    rw [hcontents, List.nil_append]
    conv_rhs => rw [← flatten_pieces (n := 128) (by decide) output]
    exact (List.take_prefix _ _).flatten

end WorkAtUPB.RemoteShell

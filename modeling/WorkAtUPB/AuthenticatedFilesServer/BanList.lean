import WorkAtUPB.Lib.Run
import WorkAtUPB.AuthenticatedFilesServer.AuthorizationServer

namespace WorkAtUPB.AuthenticatedFilesServer

open Run Text

/-!
# The list of the banned clients

A ban adds a line to the file, and the timer that ends it takes nothing away: the file is the lines
of all bans there ever were.  Of the file, its first 1024 bytes are looked at:

* `Enforced` — a client for which a timer is set is not allowed access;
* `always_enforced_iff` — that is so as long as each ban is seen when it is added;
* `allowed_iff` — a client is allowed access if it is in none of the lines that are looked at;
* `never_allowed` — a ban that is seen does not end.
-/

/-- What the server has to do: a request, at a time, or the timer of a client. -/
inductive Action where
  | request (now : Nat) (line : List Char)
  | timer (clientName : List Char)

variable {E : Type*} {charset : Charset} {crypt : DESEncrypter E}

/-- A timer runs if it has been set. -/
def AuthorizationServer.step (charset : Charset) (crypt : DESEncrypter E)
    (s : AuthorizationServer E) : Action → Option (AuthorizationServer E)
  | .request now line => some (s.processRequest charset crypt now line).2
  | .timer clientName => if clientName ∈ s.timers then some (s.runTimer crypt clientName) else none

/-- The server before its first request: nobody is banned. -/
def AuthorizationServer.start (crypt : DESEncrypter E) : AuthorizationServer E :=
  ⟨crypt.encrypt [], []⟩

/-- The action is a request to ban the client. -/
def Action.Bans (a : Action) (clientName : List Char) : Prop :=
  ∃ now line, a = .request now line ∧ AuthenticatedFilesServer.Bans line clientName

namespace AuthorizationServer

variable {s s' : AuthorizationServer E} {a : Action}

/-- **One action.**  A ban adds its line and its timer, a timer that runs is gone, and all other
    requests change nothing. -/
theorem step_cases (hs : s.step charset crypt a = some s') :
    (∃ now line clientName, a = .request now line ∧ Bans line clientName ∧
      s' = s.ban charset crypt now clientName) ∨
    (∃ now line, a = .request now line ∧ (∀ clientName, ¬ Bans line clientName) ∧ s' = s) ∨
    (∃ clientName, a = .timer clientName ∧ s' = s.runTimer crypt clientName) := by
  cases a with
  | request now line =>
    obtain rfl := Option.some.inj hs
    by_cases hban : ∃ clientName, Bans line clientName
    · obtain ⟨clientName, hban⟩ := hban
      exact .inl ⟨now, line, clientName, rfl, hban, by rw [s.processRequest_ban hban]⟩
    · rw [not_exists] at hban
      exact .inr (.inl ⟨now, line, rfl, hban, s.processRequest_snd hban⟩)
  | timer clientName =>
    simp only [step] at hs
    split at hs
    · obtain rfl := Option.some.inj hs
      exact .inr (.inr ⟨clientName, rfl, rfl⟩)
    · cases hs

/-! ### What is seen of the file -/

/-- The client is seen in the file, and will be whatever is added. -/
def Lasting (charset : Charset) (crypt : DESEncrypter E) (s : AuthorizationServer E)
    (clientName : List Char) : Prop :=
  ∀ more, clientName <:+: charset.readText 1024 (s.bannedDecrypted crypt ++ more)

/-- The file is a text. -/
def IsText (charset : Charset) (crypt : DESEncrypter E) (s : AuthorizationServer E) : Prop :=
  ∃ text, s.bannedDecrypted crypt = charset.getBytes text

/-- If the action is a ban, its client is seen when its name is added to the file. -/
def Seen (charset : Charset) (crypt : DESEncrypter E) (s : AuthorizationServer E) (a : Action) :
    Prop :=
  ∀ clientName, a.Bans clientName →
    clientName <:+: charset.readText 1024 (s.bannedDecrypted crypt ++ charset.getBytes clientName)

theorem isText_step (h : IsText charset crypt s) (hs : s.step charset crypt a = some s') :
    IsText charset crypt s' := by
  obtain ⟨text, htext⟩ := h
  rcases step_cases hs with ⟨now, line, clientName, -, -, rfl⟩ | ⟨now, line, -, -, rfl⟩ |
    ⟨clientName, -, rfl⟩
  · exact ⟨text ++ banLine now clientName, by simp [htext]⟩
  · exact ⟨text, htext⟩
  · exact ⟨text, by rw [bannedDecrypted_runTimer, htext]⟩

/-- What lasts lasts. -/
theorem lasting_step {clientName : List Char} (h : Lasting charset crypt s clientName)
    (hs : s.step charset crypt a = some s') : Lasting charset crypt s' clientName := by
  rcases step_cases hs with ⟨now, line, clientName', -, -, rfl⟩ | ⟨now, line, -, -, rfl⟩ |
    ⟨clientName', -, rfl⟩
  · intro more
    rw [bannedDecrypted_ban, List.append_assoc]
    exact h _
  · exact h
  · intro more
    rw [bannedDecrypted_runTimer]
    exact h more

/-- Of a client that has just been banned, what is seen now will be seen, and was seen when its name
    was added. -/
theorem seen_ban_iff (h : IsText charset crypt s) (now : Nat) (clientName : List Char)
    (more : List UInt8) :
    clientName <:+: charset.readText 1024
        ((s.ban charset crypt now clientName).bannedDecrypted crypt ++ more) ↔
      clientName <:+: charset.readText 1024
        (s.bannedDecrypted crypt ++ charset.getBytes clientName) := by
  obtain ⟨text, htext⟩ := h
  rw [bannedDecrypted_ban, htext, banLine, ← charset.getBytes_append, ← charset.getBytes_append,
    List.append_assoc clientName, ← List.append_assoc text, charset.getBytes_append (text ++ _),
    List.append_assoc, charset.infix_readText_iff]

/-! ### Bans are enforced -/

/-- As long as a timer is set for a client, it is not allowed access, whatever it asks for. -/
def Enforced (charset : Charset) (crypt : DESEncrypter E) (s : AuthorizationServer E) : Prop :=
  ∀ now line serverDepartment clientName clientDepartment,
    Asks line serverDepartment clientName clientDepartment → clientName ∈ s.timers →
      (s.processRequest charset crypt now line).1 = .denied ∨
        (s.processRequest charset crypt now line).1 = .error

/-- The file is a text, in which every client that has a timer is seen and will be. -/
structure Lasts (charset : Charset) (crypt : DESEncrypter E) (s : AuthorizationServer E) :
    Prop where
  isText : IsText charset crypt s
  lasting : ∀ clientName ∈ s.timers, Lasting charset crypt s clientName

theorem Lasts.enforced (h : Lasts charset crypt s) : Enforced charset crypt s := by
  intro now line serverDepartment clientName clientDepartment hasks htimer
  refine s.processRequest_of_isBanned hasks ?_
  have hlasting := h.lasting clientName htimer []
  rwa [List.append_nil, ← isBanned_iff] at hlasting

/-- A client that is kept out is seen in the file. -/
theorem Enforced.isBanned (h : Enforced charset crypt s) {clientName : List Char}
    (htimer : clientName ∈ s.timers) (hword : clientName ≠ [] ∧ ' ' ∉ clientName) :
    s.isBanned charset crypt clientName = true := by
  have hasks := asks_askIT hword
  by_contra hbanned
  have hallowed : (s.processRequest charset crypt 0 (askIT clientName)).1 = .allowed :=
    (s.processRequest_allowed_iff hasks rfl rfl (Int.le_refl _)).mpr (Bool.eq_false_iff.mpr hbanned)
  rcases h 0 _ _ _ _ hasks htimer with hdenied | herror
  · simp [hallowed] at hdenied
  · simp [hallowed] at herror

/-- The clients with a timer last if each is seen when it is banned. -/
theorem lasts_step (h : Lasts charset crypt s) (hs : s.step charset crypt a = some s')
    (hseen : Seen charset crypt s a) : Lasts charset crypt s' := by
  refine ⟨isText_step h.isText hs, fun clientName htimer => ?_⟩
  rcases step_cases hs with ⟨now, line, banned, rfl, hban, rfl⟩ | ⟨now, line, -, -, rfl⟩ |
    ⟨clientName', -, rfl⟩
  · rw [timers_ban, List.mem_cons] at htimer
    rcases htimer with rfl | htimer
    · intro more
      exact (seen_ban_iff h.isText now clientName more).mpr
        (hseen clientName ⟨now, line, rfl, hban⟩)
    · exact lasting_step (h.lasting clientName htimer) hs
  · exact h.lasting clientName htimer
  · rw [timers_runTimer] at htimer
    exact lasting_step (h.lasting clientName (List.mem_of_mem_erase htimer)) hs

/-- An action keeps the bans enforced exactly if its client is seen when it is banned. -/
theorem enforced_step_iff (h : Lasts charset crypt s) (hs : s.step charset crypt a = some s') :
    Enforced charset crypt s' ↔ Seen charset crypt s a := by
  refine ⟨fun henforced => ?_, fun hseen => (lasts_step h hs hseen).enforced⟩
  rintro clientName ⟨now, line, rfl, hban⟩
  obtain rfl := Option.some.inj hs
  rw [s.processRequest_ban hban] at henforced
  have hbanned := henforced.isBanned (List.mem_cons_self ..) hban.isWord
  rw [isBanned_iff] at hbanned
  have hseen := seen_ban_iff h.isText now clientName []
  rw [List.append_nil] at hseen
  exact hseen.mp hbanned

theorem lasts_start : Lasts charset crypt (start crypt) where
  isText := ⟨[], crypt.decrypt_encrypt []⟩
  lasting := by
    intro clientName htimer
    cases htimer

/-- **Bans are enforced**, as long as their timers have not run, exactly in the runs in which every
    client that is banned is seen in the beginning of the file when its name is added. -/
theorem always_enforced_iff (charset : Charset) (crypt : DESEncrypter E) (as : List Action) :
    Always (step charset crypt) (Enforced charset crypt) (start crypt) as ↔
      EachStep (step charset crypt) (Seen charset crypt) (start crypt) as := by
  refine always_iff_eachStep (J := Lasts charset crypt) ?_ ?_ ?_ lasts_start lasts_start.enforced
  · exact fun s a s' h _ hs henforced => lasts_step h hs ((enforced_step_iff h hs).mp henforced)
  · exact fun s a s' h _ hs => enforced_step_iff h hs
  · rintro s a - - hstuck clientName ⟨now, line, rfl, -⟩
    cases hstuck

/-- A cipher that leaves everything as it is. -/
def plain : DESEncrypter (List UInt8) := ⟨id, id, fun _ => rfl⟩

/-- A run that begins with a ban. -/
theorem run_ban_cons {clientName : List Char} (h : clientName ≠ [] ∧ ' ' ∉ clientName)
    (now : Nat) (as : List Action) :
    run (step charset crypt) s (.request now (banRequest clientName) :: as) =
      run (step charset crypt) (s.ban charset crypt now clientName) as := by
  simp [step, processRequest_ban _ (bans_banRequest h)]

@[simp] theorem bannedDecrypted_start : (start crypt).bannedDecrypted crypt = [] :=
  crypt.decrypt_encrypt []

theorem length_getBytes_replicate (n : Nat) :
    (utf8.getBytes (List.replicate n 'a')).length = n := by
  have hone : utf8.encode 'a' = [97] := by decide
  rw [Charset.getBytes, List.flatMap_replicate, hone, List.flatten_replicate_singleton,
    List.length_replicate]

/-- Behind a name of 1024 bytes, no ban is seen. -/
theorem not_enforced : ¬ Always (step utf8 plain) (Enforced utf8 plain) (start plain)
    [.request 0 (banRequest (List.replicate 1024 'a')), .request 0 (banRequest ['b'])] := by
  intro h
  have hlong : List.replicate 1024 'a' ≠ [] ∧ ' ' ∉ List.replicate 1024 'a' :=
    ⟨List.ne_nil_of_length_pos (by rw [List.length_replicate]; decide),
      fun h => absurd (List.eq_of_mem_replicate h) (by decide)⟩
  have hb : ['b'] ≠ [] ∧ ' ' ∉ ['b'] := by decide
  have hbanned := (h.last ((run_ban_cons hlong 0 _).trans (run_ban_cons hb 0 []))).isBanned
    (List.mem_cons_self ..) hb
  rw [isBanned_iff, bannedDecrypted_ban, bannedDecrypted_ban, bannedDecrypted_start,
    List.nil_append, banLine, List.append_assoc, utf8.getBytes_append, List.append_assoc,
    utf8.readText_of_length_eq (length_getBytes_replicate 1024)] at hbanned
  exact absurd (List.eq_of_mem_replicate (hbanned.subset (List.mem_cons_self ..))) (by decide)

/-! ### Bans end -/

/-- The line that an action adds to the file. -/
def added : Action → List Char
  | .request now line =>
    match tokens line with
    | [first, clientName, _] => if first = banWord then banLine now clientName else []
    | _ => []
  | .timer _ => []

/-- The lines of the bans of a run, one after the other. -/
def banLines (as : List Action) : List Char := as.flatMap added

theorem added_of_bans {now : Nat} {line clientName : List Char} (h : Bans line clientName) :
    added (.request now line) = banLine now clientName := by
  obtain ⟨department, htokens⟩ := h
  simp [added, htokens]

theorem added_of_not_bans {now : Nat} {line : List Char}
    (h : ∀ clientName, ¬ Bans line clientName) : added (.request now line) = [] := by
  simp only [added]
  split
  · next first clientName department htokens =>
    refine if_neg fun hfirst => ?_
    rw [hfirst] at htokens
    exact h clientName ⟨department, htokens⟩
  · rfl

theorem bannedDecrypted_step (hs : s.step charset crypt a = some s') :
    s'.bannedDecrypted crypt = s.bannedDecrypted crypt ++ charset.getBytes (added a) := by
  rcases step_cases hs with ⟨now, line, clientName, rfl, hban, rfl⟩ | ⟨now, line, rfl, hnot, rfl⟩ |
    ⟨clientName, rfl, rfl⟩
  · rw [bannedDecrypted_ban, added_of_bans hban]
  · rw [added_of_not_bans hnot, charset.getBytes_nil, List.append_nil]
  · rw [bannedDecrypted_runTimer, added, charset.getBytes_nil, List.append_nil]

/-- **The file.**  It is the lines of all the bans there were. -/
theorem bannedDecrypted_run {as : List Action} (hrun : run (step charset crypt) s as = some s') :
    s'.bannedDecrypted crypt = s.bannedDecrypted crypt ++ charset.getBytes (banLines as) := by
  rw [run_flatMap (fun _ _ _ => bannedDecrypted_step) hrun]
  simp [banLines, Charset.getBytes, List.flatMap_assoc]

/-- **Bans touch their target, and end**, for a client that has the priority, exactly if its name
    is not in what is looked at of the lines of all the bans there were, whether their timers have
    run or not. -/
theorem allowed_iff (charset : Charset) (crypt : DESEncrypter E) {as : List Action}
    (hrun : run (step charset crypt) (start crypt) as = some s)
    {line serverDepartment clientName clientDepartment : List Char}
    (hasks : Asks line serverDepartment clientName clientDepartment)
    {serverPriority clientPriority : Int}
    (hserver : priorities.lookup serverDepartment = some serverPriority)
    (hclient : priorities.lookup clientDepartment = some clientPriority)
    (hpriority : serverPriority ≤ clientPriority) (now : Nat) :
    (s.processRequest charset crypt now line).1 = .allowed ↔
      ¬ clientName <:+: charset.readText 1024 (charset.getBytes (banLines as)) := by
  rw [s.processRequest_allowed_iff hasks hserver hclient hpriority, ← Bool.not_eq_true,
    isBanned_iff, bannedDecrypted_run hrun, bannedDecrypted_start, List.nil_append]

theorem allowed_iff_other : (((start plain).ban utf8 plain 0 ['b']).processRequest utf8 plain 1
      (askIT ['a'])).1 = .allowed ↔
    ¬ ['a'] <:+: utf8.readText 1024 (utf8.getBytes (banLines [.request 0 (banRequest ['b'])])) :=
  allowed_iff utf8 plain (run_ban_cons (by decide) 0 []) (asks_askIT (by decide)) rfl rfl
    (Int.le_refl _) 1

/-- The timer of a ban has run, and the client is denied access as before. -/
theorem not_allowed : ∃ s, run (step utf8 plain) (start plain)
      [.request 0 (banRequest ['b']), .timer ['b']] = some s ∧ s.timers = [] ∧
    Asks (askIT ['b']) "IT".toList ['b'] "IT".toList ∧
    (s.processRequest utf8 plain 20000 (askIT ['b'])).1 ≠ .allowed := by
  have hb : ['b'] ≠ [] ∧ ' ' ∉ ['b'] := by decide
  refine ⟨_, run_ban_cons hb 0 [.timer ['b']], by decide, asks_askIT hb, ?_⟩
  have hbegin := utf8.readText_of_le
    (show (utf8.getBytes (banLine 0 ['b'])).length ≤ 1024 by decide) []
  rw [Ne, processRequest_allowed_iff _ (asks_askIT hb) rfl rfl (Int.le_refl _),
    Bool.not_eq_false, isBanned_iff, bannedDecrypted_runTimer, bannedDecrypted_ban,
    bannedDecrypted_start, List.nil_append, ← List.append_nil (utf8.getBytes _)]
  exact (show ['b'] <:+: banLine 0 ['b'] by decide).trans hbegin.isInfix

/-- **No ban ends.**  A client that is seen when it is banned is never allowed access again. -/
theorem never_allowed (htext : IsText charset crypt s) {now : Nat} {line clientName : List Char}
    (hban : Bans line clientName) (hseen : Seen charset crypt s (.request now line))
    {as : List Action} (hrun : run (step charset crypt) s (.request now line :: as) = some s')
    {line' serverDepartment clientDepartment : List Char}
    (hasks : Asks line' serverDepartment clientName clientDepartment) (now' : Nat) :
    (s'.processRequest charset crypt now' line').1 = .denied ∨
      (s'.processRequest charset crypt now' line').1 = .error := by
  obtain ⟨t, ht, hrun⟩ := run_cons_eq_some.mp hrun
  obtain rfl := Option.some.inj ht
  rw [s.processRequest_ban hban] at hrun
  have hlasting : Lasting charset crypt (s.ban charset crypt now clientName) clientName :=
    fun more => (seen_ban_iff htext now clientName more).mpr
      (hseen clientName ⟨now, line, rfl, hban⟩)
  have hlast := run_invariant (fun _ _ _ h hs => lasting_step h hs) hlasting hrun []
  rw [List.append_nil, ← isBanned_iff] at hlast
  exact s'.processRequest_of_isBanned hasks hlast

end AuthorizationServer

end WorkAtUPB.AuthenticatedFilesServer

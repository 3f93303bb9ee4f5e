import WorkAtUPB.AuthenticatedFilesServer.Service

namespace WorkAtUPB.AuthenticatedFilesServer.Service

open Run CharStream Text

/-!
# Banned clients on all servers

A ban is a line in the file of the authorization server, in whose beginning every server has the
names of its clients looked for.  A server may have been answered before the ban:

* `KeptOut` — a client that has been banned is denied access by all servers;
* `always_keptOut_iff` — how long that is so;
* `Shut` — moreover no server has an answer that lets the client in;
* `neverReturns` — then no server ever serves it again.
-/

variable {D C F E : Type*} [DecidableEq D] [DecidableEq C] [DecidableEq F] {site : Site D F E}
  {s s' : State D C F E} {e : Event D C} {clientCN clientOU : List Char}

/-! ### Bans hold on all servers -/

/-- If the step is a ban, its client is seen when its name is added to the file. -/
def Seen (site : Site D F E) (s : State D C F E) (e : Event D C) : Prop :=
  ∀ a ∈ site.toAuthorization s e, AuthorizationServer.Seen site.charset site.crypt s.auth a

/-- A client that a handler has had banned is denied access, whichever server asks about it. -/
def KeptOut (site : Site D F E) (s : State D C F E) : Prop :=
  ∀ c conn, s.connection c = some conn → conn.handler = .banned →
    ∀ d clientOU now, Identity conn.clientName clientOU →
      (site.communicateWithAuth s.auth now (site.question d conn.clientName clientOU)).1 =
          .denied ∨
        (site.communicateWithAuth s.auth now (site.question d conn.clientName clientOU)).1 = .error

/-- Moreover every client that has been banned is seen in the file, and will be. -/
structure Lasts (site : Site D F E) (s : State D C F E) : Prop extends Inv site s where
  lasting : ∀ c conn, s.connection c = some conn → conn.handler = .banned →
    AuthorizationServer.Lasting site.charset site.crypt s.auth conn.clientName

omit [DecidableEq D] [DecidableEq F] in
/-- A client that is seen is denied access. -/
theorem denied_of_lasting {auth : AuthorizationServer E}
    (h : AuthorizationServer.Lasting site.charset site.crypt auth clientCN) (now : Nat) (d : D)
    (hid : Identity clientCN clientOU) :
    (site.communicateWithAuth auth now (site.question d clientCN clientOU)).1 = .denied ∨
      (site.communicateWithAuth auth now (site.question d clientCN clientOU)).1 = .error := by
  refine auth.processRequest_of_isBanned (site.asks_question d hid) ?_
  have hseen := h []
  rwa [List.append_nil, ← AuthorizationServer.isBanned_iff] at hseen

omit [DecidableEq D] [DecidableEq C] [DecidableEq F] in
/-- Who is banned is kept out. -/
theorem Lasts.keptOut (h : Lasts site s) : KeptOut site s :=
  fun c conn hc hbanned d _ now hid => denied_of_lasting (h.lasting c conn hc hbanned) now d hid

/-- A client that is seen in the file stays there. -/
theorem lasting_of_step (h : AuthorizationServer.Lasting site.charset site.crypt s.auth clientCN)
    (hs : site.step s e = some s') :
    AuthorizationServer.Lasting site.charset site.crypt s'.auth clientCN :=
  run_invariant (fun _ _ _ h hs => AuthorizationServer.lasting_step h hs) h (step_auth hs)

/-- A handler that has had its client banned has done so before, or in this step. -/
theorem banned_cases (hs : site.step s e = some s') {c : C} {conn : Connection D}
    (hc : s'.connection c = some conn) (hbanned : conn.handler = .banned) :
    s.connection c = some conn ∨
      ∃ now old sent, e = .bans c now ∧ s.connection c = some old ∧ old.handler = .banning sent ∧
        conn = { old with handler := .banned } := by
  have hset {t : State D C F E} {u : C} {other : Connection D} (hother : other.handler ≠ .banned)
      (ht : (t.setConnection u other).connection c = some conn) : t.connection c = some conn := by
    rcases t.connection_setConnection ht with ⟨-, rfl⟩ | hold
    · exact absurd hbanned hother
    · exact hold
  cases effect_of_step hs with
  | turnsAway | connects | asks | denies | fails | timer => exact .inl hc
  | admits => exact .inl (hset (by simp) hc)
  | serves _ _ hnot => exact .inl (hset hnot hc)
  | givesUp => exact .inl (hset (by simp) hc)
  | @bans u now old sent hu hbanning =>
    rcases State.connection_setConnection _ hc with ⟨rfl, rfl⟩ | hold
    · exact .inr ⟨now, old, sent, rfl, hu, hbanning, rfl⟩
    · exact .inl hold

/-- What a handler sends to have its client banned is a ban of this client. -/
theorem bans_step (h : Inv site s) {c : C} {conn : Connection D} {sent : List CodeUnit} {now : Nat}
    (hc : s.connection c = some conn) (hbanning : conn.handler = .banning sent)
    (hs : site.step s (.bans c now) = some s') :
    (Seen site s (.bans c now) ↔ conn.clientName <:+: site.charset.readText 1024
        (s.auth.bannedDecrypted site.crypt ++ site.charset.getBytes conn.clientName)) ∧
      s'.auth = s.auth.ban site.charset site.crypt now conn.clientName ∧
      s'.connection c = some { conn with handler := .banned } := by
  have hsound := h.connection c conn hc
  have hsent := hsound.banning sent hbanning
  have hbans := bans_received hsound.read
  rw [← hsent] at hbans
  refine ⟨?_, ?_⟩
  · simp only [Seen, Site.toAuthorization, hc, Option.map_some, hbanning, List.mem_singleton,
      forall_eq, AuthorizationServer.Seen]
    constructor
    · exact fun hseen => hseen _ ⟨now, _, rfl, hbans⟩
    -- The message has one reading, which names the client of the handler.
    · rintro hseen clientName ⟨now', line, heq, hline⟩
      cases heq
      obtain ⟨department, htokens⟩ := hbans
      obtain ⟨department', htokens'⟩ := hline
      cases htokens.symm.trans htokens'
      exact hseen
  · simp only [Site.step, hc, Option.bind_some, hbanning, Option.some.injEq] at hs
    subst hs
    refine ⟨?_, by simp [State.setConnection]⟩
    exact (congrArg (fun sent => (site.communicateWithAuth s.auth now sent).2) hsent).trans
      (site.communicateWithAuth_ban s.auth now hsound.read)

/-- Steps that keep the clients out that have been banned are seen. -/
theorem lasts_step (h : Lasts site s) (hs : site.step s e = some s') (hseen : Seen site s e) :
    Lasts site s' := by
  refine ⟨inv_step h.toInv hs, fun c conn hc hbanned => ?_⟩
  rcases banned_cases hs hc hbanned with hold | ⟨now, old, sent, rfl, hold, hbanning, rfl⟩
  · exact lasting_of_step (h.lasting c conn hold hbanned) hs
  · obtain ⟨hiff, hauth, -⟩ := bans_step h.toInv hold hbanning hs
    intro more
    rw [hauth]
    exact (AuthorizationServer.seen_ban_iff h.isText now old.clientName more).mpr (hiff.mp hseen)

omit [DecidableEq D] [DecidableEq C] [DecidableEq F] in
/-- Only a handler has clients banned. -/
theorem seen_of_ne_bans (h : Inv site s) (he : ∀ c now, e ≠ .bans c now) : Seen site s e := by
  cases e with
  | connects | hears | serves | fails | givesUp =>
    intro a ha
    cases ha
  | timer =>
    intro a ha clientName hbans
    obtain ⟨now, line, heq, -⟩ := hbans
    rw [List.mem_singleton.mp ha] at heq
    cases heq
  | asks d now =>
    cases hl : s.listener d with
    | accepting | answered | returned => simp [Seen, Site.toAuthorization, hl]
    | asking clientDN clientCN clientOU =>
      have hid : Identity clientCN clientOU := ⟨clientDN, h.identity hl⟩
      simp only [Seen, Site.toAuthorization, hl, List.mem_singleton, forall_eq]
      rintro clientName ⟨now', line, heq, hbans⟩
      cases heq
      exact absurd hbans ((site.asks_question d hid).not_bans clientName)
  | bans c now => exact absurd rfl (he c now)

/-- A step that keeps the clients out that have been banned is seen. -/
theorem seen_of_keptOut (h : Lasts site s) (hs : site.step s e = some s')
    (hout : KeptOut site s') : Seen site s e := by
  cases effect_of_step hs with
  | turnsAway | connects | asks | denies | admits | serves | fails | givesUp | timer =>
    exact seen_of_ne_bans h.toInv (by simp)
  | @bans c now conn sent hc hbanning =>
    obtain ⟨hiff, hauth, hconn⟩ := bans_step h.toInv hc hbanning hs
    have hsound := h.connection c conn hc
    -- The client is not allowed access to the server that it was permitted to use.
    have hdenied := hout c _ hconn rfl conn.server conn.department now hsound.read
    obtain ⟨serverPriority, clientPriority, hserver, hclient, hle⟩ := hsound.permitted
    have hallowed : (site.communicateWithAuth
        (s.auth.ban site.charset site.crypt now conn.clientName) now
        (site.question conn.server conn.clientName conn.department)).1 = .allowed ↔
          (s.auth.ban site.charset site.crypt now conn.clientName).isBanned site.charset site.crypt
            conn.clientName = false :=
      AuthorizationServer.processRequest_allowed_iff _
        (site.asks_question conn.server hsound.read) hserver hclient hle
    have hbanned : AuthorizationServer.isBanned site.charset site.crypt
        (s.auth.ban site.charset site.crypt now conn.clientName) conn.clientName = true := by
      by_contra hnot
      have hyes := hallowed.mpr (Bool.eq_false_iff.mpr hnot)
      rw [hauth] at hdenied
      rcases hdenied with hdenied | hdenied
      · cases hyes.symm.trans hdenied
      · cases hyes.symm.trans hdenied
    rw [AuthorizationServer.isBanned_iff] at hbanned
    have hseen := AuthorizationServer.seen_ban_iff h.isText now conn.clientName []
    rw [List.append_nil] at hseen
    exact hiff.mpr (hseen.mp hbanned)

omit [DecidableEq D] [DecidableEq C] [DecidableEq F] in
/-- Nobody is banned at first. -/
theorem lasts_start (store : F → List UInt8) (uploadedFiles : D → List ListOpRecord) :
    Lasts site (site.start store uploadedFiles : State D C F E) :=
  ⟨inv_start store uploadedFiles, fun c conn hc => by cases hc⟩

/-- A step that is not possible shows nothing. -/
theorem seen_of_stuck (h : Inv site s) (hs : site.step s e = none) : Seen site s e := by
  by_cases he : ∃ c now, e = .bans c now
  · obtain ⟨c, now, rfl⟩ := he
    cases hc : s.connection c with
    | none => simp [Seen, Site.toAuthorization, hc]
    | some conn =>
      cases hh : conn.handler with
      | banning => simp [Site.step, hc, hh] at hs
      | reading | banned | returned => simp [Seen, Site.toAuthorization, hc, hh]
  · exact seen_of_ne_bans h fun c now hbans => he ⟨c, now, hbans⟩

/-- The IT department. -/
def itDepartment : Department where
  name := "IT".toList
  ne_nil := by decide
  plain := by simp [Plain, isDelimiter]
  ne_ban := by decide

/-- A site whose clients are of one kind. -/
def itSite : Site Unit Unit (List UInt8) :=
  ⟨fun _ => itDepartment, oneFile, utf8, AuthorizationServer.plain⟩

/-- It has no files at first. -/
def itStart : State Unit Bool Unit (List UInt8) := itSite.start (fun _ => []) fun _ => []

/-- The subject name of a client of the department. -/
def itName : List Char := subjectName ['b'] "IT".toList []

/-- A client of the IT department uploads an illegal string, and is banned. -/
def refused : List (Event Unit Bool) :=
  [.connects () itName, .asks () 0,
    .hears () true (uploadCommand ++ newline :: (uploadRequest "greva").stream), .serves true,
    .bans true 0]

/-- Nobody is in an empty file. -/
theorem isBanned_start {c : Char} (hc : c ≠ '\x00') :
    (AuthorizationServer.start AuthorizationServer.plain).isBanned utf8 AuthorizationServer.plain
      [c] = false := by
  have hzeros : utf8.getBytes (List.replicate 1024 '\x00') = List.replicate 1024 0 := by
    have hone : utf8.encode '\x00' = [0] := by decide
    rw [Charset.getBytes, List.flatMap_replicate, hone, List.flatten_replicate_singleton]
  have htext := utf8.decode_getBytes_append (List.replicate 1024 '\x00') []
  rw [List.append_nil, utf8.decode_nil, List.append_nil, hzeros] at htext
  rw [Bool.eq_false_iff, Ne, AuthorizationServer.isBanned_iff,
    AuthorizationServer.bannedDecrypted_start, Charset.readText, List.take_nil, List.nil_append,
    List.length_nil, Nat.sub_zero, htext]
  exact fun h => hc (List.eq_of_mem_replicate (h.subset List.mem_cons_self))

/-- The client is allowed access, since nobody is banned. -/
theorem communicateWithAuth_itStart :
    itSite.communicateWithAuth itStart.auth 0 (itSite.question () ['b'] "IT".toList) =
      (.allowed, itStart.auth) := by
  have hid : Identity ['b'] "IT".toList := ⟨itName, by decide⟩
  have hasks := itSite.asks_question () hid
  refine Prod.ext ?_ (AuthorizationServer.processRequest_snd _ hasks.not_bans)
  exact (AuthorizationServer.processRequest_allowed_iff _ hasks rfl rfl (Int.le_refl _)).mpr
    (isBanned_start (by decide))

/-- The handler of the client, in a state. -/
def itConnection (handler : Handler) : Connection Unit := ⟨(), itName, ['b'], "IT".toList, handler⟩

/-- The handler refuses the upload, whatever the files are. -/
theorem step_serves_refused {t : State Unit Bool Unit (List UInt8)}
    (hc : t.connection true = some (itConnection
      (.reading (uploadCommand ++ newline :: (uploadRequest "greva").stream)))) :
    itSite.step t (.serves true) = some ((t.setServer () (t.server ())).setConnection true
      (itConnection (.banning (utf16 (message banWord ['b'] "IT".toList))))) := by
  rw [Site.step, hc]
  rfl

/-- The handler is about to have its client banned, and then it has. -/
theorem run_refused : ∃ s s' : State Unit Bool Unit (List UInt8),
    run itSite.step itStart (refused.take 4) = some s ∧ itSite.step s (.bans true 0) = some s' ∧
      s.auth = itStart.auth ∧ s'.listener () = .accepting ∧ s'.connection false = none ∧
      s.connection true =
        some (itConnection (.banning (utf16 (message banWord ['b'] "IT".toList)))) := by
  have hconnects : itSite.step itStart (.connects () itName) =
      some (itStart.setListener () (.asking itName ['b'] "IT".toList)) := rfl
  have hasks {t : State Unit Bool Unit (List UInt8)} {response : Answer}
      (hl : t.listener () = .asking itName ['b'] "IT".toList)
      (hreply : itSite.communicateWithAuth t.auth 0 (itSite.question () ['b'] "IT".toList) =
        (response, t.auth)) : itSite.step t (.asks () 0) =
          some (t.setListener () (.answered itName ['b'] "IT".toList response)) := by
    simp only [Site.step, hl, hreply]
  have hbans {t : State Unit Bool Unit (List UInt8)} {sent : List CodeUnit}
      (hc : t.connection true = some (itConnection (.banning sent))) :
      itSite.step t (.bans true 0) =
        some ({ t with auth := (itSite.communicateWithAuth t.auth 0 sent).2 }.setConnection true
          (itConnection .banned)) := by
    rw [Site.step, hc]
    rfl
  exact ⟨_, _, run_cons_eq_some.mpr ⟨_, hconnects, run_cons_eq_some.mpr
    ⟨_, hasks rfl communicateWithAuth_itStart, run_cons_eq_some.mpr ⟨_, rfl,
      run_cons_eq_some.mpr ⟨_, step_serves_refused rfl, rfl⟩⟩⟩⟩, hbans rfl, rfl, rfl, rfl, rfl⟩

/-! ### No server lets a banned client in -/

/-- The client is seen in the file, and no server has an answer that lets it in. -/
structure Shut (site : Site D F E) (s : State D C F E) (clientName : List Char) : Prop where
  lasting : AuthorizationServer.Lasting site.charset site.crypt s.auth clientName
  answered : ∀ d clientDN clientOU response,
    s.listener d = .answered clientDN clientName clientOU response →
      response = .denied ∨ response = .error

/-- **Step.**  A handler that is shut stays so. -/
theorem shut_step {clientName : List Char} (hinv : Inv site s) (h : Shut site s clientName)
    (hs : site.step s e = some s') : Shut site s' clientName := by
  refine ⟨lasting_of_step h.lasting hs, ?_⟩
  have hset {t : State D C F E} {u : D} {listener : Listener} (ht : t.listener = s.listener)
      (hlistener : ∀ clientDN clientOU response,
        listener = .answered clientDN clientName clientOU response →
          response = .denied ∨ response = .error) (d : D) (clientDN clientOU : List Char)
      (response : Answer)
      (hd : (t.setListener u listener).listener d =
        .answered clientDN clientName clientOU response) :
      response = .denied ∨ response = .error := by
    rcases t.listener_setListener hd with ⟨-, hsame⟩ | hold
    · exact hlistener _ _ _ hsame
    · exact h.answered _ _ _ _ (ht ▸ hold)
  cases effect_of_step hs with
  | serves | bans | givesUp | timer => exact h.answered
  | turnsAway | connects | denies | fails => exact hset rfl (by simp)
  | admits =>
    intro d clientDN clientOU response hd
    exact hset rfl (by simp) d clientDN clientOU response hd
  | @asks u now clientDN clientCN clientOU hl =>
    refine hset rfl fun clientDN' clientOU' response hanswer => ?_
    cases hanswer
    exact denied_of_lasting h.lasting now u ⟨clientDN, hinv.identity hl⟩

/-- A handler is started for a client for which a server has been answered. -/
theorem started_cases (hs : site.step s e = some s') {c : C} {conn : Connection D}
    (hc : s'.connection c = some conn) :
    (∃ old, s.connection c = some old ∧ old.clientName = conn.clientName) ∨
      ∃ d clientDN clientOU response,
        s.listener d = .answered clientDN conn.clientName clientOU response ∧
        ¬ (response = .denied ∨ response = .error) := by
  have hset {t : State D C F E} {u : C} {old other : Connection D}
      (hc : (t.setConnection u other).connection c = some conn) (hu : s.connection u = some old)
      (hname : other.clientName = old.clientName) (ht : t.connection = s.connection) :
      ∃ old, s.connection c = some old ∧ old.clientName = conn.clientName := by
    rcases t.connection_setConnection hc with ⟨rfl, rfl⟩ | hold
    · exact ⟨old, hu, hname.symm⟩
    · exact ⟨conn, ht ▸ hold, rfl⟩
  cases effect_of_step hs with
  | turnsAway | connects | asks | denies | fails | timer => exact .inl ⟨conn, hc, rfl⟩
  | serves hu => exact .inl (hset hc hu rfl rfl)
  | bans hu => exact .inl (hset hc hu rfl rfl)
  | givesUp hu => exact .inl (hset hc hu rfl rfl)
  | @admits d u stream clientDN clientCN clientOU response hl hresponse hfree =>
    rcases State.connection_setConnection _ hc with ⟨-, rfl⟩ | hold
    · exact .inr ⟨d, clientDN, clientOU, response, hl, hresponse⟩
    · exact .inl ⟨conn, hold, rfl⟩

/-- The timer of the ban runs, and the client connects again. -/
def comesBack : List (Event Unit Bool) :=
  [.timer ['b'], .connects () itName, .asks () 1, .hears () false []]

/-- The client is turned away. -/
theorem run_comesBack {t : State Unit Bool Unit (List UInt8)} (hl : t.listener () = .accepting)
    (htimer : ['b'] ∈ t.auth.timers)
    (hlasting : AuthorizationServer.Lasting itSite.charset itSite.crypt t.auth ['b']) :
    ∃ t', run itSite.step t comesBack = some t' ∧ t'.connection = t.connection := by
  have hstep : itSite.step t (.timer ['b']) =
      some { t with auth := t.auth.runTimer itSite.crypt ['b'] } := by
    simp [Site.step, AuthorizationServer.step, htimer]
  have hid : Identity ['b'] "IT".toList := ⟨itName, by decide⟩
  have hdenied := denied_of_lasting (lasting_of_step hlasting hstep) 1 () hid
  have hconnects {u : State Unit Bool Unit (List UInt8)} (hu : u.listener () = .accepting) :
      itSite.step u (.connects () itName) =
        some (u.setListener () (.asking itName ['b'] "IT".toList)) := by
    simp only [Site.step, hu]
    rfl
  have hhears {u : State Unit Bool Unit (List UInt8)} {response : Answer}
      (hu : u.listener () = .answered itName ['b'] "IT".toList response)
      (hresponse : response = .denied ∨ response = .error) :
      itSite.step u (.hears () false []) = some (u.setListener () .accepting) := by
    simp only [Site.step, hu, if_pos hresponse]
  exact ⟨_, run_cons_eq_some.mpr ⟨_, hstep, run_cons_eq_some.mpr ⟨_, hconnects hl,
    run_cons_eq_some.mpr ⟨_, rfl, run_cons_eq_some.mpr ⟨_, hhears rfl hdenied, rfl⟩⟩⟩⟩, rfl⟩

end WorkAtUPB.AuthenticatedFilesServer.Service

import WorkAtUPB.AuthenticatedFilesServer.BanList
import WorkAtUPB.AuthenticatedFilesServer.ClientIdentity
import WorkAtUPB.AuthenticatedFilesServer.Downloads

namespace WorkAtUPB.AuthenticatedFilesServer.Service

open Run CharStream Text

/-!
# The servers together (`Server.java`, `AuthorizationServer.java`)

The servers of the departments ask the authorization server about each client that connects, and
start a connection handler for it unless it is denied access; a handler whose client has sent what
it must not send has the client banned.  All of them go on at their own pace:

* `received` — what the authorization server reads of a message;
* `Site.step` — what the threads do, one at a time and in any order;
* `effect_of_step` — what the steps do;
* `step_auth` — the steps of the authorization server among them;
* `Inv`, `Connected` — the threads go by the certificates with which clients have connected;
* `always_inv` — who is served, and who is banned.
-/

/-- A department: its name is one word, and not the one that bans clients. -/
structure Department where
  name : List Char
  ne_nil : name ≠ []
  plain : Plain name
  ne_ban : name ≠ banWord

/-- The servers `D` of the departments, the directory that they share, and how the authorization
    server keeps its file. -/
structure Site (D F E : Type*) where
  department : D → Department
  downloads : Downloads F
  charset : Charset
  crypt : DESEncrypter E

/-- Where the thread of a server is: it waits for a client, for what is answered about the one with
    the subject name `clientDN`, has been answered, or has returned. -/
inductive Listener where
  | accepting
  | asking (clientDN clientCN clientOU : List Char)
  | answered (clientDN clientCN clientOU : List Char) (response : Answer)
  | returned

/-- Where a connection handler is: it reads what its client sends, waits for the answer to its
    message, has had its client banned, or has returned. -/
inductive Handler where
  | reading (stream : List CodeUnit)
  | banning (message : List CodeUnit)
  | banned
  | returned

/-- A connection handler, with its server and its client, whose certificate has the subject name
    `clientDN`. -/
structure Connection (D : Type*) where
  server : D
  clientDN : List Char
  clientName : List Char
  department : List Char
  handler : Handler

/-- The threads, the files, and the list of each server. -/
structure State (D C F E : Type*) where
  auth : AuthorizationServer E
  listener : D → Listener
  connection : C → Option (Connection D)
  store : F → List UInt8
  uploadedFiles : D → List ListOpRecord

/-- A client connects to a server, the authorization server answers, the server hears it, a handler
    serves a request, has its client banned, a server or a handler gets no answer, or a timer
    runs. -/
inductive Event (D C : Type*) where
  | connects (d : D) (clientDN : List Char)
  | asks (d : D) (now : Nat)
  | hears (d : D) (c : C) (stream : List CodeUnit)
  | serves (c : C)
  | bans (c : C) (now : Nat)
  | fails (d : D)
  | givesUp (c : C)
  | timer (clientName : List Char)

/-! ### What the authorization server reads -/

/-- What the authorization server reads of a message, which ends with a line break. -/
def received (message : List CodeUnit) : List Char :=
  ofUtf16 (takeLine (carry (message ++ [newline]))).1

/-- A text without line breaks is read as it was sent. -/
theorem received_utf16 {text : List Char} (h : ∀ c ∈ text, c ≠ '\n' ∧ c ≠ '\r') :
    received (utf16 text) = text := by
  have hnewline : newline ∉ utf16 text :=
    notMem_utf16 (by decide) fun c hc hn => (h c hc).1 (Char.toNat_inj.mp hn)
  have hreturn : carriageReturn ∉ utf16 text :=
    notMem_utf16 (by decide) fun c hc hn => (h c hc).2 (Char.toNat_inj.mp hn)
  have hcarry : carry (utf16 text ++ [newline]) = utf16 text ++ [newline] := by
    rw [carry_append (by decide), carry_utf16]
    rfl
  have hline := readLine_append hnewline hreturn []
  rw [readLine, if_neg (by simp), Option.some.injEq] at hline
  rw [received, hcarry, hline, ofUtf16_utf16]

/-- The name and the department are those of a certificate. -/
def Identity (clientCN clientOU : List Char) : Prop :=
  ∃ clientDN, clientIdentity clientDN = some (clientCN, clientOU)

variable {name clientCN clientOU : List Char}

/-- The authorization server reads the name and the identity that were sent. -/
theorem received_message (hname : Plain name) (h : Identity clientCN clientOU) :
    received (utf16 (message name clientCN clientOU)) = message name clientCN clientOU := by
  obtain ⟨clientDN, hdn⟩ := h
  obtain ⟨⟨-, hcn⟩, -, hou⟩ := plain_of_clientIdentity hdn
  have hbreak {c : Char} (hc : isDelimiter c = false) : c ≠ '\n' ∧ c ≠ '\r' := by
    constructor
    · rintro rfl
      exact absurd hc (by decide)
    · rintro rfl
      exact absurd hc (by decide)
  refine received_utf16 fun c hc => ?_
  simp only [message, List.mem_append, List.mem_cons] at hc
  rcases hc with hc | rfl | hc | rfl | hc
  · exact hbreak (hname c hc)
  · decide
  · exact hbreak (hcn c hc)
  · decide
  · exact hbreak (hou c hc)

/-- The message of a handler bans its client. -/
theorem bans_received (h : Identity clientCN clientOU) :
    Bans (received (utf16 (message banWord clientCN clientOU))) clientCN := by
  have hplain : Plain banWord := by simp [Plain, banWord, isDelimiter]
  rw [received_message hplain h]
  obtain ⟨clientDN, hdn⟩ := h
  exact ⟨clientOU, tokens_message (by decide) hdn⟩

variable {D F E : Type*} (site : Site D F E)

namespace Site

/-- `communicateWithAuth`, on the side of the authorization server. -/
def communicateWithAuth (auth : AuthorizationServer E) (now : Nat) (message : List CodeUnit) :
    Answer × AuthorizationServer E :=
  auth.processRequest site.charset site.crypt now (received message)

/-- What a server asks about a client. -/
def question (d : D) (clientCN clientOU : List Char) : List CodeUnit :=
  utf16 (message (site.department d).name clientCN clientOU)

/-- The question of a server is about its client. -/
theorem asks_question (d : D) (h : Identity clientCN clientOU) :
    Asks (received (site.question d clientCN clientOU)) (site.department d).name
      clientCN clientOU := by
  have hword : (site.department d).name ≠ [] ∧ ' ' ∉ (site.department d).name :=
    ⟨(site.department d).ne_nil, fun hmem => absurd ((site.department d).plain _ hmem) (by decide)⟩
  rw [question, received_message (site.department d).plain h]
  obtain ⟨clientDN, hdn⟩ := h
  exact asks_message hword (site.department d).ne_ban hdn

/-- A question changes nothing, and a client that is allowed access is permitted, and not
    banned. -/
theorem communicateWithAuth_question (auth : AuthorizationServer E) (now : Nat) (d : D)
    (h : Identity clientCN clientOU) :
    (site.communicateWithAuth auth now (site.question d clientCN clientOU)).2 = auth ∧
      (((site.communicateWithAuth auth now (site.question d clientCN clientOU)).1 = .allowed ∧
          Permitted (site.department d).name clientOU ∧
          auth.isBanned site.charset site.crypt clientCN = false) ∨
        (site.communicateWithAuth auth now (site.question d clientCN clientOU)).1 = .denied ∨
        (site.communicateWithAuth auth now (site.question d clientCN clientOU)).1 = .error) :=
  ⟨auth.processRequest_snd (site.asks_question d h).not_bans,
    auth.processRequest_cases (site.asks_question d h)⟩

/-- The message of a handler has its client banned. -/
theorem communicateWithAuth_ban (auth : AuthorizationServer E) (now : Nat)
    (h : Identity clientCN clientOU) :
    (site.communicateWithAuth auth now (utf16 (message banWord clientCN clientOU))).2 =
      auth.ban site.charset site.crypt now clientCN := by
  rw [communicateWithAuth, auth.processRequest_ban (bans_received h)]

end Site

/-! ### The threads -/

variable {C : Type*} [DecidableEq D] [DecidableEq C] [DecidableEq F]

namespace State

variable (s : State D C F E)

/-- One handler of the authorization server is somewhere else. -/
def setListener (d : D) (listener : Listener) : State D C F E :=
  { s with listener := Function.update s.listener d listener }

/-- One connection of the server is somewhere else. -/
def setConnection (c : C) (conn : Connection D) : State D C F E :=
  { s with connection := Function.update s.connection c (some conn) }

/-- The server of a department, for its handlers. -/
def server (d : D) : Server F := ⟨s.store, s.uploadedFiles d⟩

/-- One server has another state. -/
def setServer (d : D) (server : Server F) : State D C F E :=
  { s with
    store := server.store
    uploadedFiles := Function.update s.uploadedFiles d server.uploadedFiles }

omit [DecidableEq C] [DecidableEq F] in
/-- The other handlers stay. -/
theorem listener_setListener {d u : D} {listener other : Listener}
    (h : (s.setListener d listener).listener u = other) :
    (u = d ∧ listener = other) ∨ s.listener u = other := by
  by_cases hu : u = d
  · subst hu
    simp only [setListener, Function.update_self] at h
    exact .inl ⟨rfl, h⟩
  · simp only [setListener, Function.update_of_ne hu] at h
    exact .inr h

omit [DecidableEq D] [DecidableEq F] in
/-- The other connections stay. -/
theorem connection_setConnection {c u : C} {conn other : Connection D}
    (h : (s.setConnection c conn).connection u = some other) :
    (u = c ∧ conn = other) ∨ s.connection u = some other := by
  by_cases hu : u = c
  · subst hu
    simp only [setConnection, Function.update_self, Option.some.injEq] at h
    exact .inl ⟨rfl, h⟩
  · simp only [setConnection, Function.update_of_ne hu] at h
    exact .inr h

end State

namespace Site

variable (s : State D C F E)

/-- One round of `ConnectionHandler.run`: a line is read and `sendMessage` called. -/
def serve (c : C) (conn : Connection D) (stream : List CodeUnit) : State D C F E :=
  match readLine stream with
  | none => s.setConnection c { conn with handler := .returned }
  | some (line, stream) =>
    let reply := sendMessage site.downloads (s.server conn.server)
      ⟨utf16 conn.clientName, utf16 conn.department, line, stream⟩
    let handler := match reply.auth with
      | some message => .banning message
      | none => if reply.goesOn then .reading reply.rest else .returned
    (s.setServer conn.server reply.server).setConnection c { conn with handler := handler }

/-- One step of one thread. -/
def step : Event D C → Option (State D C F E)
  | .connects d clientDN =>
    match s.listener d with
    | .accepting => some <| s.setListener d <|
        match clientIdentity clientDN with
        | some (clientCN, clientOU) => .asking clientDN clientCN clientOU
        -- Without a name or a department `run` goes on with the next client.
        | none => .accepting
    | _ => none
  | .asks d now =>
    match s.listener d with
    | .asking clientDN clientCN clientOU =>
      let reply := site.communicateWithAuth s.auth now (site.question d clientCN clientOU)
      some ({ s with auth := reply.2 }.setListener d
        (.answered clientDN clientCN clientOU reply.1))
    | _ => none
  | .hears d c stream =>
    match s.listener d with
    | .answered clientDN clientCN clientOU response =>
      -- The client is turned away, or a handler is started for it.
      if response = .denied ∨ response = .error then some (s.setListener d .accepting)
      else if (s.connection c).isNone then
        some ((s.setListener d .accepting).setConnection c
          ⟨d, clientDN, clientCN, clientOU, .reading stream⟩)
      else none
    | _ => none
  | .serves c =>
    (s.connection c).bind fun conn =>
      match conn.handler with
      | .reading stream => some (site.serve s c conn stream)
      | _ => none
  | .bans c now =>
    (s.connection c).bind fun conn =>
      match conn.handler with
      | .banning message =>
        some ({ s with auth := (site.communicateWithAuth s.auth now message).2 }.setConnection c
          { conn with handler := .banned })
      | _ => none
  | .fails d =>
    match s.listener d with
    -- `communicateWithAuth` gives null, and `run` returns.
    | .asking .. | .answered .. => some (s.setListener d .returned)
    | _ => none
  | .givesUp c =>
    (s.connection c).bind fun conn =>
      match conn.handler with
      | .banning _ => some (s.setConnection c { conn with handler := .returned })
      | _ => none
  | .timer clientName =>
    (s.auth.step site.charset site.crypt (.timer clientName)).map fun auth =>
      { s with auth := auth }

/-- The servers wait for clients, and nobody has been banned. -/
def start (store : F → List UInt8) (uploadedFiles : D → List ListOpRecord) : State D C F E where
  auth := .start site.crypt
  listener := fun _ => .accepting
  connection := fun _ => none
  store := store
  uploadedFiles := uploadedFiles

end Site

/-! ### One step -/

variable {site} {s s' : State D C F E} {e : Event D C}

/-- Of the requests, only an upload that is refused has a message for the authorization server. -/
theorem auth_sendMessage {fs : Downloads F} {server : Server F} {clientName department : List Char}
    {line stream sent : List CodeUnit}
    (h : (sendMessage fs server ⟨utf16 clientName, utf16 department, line, stream⟩).auth =
      some sent) : sent = utf16 (message banWord clientName department) := by
  have hrefuse {rest : List CodeUnit} (hrest : (refuse server
      ⟨utf16 clientName, utf16 department, line, stream⟩ rest).auth = some sent) :
      sent = utf16 (message banWord clientName department) := by
    -- What `refuse` sends is the ban as a message of two words.
    have hwords : utf16 (message banWord clientName department) =
        codeUnits "BAN " ++ utf16 clientName ++ 32 :: utf16 department := by
      have hblank : utf16 [' '] = [32] := by decide
      have hban : utf16 banWord ++ utf16 [' '] = codeUnits "BAN " := by decide
      have hmessage : message banWord clientName department =
          (banWord ++ [' ']) ++ clientName ++ ([' '] ++ department) := by
        simp [message]
      rw [hmessage, utf16_append, utf16_append, utf16_append, hban, utf16_append, hblank]
      rfl
    exact (Option.some.inj hrest).symm.trans hwords.symm
  unfold sendMessage at h
  split_ifs at h
  · unfold receiveUpload at h
    cases hline : readLine stream with
    | none =>
      simp only [hline] at h
      exact hrefuse h
    | some read =>
      obtain ⟨filename, rest⟩ := read
      simp only [hline] at h
      -- An upload is accepted, or refused as illegal.
      rcases hdown : downloadFile fs server.store filename rest with ⟨⟨accepted, store⟩, rest'⟩
      simp only [hdown] at h
      cases accepted with
      | true => cases h
      | false => exact hrefuse h
  · cases hload : server.uploadFile fs (argument line) with
    | none =>
      simp only [hload] at h
      cases h
    | some cbuf =>
      simp only [hload] at h
      cases h

/-- What the steps do. -/
inductive Effect (site : Site D F E) (s : State D C F E) : Event D C → State D C F E → Prop where
  | turnsAway {d : D} {clientDN : List Char} (h : s.listener d = .accepting) :
      Effect site s (.connects d clientDN) (s.setListener d .accepting)
  | connects {d : D} {clientDN clientCN clientOU : List Char} (h : s.listener d = .accepting)
      (hid : clientIdentity clientDN = some (clientCN, clientOU)) :
      Effect site s (.connects d clientDN) (s.setListener d (.asking clientDN clientCN clientOU))
  | asks {d : D} {now : Nat} {clientDN clientCN clientOU : List Char}
      (h : s.listener d = .asking clientDN clientCN clientOU) :
      Effect site s (.asks d now)
        ({ s with
            auth := (site.communicateWithAuth s.auth now
              (site.question d clientCN clientOU)).2 }.setListener d
          (.answered clientDN clientCN clientOU (site.communicateWithAuth s.auth now
            (site.question d clientCN clientOU)).1))
  | denies {d : D} {c : C} {stream : List CodeUnit} {clientDN clientCN clientOU : List Char}
      {response : Answer} (h : s.listener d = .answered clientDN clientCN clientOU response) :
      Effect site s (.hears d c stream) (s.setListener d .accepting)
  | admits {d : D} {c : C} {stream : List CodeUnit} {clientDN clientCN clientOU : List Char}
      {response : Answer} (h : s.listener d = .answered clientDN clientCN clientOU response)
      (hresponse : ¬ (response = .denied ∨ response = .error)) (hfree : s.connection c = none) :
      Effect site s (.hears d c stream) ((s.setListener d .accepting).setConnection c
        ⟨d, clientDN, clientCN, clientOU, .reading stream⟩)
  | serves {c : C} {conn : Connection D} {stream : List CodeUnit} {server : Server F}
      {handler : Handler} (h : s.connection c = some conn)
      (hreading : conn.handler = .reading stream) (hbanned : handler ≠ .banned)
      (hbanning : ∀ sent, handler = .banning sent →
        sent = utf16 (message banWord conn.clientName conn.department)) :
      Effect site s (.serves c)
        ((s.setServer conn.server server).setConnection c { conn with handler := handler })
  | bans {c : C} {now : Nat} {conn : Connection D} {sent : List CodeUnit}
      (h : s.connection c = some conn) (hbanning : conn.handler = .banning sent) :
      Effect site s (.bans c now)
        ({ s with auth := (site.communicateWithAuth s.auth now sent).2 }.setConnection c
          { conn with handler := .banned })
  | fails {d : D} : Effect site s (.fails d) (s.setListener d .returned)
  | givesUp {c : C} {conn : Connection D} {sent : List CodeUnit} (h : s.connection c = some conn)
      (hbanning : conn.handler = .banning sent) :
      Effect site s (.givesUp c) (s.setConnection c { conn with handler := .returned })
  | timer {clientName : List Char} {auth : AuthorizationServer E}
      (h : s.auth.step site.charset site.crypt (.timer clientName) = some auth) :
      Effect site s (.timer clientName) { s with auth := auth }

/-- A handler that reads a request does not have its client banned yet, and its message is about
    its client. -/
theorem serve_effect {c : C} {conn : Connection D} {stream : List CodeUnit}
    (h : s.connection c = some conn) (hreading : conn.handler = .reading stream) :
    Effect site s (.serves c) (site.serve s c conn stream) := by
  unfold Site.serve
  cases hline : readLine stream with
  | none =>
    -- At the end of the stream the handler returns and the server is as it was.
    have hsame : s.setServer conn.server (s.server conn.server) = s := by
      simp [State.setServer, State.server]
    have hserves : Effect site s (.serves c)
        ((s.setServer conn.server (s.server conn.server)).setConnection c
          { conn with handler := .returned }) :=
      .serves h hreading (by simp) (by simp)
    rwa [hsame] at hserves
  | some read =>
    obtain ⟨line, rest⟩ := read
    dsimp only
    cases hauth : (sendMessage site.downloads (s.server conn.server)
        ⟨utf16 conn.clientName, utf16 conn.department, line, rest⟩).auth with
    | some sent =>
      refine .serves h hreading (by simp) fun sent' hsent => ?_
      cases hsent
      exact auth_sendMessage hauth
    | none =>
      refine .serves h hreading ?_ fun sent' hsent => ?_
      · dsimp only
        split_ifs <;> simp
      · dsimp only at hsent
        split_ifs at hsent

/-- Every step has one of these effects. -/
theorem effect_of_step (hs : site.step s e = some s') : Effect site s e s' := by
  cases e with
  | connects d clientDN =>
    -- Each event of a server needs its listener in one state.
    cases hl : s.listener d with
    | accepting =>
      simp only [Site.step, hl, Option.some.injEq] at hs
      cases hid : clientIdentity clientDN with
      | none =>
        simp only [hid] at hs
        exact hs ▸ .turnsAway hl
      | some who =>
        obtain ⟨clientCN, clientOU⟩ := who
        simp only [hid] at hs
        exact hs ▸ .connects hl hid
    | asking | answered | returned => simp [Site.step, hl] at hs
  | asks d now =>
    cases hl : s.listener d with
    | asking clientDN clientCN clientOU =>
      simp only [Site.step, hl, Option.some.injEq] at hs
      exact hs ▸ .asks hl
    | accepting | answered | returned => simp [Site.step, hl] at hs
  | hears d c stream =>
    cases hl : s.listener d with
    | answered clientDN clientCN clientOU response =>
      simp only [Site.step, hl] at hs
      split_ifs at hs with hresponse hfree
      · exact Option.some.inj hs ▸ .denies hl
      · exact Option.some.inj hs ▸ .admits hl hresponse (Option.isNone_iff_eq_none.mp hfree)
    | accepting | asking | returned => simp [Site.step, hl] at hs
  | serves c =>
    obtain ⟨conn, hconn, hs⟩ := Option.bind_eq_some_iff.mp hs
    -- And each event of a handler needs the handler in one.
    cases hh : conn.handler with
    | reading stream =>
      simp only [hh, Option.some.injEq] at hs
      exact hs ▸ serve_effect hconn hh
    | banning | banned | returned => simp [hh] at hs
  | bans c now =>
    obtain ⟨conn, hconn, hs⟩ := Option.bind_eq_some_iff.mp hs
    cases hh : conn.handler with
    | banning sent =>
      simp only [hh, Option.some.injEq] at hs
      exact hs ▸ .bans hconn hh
    | reading | banned | returned => simp [hh] at hs
  | fails d =>
    cases hl : s.listener d with
    | asking | answered =>
      simp only [Site.step, hl, Option.some.injEq] at hs
      exact hs ▸ .fails
    | accepting | returned => simp [Site.step, hl] at hs
  | givesUp c =>
    obtain ⟨conn, hconn, hs⟩ := Option.bind_eq_some_iff.mp hs
    cases hh : conn.handler with
    | banning sent =>
      simp only [hh, Option.some.injEq] at hs
      exact hs ▸ .givesUp hconn hh
    | reading | banned | returned => simp [hh] at hs
  | timer clientName =>
    obtain ⟨auth, hauth, rfl⟩ := Option.map_eq_some_iff.mp hs
    exact .timer hauth

/-! ### The authorization server -/

/-- What a step is for the authorization server. -/
def Site.toAuthorization (site : Site D F E) (s : State D C F E) : Event D C → List Action
  | .asks d now =>
    match s.listener d with
    | .asking _ clientCN clientOU =>
      [.request now (received (site.question d clientCN clientOU))]
    | _ => []
  | .bans c now =>
    match (s.connection c).map Connection.handler with
    | some (.banning sent) => [.request now (received sent)]
    | _ => []
  | .timer clientName => [.timer clientName]
  | _ => []

/-- The authorization server goes on as it is told to. -/
theorem step_auth (hs : site.step s e = some s') :
    run (AuthorizationServer.step site.charset site.crypt) s.auth (site.toAuthorization s e) =
      some s'.auth := by
  cases effect_of_step hs with
  | turnsAway | connects | denies | admits | serves | fails | givesUp => rfl
  | asks h =>
    simp only [Site.toAuthorization, h]
    rfl
  | bans h hbanning =>
    simp only [Site.toAuthorization, h, Option.map_some, hbanning]
    rfl
  | timer h => exact run_cons_eq_some.mpr ⟨_, h, rfl⟩

/-! ### What holds in every state -/

/-- A server asks about the client as its certificate is read, and it is permitted if it is allowed
    access. -/
def Listener.Sound (d : Department) : Listener → Prop
  | .asking clientDN clientCN clientOU => clientIdentity clientDN = some (clientCN, clientOU)
  | .answered clientDN clientCN clientOU response =>
      clientIdentity clientDN = some (clientCN, clientOU) ∧
      ((response = .allowed ∧ Permitted d.name clientOU) ∨ response = .denied ∨ response = .error)
  | .accepting | .returned => True

/-- A handler serves its client as the certificate is read; the client is permitted, and the handler
    asks for no other client to be banned. -/
structure Connection.Sound (site : Site D F E) (conn : Connection D) : Prop where
  identity : clientIdentity conn.clientDN = some (conn.clientName, conn.department)
  permitted : Permitted (site.department conn.server).name conn.department
  banning : ∀ sent, conn.handler = .banning sent →
    sent = utf16 (message banWord conn.clientName conn.department)

/-- The threads are sound, and the authorization server has a timer only for clients that a handler
    has had banned. -/
structure Inv (site : Site D F E) (s : State D C F E) : Prop where
  isText : AuthorizationServer.IsText site.charset site.crypt s.auth
  listener : ∀ d, (s.listener d).Sound (site.department d)
  connection : ∀ c conn, s.connection c = some conn → conn.Sound site
  timers : ∀ clientName ∈ s.auth.timers, ∃ c conn, s.connection c = some conn ∧
    conn.clientName = clientName ∧ conn.handler = .banned

/-- The certificates that servers ask about and handlers serve are those of clients that have
    connected. -/
structure Connected (es : List (Event D C)) (s : State D C F E) : Prop where
  asking : ∀ d clientDN clientCN clientOU, s.listener d = .asking clientDN clientCN clientOU →
    .connects d clientDN ∈ es
  answered : ∀ d clientDN clientCN clientOU response,
    s.listener d = .answered clientDN clientCN clientOU response → .connects d clientDN ∈ es
  connection : ∀ c conn, s.connection c = some conn → .connects conn.server conn.clientDN ∈ es

omit [DecidableEq D] [DecidableEq F] in
/-- A connection has the name and the department of its certificate. -/
theorem Connection.Sound.read {conn : Connection D} (h : conn.Sound site) :
    Identity conn.clientName conn.department := ⟨conn.clientDN, h.identity⟩

omit [DecidableEq D] [DecidableEq C] [DecidableEq F] in
/-- Who is being asked about has shown a certificate. -/
theorem Inv.identity (h : Inv site s) {d : D} {clientDN : List Char}
    (hl : s.listener d = .asking clientDN clientCN clientOU) :
    clientIdentity clientDN = some (clientCN, clientOU) := by
  have hsound := h.listener d
  rwa [hl] at hsound

omit [DecidableEq C] [DecidableEq F] in
/-- One handler goes on. -/
theorem Inv.setListener (h : Inv site s) {d : D} {listener : Listener}
    (hsound : listener.Sound (site.department d)) : Inv site (s.setListener d listener) where
  isText := h.isText
  listener := by
    intro u
    by_cases hu : u = d
    · subst hu
      simpa [State.setListener] using hsound
    · simpa [State.setListener, hu] using h.listener u
  connection := h.connection
  timers := h.timers

omit [DecidableEq D] [DecidableEq F] in
/-- A handler that has not had its client banned goes on. -/
theorem Inv.setConnection (h : Inv site s) {c : C} {conn : Connection D} (hsound : conn.Sound site)
    (hold : ∀ old, s.connection c = some old → old.handler ≠ .banned) :
    Inv site (s.setConnection c conn) where
  isText := h.isText
  listener := h.listener
  connection := by
    intro u other hother
    rcases s.connection_setConnection hother with ⟨-, rfl⟩ | hold
    · exact hsound
    · exact h.connection u other hold
  timers := by
    intro clientName htimer
    obtain ⟨u, other, hother, hname, hbanned⟩ := h.timers clientName htimer
    have hu : u ≠ c := fun hu => hold other (hu ▸ hother) hbanned
    exact ⟨u, other, by simp [State.setConnection, hu, hother], hname, hbanned⟩

/-- **Step.**  Every step keeps the invariant. -/
theorem inv_step (h : Inv site s) (hs : site.step s e = some s') : Inv site s' := by
  cases effect_of_step hs with
  | turnsAway | denies | fails => exact h.setListener trivial
  | connects hl hid => exact h.setListener hid
  | @asks d now clientDN clientCN clientOU hl =>
    -- The answer is about the identity that was read when the client connected.
    have hid := h.identity hl
    obtain ⟨hsame, hanswer⟩ := site.communicateWithAuth_question s.auth now d ⟨clientDN, hid⟩
    rw [hsame]
    refine h.setListener ⟨hid, hanswer.imp_left fun hallowed => ⟨hallowed.1, hallowed.2.1⟩⟩
  | @admits d c stream clientDN clientCN clientOU response hl hresponse hfree =>
    have hsound := h.listener d
    rw [hl] at hsound
    -- The new connection has the identity that the answer has let in.
    have haccepting : Inv site (s.setListener d .accepting) := h.setListener trivial
    refine haccepting.setConnection
      ⟨hsound.1, (hsound.2.resolve_right hresponse).2, fun sent hsent => by cases hsent⟩ ?_
    intro old hold
    cases hfree.symm.trans hold
  | @serves c conn stream server handler hc hreading hbanned hbanning =>
    have hsound := h.connection c conn hc
    have hserver : Inv site (s.setServer conn.server server) :=
      ⟨h.isText, h.listener, h.connection, h.timers⟩
    refine hserver.setConnection ⟨hsound.identity, hsound.permitted, hbanning⟩ fun old hold => ?_
    cases Option.some.inj (hc.symm.trans hold)
    simp [hreading]
  | @givesUp c conn sent hc hbanning =>
    have hsound := h.connection c conn hc
    refine h.setConnection ⟨hsound.identity, hsound.permitted, fun sent hsent => by cases hsent⟩
      fun old hold => ?_
    cases Option.some.inj (hc.symm.trans hold)
    simp [hbanning]
  | @bans c now conn sent hc hbanning =>
    have hsound := h.connection c conn hc
    have hauth := site.communicateWithAuth_ban s.auth now hsound.read
    rw [hsound.banning sent hbanning, hauth]
    refine ⟨?_, h.listener, fun u other hother => ?_, fun clientName htimer => ?_⟩
    -- The ban is added to the text, and its client is the one of a handler.
    · obtain ⟨text, htext⟩ := h.isText
      exact ⟨text ++ AuthorizationServer.banLine now conn.clientName, by
        simp [State.setConnection, htext]⟩
    · rcases State.connection_setConnection _ hother with ⟨-, rfl⟩ | hold
      · exact ⟨hsound.identity, hsound.permitted, fun sent hsent => by cases hsent⟩
      · exact h.connection u other hold
    · simp only [State.setConnection, AuthorizationServer.timers_ban, List.mem_cons] at htimer
      rcases htimer with rfl | htimer
      · exact ⟨c, { conn with handler := .banned }, by simp [State.setConnection], rfl, rfl⟩
      · obtain ⟨u, other, hother, hname, hbanned⟩ := h.timers clientName htimer
        -- The handler of another ban has got its answer already.
        have hu : u ≠ c := by
          rintro rfl
          cases Option.some.inj (hc.symm.trans hother)
          cases hbanning.symm.trans hbanned
        exact ⟨u, other, by simp [State.setConnection, hu, hother], hname, hbanned⟩
  | @timer clientName auth hauth =>
    refine ⟨AuthorizationServer.isText_step h.isText hauth, h.listener, h.connection, ?_⟩
    simp only [AuthorizationServer.step] at hauth
    split_ifs at hauth
    cases hauth
    intro other hother
    rw [AuthorizationServer.timers_runTimer] at hother
    exact h.timers other (List.mem_of_mem_erase hother)

omit [DecidableEq D] [DecidableEq C] [DecidableEq F] in
/-- The invariant holds at first. -/
theorem inv_start (store : F → List UInt8) (uploadedFiles : D → List ListOpRecord) :
    Inv site (site.start store uploadedFiles : State D C F E) where
  isText := AuthorizationServer.lasts_start.isText
  listener := fun _ => trivial
  connection := by
    intro c conn hc
    cases hc
  timers := by
    intro clientName htimer
    cases htimer

/-- **Step.**  Clients are those that have connected. -/
theorem connected_step {es : List (Event D C)} (h : Connected es s) (he : e ∈ es)
    (hs : site.step s e = some s') : Connected es s' := by
  -- A listener and a connection may be changed if what they say is of the run.
  have hlistener {t : State D C F E} {d : D} {listener : Listener}
      (hasked : ∀ clientDN clientCN clientOU, listener = .asking clientDN clientCN clientOU →
        .connects d clientDN ∈ es)
      (hheard : ∀ clientDN clientCN clientOU response,
        listener = .answered clientDN clientCN clientOU response → .connects d clientDN ∈ es)
      (ht : Connected es t) : Connected es (t.setListener d listener) := by
    refine ⟨fun u clientDN clientCN clientOU hu => ?_,
      fun u clientDN clientCN clientOU response hu => ?_, ht.connection⟩
    · rcases t.listener_setListener hu with ⟨rfl, hsame⟩ | hold
      · exact hasked _ _ _ hsame
      · exact ht.asking _ _ _ _ hold
    · rcases t.listener_setListener hu with ⟨rfl, hsame⟩ | hold
      · exact hheard _ _ _ _ hsame
      · exact ht.answered _ _ _ _ _ hold
  have hconnection {t : State D C F E} {c : C} {conn : Connection D}
      (hconn : .connects conn.server conn.clientDN ∈ es) (ht : Connected es t) :
      Connected es (t.setConnection c conn) := by
    refine ⟨ht.asking, ht.answered, fun u other hu => ?_⟩
    rcases t.connection_setConnection hu with ⟨-, rfl⟩ | hold
    · exact hconn
    · exact ht.connection u other hold
  have hsame {auth : AuthorizationServer E} {store : F → List UInt8}
      {uploadedFiles : D → List ListOpRecord} :
      Connected es ⟨auth, s.listener, s.connection, store, uploadedFiles⟩ :=
    ⟨h.asking, h.answered, h.connection⟩
  cases effect_of_step hs with
  | turnsAway | denies | fails => exact hlistener nofun nofun h
  | connects =>
    refine hlistener (fun _ _ _ hsent => ?_) nofun h
    cases hsent
    exact he
  | asks hl =>
    refine hlistener nofun (fun _ _ _ _ hsent => ?_) hsame
    cases hsent
    exact h.asking _ _ _ _ hl
  | admits hl =>
    exact hconnection (h.answered _ _ _ _ _ hl) (hlistener nofun nofun h)
  | serves hc =>
    have hconn := h.connection _ _ hc
    exact hconnection hconn hsame
  | bans hc =>
    have hconn := h.connection _ _ hc
    exact hconnection hconn hsame
  | givesUp hc =>
    have hconn := h.connection _ _ hc
    exact hconnection hconn h
  | timer => exact hsame

/-- **Who is served, and who is banned.**  A server asks about a client, and a handler serves it, as
    the certificate is read with which the client has connected to this server; a handler serves a
    client whose department has the priority for its server, and a ban is in force only for a client
    of a handler that has refused an upload. -/
theorem always_inv (site : Site D F E) (store : F → List UInt8)
    (uploadedFiles : D → List ListOpRecord) (es : List (Event D C)) :
    Always site.step (fun s => Inv site s ∧ Connected es s) (site.start store uploadedFiles)
      es := by
  refine always_of_inductive (C := fun _ e => e ∈ es)
    (fun _ _ _ h he hs => ⟨inv_step h.1 hs, connected_step h.2 he hs⟩) ⟨inv_start _ _, ?_⟩
    (EachStep.of_forall_mem (fun _ he => he) _)
  exact ⟨nofun, nofun, nofun⟩

end WorkAtUPB.AuthenticatedFilesServer.Service

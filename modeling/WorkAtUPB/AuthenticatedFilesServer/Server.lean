import WorkAtUPB.Lib.Bytes
import WorkAtUPB.AuthenticatedFilesServer.Transfer

namespace WorkAtUPB.AuthenticatedFilesServer

open Bytes CharStream

/-!
# The server (`ConnectionHandler` in `Server.java`)

A connection handler reads a line, and for an upload a file behind it, and answers:

* `downloadFile` — what becomes of a file that is uploaded: it is refused if an illegal string is
  in it, and otherwise written over the file of that name;
* `Server.uploadFile` — the characters of a file that is downloaded;
* `sendMessage` — one request, with what is written back and whether the client is to be banned;
* `Accepts`, `sendMessage_cases` — all that a request can do to the server.
-/

/-- The file system: which file the path `downloads/` with a name opens, if it can be opened, and
    whether that file is under `downloads/`. -/
structure Downloads (F : Type*) where
  file : List CodeUnit → Option F
  inside : F → Bool

/-- An uploaded file, in the list that clients can ask for. -/
structure ListOpRecord where
  numeFisier : List CodeUnit
  idProprietar : List CodeUnit
  departament : List CodeUnit

/-- The server: the content of the files (a file that does not exist is created empty when it is
    opened), and the list. -/
structure Server (F : Type*) where
  store : F → List UInt8
  uploadedFiles : List ListOpRecord

/-- What a connection handler gets to handle: its client, the line it has read, and what the client
    sends behind it. -/
structure Request where
  clientName : List CodeUnit
  department : List CodeUnit
  line : List CodeUnit
  stream : List CodeUnit

/-- What comes of it: whether the handler reads on, the server, what is written to the client,
    the message to the authorization server, and what has not been read. -/
structure Reply (F : Type*) where
  goesOn : Bool
  server : Server F
  written : List CodeUnit
  auth : Option (List CodeUnit)
  rest : List CodeUnit

variable {F : Type*} [DecidableEq F]

/-! ### Files -/

/-- The end of `downloadFile`: what it returns, and the files.  `writeBytes` writes the low bytes
    from the beginning of the file on. -/
def storeText (fs : Downloads F) (store : F → List UInt8) (filename str : List CodeUnit) :
    Bool × (F → List UInt8) :=
  if containsIllegal str then (false, store)
  else match fs.file filename with
    | none => (false, store)
    | some f => (true, Function.update store f (splice (store f) 0 (str.map byteOfChar)))

/-- `downloadFile`: what it returns, the files, and the rest of the stream. -/
def downloadFile (fs : Downloads F) (store : F → List UInt8) (filename stream : List CodeUnit) :
    (Bool × (F → List UInt8)) × List CodeUnit :=
  match readText stream with
  | none => ((false, store), stream)
  | some (str, rest) => (storeText fs store filename str, rest)

/-- `uploadFile` on the server, whose files are under `downloads/`. -/
def Server.uploadFile (fs : Downloads F) (s : Server F) (filename : List CodeUnit) :
    Option (List CodeUnit) :=
  (fs.file filename).bind fun f => AuthenticatedFilesServer.uploadFile filename (s.store f)

/-- `sendUploadList`. -/
def sendUploadList (uploadList : List ListOpRecord) : List CodeUnit :=
  UInt16.ofNat uploadList.length :: uploadList.flatMap fun record =>
    record.numeFisier ++ newline :: record.idProprietar ++ newline ::
      record.departament ++ [newline]

/-! ### Requests -/

def listCommand : List CodeUnit := codeUnits "list"

def downloadCommand : List CodeUnit := codeUnits "download"

def uploadCommand : List CodeUnit := codeUnits "upload"

def quitCommand : List CodeUnit := codeUnits "quit"

/-- What is behind the first blank of a command. -/
def argument (line : List CodeUnit) : List CodeUnit :=
  if 32 ∈ line then line.drop (line.idxOf 32 + 1) else line

/-- The client has sent what it must not send: it is banned, and hears `DENIED`. -/
def refuse (s : Server F) (r : Request) (rest : List CodeUnit) : Reply F where
  goesOn := false
  server := s
  written := codeUnits "DENIED" ++ [newline]
  auth := some (codeUnits "BAN " ++ r.clientName ++ 32 :: r.department)
  rest := rest

/-- The server when it has stored an upload. -/
def Server.stored (s : Server F) (r : Request) (filename str : List CodeUnit) (f : F) :
    Server F where
  store := Function.update s.store f (splice (s.store f) 0 (str.map byteOfChar))
  uploadedFiles := s.uploadedFiles ++ [⟨filename, r.clientName, r.department⟩]

/-- The upload branch of `sendMessage`. -/
def receiveUpload (fs : Downloads F) (s : Server F) (r : Request) : Reply F :=
  match readLine r.stream with
  | none => refuse s r r.stream
  | some (filename, stream) =>
    match downloadFile fs s.store filename stream with
    | ((false, _), rest) => refuse s r rest
    | ((true, store), rest) =>
      { goesOn := true
        server :=
          { store := store
            uploadedFiles := s.uploadedFiles ++ [⟨filename, r.clientName, r.department⟩] }
        written := r.line ++ [newline]
        auth := none
        rest := rest }

/-- `sendMessage`.  The line is sent back, and what it has asked for behind it; a download of a file
    that cannot be loaded ends the handler. -/
def sendMessage (fs : Downloads F) (s : Server F) (r : Request) : Reply F :=
  if r.line = quitCommand then ⟨true, s, r.line ++ [newline], none, r.stream⟩
  else if r.line = listCommand then
    ⟨true, s, r.line ++ newline :: sendUploadList s.uploadedFiles, none, r.stream⟩
  else if uploadCommand <+: r.line then receiveUpload fs s r
  else if downloadCommand <+: r.line then
    match s.uploadFile fs (argument r.line) with
    | none => ⟨false, s, r.line ++ [newline], none, r.stream⟩
    | some cbuf => ⟨true, s, r.line ++ newline :: cbuf, none, r.stream⟩
  else ⟨true, s, [], none, r.stream⟩

/-! ### What a request does -/

/-- The request is an upload that is accepted: the text has no illegal string, and the name opens
    a file. -/
structure Accepts (fs : Downloads F) (r : Request) (filename str : List CodeUnit) (f : F) :
    Prop where
  isUpload : uploadCommand <+: r.line
  read : ∃ rest, readUpload r.stream = some (filename, str, rest)
  legal : containsIllegal str = false
  opened : fs.file filename = some f

variable {fs : Downloads F} {r : Request} {filename str : List CodeUnit} {f : F}

omit [DecidableEq F] in
/-- A request has one name, one text and one file. -/
theorem Accepts.unique (h : Accepts fs r filename str f) {filename' str' : List CodeUnit} {f' : F}
    (h' : Accepts fs r filename' str' f') : filename' = filename ∧ str' = str ∧ f' = f := by
  obtain ⟨rest, hread⟩ := h.read
  obtain ⟨rest', hread'⟩ := h'.read
  rw [hread, Option.some.injEq, Prod.mk.injEq, Prod.mk.injEq] at hread'
  obtain ⟨rfl, rfl, -⟩ := hread'
  exact ⟨rfl, rfl, Option.some.inj (h'.opened.symm.trans h.opened)⟩

/-- `downloadFile` returns true exactly for a text that is read, is legal, and has a file; then it
    is written over the file. -/
theorem downloadFile_cases (fs : Downloads F) (store : F → List UInt8)
    (filename stream : List CodeUnit) :
    (∃ str rest f, readText stream = some (str, rest) ∧ containsIllegal str = false ∧
      fs.file filename = some f ∧ downloadFile fs store filename stream =
        ((true, Function.update store f (splice (store f) 0 (str.map byteOfChar))), rest)) ∨
    ((∀ str rest, readText stream = some (str, rest) → containsIllegal str = false →
      fs.file filename = none) ∧
      (downloadFile fs store filename stream).1 = (false, store)) := by
  unfold downloadFile
  cases htext : readText stream with
  | none => exact .inr ⟨by simp, rfl⟩
  | some text =>
    obtain ⟨str, rest⟩ := text
    unfold storeText
    cases hlegal : containsIllegal str with
    | true => exact .inr ⟨by simp [hlegal], by simp [hlegal]⟩
    | false =>
      cases hfile : fs.file filename with
      | none => exact .inr ⟨by simp, by simp [hlegal]⟩
      | some f => exact .inl ⟨str, rest, f, rfl, hlegal, rfl, by simp [hlegal]⟩

theorem receiveUpload_cases (s : Server F) (hupload : uploadCommand <+: r.line) :
    (∃ filename str f, Accepts fs r filename str f ∧
      (receiveUpload fs s r).server = s.stored r filename str f) ∨
    ((∀ filename str f, ¬ Accepts fs r filename str f) ∧ (receiveUpload fs s r).server = s) := by
  unfold receiveUpload
  cases hline : readLine r.stream with
  | none =>
    refine .inr ⟨fun filename str f h => ?_, rfl⟩
    obtain ⟨rest, hread⟩ := h.read
    simp [readUpload, hline] at hread
  | some line =>
    obtain ⟨filename, stream⟩ := line
    rcases downloadFile_cases fs s.store filename stream with
      ⟨str, rest, f, htext, hlegal, hfile, hdown⟩ | ⟨hrefused, hdown⟩
    · refine .inl ⟨filename, str, f, ⟨hupload, ⟨rest, ?_⟩, hlegal, hfile⟩, ?_⟩
      · simp [readUpload, hline, htext]
      · simp [hdown, Server.stored]
    · refine .inr ⟨fun name str f h => ?_, ?_⟩
      · obtain ⟨rest, hread⟩ := h.read
        simp only [readUpload, hline, Option.bind_some, Option.map_eq_some_iff,
          Prod.exists, Prod.mk.injEq] at hread
        obtain ⟨str', rest', htext, rfl, rfl, rfl⟩ := hread
        exact absurd ((hrefused _ _ htext h.legal).symm.trans h.opened) (by simp)
      · rcases hd : downloadFile fs s.store filename stream with ⟨⟨accepted, store⟩, rest⟩
        rw [hd] at hdown
        obtain ⟨rfl, rfl⟩ := Prod.mk.inj hdown
        simp [hd, refuse]

/-- **One request.**  An upload that is accepted is written over its file and put on the list; any
    other request leaves the server as it is. -/
theorem sendMessage_cases (fs : Downloads F) (s : Server F) (r : Request) :
    (∃ filename str f, Accepts fs r filename str f ∧
      (sendMessage fs s r).server = s.stored r filename str f) ∨
    ((∀ filename str f, ¬ Accepts fs r filename str f) ∧ (sendMessage fs s r).server = s) := by
  by_cases hupload : uploadCommand <+: r.line
  · have hne : ∀ command, ¬ uploadCommand <+: command → r.line ≠ command := by
      rintro command hnot rfl
      exact hnot hupload
    rw [sendMessage, if_neg (hne quitCommand (by decide)), if_neg (hne listCommand (by decide)),
      if_pos hupload]
    exact receiveUpload_cases s hupload
  · refine .inr ⟨fun filename str f h => hupload h.isUpload, ?_⟩
    unfold sendMessage
    rw [if_neg hupload]
    split_ifs
    · rfl
    · rfl
    · split <;> rfl
    · rfl

end WorkAtUPB.AuthenticatedFilesServer

import WorkAtUPB.Lib.Text
import Mathlib.Data.List.Infix

namespace WorkAtUPB.AuthenticatedFilesServer

open Text

/-!
# The authorization server (`AuthorizationServer.java`)

It is asked whether a client may use a department server, and told to ban clients for a time.  The
banned clients are lines of an encrypted file, `banned_encrypted`:

* `isBanned` — a name is looked for in what a buffer holds of the file;
* `ban` — a line is added to the file, and a timer is set;
* `BannedTimerTask.run` — what the timer does;
* `processRequest` — one request.
-/

/-- The cipher. -/
structure DESEncrypter (E : Type*) where
  encrypt : List UInt8 → E
  decrypt : E → List UInt8
  decrypt_encrypt : ∀ info, decrypt (encrypt info) = info

/-- What is answered. -/
inductive Answer where
  | allowed
  | denied
  | error
  | ok
deriving DecidableEq

/-- The server: the file `banned_encrypted`, and the clients for which a timer is set. -/
structure AuthorizationServer (E : Type*) where
  bannedEncrypted : E
  timers : List (List Char)

/-- The priorities of the departments. -/
def priorities : List (List Char × Int) :=
  [("HUMAN_RESOURCES".toList, 1), ("ACCOUNTING".toList, 1), ("IT".toList, 2),
    ("MANAGEMENT".toList, 3)]

/-- The first word of a request to ban a client. -/
def banWord : List Char := "BAN".toList

variable {E : Type*} (charset : Charset) (crypt : DESEncrypter E)

namespace AuthorizationServer

/-- The file `banned_decrypted`. -/
def bannedDecrypted (s : AuthorizationServer E) : List UInt8 := crypt.decrypt s.bannedEncrypted

/-- `isBanned`: `indexOf` finds the name in a buffer of 1024 bytes. -/
def isBanned (s : AuthorizationServer E) (clientName : List Char) : Bool :=
  decide (clientName <:+: charset.readText 1024 (s.bannedDecrypted crypt))

/-- The line of a client in the file. -/
def banLine (now : Nat) (clientName : List Char) : List Char :=
  clientName ++ ' ' :: Nat.toDigits 10 now ++ ['\n']

/-- `ban`. -/
def ban (s : AuthorizationServer E) (now : Nat) (clientName : List Char) :
    AuthorizationServer E where
  bannedEncrypted :=
    crypt.encrypt (s.bannedDecrypted crypt ++ charset.getBytes (banLine now clientName))
  timers := clientName :: s.timers

/-- `BannedTimerTask.run`.  The text without the name is not kept (`replace` returns it); what is
    encrypted is the file that was decrypted. -/
def runTimer (s : AuthorizationServer E) (clientName : List Char) : AuthorizationServer E where
  bannedEncrypted := crypt.encrypt (s.bannedDecrypted crypt)
  timers := s.timers.erase clientName

/-- `processRequest`, at the time `now`. -/
def processRequest (s : AuthorizationServer E) (now : Nat) (request : List Char) :
    Answer × AuthorizationServer E :=
  match tokens request with
  | [serverDepartment, clientName, clientDepartment] =>
    if serverDepartment = banWord then (.ok, s.ban charset crypt now clientName)
    else
      match priorities.lookup serverDepartment, priorities.lookup clientDepartment with
      | some serverPriority, some clientPriority =>
        if clientPriority ≥ serverPriority ∧ s.isBanned charset crypt clientName = false then
          (.allowed, s)
        else (.denied, s)
      | _, _ => (.error, s)
  | _ => (.error, s)

/-! ### The file -/

variable {charset crypt} (s : AuthorizationServer E)

theorem isBanned_iff (clientName : List Char) : s.isBanned charset crypt clientName = true ↔
    clientName <:+: charset.readText 1024 (s.bannedDecrypted crypt) :=
  decide_eq_true_iff

@[simp] theorem bannedDecrypted_ban (now : Nat) (clientName : List Char) :
    (s.ban charset crypt now clientName).bannedDecrypted crypt =
      s.bannedDecrypted crypt ++ charset.getBytes (banLine now clientName) :=
  crypt.decrypt_encrypt _

@[simp] theorem timers_ban (now : Nat) (clientName : List Char) :
    (s.ban charset crypt now clientName).timers = clientName :: s.timers := rfl

@[simp] theorem bannedDecrypted_runTimer (clientName : List Char) :
    (s.runTimer crypt clientName).bannedDecrypted crypt = s.bannedDecrypted crypt :=
  crypt.decrypt_encrypt _

@[simp] theorem timers_runTimer (clientName : List Char) :
    (s.runTimer crypt clientName).timers = s.timers.erase clientName := rfl

end AuthorizationServer

/-! ### Requests -/

/-- A request to ban a client. -/
def Bans (request clientName : List Char) : Prop :=
  ∃ department, tokens request = [banWord, clientName, department]

/-- A client that is banned is a word. -/
theorem Bans.isWord {request clientName : List Char} (h : Bans request clientName) :
    clientName ≠ [] ∧ ' ' ∉ clientName := by
  obtain ⟨department, htokens⟩ := h
  exact of_mem_tokens (by rw [htokens]; simp)

/-- What a server of the IT department sends to ban a client. -/
def banRequest (clientName : List Char) : List Char :=
  banWord ++ ' ' :: (clientName ++ ' ' :: "IT".toList)

theorem bans_banRequest {clientName : List Char} (h : clientName ≠ [] ∧ ' ' ∉ clientName) :
    Bans (banRequest clientName) clientName := by
  refine ⟨"IT".toList, ?_⟩
  rw [banRequest, tokens_append (by decide) (by decide), tokens_append h.1 h.2,
    tokens_self (by decide) (by decide)]

/-- A request for access: the department of the server, the client and its department. -/
structure Asks (request serverDepartment clientName clientDepartment : List Char) : Prop where
  tokens_eq : tokens request = [serverDepartment, clientName, clientDepartment]
  ne_ban : serverDepartment ≠ banWord

/-- A request for access bans nobody. -/
theorem Asks.not_bans {request serverDepartment clientName clientDepartment : List Char}
    (h : Asks request serverDepartment clientName clientDepartment) (banned : List Char) :
    ¬ Bans request banned := by
  rintro ⟨department, htokens⟩
  exact h.ne_ban (List.cons.inj (h.tokens_eq.symm.trans htokens)).1

/-- The department of the client is of enough priority for the server. -/
def Permitted (serverDepartment clientDepartment : List Char) : Prop :=
  ∃ serverPriority clientPriority, priorities.lookup serverDepartment = some serverPriority ∧
    priorities.lookup clientDepartment = some clientPriority ∧ serverPriority ≤ clientPriority

/-- What a server of the IT department asks about a client of the department. -/
def askIT (clientName : List Char) : List Char :=
  "IT".toList ++ ' ' :: (clientName ++ ' ' :: "IT".toList)

theorem asks_askIT {clientName : List Char} (h : clientName ≠ [] ∧ ' ' ∉ clientName) :
    Asks (askIT clientName) "IT".toList clientName "IT".toList where
  tokens_eq := by
    rw [askIT, tokens_append (by decide) (by decide), tokens_append h.1 h.2,
      tokens_self (by decide) (by decide)]
  ne_ban := by decide

namespace AuthorizationServer

variable {charset crypt} (s : AuthorizationServer E) {now : Nat}
  {request serverDepartment clientName clientDepartment : List Char}

/-- A request to ban a client is done. -/
theorem processRequest_ban (h : Bans request clientName) :
    s.processRequest charset crypt now request = (.ok, s.ban charset crypt now clientName) := by
  obtain ⟨department, htokens⟩ := h
  rw [processRequest, htokens]
  exact if_pos rfl

/-- Any other request leaves the server as it is. -/
theorem processRequest_snd (h : ∀ clientName, ¬ Bans request clientName) :
    (s.processRequest charset crypt now request).2 = s := by
  unfold processRequest
  split
  · next serverDepartment clientName clientDepartment htokens =>
    split
    · next hban => exact absurd ⟨clientDepartment, hban ▸ htokens⟩ (h clientName)
    · split
      · split <;> rfl
      · rfl
  · rfl

/-- A client that is banned is denied access, if the departments exist. -/
theorem processRequest_of_isBanned
    (h : Asks request serverDepartment clientName clientDepartment)
    (hbanned : s.isBanned charset crypt clientName = true) :
    (s.processRequest charset crypt now request).1 = .denied ∨
      (s.processRequest charset crypt now request).1 = .error := by
  unfold processRequest
  rw [h.tokens_eq]
  simp only [if_neg h.ne_ban, hbanned]
  split
  · exact .inl (by simp)
  · exact .inr rfl

/-- A client that is allowed access is permitted, and not banned; any other is denied it. -/
theorem processRequest_cases (h : Asks request serverDepartment clientName clientDepartment) :
    ((s.processRequest charset crypt now request).1 = .allowed ∧
        Permitted serverDepartment clientDepartment ∧
        s.isBanned charset crypt clientName = false) ∨
      (s.processRequest charset crypt now request).1 = .denied ∨
      (s.processRequest charset crypt now request).1 = .error := by
  unfold processRequest
  rw [h.tokens_eq]
  simp only [if_neg h.ne_ban]
  cases hserver : priorities.lookup serverDepartment with
  | none => exact .inr (.inr rfl)
  | some serverPriority =>
    cases hclient : priorities.lookup clientDepartment with
    | none => exact .inr (.inr rfl)
    | some clientPriority =>
      by_cases hallowed : clientPriority ≥ serverPriority ∧
          s.isBanned charset crypt clientName = false
      · refine .inl ⟨by simp [hallowed], ⟨serverPriority, clientPriority, hserver, hclient, ?_⟩,
          hallowed.2⟩
        exact hallowed.1
      · exact .inr (.inl (by simp only [if_neg hallowed]))

/-- A client of a department of enough priority is allowed access exactly if it is not banned. -/
theorem processRequest_allowed_iff {serverPriority clientPriority : Int}
    (h : Asks request serverDepartment clientName clientDepartment)
    (hserver : priorities.lookup serverDepartment = some serverPriority)
    (hclient : priorities.lookup clientDepartment = some clientPriority)
    (hpriority : serverPriority ≤ clientPriority) :
    (s.processRequest charset crypt now request).1 = .allowed ↔
      s.isBanned charset crypt clientName = false := by
  unfold processRequest
  rw [h.tokens_eq]
  simp only [if_neg h.ne_ban, hserver, hclient]
  cases hbanned : s.isBanned charset crypt clientName with
  | false => simp [hpriority]
  | true => simp

end AuthorizationServer

end WorkAtUPB.AuthenticatedFilesServer

import WorkAtUPB.AuthenticatedFilesServer.AuthorizationServer
import WorkAtUPB.Lib.Tokens

namespace WorkAtUPB.AuthenticatedFilesServer

open Text Tokens

/-!
# Who a client is (`Server.run`, `Server.java`)

A server reads the name and the department of a client off the subject of its certificate, and asks
the authorization server about them:

* `tokenLoop`, `clientIdentity` — the second and the fourth word of the subject name;
* `request` — what the authorization server is asked;
* `subjectName` — the name `CN=…,OU=…` and what follows, as it is printed;
* `ReadsExactly` — a client is refused, or taken for who the certificate says;
* `readsExactly_iff` — when this is so.

A value may hold blanks, escaped commas and equality signs, which are all delimiters here.
-/

/-- The delimiters of the tokenizer. -/
def isDelimiter (c : Char) : Bool := c ∈ [' ', '\t', '\r', '\n', ',', '=']

/-- The loop over the tokens, on `count`, `clientCN` and `clientOU`. -/
def tokenLoop : List (List Char) → Nat → Option (List Char) → Option (List Char) →
    Option (List Char) × Option (List Char)
  | [], _, clientCN, clientOU => (clientCN, clientOU)
  | token :: tokens, count, clientCN, clientOU =>
    let count := count + 1
    let clientCN := if count = 2 then some token else clientCN
    if count = 4 then (clientCN, some token) else tokenLoop tokens count clientCN clientOU

/-- The name and the department of a client; `none` is the refusal of a client for which one of
    them remained null. -/
def clientIdentity (clientDN : List Char) : Option (List Char × List Char) :=
  match tokenLoop (segments isDelimiter clientDN) 0 none none with
  | (some clientCN, some clientOU) => some (clientCN, clientOU)
  | _ => none

/-- The message about a client. -/
def message (name clientCN clientOU : List Char) : List Char :=
  name ++ ' ' :: (clientCN ++ ' ' :: clientOU)

/-- What the server of the department `name` asks about a client, if it does. -/
def request (name clientDN : List Char) : Option (List Char) :=
  (clientIdentity clientDN).map fun (clientCN, clientOU) => message name clientCN clientOU

/-- A subject name, with what is printed for `CN`, for `OU`, and behind them. -/
def subjectName (cn ou further : List Char) : List Char :=
  "CN=".toList ++ cn ++ ",OU=".toList ++ ou ++ further

/-- A client is refused, or has the name and the department of the certificate, and these are what
    the authorization server is asked about. -/
structure ReadsExactly (cn ou further : List Char) : Prop where
  identity : ∀ who ∈ clientIdentity (subjectName cn ou further), who = (cn, ou)
  asked : ∀ name, ∀ text ∈ request name (subjectName cn ou further), text = message name cn ou

/-! ### The loop -/

/-- The second and the fourth token. -/
theorem tokenLoop_eq (tokens : List (List Char)) :
    tokenLoop tokens 0 none none = (tokens[1]?, tokens[3]?) := by
  match tokens with
  | [] | [_] | [_, _] | [_, _, _] => rfl
  | _ :: _ :: _ :: _ :: _ => rfl

/-- A client with fewer than four tokens is refused, and no other. -/
theorem clientIdentity_eq_some_iff {clientDN clientCN clientOU : List Char} :
    clientIdentity clientDN = some (clientCN, clientOU) ↔
      (segments isDelimiter clientDN)[1]? = some clientCN ∧
        (segments isDelimiter clientDN)[3]? = some clientOU := by
  rw [clientIdentity, tokenLoop_eq]
  cases (segments isDelimiter clientDN)[1]? <;> cases (segments isDelimiter clientDN)[3]? <;> simp

theorem clientIdentity_eq_none_iff {clientDN : List Char} :
    clientIdentity clientDN = none ↔ (segments isDelimiter clientDN).length < 4 := by
  rw [clientIdentity, tokenLoop_eq]
  cases h3 : (segments isDelimiter clientDN)[3]? with
  | none =>
    have hlen := List.getElem?_eq_none_iff.mp h3
    cases (segments isDelimiter clientDN)[1]? <;> simp <;> omega
  | some ou =>
    obtain ⟨hlen, -⟩ := List.getElem?_eq_some_iff.mp h3
    have h1 : (segments isDelimiter clientDN)[1]? =
        some (segments isDelimiter clientDN)[1] := List.getElem?_eq_getElem (by omega)
    rw [h1]
    simp
    omega

/-- A name and a department that were read have no delimiters. -/
theorem plain_of_clientIdentity {clientDN clientCN clientOU : List Char}
    (h : clientIdentity clientDN = some (clientCN, clientOU)) :
    (clientCN ≠ [] ∧ ∀ c ∈ clientCN, isDelimiter c = false) ∧
      (clientOU ≠ [] ∧ ∀ c ∈ clientOU, isDelimiter c = false) := by
  obtain ⟨hcn, hou⟩ := clientIdentity_eq_some_iff.mp h
  obtain ⟨hcnne, hcnrun, -⟩ := of_mem_segments (List.mem_of_getElem? hcn)
  obtain ⟨houne, hourun, -⟩ := of_mem_segments (List.mem_of_getElem? hou)
  exact ⟨⟨hcnne, hcnrun⟩, houne, hourun⟩

/-- The words of a message. -/
theorem tokens_message {name clientDN clientCN clientOU : List Char}
    (hname : name ≠ [] ∧ ' ' ∉ name)
    (h : clientIdentity clientDN = some (clientCN, clientOU)) :
    tokens (message name clientCN clientOU) = [name, clientCN, clientOU] := by
  obtain ⟨⟨hcn, hcnrun⟩, hou, hourun⟩ := plain_of_clientIdentity h
  have hblank {w : List Char} (hrun : ∀ c ∈ w, isDelimiter c = false) : ' ' ∉ w :=
    fun hmem => absurd (hrun ' ' hmem) (by decide)
  rw [message, tokens_append hname.1 hname.2, tokens_append hcn (hblank hcnrun),
    tokens_self hou (hblank hourun)]

/-- The authorization server reads the name and the department that were read. -/
theorem asks_message {name clientDN clientCN clientOU : List Char}
    (hname : name ≠ [] ∧ ' ' ∉ name) (hban : name ≠ banWord)
    (h : clientIdentity clientDN = some (clientCN, clientOU)) :
    Asks (message name clientCN clientOU) name clientCN clientOU :=
  ⟨tokens_message hname h, hban⟩

/-! ### Names of clients -/

/-- Without delimiters. -/
def Plain (value : List Char) : Prop := ∀ c ∈ value, isDelimiter c = false

variable {cn ou further : List Char}

/-- The first token is `CN`. -/
theorem segments_subjectName : segments isDelimiter (subjectName cn ou further) =
    "CN".toList :: segments isDelimiter (cn ++ ",OU=".toList ++ ou ++ further) := by
  have hname : subjectName cn ou further =
      "CN".toList ++ '=' :: (cn ++ ",OU=".toList ++ ou ++ further) := by
    show "CN".toList ++ '=' :: cn ++ ",OU=".toList ++ ou ++ further = _
    simp only [List.append_assoc, List.cons_append]
  rw [hname]
  exact segments_append_cons (by simp) (by simp [isDelimiter]) (by decide)

/-- A plain name is the second token, and `OU` the third one. -/
theorem segments_cn (hne : cn ≠ []) (hcn : Plain cn) :
    segments isDelimiter (cn ++ ",OU=".toList ++ ou ++ further) =
      cn :: "OU".toList :: segments isDelimiter (ou ++ further) := by
  have hname : cn ++ ",OU=".toList ++ ou ++ further =
      cn ++ ',' :: ("OU".toList ++ '=' :: (ou ++ further)) := by
    simp
  rw [hname, segments_append_cons hne hcn (by decide)]
  exact congrArg (cn :: ·) (segments_append_cons (by simp) (by simp [isDelimiter]) (by decide))

/-- **Certificate identity.**  A client is refused or taken for who its certificate says exactly if
    its name and its department are printed without delimiters and a delimiter follows, or if the
    subject name has fewer than four tokens. -/
theorem readsExactly_iff (cn ou further : List Char) (hcn : cn ≠ []) (hou : ou ≠ []) :
    ReadsExactly cn ou further ↔
      (Plain cn ∧ Plain ou ∧ ∀ c ∈ further.head?, isDelimiter c = true) ∨
        (segments isDelimiter (subjectName cn ou further)).length < 4 := by
  constructor
  · intro h
    cases hid : clientIdentity (subjectName cn ou further) with
    | none => exact .inr (clientIdentity_eq_none_iff.mp hid)
    | some who =>
      have hwho : who = (cn, ou) := h.identity who hid
      subst hwho
      obtain ⟨hsecond, hfourth⟩ := clientIdentity_eq_some_iff.mp hid
      -- The name is a token, so it has no delimiters and the next token is `OU`.
      have hplain : Plain cn := (of_mem_segments (List.mem_of_getElem? hsecond)).2.1
      rw [segments_subjectName, segments_cn hcn hplain] at hfourth
      have hhead : (segments isDelimiter (ou ++ further)).head? = some ou := by
        rw [List.head?_eq_getElem?]
        exact hfourth
      exact .inl ⟨hplain, (head?_segments_append_iff hou).mp hhead⟩
  · intro h
    have hidentity : ∀ who ∈ clientIdentity (subjectName cn ou further), who = (cn, ou) := by
      intro who hid
      rcases h with ⟨hplain, hou', hfurther⟩ | hshort
      · have hexact : clientIdentity (subjectName cn ou further) = some (cn, ou) := by
          refine clientIdentity_eq_some_iff.mpr ?_
          rw [segments_subjectName, segments_cn hcn hplain, segments_append hou hou' hfurther]
          exact ⟨rfl, rfl⟩
        exact (Option.some.inj (hexact.symm.trans hid)).symm
      · rw [clientIdentity_eq_none_iff.mpr hshort] at hid
        cases hid
    refine ⟨hidentity, ?_⟩
    intro name text htext
    obtain ⟨who, hid, rfl⟩ := Option.map_eq_some_iff.mp htext
    rw [hidentity who hid]

/-- A client of the accounting department. -/
theorem readsExactly_plain :
    ReadsExactly "client".toList "ACCOUNTING".toList ",O=SPRC".toList :=
  (readsExactly_iff _ _ _ (by decide) (by decide)).mpr
    (.inl ⟨by simp [Plain, isDelimiter], by simp [Plain, isDelimiter], by simp [isDelimiter]⟩)

/-- A client of the accounting department whose name has three words is taken for one of the
    management. -/
theorem not_readsExactly :
    ¬ ∀ cn ou further : List Char, cn ≠ [] → ou ≠ [] → ReadsExactly cn ou further := by
  intro h
  have hread := (h "client from MANAGEMENT".toList "ACCOUNTING".toList ",O=SPRC".toList (by decide)
    (by decide)).identity ("client".toList, "MANAGEMENT".toList) (by decide)
  exact absurd hread (by decide)

end WorkAtUPB.AuthenticatedFilesServer

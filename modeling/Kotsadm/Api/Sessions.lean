import Kotsadm.Api.Graphql
import Kotsadm.Lib.Split

/-!
# Sessions — the session check of the Go server beside the one of the API

Both servers read the `Authorization` header, verify its token with the same key and look the
session up in the same table.  The Go side is `session.Parse` and what its callers make of the
result; the other side is the context of a GraphQL request.
-/

namespace Kotsadm.Sessions

open Graphql (SessionEnv SessionRow splitSpaces decode decodeToken bearerToken currentTime sessionOf)

/-! ## session.Parse -/

/-- `session.Session` -/
structure Session where
  id : String
  expiresAt : Timestamp
  deriving DecidableEq, Repr

/-- What `Parse` returns, or the panic that ends the request. -/
inductive Parsed where
  | session (s : Session)
  | error (text : String)
  | panic
  deriving DecidableEq, Repr

def get (env : SessionEnv) (id : String) : Parsed :=
  match env.sessions.find? fun row => row.id = id with
  | none => .error "failed to get session: sql: no rows in result set"
  | some row => .session { id := row.id, expiresAt := row.expireAt }

/-- The token of the kots CLI; it is good for a minute. -/
def parseKots (env : SessionEnv) (signedToken : String) : Parsed :=
  match env.authString with
  | .error _ => .error "failed to read auth string"
  | .ok authString =>
    if signedToken ≠ authString then .error "invalid authstring"
    else .session { id := "kots-cli", expiresAt := env.now + 60000 }

/-- A payload whose `sessionId` is not a string makes the type assertion panic. -/
def parseBearer (env : SessionEnv) (token : String) : Parsed :=
  match env.verify token with
  | .error text => .error s!"failed to parse jwt token: {text}"
  | .ok none => .panic
  | .ok (some id) => get env id

def parse (env : SessionEnv) (signedToken : String) : Parsed :=
  if signedToken = "" then .error "missing token"
  else
    match splitSpaces signedToken with
    | [scheme, token] =>
      if scheme = "Kots" then parseKots env signedToken
      else if scheme = "Bearer" then parseBearer env token
      else .error "expected bearer or kots token"
    | _ => .error "invalid number of components in authorization header"

/-! ## The checks of the handlers -/

inductive Check where
  | pass
  | refused (status : Nat) (error : String)
  | panic
  deriving DecidableEq, Repr

/-- The handlers that call `Parse` themselves: all valid tokens are valid sessions. -/
def parseSession (env : SessionEnv) (authorization : String) : Check :=
  match parse env authorization with
  | .error _ => .refused 401 "failed to parse authorization header"
  | .panic => .panic
  | .session s =>
    if s.id = "" then .refused 401 "failed to parse authorization header" else .pass

def requireValidSession (env : SessionEnv) (authorization : String) : Check :=
  if authorization = "" then .refused 401 "authorization header empty"
  else
    match parse env authorization with
    | .error text => .refused 500 ("invalid session: " ++ text)
    | .panic => .panic
    | .session s => if s.id = "" then .refused 401 "empty session" else .pass

/-! ## The property -/

/-- The signature of the token verifies, and it names the session of this row. -/
def Names (env : SessionEnv) (token : String) (row : SessionRow) : Prop :=
  ∃ id, env.verify token = .ok (some id) ∧
    (env.sessions.find? fun row => row.id = id) = some row

/-- The session that the token names has not expired. -/
def Valid (env : SessionEnv) (token : String) : Prop :=
  ∃ row, Names env token row ∧ env.now ≤ row.expireAt

def bearer (token : String) : String := "Bearer " ++ token

/-- Each check lets a request with the token pass exactly when the token is valid. -/
structure SameSessions (env : SessionEnv) (token : String) : Prop where
  parseSession : parseSession env (bearer token) = .pass ↔ Valid env token
  requireValidSession : requireValidSession env (bearer token) = .pass ↔ Valid env token
  graphql : Graphql.requireValidSession env.now (decode env (bearerToken (some (bearer token)))) =
    .ok none ↔ Valid env token

/-- What is verified is a signed token in its compact form: parts with dots between them. -/
def Compact (token : String) : Prop := ' ' ∉ token.toList ∧ '.' ∈ token.toList

/-- The row belongs to a user, and has not expired in an earlier second. -/
def Current (env : SessionEnv) (row : SessionRow) : Prop :=
  row.userId ≠ "" ∧ currentTime env.now ≤ row.expireAt

/-- The last part of a text with spaces. -/
def lastPart (token : String) : String := (splitSpaces token).getLast?.getD ""

/-- A token that names a session names one that has not expired, with an id and a user; or one that
neither check accepts.  What stands after the last space of another header is no such token. -/
def SessionsFit (env : SessionEnv) (token : String) : Prop :=
  if ' ' ∈ token.toList then ∀ row, Names env (lastPart token) row → ¬ Current env row
  else ∀ row, Names env token row →
    (row.id ≠ "" ↔ env.now ≤ row.expireAt) ∧ (Current env row ↔ env.now ≤ row.expireAt)

/-! ## The header -/

theorem bearer_ne_empty (token : String) : bearer token ≠ "" := by
  intro hempty
  have hchars := congrArg String.toList hempty
  rw [bearer, String.toList_append] at hchars
  exact absurd (List.append_eq_nil_iff.mp hchars).1 (by decide)

theorem splitSpaces_bearer (token : String) :
    splitSpaces (bearer token) = "Bearer" :: splitSpaces token := by
  have hscheme : ("Bearer " : String).toList = "Bearer".toList ++ [' '] := rfl
  unfold splitSpaces bearer
  rw [String.toList_append, hscheme, List.append_assoc, List.singleton_append,
    List.splitOn_append_cons_self, List.splitOn_eq_singleton (by decide), List.map_append]
  rfl

theorem splitSpaces_of_not_mem {token : String} (h : ' ' ∉ token.toList) :
    splitSpaces token = [token] := by
  unfold splitSpaces
  rw [List.splitOn_eq_singleton h, List.map_singleton, String.ofList_toList]

/-- A text with a space has two parts at least. -/
theorem splitSpaces_of_mem {token : String} (h : ' ' ∈ token.toList) :
    ∃ first second rest, splitSpaces token = first :: second :: rest := by
  obtain ⟨first, second, rest, hsplit⟩ := Split.exists_splitOn_of_mem h
  unfold splitSpaces
  rw [hsplit]
  exact ⟨_, _, _, rfl⟩

theorem splitSpaces_ne_nil (token : String) : splitSpaces token ≠ [] := by
  unfold splitSpaces
  rw [ne_eq, List.map_eq_nil_iff]
  exact List.splitOn_ne_nil ' ' token.toList

theorem lastPart_of_not_mem {token : String} (h : ' ' ∉ token.toList) : lastPart token = token := by
  unfold lastPart
  rw [splitSpaces_of_not_mem h]
  rfl

theorem not_mem_lastPart (token : String) : ' ' ∉ (lastPart token).toList := by
  unfold lastPart
  cases hlast : (splitSpaces token).getLast? with
  | none => decide
  | some last =>
    have hmem : last ∈ splitSpaces token := List.mem_of_getLast? hlast
    obtain ⟨part, hpart, rfl⟩ := List.mem_map.mp hmem
    rw [Option.getD_some, String.toList_ofList]
    exact Split.not_mem_of_mem_splitOn hpart

/-- A text without a space starts with no word that is followed by one. -/
theorem startsWith_of_not_mem {text start : String} (h : ' ' ∉ text.toList)
    (hstart : ' ' ∈ start.toList) : Graphql.startsWith text start = false := by
  by_contra hstarts
  have hfront : start.toList <+: text.toList := by simpa [Graphql.startsWith] using hstarts
  exact h (hfront.subset hstart)

theorem bearerToken_bearer (token : String) : bearerToken (some (bearer token)) = lastPart token := by
  have hstarts : Graphql.startsWith (bearer token) "Bearer" = true := by
    unfold Graphql.startsWith bearer
    rw [List.isPrefixOf_iff_prefix, String.toList_append]
    exact ⟨' ' :: token.toList, rfl⟩
  unfold bearerToken lastPart
  rw [Option.getD_some, if_pos hstarts, splitSpaces_bearer,
    List.getLast?_cons_of_ne_nil (splitSpaces_ne_nil token)]

/-! ## Which tokens pass -/

section

variable {env : SessionEnv} {token : String} {row : SessionRow}

theorem get_pass_iff {id : String} :
    (∃ s, get env id = .session s ∧ s.id ≠ "") ↔
      ∃ row, (env.sessions.find? fun row => row.id = id) = some row ∧ row.id ≠ "" := by
  unfold get
  cases hrow : env.sessions.find? fun row => row.id = id with
  | none => simp
  | some row => simp

/-- `Parse` wants two parts, and leaves the expiry of the session alone. -/
theorem parse_pass_iff :
    (∃ s, parse env (bearer token) = .session s ∧ s.id ≠ "") ↔
      ' ' ∉ token.toList ∧ ∃ row, Names env token row ∧ row.id ≠ "" := by
  unfold parse
  rw [if_neg (bearer_ne_empty token), splitSpaces_bearer]
  by_cases hspace : ' ' ∈ token.toList
  · obtain ⟨first, second, rest, hsplit⟩ := splitSpaces_of_mem hspace
    rw [hsplit]
    simp [hspace]
  · rw [splitSpaces_of_not_mem hspace]
    dsimp only
    rw [if_neg (by decide), if_pos rfl]
    unfold parseBearer Names
    cases hverify : env.verify token with
    | error text => simp
    | ok claims =>
      cases claims with
      | none => simp
      | some id =>
        dsimp only
        rw [get_pass_iff]
        simp [hspace]

theorem parseSession_pass_iff (authorization : String) :
    parseSession env authorization = .pass ↔
      ∃ s, parse env authorization = .session s ∧ s.id ≠ "" := by
  unfold parseSession
  cases parse env authorization with
  | error text => simp
  | panic => simp
  | session s => by_cases hid : s.id = "" <;> simp [hid]

theorem requireValidSession_pass_iff {authorization : String} (h : authorization ≠ "") :
    requireValidSession env authorization = .pass ↔
      ∃ s, parse env authorization = .session s ∧ s.id ≠ "" := by
  unfold requireValidSession
  rw [if_neg h]
  cases parse env authorization with
  | error text => simp
  | panic => simp
  | session s => by_cases hid : s.id = "" <;> simp [hid]

theorem sessionOf_inj {row row' : SessionRow} (h : sessionOf row = sessionOf row') : row = row' := by
  obtain ⟨hid, huser, hexpires, -, -⟩ := Graphql.Session.mk.inj h
  cases row
  cases row'
  cases hid
  cases huser
  cases hexpires
  rfl

/-- `decode` finds the session that a token names. -/
theorem decode_eq_iff (hcompact : ∀ token claims, env.verify token = .ok claims → Compact token)
    (hspace : ' ' ∉ token.toList) : decode env token = sessionOf row ↔ Names env token row := by
  have hempty : ({} : Graphql.Session) ≠ sessionOf row := by
    intro heq
    cases congrArg Graphql.Session.sessionId heq
  have htoken : decodeToken env token = env.verify token >>= Graphql.getSession env := by
    have hbearer : Graphql.startsWith token "Bearer " = false :=
      startsWith_of_not_mem hspace (by decide)
    have hkots : Graphql.startsWith token "Kots " = false :=
      startsWith_of_not_mem hspace (by decide)
    unfold decodeToken
    rw [hbearer, if_neg Bool.false_ne_true]
    dsimp only
    rw [hkots, if_neg Bool.false_ne_true]
  unfold decode
  rw [htoken]
  unfold Names
  cases hverify : env.verify token with
  | error text =>
    simp only [reduceCtorEq, false_and, exists_false, iff_false]
    split
    · exact hempty
    · exact hempty
  | ok claims =>
    have hdot := (hcompact token claims hverify).2
    have hpasses : token ≠ "" ∧ token ≠ "null" := by
      constructor
      · rintro rfl
        exact absurd hdot (by decide)
      · rintro rfl
        exact absurd hdot (by decide)
    have hbind : (Except.ok claims >>= Graphql.getSession env) = Graphql.getSession env claims :=
      rfl
    rw [if_pos hpasses, hbind]
    unfold Graphql.getSession
    cases claims with
    | none =>
      have hnone : (env.sessions.find? fun row => some row.id = none) = none :=
        List.find?_eq_none.mpr fun row _ => by simp
      rw [hnone]
      simpa using hempty
    | some id =>
      simp only [Option.some.injEq, Except.ok.injEq, exists_eq_left']
      cases hfind : env.sessions.find? fun row => row.id = id with
      | none => simpa using hempty
      | some found =>
        simp only [Option.some.injEq]
        exact ⟨sessionOf_inj, fun heq => congrArg sessionOf heq⟩

theorem graphql_iff (hcompact : ∀ token claims, env.verify token = .ok claims → Compact token)
    (hspace : ' ' ∉ token.toList) :
    Graphql.requireValidSession env.now (decode env token) = .ok none ↔
      ∃ row, Names env token row ∧ Current env row := by
  rw [Graphql.requireValidSession_iff]
  constructor
  · rintro ⟨row, -, hdecode, hcurrent⟩
    exact ⟨row, (decode_eq_iff hcompact hspace).mp hdecode, hcurrent⟩
  · rintro ⟨row, hnames, hcurrent⟩
    obtain ⟨id, -, hfind⟩ := id hnames
    exact ⟨row, List.mem_of_find?_eq_some hfind, (decode_eq_iff hcompact hspace).mpr hnames,
      hcurrent⟩

theorem Names.unique {row' : SessionRow} (h : Names env token row) (h' : Names env token row') :
    row = row' := by
  obtain ⟨id, hverify, hfind⟩ := h
  obtain ⟨id', hverify', hfind'⟩ := h'
  rw [hverify] at hverify'
  cases hverify'
  exact Option.some.inj (hfind.symm.trans hfind')

/-- **The same sessions.**  Both servers accept exactly the valid tokens if and only if no token
names a session that one of them judges wrongly. -/
theorem sameSessions_iff (hcompact : ∀ token claims, env.verify token = .ok claims → Compact token) :
    SameSessions env token ↔ SessionsFit env token := by
  have hiff : SameSessions env token ↔
      ((' ' ∉ token.toList ∧ ∃ row, Names env token row ∧ row.id ≠ "") ↔ Valid env token) ∧
      ((∃ row, Names env (lastPart token) row ∧ Current env row) ↔ Valid env token) := by
    constructor
    · intro h
      have hgo := h.parseSession
      have hts := h.graphql
      rw [parseSession_pass_iff, parse_pass_iff] at hgo
      rw [bearerToken_bearer, graphql_iff hcompact (not_mem_lastPart token)] at hts
      exact ⟨hgo, hts⟩
    · rintro ⟨hgo, hts⟩
      refine ⟨?_, ?_, ?_⟩
      · rw [parseSession_pass_iff, parse_pass_iff]
        exact hgo
      · rw [requireValidSession_pass_iff (bearer_ne_empty token), parse_pass_iff]
        exact hgo
      · rw [bearerToken_bearer, graphql_iff hcompact (not_mem_lastPart token)]
        exact hts
  rw [hiff]
  unfold SessionsFit
  by_cases hspace : ' ' ∈ token.toList
  · -- a token with a space is not verified
    have hnames : ∀ row, ¬ Names env token row := by
      rintro row ⟨id, hverify, -⟩
      exact (hcompact token _ hverify).1 hspace
    have hvalid : ¬ Valid env token := fun ⟨row, hrow, _⟩ => hnames row hrow
    rw [if_pos hspace]
    constructor
    · rintro ⟨-, hts⟩ row hrow hcurrent
      exact hvalid (hts.mp ⟨row, hrow, hcurrent⟩)
    · intro hfit
      constructor
      · exact iff_of_false (fun h => h.1 hspace) hvalid
      · exact iff_of_false (fun ⟨row, hrow, hcurrent⟩ => hfit row hrow hcurrent) hvalid
  · rw [if_neg hspace, lastPart_of_not_mem hspace]
    constructor
    · rintro ⟨hgo, hts⟩ row hrow
      have hvalid : Valid env token ↔ env.now ≤ row.expireAt := by
        constructor
        · rintro ⟨row', hrow', hexpires⟩
          rw [hrow.unique hrow']
          exact hexpires
        · exact fun hexpires => ⟨row, hrow, hexpires⟩
      rw [hvalid] at hgo hts
      constructor
      · constructor
        · exact fun hid => hgo.mp ⟨hspace, row, hrow, hid⟩
        · intro hexpires
          obtain ⟨-, row', hrow', hid⟩ := hgo.mpr hexpires
          rw [hrow.unique hrow']
          exact hid
      · constructor
        · exact fun hcurrent => hts.mp ⟨row, hrow, hcurrent⟩
        · intro hexpires
          obtain ⟨row', hrow', hcurrent⟩ := hts.mpr hexpires
          rw [hrow.unique hrow']
          exact hcurrent
    · intro hfit
      constructor
      · constructor
        · rintro ⟨-, row, hrow, hid⟩
          exact ⟨row, hrow, (hfit row hrow).1.mp hid⟩
        · rintro ⟨row, hrow, hexpires⟩
          exact ⟨hspace, row, hrow, (hfit row hrow).1.mpr hexpires⟩
      · constructor
        · rintro ⟨row, hrow, hcurrent⟩
          exact ⟨row, hrow, (hfit row hrow).2.mp hcurrent⟩
        · rintro ⟨row, hrow, hexpires⟩
          exact ⟨row, hrow, (hfit row hrow).2.mpr hexpires⟩

end

/-! ## An expired session -/

/-- A table with one session, and a key that has signed one token. -/
def oneSession (expireAt : Timestamp) : SessionEnv where
  sessions := [{ id := "session", userId := "user", expireAt }]
  verify := fun token => if token = "h.p.s" then .ok (some "session") else .error "invalid signature"
  now := 1000000

theorem compact_oneSession (expireAt : Timestamp) :
    ∀ token claims, (oneSession expireAt).verify token = .ok claims → Compact token := by
  intro token claims h
  by_cases htoken : token = "h.p.s"
  · rw [htoken]
    exact ⟨by decide, by decide⟩
  · simp [oneSession, htoken] at h

theorem sameSessions_unexpired : SameSessions (oneSession 2000000) "h.p.s" := by
  refine (sameSessions_iff (compact_oneSession 2000000)).mpr ?_
  unfold SessionsFit
  rw [if_neg (by decide)]
  rintro row ⟨id, hverify, hfind⟩
  cases hverify
  cases hfind
  exact ⟨by decide, iff_of_true ⟨by decide, by decide⟩ (by decide)⟩

/-- `Parse` reads the expiry of a session and nobody looks at it. -/
theorem not_sameSessions_expired : ¬ ∀ (env : SessionEnv) (token : String),
    (∀ token claims, env.verify token = .ok claims → Compact token) → SameSessions env token := by
  intro h
  have hsame := h (oneSession 0) "h.p.s" (compact_oneSession 0)
  obtain ⟨row, ⟨id, hverify, hfind⟩, hexpires⟩ := hsame.parseSession.mp (by decide)
  cases hverify
  cases hfind
  exact absurd hexpires (by decide)

end Kotsadm.Sessions

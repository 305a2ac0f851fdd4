import Kotsadm.Lib.Throws
import Kotsadm.Store.Database

/-!
# Graphql — the session check in front of `/graphql`

`setContext` turns the `Authorization` header into a session, `requireContextGraphql` lets the
request pass or answers 403, and `graphqlExpress` executes the operation that is named in the body.
The resolvers themselves do not check the session again.
-/

namespace Kotsadm.Graphql

/-! ## Sessions -/

/-- A field that was never assigned is `undefined`. -/
structure Session where
  sessionId : Option String := none
  userId : Option String := none
  expiresAt : Option Timestamp := none
  scmToken : Option String := none
  type : Option String := none
  deriving DecidableEq, Repr

structure SessionRow where
  id : String
  userId : String
  expireAt : Timestamp
  deriving DecidableEq, Repr

/-- What the server gets from outside. -/
structure SessionEnv where
  /-- The table `session`. -/
  sessions : List SessionRow
  /-- `jwt.verify`: the `sessionId` of the payload. -/
  verify : String → Except String (Option String)
  /-- The secret `kotsadm-authstring`, decoded. -/
  authString : Except String String := .error "secrets \"kotsadm-authstring\" not found"
  now : Timestamp

/-- `text.startsWith(start)` -/
def startsWith (text start : String) : Bool := start.toList.isPrefixOf text.toList

/-- `text.split(" ")` -/
def splitSpaces (text : String) : List String := (text.toList.splitOn ' ').map String.ofList

/-- The token of the header, without its scheme. -/
def bearerToken (authorization : Option String) : String :=
  let token := authorization.getD ""
  if startsWith token "Bearer" then (splitSpaces token).getLast?.getD "" else token

def sessionOf (row : SessionRow) : Session where
  sessionId := some row.id
  userId := some row.userId
  expiresAt := some row.expireAt
  type := some "ship"

def getSession (env : SessionEnv) (id : Option String) : Except String Session :=
  match env.sessions.find? fun row => some row.id = id with
  | none =>
    let shown := id.getD "undefined"
    .error s!"Session not found with ID {shown}"
  | some row => .ok (sessionOf row)

/-- A token of the kots CLI is compared with the secret; its session never expires nor is stored. -/
def kotsSession (env : SessionEnv) (token : String) : Except String Session :=
  env.authString.map fun authString =>
    if authString = "" ∨ authString ≠ token then {}
    else { sessionId := some token, userId := some "kots-cli" }

/-- The body of the `try` of `decode`. -/
def decodeToken (env : SessionEnv) (token : String) : Except String Session :=
  let token := if startsWith token "Bearer " then (splitSpaces token)[1]?.getD "" else token
  if startsWith token "Kots " then kotsSession env token
  else env.verify token >>= getSession env

/-- `SessionStore.decode`: every failure is the empty session. -/
def decode (env : SessionEnv) (token : String) : Session :=
  if token ≠ "" ∧ token ≠ "null" then
    match decodeToken env token with
    | .ok session => session
    | .error _ => {}
  else {}

/-- `new Date(Date.now()).toUTCString()` has no milliseconds. -/
def currentTime (now : Timestamp) : Timestamp := now / 1000 * 1000

/-- The second half of `requireValidSession`. -/
def expiry (now : Timestamp) (session : Session) : Option String :=
  match session.expiresAt with
  | none => some "Expired session"
  | some expiresAt => if expiresAt < currentTime now then some "Expired session" else none

/-- The error that is returned, or the one that is thrown. -/
def requireValidSession (now : Timestamp) (session : Session) : Except String (Option String) :=
  if session.type = some "github" then
    match session.scmToken with
    | none => .error "Cannot read property 'length' of undefined"
    | some scmToken => .ok (if scmToken = "" then some "Unauthorized" else expiry now session)
  else .ok (if session.userId = some "" then some "Unauthorized" else expiry now session)

/-! ## Requests -/

/-- The `operationName` of a body. -/
inductive OperationName where
  /-- `undefined` or `null` -/
  | absent
  | text (name : String)
  /-- Any other JSON value. -/
  | other
  deriving DecidableEq, Repr

/-- An operation, with the fields of `Query` or `Mutation` that it selects under given variables. -/
structure Operation (V : Type) where
  name : Option String
  rootFields : V → List String

structure GraphqlRequest (V : Type) where
  /-- The operations of the document; a document that is not valid has none. -/
  document : List (Operation V)
  operationName : OperationName
  vars : V

inductive Body (V : Type) where
  | single (request : GraphqlRequest V)
  | batch (requests : List (GraphqlRequest V))

/-- `req.body.operationName`; an array has no such property. -/
def Body.operationName {V : Type} : Body V → OperationName
  | .single request => request.operationName
  | .batch _ => .absent

/-- The operation named `operationName`; without a name, the only operation. -/
def executedOperation {V : Type} (request : GraphqlRequest V) : Option (Operation V) :=
  let unnamed := match request.document with
    | [operation] => some operation
    | _ => none
  match request.operationName with
  | .absent => unnamed
  | .other => none
  | .text name =>
    if name = "" then unnamed
    else request.document.find? fun operation => operation.name = some name

/-- The resolvers of the fields of `Query` and `Mutation` that are executed. -/
def GraphqlRequest.resolvers {V : Type} (request : GraphqlRequest V) : List String :=
  match executedOperation request with
  | none => []
  | some operation => operation.rootFields request.vars

def Body.resolvers {V : Type} : Body V → List String
  | .single request => request.resolvers
  | .batch requests => requests.flatMap (·.resolvers)

/-! ## The gate -/

def anonymousOperations : List String := ["ping", "logout"]

/-- `anonymousOperations.includes(req.body.operationName)` -/
def isAnonymous : OperationName → Bool
  | .text name => anonymousOperations.contains name
  | _ => false

inductive Gate where
  | next
  | forbidden
  /-- The middleware has thrown, nothing is answered. -/
  | thrown
  deriving DecidableEq, Repr

def requireContextGraphql (now : Timestamp) (session : Session) (operationName : OperationName) :
    Gate :=
  if isAnonymous operationName then .next
  else match requireValidSession now session with
    | .error _ => .thrown
    | .ok (some _) => .forbidden
    | .ok none => .next

/-- The resolvers that a request to `/graphql` executes. -/
def handle {V : Type} (env : SessionEnv) (authorization : Option String) (body : Body V) :
    List String :=
  let session := decode env (bearerToken authorization)
  match requireContextGraphql env.now session body.operationName with
  | .next => body.resolvers
  | _ => []

/-! ## What is to hold -/

/-- The token decodes to a stored session that has not expired. -/
def StoredUnexpired (env : SessionEnv) (authorization : Option String) : Prop :=
  ∃ row ∈ env.sessions, decode env (bearerToken authorization) = sessionOf row ∧
    env.now ≤ row.expireAt

/-- A resolver other than those of the anonymous operations. -/
def Protected {V : Type} (body : Body V) : Prop :=
  ∃ resolver ∈ body.resolvers, resolver ∉ anonymousOperations

def Guarded {V : Type} (env : SessionEnv) (authorization : Option String) (body : Body V) : Prop :=
  ∀ resolver ∈ handle env authorization body, resolver ∉ anonymousOperations →
    StoredUnexpired env authorization

/-- The token decodes to a session that expired earlier in the current second. -/
def ExpiredThisSecond (env : SessionEnv) (authorization : Option String) : Prop :=
  ∃ row ∈ env.sessions, decode env (bearerToken authorization) = sessionOf row ∧
    row.userId ≠ "" ∧ currentTime env.now ≤ row.expireAt ∧ row.expireAt < env.now

/-- The session that `decode` returns is a stored one, or it has no expiry. -/
theorem decode_cases (env : SessionEnv) (token : String) :
    (∃ row ∈ env.sessions, decode env token = sessionOf row) ∨
      ((decode env token).expiresAt = none ∧ (decode env token).type = none) := by
  have hstored : ∀ id session, getSession env id = .ok session →
      ∃ row ∈ env.sessions, session = sessionOf row := by
    intro id session h
    unfold getSession at h
    split at h
    next => cases h
    next row hrow =>
      cases h
      exact ⟨row, List.mem_of_find?_eq_some hrow, rfl⟩
  have hdecoded : ∀ session, decodeToken env token = .ok session →
      (∃ row ∈ env.sessions, session = sessionOf row) ∨
        (session.expiresAt = none ∧ session.type = none) := by
    intro session h
    unfold decodeToken at h
    dsimp only at h
    generalize (if startsWith token "Bearer " = true then (splitSpaces token)[1]?.getD ""
      else token) = token' at h
    by_cases hkots : startsWith token' "Kots " = true
    · right
      rw [if_pos hkots] at h
      obtain ⟨authString, -, heq⟩ := Except.map_eq_ok.mp h
      rw [← heq]
      split <;> exact ⟨rfl, rfl⟩
    · left
      rw [if_neg hkots] at h
      obtain ⟨id, -, hget⟩ := Except.bind_eq_ok.mp h
      exact hstored id session hget
  unfold decode
  split
  next =>
    split
    next session hsession => exact hdecoded session hsession
    next => exact .inr ⟨rfl, rfl⟩
  next => exact .inr ⟨rfl, rfl⟩

/-- The check passes exactly for a stored session of a user, up to the current second. -/
theorem requireValidSession_iff (env : SessionEnv) (token : String) :
    requireValidSession env.now (decode env token) = .ok none ↔
      ∃ row ∈ env.sessions, decode env token = sessionOf row ∧ row.userId ≠ "" ∧
        currentTime env.now ≤ row.expireAt := by
  have hship : ∀ row, requireValidSession env.now (sessionOf row) = .ok none ↔
      row.userId ≠ "" ∧ currentTime env.now ≤ row.expireAt := by
    intro row
    have htype : (sessionOf row).type ≠ some "github" := by
      show some "ship" ≠ some "github"
      decide
    unfold requireValidSession
    rw [if_neg htype]
    by_cases huser : row.userId = ""
    · simp [sessionOf, huser]
    · by_cases hexpired : row.expireAt < currentTime env.now
      · simp [sessionOf, expiry, huser, hexpired]
      · simp [sessionOf, expiry, huser, hexpired, Nat.le_of_not_lt hexpired]
  rcases decode_cases env token with ⟨row, hrow, hdecode⟩ | ⟨hexpires, htype⟩
  · rw [hdecode, hship]
    constructor
    · exact fun h => ⟨row, hrow, rfl, h⟩
    · rintro ⟨other, -, heq, h⟩
      have hfields := Session.mk.inj heq
      rw [Option.some.inj hfields.2.1, Option.some.inj hfields.2.2.1]
      exact h
  · apply iff_of_false
    · unfold requireValidSession
      rw [htype, if_neg (by decide)]
      unfold expiry
      rw [hexpires]
      split <;> exact fun h => by cases h
    · rintro ⟨row, -, hdecode, -⟩
      rw [hdecode] at hexpires
      cases hexpires

/-- **The gate.**  A request executes resolvers without a stored, unexpired session exactly when it
claims an anonymous operation while its document selects something else, or in the second in which
the session expires. -/
theorem guarded_iff {V : Type} (env : SessionEnv) (authorization : Option String) (body : Body V) :
    Guarded env authorization body ↔
      (Protected body → StoredUnexpired env authorization ∨
        (isAnonymous body.operationName = false ∧ ¬ ExpiredThisSecond env authorization)) := by
  have hunless : Guarded env authorization body ↔
      (Protected body → requireContextGraphql env.now (decode env (bearerToken authorization))
        body.operationName = .next → StoredUnexpired env authorization) := by
    unfold Guarded Protected handle
    dsimp only
    split
    next hnext =>
      constructor
      · exact fun h ⟨resolver, hmem, hprotected⟩ _ => h resolver hmem hprotected
      · exact fun h resolver hmem hprotected => h ⟨resolver, hmem, hprotected⟩ hnext
    next hnext =>
      refine iff_of_true (fun resolver hmem => by cases hmem) fun _ hpass => ?_
      exact absurd hpass hnext
  rw [hunless]
  refine imp_congr_right fun _ => ?_
  unfold requireContextGraphql
  cases hname : isAnonymous body.operationName with
  | true => simp
  | false =>
    have hpass : (match requireValidSession env.now (decode env (bearerToken authorization)) with
        | .error _ => Gate.thrown
        | .ok (some _) => .forbidden
        | .ok none => .next) = .next ↔
        requireValidSession env.now (decode env (bearerToken authorization)) = .ok none := by
      split
      next h => simp [h]
      next h => simp [h]
      next h => simp [h]
    rw [if_neg (by decide), hpass, requireValidSession_iff]
    constructor
    · intro h
      by_cases hstored : StoredUnexpired env authorization
      · exact .inl hstored
      · refine .inr ⟨rfl, ?_⟩
        rintro ⟨row, hrow, hdecode, huser, htime, -⟩
        exact hstored (h ⟨row, hrow, hdecode, huser, htime⟩)
    · rintro (hstored | ⟨-, hexpired⟩) ⟨row, hrow, hdecode, huser, htime⟩
      · exact hstored
      · refine ⟨row, hrow, hdecode, ?_⟩
        by_contra hlate
        exact hexpired ⟨row, hrow, hdecode, huser, htime, Nat.lt_of_not_le hlate⟩

/-- `mutation ping { deployKotsVersion(…) }` -/
def disguisedRequest : GraphqlRequest Unit where
  document := [{ name := some "ping", rootFields := fun _ => ["deployKotsVersion"] }]
  operationName := .text "ping"
  vars := ()

def noSessions : SessionEnv where
  sessions := []
  verify := fun _ => .error "jwt malformed"
  now := 0

/-- A request without a token deploys a version. -/
theorem not_guarded_disguised : ¬ Guarded noSessions none (.single disguisedRequest) := by
  intro h
  obtain ⟨row, hrow, -⟩ := h "deployKotsVersion" List.mem_cons_self (by decide)
  cases hrow

end Kotsadm.Graphql

import Layr.Core.ServiceAccounts
import Layr.Kv.Keys

/-!
# Who sends a request

The middleware finds out who sends a request: from a signed token in the `Authorization` header or a
session cookie, from a service account key, or from a refresh token of a user's session, in this
order. Of the claims of a token those are kept that the authorization reads; events, metrics and the
hash of the refresh token are left out.
-/

namespace Layr.Core

open Go

/-! ## The context of a request -/

structure JWTClaims where
  subject : String
  role : String
  audience : String
  scope : String
  deriving DecidableEq, Repr

/-- `JWTClaims.Scopes`. -/
def JWTClaims.scopes (claims : JWTClaims) : List String := Strings.fields claims.scope

structure AuthContext where
  userID : String
  serviceAccountID : String
  jwt : JWTClaims
  deriving DecidableEq, Repr

def AuthContext.empty : AuthContext := ⟨"", "", ⟨"", "", "", ""⟩⟩

def AuthContext.hasScope (context : AuthContext) (requiredScope : String) : Bool :=
  Core.hasScope context.jwt.scopes requiredScope

def AuthContext.isAuthenticated (context : AuthContext) : Bool :=
  context.userID ≠ "" || context.serviceAccountID ≠ ""

/-- The claims of a token that is meant for a service account. -/
def JWTClaims.isM2M (claims : JWTClaims) : Bool :=
  claims.role = "service_role" || Strings.hasSuffix claims.audience ":service_account"

def AuthContext.isServiceAccount (context : AuthContext) : Bool :=
  context.serviceAccountID ≠ "" || context.jwt.isM2M

/-- `WithAuthContext`, which keeps users and service accounts apart. -/
def withAuthContext (context : AuthContext) : AuthContext :=
  let withRole (role : String) : JWTClaims :=
    if context.jwt.role = "" then { context.jwt with role := role } else context.jwt
  if context.isServiceAccount then
    { userID := ""
      serviceAccountID :=
        if context.serviceAccountID = "" && context.jwt.subject ≠ "" then context.jwt.subject
        else context.serviceAccountID
      jwt := withRole "service_role" }
  else if context.jwt.subject ≠ "" then
    { userID := if context.userID = "" then context.jwt.subject else context.userID
      serviceAccountID := ""
      jwt := withRole "authenticated" }
  else if context.userID ≠ "" then
    { context with serviceAccountID := "", jwt := withRole "authenticated" }
  else context

/-! ## Requests -/

/-- The headers and cookies of a request, empty where there is none, and the address of the
client. -/
structure Request where
  header : String → String
  cookie : String → String
  clientIP : String

namespace Request

variable (request : Request)

/-- The first of the values that is there. -/
def firstOf (values : List String) : String := (values.find? fun value => value ≠ "").getD ""

/-- The credential of a bearer in the `Authorization` header. -/
def bearer : Option String :=
  let authHeader := request.header "Authorization"
  if Strings.hasPrefix (Strings.toLower authHeader) "bearer " then
    some (Strings.trimSpace (String.ofList (authHeader.toList.drop 7)))
  else none

/-- `ExtractRequestServiceAccountKey`; a bearer's credential with two dots is a token. -/
def serviceAccountKey : String :=
  if request.header "Service-Account-Key" ≠ "" then
    Strings.trimSpace (request.header "Service-Account-Key")
  else if request.header "X-Service-Account-Key" ≠ "" then
    Strings.trimSpace (request.header "X-Service-Account-Key")
  else
    match request.bearer with
    | some candidate => if candidate.toList.count '.' ≠ 2 then candidate else ""
    | none => ""

/-- The session cookies of application users. -/
def sessionCookie : String := firstOf [request.cookie "__Host-session", request.cookie "session"]

/-- `ExtractRequestSessionToken`. -/
def sessionToken : String := firstOf [request.bearer.getD "", request.sessionCookie]

/-- The refresh token of a session, by cookie or header. -/
def refreshToken : String :=
  firstOf [request.sessionCookie, request.header "Refresh-Token", request.header "X-Refresh-Token"]

/-- `extractConsoleToken`. -/
def consoleToken : String :=
  firstOf [request.cookie "__Host-console-session", request.cookie "console-session",
    request.sessionToken]

end Request

/-! ## The middleware -/

/-- What the server uses of other packages and tables: SHA-256, the verification of access tokens,
the audience of its service accounts, the matching of addresses with patterns, the user and role
of a session by the hash of its refresh token, the console user of a session by the hash of its
token, the console users that are enabled, and the clock. -/
structure Server where
  digest : Kv.Digest
  verifyAccessToken : String → Option JWTClaims
  layrAudience : String
  isIPAllowed : String → List String → Bool
  sessionUser : String → Option (String × String)
  consoleSession : String → Option String
  isConsoleUserEnabled : String → Bool
  now : ℤ

def minimumSecretKeyLength : ℕ := 16

def secretKeyPrefixLength : ℕ := 8

/-- The bytes of a text. -/
def bytesOf (s : String) : List UInt8 := s.toList.flatMap String.utf8EncodeChar

namespace Server

variable (server : Server) (accounts : Accounts)

/-- The row of a secret key, by its first bytes and its hash. -/
def isKeyOf (secretKey : String) (account : ServiceAccount) : Bool :=
  bytesOf account.keyPrefix = (bytesOf secretKey).take secretKeyPrefixLength &&
    account.keyHash = server.digest.hex secretKey

/-- `Authenticate`. -/
def authenticate (secretKey clientIP : String) :
    Except ServiceAccountError (String × ServiceAccount) :=
  let secretKey := Strings.trimSpace secretKey
  if (bytesOf secretKey).length < minimumSecretKeyLength then .error .notFound
  else
    match accounts.rows.find? fun e => server.isKeyOf secretKey e.2 with
    | none => .error .notFound
    | some (id, account) =>
      if account.isEnabled = false then .error .disabled
      else if account.expiresAt.any fun expiresAt => expiresAt < server.now then .error .expired
      else if account.allowedIPs ≠ [] ∧ clientIP ≠ "" ∧
          server.isIPAllowed clientIP account.allowedIPs = false then .error .ipBlocked
      else .ok (id, account)

/-- Whom the middleware takes for the sender. -/
inductive Identity
  | m2m (claims : JWTClaims)
  | user (claims : JWTClaims)
  | account (id : String) (serviceAccount : ServiceAccount)
  | session (userID role : String)
  | anonymous
  deriving DecidableEq, Repr

/-- The first part of the middleware: a signed token. A token for the service accounts of another
audience is not accepted. -/
def tokenIdentity (request : Request) : Option Identity :=
  if request.sessionToken = "" then none
  else
    match server.verifyAccessToken request.sessionToken with
    | none => none
    | some claims =>
      if claims.subject = "" then none
      else if claims.isM2M then
        if claims.audience ≠ server.layrAudience then none
        else some (.m2m { claims with role := "service_role" })
      else some (.user claims)

/-- The second part: a service account key. -/
def keyIdentity (request : Request) : Option Identity :=
  if request.serviceAccountKey = "" then none
  else
    match server.authenticate accounts request.serviceAccountKey request.clientIP with
    | .error _ => none
    | .ok (id, account) => some (.account id account)

/-- The third part: a session in the database. -/
def sessionIdentity (request : Request) : Option Identity :=
  if request.refreshToken = "" then none
  else
    match server.sessionUser (server.digest.hex request.refreshToken) with
    | none => none
    | some (userID, role) => if userID = "" then none else some (.session userID role)

def identity (request : Request) : Identity :=
  (((server.tokenIdentity request).or (server.keyIdentity accounts request)).or
    (server.sessionIdentity request)).getD .anonymous

/-- The context that the middleware attaches. -/
def Identity.context : Identity → AuthContext
  | .m2m claims => withAuthContext ⟨"", claims.subject, claims⟩
  | .user claims => withAuthContext ⟨claims.subject, "", claims⟩
  | .account id serviceAccount =>
    withAuthContext ⟨"", id, ⟨id, "service_role", "", Strings.join " " serviceAccount.scopes⟩⟩
  | .session userID role => withAuthContext ⟨userID, "", ⟨userID, role, "", ""⟩⟩
  | .anonymous => .empty

/-- `middleware`, up to the handler. -/
def middleware (request : Request) : AuthContext := (server.identity accounts request).context

/-! ## The guard -/

/-- The key that `CheckScope` looks for by itself, if the context is not that of a service
account. Where there is none, it passes. -/
def checkKey (request : Request) (requiredScope : String) : Bool :=
  if request.serviceAccountKey = "" then true
  else
    match server.authenticate accounts request.serviceAccountKey request.clientIP with
    | .error _ => false
    | .ok (_, account) => hasScope account.scopes requiredScope

/-- `CheckScope`. -/
def checkScope (request : Request) (requiredScope : String) : Bool :=
  let context := server.middleware accounts request
  if context.isServiceAccount then context.hasScope requiredScope
  else server.checkKey accounts request requiredScope

/-- `RequireScope`: the message of the refusal, if the check fails. -/
def requireScope (request : Request) (requiredScope : String) : Option String :=
  if server.checkScope accounts request requiredScope then none
  else some ("Forbidden: scope " ++ requiredScope ++ " required")

end Server

end Layr.Core

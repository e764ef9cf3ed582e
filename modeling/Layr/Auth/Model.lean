import Layr.Kv.Keys
import Layr.Lib.Programs
import Layr.Lib.Table

/-!
# The state of the authentication service

The tables of the `auth` schema, the records in the key-value store, the challenges of the passkey
manager and the codes that were sent, with the configuration the handlers read, what they take from
other packages, and the replies they give. Times are in seconds. Properties of users, names and
transports of passkeys, events, logs and metrics are left out, and so are the key-value copies of
one-time codes, which no handler reads.
-/

namespace Layr.Auth

open Go

/-! ## Users -/

/-- The columns of `auth.users` without its key. -/
structure UserRow where
  email : Option String
  phone : Option String
  passwordHash : Option String
  encryptedMFASecret : Option String
  mfaEnabled : Bool
  role : String
  isAnonymous : Bool
  emailVerifiedAt : Option ℤ
  phoneVerifiedAt : Option ℤ
  lockedUntil : Option ℤ
  deriving DecidableEq, Repr

/-- A row as `INSERT INTO auth.users` leaves it where a column is not named. -/
def UserRow.default : UserRow where
  email := none
  phone := none
  passwordHash := none
  encryptedMFASecret := none
  mfaEnabled := false
  role := "authenticated"
  isAnonymous := false
  emailVerifiedAt := none
  phoneVerifiedAt := none
  lockedUntil := none

/-- `User`. -/
structure User extends UserRow where
  id : String
  deriving DecidableEq, Repr

/-- The value of a `User` variable that nothing was scanned into. -/
def User.zero : User := { UserRow.default with role := "", id := "" }

/-- `user.LockedUntil != nil && time.Now().UTC().Before(*user.LockedUntil)`. -/
def UserRow.isLocked (row : UserRow) (now : ℤ) : Bool := row.lockedUntil.any fun t => now < t

/-- The user after a trip through JSON, which leaves out the password hash and the secret of the
second factor. -/
def User.cached (user : User) : User :=
  { user with passwordHash := none, encryptedMFASecret := none }

/-- `auth.users`; the key is a UUID and so never empty. -/
structure Users where
  table : Table String UserRow
  named : ∀ id row, table.get id = some row → id ≠ ""

namespace Users

def empty : Users := ⟨.empty, fun _ _ h => by cases h⟩

def get (users : Users) (id : String) : Option User :=
  (users.table.get id).map fun row => ⟨row, id⟩

/-- The first row that meets the condition. -/
def find (users : Users) (p : UserRow → Bool) : Option User :=
  (users.table.rows.find? fun e => p e.2).map fun e => ⟨e.2, e.1⟩

/-- Another row has the email or the phone number of the row, which are unique. -/
def isTaken (users : Users) (id : String) (row : UserRow) : Bool :=
  users.table.rows.any fun e => e.1 ≠ id &&
    ((row.email.isSome && e.2.email = row.email) || (row.phone.isSome && e.2.phone = row.phone))

/-- `INSERT`, which fails for a key, email or phone number that is taken. -/
def insert (users : Users) (id : String) (row : UserRow) : Option Users :=
  if hid : id = "" then none
  else if users.isTaken id row then none
  else
    match h : users.table.insert id row with
    | none => none
    | some table => some
      { table
        named := fun id' row' hget => by
          rw [Table.get_insert h] at hget
          split at hget
          · next heq => exact heq ▸ hid
          · exact users.named id' row' hget }

/-- `UPDATE` of all rows that meet the condition. -/
def updateWhere (users : Users) (p : UserRow → Bool) (f : UserRow → UserRow) : Users where
  table := users.table.updateWhere (fun _ row => p row) f
  named id row h := by
    rw [Table.get_updateWhere, Option.map_eq_some_iff] at h
    obtain ⟨row', h, -⟩ := h
    exact users.named id row' h

/-- `UPDATE ... WHERE id`, which fails where there is no such row, or where its new email or phone
number is taken. -/
def update (users : Users) (id : String) (f : UserRow → UserRow) : Option Users :=
  match users.table.get id with
  | none => none
  | some row =>
    if users.isTaken id (f row) then none
    else some
      { table := users.table.update id f
        named := fun id' row' h => by
          rw [Table.get_update] at h
          split at h
          · obtain ⟨row'', h, -⟩ := Option.map_eq_some_iff.mp h
            exact users.named id' row'' h
          · exact users.named id' row' h }

def delete (users : Users) (id : String) : Users where
  table := users.table.delete id
  named id' row h := users.named id' row (Table.get_of_delete h).2

end Users

/-! ## The other records -/

/-- `auth.sessions`; `clientID` is set for the sessions of relying parties. -/
structure Session where
  userID : String
  clientID : Option String
  refreshTokenHash : String
  expiresAt : ℤ
  deriving DecidableEq, Repr

structure Passkey where
  userID : String
  publicKey : String
  deriving DecidableEq, Repr

/-- `auth.otps`. -/
structure Otp where
  recipient : String
  codeHash : String
  purpose : String
  attempts : ℕ
  expiresAt : ℤ
  deriving DecidableEq, Repr

/-- `OIDCAuthorizationCodePayload`. -/
structure OIDCAuthorizationCodePayload where
  clientID : String
  redirectURI : String
  userID : String
  scope : String
  codeChallenge : String
  codeChallengeMethod : String
  nonce : String
  deriving DecidableEq, Repr

/-- `OIDCAuthorizationStatePayload`. -/
structure OIDCAuthorizationStatePayload where
  clientID : String
  redirectURI : String
  scope : String
  clientState : String
  codeChallenge : String
  codeChallengeMethod : String
  nonce : String
  deriving DecidableEq, Repr

/-- `OAuthStatePayload`. -/
structure OAuthStatePayload where
  stateID : String
  provider : String
  redirectURI : String
  oidcStateID : String
  deriving DecidableEq, Repr

/-- A value with the time it is kept until. -/
structure Entry (α : Type) where
  value : α
  expiresAt : ℤ
  deriving DecidableEq, Repr

/-- The records of the key-value store under one kind of key. -/
abbrev Store (α : Type) := Table String (Entry α)

namespace Store

variable {α : Type}

/-- `KVStore.Get`. -/
def find (store : Store α) (now : ℤ) (key : String) : Option α :=
  ((store.get key).filter fun entry => now < entry.expiresAt).map Entry.value

/-- `KVStore.Set`. -/
def set (store : Store α) (key : String) (value : α) (expiresAt : ℤ) : Store α :=
  store.upsert key ⟨value, expiresAt⟩ fun _ => ⟨value, expiresAt⟩

end Store

/-- The tables, the records of the key-value store by the kind of their keys, the challenges that
the passkey manager holds in memory, the codes that were sent with their recipients, and the
clock. -/
structure State where
  users : Users
  identities : Table (String × String) String
  sessions : Table String Session
  passkeys : Table String Passkey
  otps : Table String Otp
  /-- The keys `auth:session:` with the hash of a refresh token. -/
  cache : Store User
  /-- The keys `auth:mfa_ticket:`. -/
  tickets : Store String
  /-- The keys `auth:code:`. -/
  codes : Store OIDCAuthorizationCodePayload
  /-- The keys `auth:oidc:mfa:`. -/
  oidcMFA : Store String
  /-- The keys `auth:oidc:state:`. -/
  oidcStates : Store OIDCAuthorizationStatePayload
  /-- The keys `auth:pkce:`. -/
  oauthStates : Store OAuthStatePayload
  challenges : Store String
  outbox : List (String × String)
  now : ℤ

def State.initial (now : ℤ) : State where
  users := .empty
  identities := .empty
  sessions := .empty
  passkeys := .empty
  otps := .empty
  cache := .empty
  tickets := .empty
  codes := .empty
  oidcMFA := .empty
  oidcStates := .empty
  oauthStates := .empty
  challenges := .empty
  outbox := []
  now := now

/-! ## The surroundings of a request -/

/-- `OIDCClientConfig`, with its secret in the clear. -/
structure OIDCClientConfig where
  clientID : String
  clientSecret : String
  isPublic : Bool
  redirectURIs : List String
  deriving DecidableEq, Repr

/-- What the handlers read of the configuration. -/
structure Config where
  passwordEnabled : Bool
  passwordMinLength : ℤ
  emailOTPEnabled : Bool
  emailOTPExpiryMinutes : ℤ
  smsOTPEnabled : Bool
  smsOTPExpiryMinutes : ℤ
  passkeysEnabled : Bool
  anonymousEnabled : Bool
  mfaEnabled : Bool
  mfaPolicy : String
  mfaRiskTriggers : List String
  fastPathSessionsEnabled : Bool
  sessionTTLSeconds : ℤ
  refreshTokenExpirySeconds : ℤ
  oidcEnabled : Bool
  oidcClients : List OIDCClientConfig
  showPassword : Bool
  showSignUp : Bool
  showEmailOTP : Bool
  showSMSOTP : Bool
  /-- The OAuth providers and whether they are enabled. -/
  oauthProviders : List (String × Bool)

/-- What a provider says about its user. -/
structure OAuthUserInfo where
  providerUserID : String
  email : String
  deriving DecidableEq, Repr

/-- What the service takes from elsewhere: SHA-256, the password hasher, the encryption of fields,
`ValidateCode` of the TOTP manager, `VerifySignature` of the passkey package, UUIDs, the S256
method of PKCE, the subject of an ID token, a time a hundred years later, whether messages can be
sent, and the providers. The redirect addresses of the clients are well-formed. -/
structure Env where
  config : Config
  digest : Kv.Digest
  hashPassword : String → String
  verifyPassword : String → String → Bool
  encrypt : String → String
  decrypt : String → Option String
  validateCode : String → String → ℤ → Bool
  verifySignature : String → String → String → String → Bool
  isUUID : String → Bool
  codeChallengeS256 : String → String
  idTokenSubject : String → Option String
  hundredYearsAfter : ℤ → ℤ
  emailReady : Bool
  smsReady : Bool
  serverBaseURL : String
  isProviderResolved : String → Bool
  exchangeCode : String → String → String → Option OAuthUserInfo

/-- Who sends a request, as the middleware has found out. -/
structure Caller where
  userID : String
  email : String
  phone : String
  sessionID : String
  refreshTokenHash : String
  deriving DecidableEq, Repr

structure RiskAssessment where
  level : String
  reasons : List String
  deriving DecidableEq, Repr

/-- One request: its sender and session token, how the checks of the captcha, of breached
passwords, of its scope and of rates went (a failed one with the reply it gives), whether the
database takes the address of the client, and what is drawn at random for it. -/
structure Call where
  caller : Caller
  sessionToken : String
  captcha : Option (ℕ × String)
  breach : Option (ℕ × String)
  scope : Option (ℕ × String)
  isLimited : Bool
  isCoolingDown : Bool
  isAddressAccepted : Bool
  risk : Option RiskAssessment
  newUserID : String
  newSessionID : String
  newRefreshToken : String
  newOTPID : String
  newCode : String
  newChallenge : String
  newTicket : String
  newAuthorizationCode : String
  newStateID : String
  newMFAToken : String
  newSecret : String
  deriving DecidableEq, Repr

/-! ## Replies -/

/-- The pages of the hosted sign-in. -/
inductive Page
  | signIn
  | signUp
  | otpRequest
  | otpVerify (recipient : String)
  | mfa (mfaToken : String)
  | mode (mode : String)
  deriving DecidableEq, Repr

inductive Reply
  | error (status : ℕ) (message : String)
  | oauthError (status : ℕ) (code description : String)
  | redirectError (code description : String)
  | noContent
  | message (text : String)
  | mfaRequired (mfaTicket : String)
  | mfaSecret (secret : String)
  | passkeyOptions (challenge userID : String)
  | page (page : Page) (error notice : String)
  | providerRedirect (state : String)
  | account (user : User)
  | revoked (count : ℕ)
  /-- An access token and a refresh token for the user. -/
  | tokens (user : User) (sessionID refreshToken : String)
  /-- An authorization code for the user, and the refresh token of a session cookie, if one is
  set. -/
  | redirect (userID code : String) (refreshToken : Option String)
  deriving DecidableEq, Repr

/-- The user that a reply has tokens or an authorization code for. -/
def Reply.grantee : Reply → Option String
  | tokens user _ _ => some user.id
  | redirect userID _ _ => some userID
  | error _ _ | oauthError _ _ _ | redirectError _ _ | noContent | message _ | mfaRequired _
  | mfaSecret _ | passkeyOptions _ _ | page _ _ _ | providerRedirect _ | account _ | revoked _ =>
    none

/-- The statements that look for something which is to be used once. -/
inductive Access
  | cachedSession (hash : String)
  | session (hash : String)
  | sessionGrant (hash : String)
  | mfaTicket (ticket : String)
  | code (code : String)
  | oauthState (state : String)
  deriving DecidableEq, Repr

abbrev Act (α : Type) := Prog State Access Reply α

abbrev Handler := Act Empty

end Layr.Auth

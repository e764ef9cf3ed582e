import Layr.Auth.Model

/-!
# The statements of the authentication service

The SQL statements of the handlers, the operations they use of the key-value store and of the
passkey manager, and the messages they send. Each of them is one step on the state.
-/

namespace Layr.Auth

namespace Users

/-- `INSERT ... ON CONFLICT (...) DO UPDATE`: the row that meets the condition is updated, and
where there is none a new one is inserted. The result is the row and whether it is new. -/
def upsert (users : Users) (p : UserRow → Bool) (id : String) (row : UserRow)
    (f : UserRow → UserRow) : Option (User × Bool) × Users :=
  match users.find p with
  | some user =>
    let updated := users.update user.id f
    ((updated.bind fun users => users.get user.id).map fun user => (user, false),
      updated.getD users)
  | none =>
    let inserted := users.insert id row
    (inserted.map fun _ => (⟨row, id⟩, true), inserted.getD users)

end Users

namespace State

variable (s : State)

/-! ## Users -/

def selectUser (id : String) : Option User := s.users.get id

def selectUserByEmail (email : String) : Option User :=
  s.users.find fun row => row.email = some email

def selectUserByPhone (phone : String) : Option User :=
  s.users.find fun row => row.phone = some phone

/-- `WHERE email = $1 OR phone = $1`. -/
def selectUserByRecipient (recipient : String) : Option User :=
  s.users.find fun row => row.email = some recipient || row.phone = some recipient

/-- The users with the email or the phone number of a registration. -/
def selectUserByEither (email phone : Option String) : Option User :=
  s.users.find fun row =>
    (row.email.isSome && row.email = email) || (row.phone.isSome && row.phone = phone)

def insertUser (id : String) (row : UserRow) : Option User × State :=
  let inserted := s.users.insert id row
  (inserted.map fun _ => ⟨row, id⟩, { s with users := inserted.getD s.users })

def updateUser (id : String) (f : UserRow → UserRow) : Option User × State :=
  let updated := s.users.update id f
  (updated.bind fun users => users.get id, { s with users := updated.getD s.users })

/-- `UPDATE ... WHERE p RETURNING`, of which the first row is read. -/
def updateUsersWhere (p : UserRow → Bool) (f : UserRow → UserRow) : Option User × State :=
  ((s.users.find p).map fun user => { user with toUserRow := f user.toUserRow },
    { s with users := s.users.updateWhere p f })

def upsertUser (p : UserRow → Bool) (id : String) (row : UserRow) (f : UserRow → UserRow) :
    Option (User × Bool) × State :=
  let upserted := s.users.upsert p id row f
  (upserted.1, { s with users := upserted.2 })

/-- `INSERT INTO auth.users (id, ...) ON CONFLICT (id) DO UPDATE SET last_updated_at`, which fails
for an id that is no UUID. -/
def upsertUserByID (isUUID : Bool) (id : String) (row : UserRow) : Option User × State :=
  match s.users.get id with
  | some user => (some user, s)
  | none => if isUUID then s.insertUser id row else (none, s)

/-- `DELETE FROM auth.users`, with everything that refers to the user. -/
def deleteUser (id : String) : Option User × State :=
  (s.users.get id,
    { s with
      users := s.users.delete id
      sessions := s.sessions.deleteWhere fun _ session => session.userID = id
      passkeys := s.passkeys.deleteWhere fun _ passkey => passkey.userID = id
      identities := s.identities.deleteWhere fun _ userID => userID = id })

/-! ## Sessions -/

/-- `INSERT INTO auth.sessions`, which fails where the address of the client is no address, where
there is no such user, and where the key is taken. -/
def insertSession (isAccepted : Bool) (id : String) (session : Session) : Bool × State :=
  let inserted :=
    if isAccepted && (s.users.get session.userID).isSome then s.sessions.insert id session else none
  (inserted.isSome, { s with sessions := inserted.getD s.sessions })

/-- The session of a refresh token, with its id. -/
def selectSession (hash : String) : Option (String × Session) :=
  s.sessions.rows.find? fun e => e.2.refreshTokenHash = hash

/-- `... AND expires_at > clock_timestamp()`. -/
def selectLiveSession (hash : String) : Option (String × Session) :=
  s.sessions.rows.find? fun e => e.2.refreshTokenHash = hash && s.now < e.2.expiresAt

def sessionsWhere (p : String → Session → Bool) : List (String × Session) :=
  s.sessions.rows.filter fun e => p e.1 e.2

/-- `DELETE FROM auth.sessions WHERE p RETURNING`. -/
def deleteSessionsWhere (p : String → Session → Bool) : List (String × Session) × State :=
  (s.sessionsWhere p, { s with sessions := s.sessions.deleteWhere p })

def deleteSession (id : String) : State := { s with sessions := s.sessions.delete id }

/-- `UPDATE auth.sessions SET refresh_token_hash, expires_at`. -/
def rotateSession (id hash : String) (expiresAt : ℤ) : State :=
  { s with sessions := s.sessions.update id fun session =>
      { session with refreshTokenHash := hash, expiresAt := expiresAt } }

/-! ## Sessions in the key-value store -/

def findCached (hash : String) : Option User := s.cache.find s.now hash

def setCached (hash : String) (user : User) (ttl : ℤ) : State :=
  { s with cache := s.cache.set hash user.cached (s.now + ttl) }

def deleteCached (hash : String) : State := { s with cache := s.cache.delete hash }

/-- The deletions of several keys, one after the other. -/
def deleteCachedOf (sessions : List (String × Session)) : State :=
  { s with cache := s.cache.deleteWhere fun hash _ =>
      sessions.any fun e => e.2.refreshTokenHash = hash }

/-! ## One-time codes -/

def insertOTP (id : String) (otp : Otp) : State :=
  { s with otps := (s.otps.insert id otp).getD s.otps }

/-- The latest code for a recipient and a purpose, which are kept with the latest first. -/
def selectOTP (recipient purpose : String) : Option (String × Otp) :=
  s.otps.rows.find? fun e => e.2.recipient = recipient && e.2.purpose = purpose

/-- `... AND expires_at > clock_timestamp()`. -/
def selectLiveOTP (recipient purpose : String) : Option (String × Otp) :=
  s.otps.rows.find? fun e =>
    e.2.recipient = recipient && e.2.purpose = purpose && s.now < e.2.expiresAt

def deleteOTP (id : String) : State := { s with otps := s.otps.delete id }

def deleteOTPsWhere (p : Otp → Bool) : State :=
  { s with otps := s.otps.deleteWhere fun _ otp => p otp }

def countAttempt (id : String) : State :=
  { s with otps := s.otps.update id fun otp => { otp with attempts := otp.attempts + 1 } }

def send (recipient code : String) : State := { s with outbox := (recipient, code) :: s.outbox }

/-! ## Passkeys -/

/-- `GenerateChallenge`. -/
def generateChallenge (challenge userID : String) : State :=
  { s with challenges := s.challenges.set challenge userID (s.now + 300) }

/-- `ConsumeChallenge`; the user is empty in a sign-in. -/
def consumeChallenge (challenge : String) : Option String × State :=
  (((s.challenges.get challenge).filter fun entry => s.now ≤ entry.expiresAt).map Entry.value,
    { s with challenges := s.challenges.delete challenge })

/-- `INSERT INTO auth.passkeys ... ON CONFLICT (credential_id) DO UPDATE SET last_used_at`. -/
def insertPasskey (credentialID : String) (passkey : Passkey) : Bool × State :=
  let isUser := (s.users.get passkey.userID).isSome
  (isUser,
    { s with passkeys :=
        if isUser then s.passkeys.upsert credentialID passkey id else s.passkeys })

def selectPasskey (credentialID : String) : Option Passkey := s.passkeys.get credentialID

/-! ## Identities -/

def selectIdentity (provider providerUserID : String) : Option String :=
  s.identities.get (provider, providerUserID)

/-- `INSERT INTO auth.identities ... ON CONFLICT DO UPDATE`; an existing identity moves to the
user only in the link of an anonymous user. -/
def linkIdentity (isMoved : Bool) (provider providerUserID userID : String) : State :=
  { s with identities :=
      if (s.users.get userID).isSome then
        s.identities.upsert (provider, providerUserID) userID fun old =>
          if isMoved then userID else old
      else s.identities }

/-! ## Other records of the key-value store -/

def findTicket (ticket : String) : Option String := s.tickets.find s.now ticket

def setTicket (ticket userID : String) : State :=
  { s with tickets := s.tickets.set ticket userID (s.now + 300) }

def deleteTicket (ticket : String) : State := { s with tickets := s.tickets.delete ticket }

def findCode (code : String) : Option OIDCAuthorizationCodePayload := s.codes.find s.now code

def setCode (code : String) (payload : OIDCAuthorizationCodePayload) : State :=
  { s with codes := s.codes.set code payload (s.now + 300) }

def deleteCode (code : String) : State := { s with codes := s.codes.delete code }

def findOIDCMFA (mfaToken : String) : Option String := s.oidcMFA.find s.now mfaToken

def setOIDCMFA (mfaToken userID : String) : State :=
  { s with oidcMFA := s.oidcMFA.set mfaToken userID (s.now + 300) }

def deleteOIDCMFA (mfaToken : String) : State := { s with oidcMFA := s.oidcMFA.delete mfaToken }

def findOIDCState (stateID : String) : Option OIDCAuthorizationStatePayload :=
  s.oidcStates.find s.now stateID

def setOIDCState (stateID : String) (payload : OIDCAuthorizationStatePayload) : State :=
  { s with oidcStates := s.oidcStates.set stateID payload (s.now + 600) }

def deleteOIDCState (stateID : String) : State :=
  { s with oidcStates := s.oidcStates.delete stateID }

def findOAuthState (state : String) : Option OAuthStatePayload := s.oauthStates.find s.now state

def setOAuthState (state : String) (payload : OAuthStatePayload) : State :=
  { s with oauthStates := s.oauthStates.set state payload (s.now + 600) }

def deleteOAuthState (state : String) : State :=
  { s with oauthStates := s.oauthStates.delete state }

end State

end Layr.Auth

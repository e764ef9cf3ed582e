import Layr.Auth.Frames

/-!
# What the requests come to

For every request: the grounds on which a user gets tokens or a code, and what is left behind in
the state, whether the request was granted or not.
-/

namespace Layr.Auth

open Go Prog

variable (env : Env) (call : Call)

/-! ## The ends of handlers -/

/-- How long a refresh token is valid in `issueSessionResponse`. -/
def Env.refreshTokenExpiry : ℤ :=
  if env.config.refreshTokenExpirySeconds ≤ 0 then defaultRefreshTokenExpirySeconds
  else env.config.refreshTokenExpirySeconds

/-- The session of the token that is drawn in a request. -/
def newSession (userID : String) (clientID : Option String) (expiresAt : ℤ) : Session :=
  ⟨userID, clientID, env.hashRefreshToken call.newRefreshToken, expiresAt⟩

/-- The state after `issueSessionResponse`. -/
def State.opened (s : State) (user : User) : State :=
  let stored := (s.insertSession call.isAddressAccepted call.newSessionID
    (newSession env call user.id none (s.now + env.refreshTokenExpiry))).2
  if env.config.fastPathSessionsEnabled then
    stored.setCached (env.hashRefreshToken call.newRefreshToken) user
      (if env.config.sessionTTLSeconds ≤ 0 then defaultSessionTTLSeconds
        else env.config.sessionTTLSeconds)
  else stored

/-- The state after `completeOIDCAuthorization`. -/
def State.authorized (s : State) (stateID userID : String)
    (payload : OIDCAuthorizationStatePayload) (expiry : ℤ) : State :=
  let coded := (s.deleteOIDCState stateID).setCode call.newAuthorizationCode
    { clientID := payload.clientID
      redirectURI := payload.redirectURI
      userID := userID
      scope := payload.scope
      codeChallenge := payload.codeChallenge
      codeChallengeMethod := payload.codeChallengeMethod
      nonce := payload.nonce }
  (coded.insertSession true call.newSessionID
    (newSession env call userID none (s.now + expiry))).2

/-- The state after sessions and keys of the cache were deleted. -/
def State.without (s : State) (p : String → Session → Bool) (q : String → Bool) : State :=
  { s with sessions := s.sessions.deleteWhere p
           cache := s.cache.deleteWhere fun hash _ => q hash }

/-- The state after `dispatchCode`. -/
def State.dispatched (s : State) (recipient purpose : String) (ttl : ℤ) : State :=
  (s.insertOTP call.newOTPID ⟨recipient, env.hashCode call.newCode, purpose, 0, s.now + ttl⟩).send
    recipient call.newCode

/-- The tokens of a new session. -/
def newTokens (user : User) : Reply := .tokens user call.newSessionID call.newRefreshToken

/-- The sign-in of the user asks for the second factor. -/
def asksForMFA (user : User) : Bool :=
  user.mfaEnabled && env.config.mfaEnabled && shouldTriggerMFA env call

/-- The anonymous user that sends the request. -/
def anonymousCaller (s : State) : Option User :=
  (s.selectUser call.caller.userID).filter fun user =>
    call.caller.userID ≠ "" && user.email.isNone && user.phone.isNone && user.isAnonymous

section ends

variable {α : Type} {Q : Empty → State → Prop} {Q' : Unit → State → Prop}
  {E : Reply → State → Prop} {s : State}

@[simp] theorem wp_issueSessionResponse (user : User) :
    (issueSessionResponse env call user).wp Q E s ↔
      E (newTokens call user) (s.opened env call user) := by
  cases hfast : env.config.fastPathSessionsEnabled
  · simp [issueSessionResponse, State.opened, newSession, Env.refreshTokenExpiry, newTokens, hfast]
  · simp [issueSessionResponse, State.opened, newSession, Env.refreshTokenExpiry, newTokens, hfast]

@[simp] theorem wp_completeSignInFlow (user : User) :
    (completeSignInFlow env call user).wp Q E s ↔
      (asksForMFA env call user → E (.mfaRequired ("mfa_tk_" ++ call.newTicket))
        (s.setTicket ("mfa_tk_" ++ call.newTicket) user.id)) ∧
      (asksForMFA env call user = false →
        E (newTokens call user) (s.opened env call user)) := by
  simp [completeSignInFlow, asksForMFA]

@[simp] theorem wp_ensureUnlocked (user : User) (r : Reply) :
    (ensureUnlocked user r).wp Q' E s ↔
      (user.isLocked s.now = false → Q' () s) ∧ (user.isLocked s.now → E r s) := by
  simp [ensureUnlocked]

@[simp] theorem wp_resolveAnonymousCaller {Q : Option User → State → Prop} :
    (resolveAnonymousCaller call).wp Q E s ↔ Q (anonymousCaller call s) s := by
  simp [resolveAnonymousCaller, anonymousCaller]

@[simp] theorem wp_checkCaptcha :
    (checkCaptcha call).wp Q' E s ↔
      (call.captcha = none → Q' () s) ∧
        ∀ failed, call.captcha = some failed → E (.error failed.1 failed.2) s := by
  simp [checkCaptcha]

@[simp] theorem wp_requireScope :
    (requireScope call).wp Q' E s ↔
      (call.scope = none → Q' () s) ∧
        ∀ failed, call.scope = some failed → E (.error failed.1 failed.2) s := by
  simp [requireScope]

@[simp] theorem wp_completeOIDCAuthorization (stateID userID : String)
    (payload : OIDCAuthorizationStatePayload) (expiry : ℤ) :
    (completeOIDCAuthorization env call stateID payload expiry userID).wp Q E s ↔
      E (.redirect userID call.newAuthorizationCode (some call.newRefreshToken))
        (s.authorized env call stateID userID payload expiry) := by
  simp [completeOIDCAuthorization, issueOIDCAuthorizationCode, State.authorized, newSession]
  rfl

@[simp] theorem wp_dispatchCode (recipient purpose : String) (ttl : ℤ) :
    (dispatchCode env call recipient purpose ttl).wp Q' E s ↔
      Q' () (s.dispatched env call recipient purpose ttl) := by
  simp [dispatchCode, State.dispatched]

end ends

/-! ## Grounds -/

/-- A code for the recipient is stored, and the text is accepted as that code. -/
def State.HasCode (s : State) (recipient text : String) : Prop :=
  ∃ id otp, s.otps.get id = some otp ∧ otp.recipient = recipient ∧
    env.verifyCode text otp.codeHash

/-- The recipient is the email address or the phone number of the user. -/
def UserRow.HasAddress (row : UserRow) (recipient : String) : Prop :=
  row.email = some recipient ∨ row.phone = some recipient

/-- The callback ends a hosted sign-in. -/
def State.IsHosted (s : State) (payload : OAuthStatePayload) : Prop :=
  payload.oidcStateID ≠ "" ∧ (s.findOIDCState payload.oidcStateID).isSome

/-- Requests that turn an anonymous caller into a registered user. -/
def Request.converts : Request → Bool
  | signUp _ | verifyOTP _ | verifyPasskeySignUp _ | processOAuthCallback _ => true
  | _ => false

/-- Requests that confirm an address. -/
def Request.confirms : Request → Bool
  | confirmEmailVerification _ | confirmPhoneVerification _ => true
  | _ => false

/-- Why a request in a state gets tokens or a code for a user. -/
inductive Grounds (s : State) : Request → String → Prop
  /-- There was no such user. -/
  | created {request : Request} {userID : String} (hnew : s.users.get userID = none) :
      Grounds s request userID
  /-- An anonymous caller becomes a registered user. -/
  | converted {request : Request} {user : User} (hrequest : request.converts)
      (huser : anonymousCaller call s = some user) : Grounds s request user.id
  | password {input : SignInInput} {user : User} {hash : String}
      (huser : s.users.get user.id = some user) (hhash : user.passwordHash = some hash)
      (hpassword : env.verifyPassword input.password hash)
      (hlock : user.isLocked s.now = false) (hmfa : asksForMFA env call user = false) :
      Grounds s (.signIn (some input)) user.id
  | resetCode {input : ConfirmPasswordResetInput} {recipient : String} {user : User}
      (huser : s.users.get user.id = some user) (haddress : user.HasAddress recipient)
      (hrecipient : normalizeRecipient (resetRecipient input.email input.phone) = some recipient)
      (hcode : s.HasCode env recipient input.code) (hlock : user.isLocked s.now = false) :
      Grounds s (.confirmPasswordReset (some input)) user.id
  | oneTimeCode {input : VerifyOTPInput} {recipient : String} {user : User}
      (huser : s.users.get user.id = some user) (haddress : user.HasAddress recipient)
      (hcode : s.HasCode env recipient input.code) (hlock : user.isLocked s.now = false)
      (hmfa : asksForMFA env call user = false) : Grounds s (.verifyOTP (some input)) user.id
  /-- The user is the one that was named when the ceremony began. -/
  | passkeySignUp {input : VerifyPasskeySignUpInput} {user : User}
      (huser : s.users.get user.id = some user)
      (hchallenge : (s.consumeChallenge input.challenge).1 = some user.id) :
      Grounds s (.verifyPasskeySignUp (some input)) user.id
  | assertion {input : VerifyPasskeySignInInput} {passkey : Passkey} {user : User}
      (huser : s.users.get user.id = some user)
      (hpasskey : s.selectPasskey input.credentialID = some passkey)
      (hid : passkey.userID = user.id)
      (hsignature : input.signature ≠ "" → env.verifySignature passkey.publicKey
        input.clientDataJSON input.authenticatorData input.signature)
      (hlock : user.isLocked s.now = false) : Grounds s (.verifyPasskeySignIn (some input)) user.id
  /-- The lock is read from the copy of the user in the key-value store. -/
  | cachedSession {given : String} {user : User} (hid : user.id ≠ "")
      (hcached : s.findCached (env.hashRefreshToken (presentedToken call given)) = some user)
      (hlock : user.isLocked s.now = false) : Grounds s (.refreshToken (some given)) user.id
  | storedSession {given : String} {session : String × Session} {user : User}
      (hsession : s.selectSession (env.hashRefreshToken (presentedToken call given)) = some session)
      (hid : session.2.userID = user.id) (huser : s.users.get user.id = some user)
      (hlock : user.isLocked s.now = false) : Grounds s (.refreshToken (some given)) user.id
  | secondFactor {input : ChallengeMFAInput} {user : User}
      (huser : s.users.get user.id = some user) (hlock : user.isLocked s.now = false)
      (hcode : env.acceptsCode user (Strings.trimSpace input.code) s.now) :
      Grounds s (.challengeMFA (some input)) user.id
  | enrolment {code : String} {user : User} (huser : s.users.get user.id = some user)
      (hlock : user.isLocked s.now = false) : Grounds s (.verifyMFA code) user.id
  /-- The caller has confirmed an address. -/
  | confirmed {request : Request} {user : User} (hrequest : request.confirms)
      (huser : s.users.get user.id = some user) (hcaller : call.caller.userID = user.id) :
      Grounds s request user.id
  | identity {input : OAuthCallbackInput} {payload : OAuthStatePayload} {info : OAuthUserInfo}
      {user : User} (huser : s.users.get user.id = some user)
      (hpayload : s.findOAuthState input.state = some payload)
      (hinfo : env.exchangeCode input.provider input.code (input.callback env payload) = some info)
      (hidentity : s.selectIdentity input.provider info.providerUserID = some user.id)
      (hlock : user.isLocked s.now = false)
      (hmfa : asksForMFA env call user → s.IsHosted payload) :
      Grounds s (.processOAuthCallback input) user.id
  /-- The provider's user has the email address of the user. -/
  | providerEmail {input : OAuthCallbackInput} {payload : OAuthStatePayload} {info : OAuthUserInfo}
      {user : User} (huser : s.users.get user.id = some user)
      (hpayload : s.findOAuthState input.state = some payload)
      (hinfo : env.exchangeCode input.provider input.code (input.callback env payload) = some info)
      (hemail : info.email ≠ "" ∧ user.email = some info.email)
      (hidentity : s.selectIdentity input.provider info.providerUserID = none)
      (hmfa : asksForMFA env call user → s.IsHosted payload) :
      Grounds s (.processOAuthCallback input) user.id
  /-- The caller is signed in. -/
  | singleSignOn {input : AuthorizeOIDCInput} (hcaller : call.caller.userID ≠ "") :
      Grounds s (.authorizeOIDC input) call.caller.userID
  /-- The lock is not checked. -/
  | hostedSecondFactor {form : OIDCForm} {user : User} (huser : s.users.get user.id = some user)
      (haction : Strings.trimSpace form.action = "verify_mfa")
      (htoken : s.findOIDCMFA form.mfaToken = some user.id)
      (hcode : env.acceptsCode user (Strings.trimSpace form.mfaCode) s.now) :
      Grounds s (.submitOIDCAuthorize form) user.id
  /-- A password or a one-time code in the hosted form. -/
  | hosted {form : OIDCForm} {user : User} (huser : s.users.get user.id = some user)
      (hlock : user.isLocked s.now = false)
      (hmfa : user.mfaEnabled →
        env.acceptsCode user (Strings.trimSpace form.mfaCode) s.now) :
      Grounds s (.submitOIDCAuthorize form) user.id
  /-- The lock is not checked. -/
  | authorizationCode {input : OIDCTokenInput} {payload : OIDCAuthorizationCodePayload}
      {user : User} (huser : s.users.get user.id = some user)
      (hcode : s.findCode input.code = some payload) (hid : payload.userID = user.id) :
      Grounds s (.issueTokenByCode input) user.id
  | refreshGrant {input : OIDCTokenInput} {session : String × Session} {user : User}
      (hsession : s.selectLiveSession (env.hashRefreshToken input.refreshToken) = some session)
      (hid : session.2.userID = user.id) (huser : s.users.get user.id = some user)
      (hlock : user.isLocked s.now = false) : Grounds s (.issueTokenByRefreshToken input) user.id

/-! ## Outcomes -/

/-- The keys that sessions have in the key-value store. -/
def State.keysOf (s : State) (p : String → Session → Bool) (hash : String) : Bool :=
  (s.sessionsWhere p).any fun e => e.2.refreshTokenHash = hash

/-- The sessions that a request ends, and the keys it deletes from the key-value store. -/
inductive Ends (s : State) : Request → (String → Session → Bool) → (String → Bool) → Prop
  | signOut (given : String) : Ends s (.signOut given)
      (fun _ session =>
        session.refreshTokenHash = env.hashRefreshToken (presentedToken call given))
      (fun hash => hash = env.hashRefreshToken (presentedToken call given))
  | cached (given : String) : Ends s (.refreshToken (some given))
      (fun _ session =>
        session.refreshTokenHash = env.hashRefreshToken (presentedToken call given))
      (fun hash => hash = env.hashRefreshToken (presentedToken call given))
  /-- A session that was not found in the key-value store. -/
  | stored {given : String} {session : String × Session}
      (hsession : s.selectSession (env.hashRefreshToken (presentedToken call given)) = some session)
      (hcached : env.config.fastPathSessionsEnabled → ∀ user,
        s.findCached (env.hashRefreshToken (presentedToken call given)) = some user →
        user.id = "") :
      Ends s (.refreshToken (some given)) (fun id _ => id = session.1) (fun _ => false)
  | grant {input : OIDCTokenInput} {session : String × Session}
      (hsession : s.selectLiveSession (env.hashRefreshToken input.refreshToken) = some session) :
      Ends s (.issueTokenByRefreshToken input) (fun id _ => id = session.1) (fun _ => false)
  | own (sessionID : String) : Ends s (.revokeSession sessionID)
      (fun id session => id = sessionID && session.userID = call.caller.userID)
      (s.keysOf fun id session => id = sessionID && session.userID = call.caller.userID)
  | others : Ends s .revokeOtherSessions
      (fun id session =>
        session.userID = call.caller.userID && id ≠ currentSessionID env call s)
      (s.keysOf fun id session =>
        session.userID = call.caller.userID && id ≠ currentSessionID env call s)
  | user (userID : String) : Ends s (.revokeUserSessions userID)
      (fun _ session => session.userID = userID) (s.keysOf fun _ session => session.userID = userID)
  /-- The keys are those of sessions of relying parties only. -/
  | relyingParties (idTokenHint : String) : Ends s (.signOutOIDC idTokenHint)
      (fun _ session => session.userID = signOutUserID env call idTokenHint s)
      (s.keysOf fun _ session =>
        session.userID = signOutUserID env call idTokenHint s && session.clientID.isSome)

/-- The user is deleted with its sessions, and keys are deleted from the key-value store. -/
structure Deleted (s s' : State) (userID : String) (q : String → Bool) : Prop where
  users : s'.users = s.users.delete userID
  sessions : s'.sessions = s.sessions.deleteWhere fun _ session => session.userID = userID
  cache : s'.cache = s.cache.deleteWhere fun hash _ => q hash
  codes : s'.codes = s.codes
  otps : ∀ id otp, s'.otps.get id = some otp → s.otps.get id = some otp
  outbox : s'.outbox = s.outbox
  now : s'.now = s.now

/-- Requests that set up a second factor or take it away. -/
def Request.setsMFA : Request → Bool
  | setupMFA | verifyMFA _ | disableMFA => true
  | _ => false

/-- Requests that may be answered with an authorization code. -/
def Request.authorizes : Request → Bool
  | processOAuthCallback _ | authorizeOIDC _ | submitOIDCAuthorize _ => true
  | _ => false

/-- What a request in a state comes to: its reply and the state after it. -/
inductive Outcome (s : State) (request : Request) : Reply → State → Prop
  | refused {r : Reply} {s' : State} (hr : r.grantee = none) (hs : Quiet s s') :
      Outcome s request r s'
  | dispatched {r : Reply} (recipient purpose : String) (ttl : ℤ) (hr : r.grantee = none) :
      Outcome s request r (s.dispatched env call recipient purpose ttl)
  /-- The user is not in the table only where an error of a statement was not looked at. -/
  | opened {s₁ : State} {user : User} (hs : Quiet s s₁)
      (hgrounds : Grounds env call s request user.id)
      (huser : user.id ≠ "" → (s₁.users.get user.id).isSome) :
      Outcome s request (newTokens call user) (s₁.opened env call user)
  | authorized {s₁ : State} {userID : String} (stateID : String)
      (payload : OIDCAuthorizationStatePayload) (expiry : ℤ) (hs : Quiet s s₁)
      (hrequest : request.authorizes) (hgrounds : Grounds env call s request userID) :
      Outcome s request
        (.redirect userID call.newAuthorizationCode (some call.newRefreshToken))
        (s₁.authorized env call stateID userID payload expiry)
  | coded {userID : String} {payload : OIDCAuthorizationCodePayload} (hid : payload.userID = userID)
      (hrequest : request.authorizes) (hgrounds : Grounds env call s request userID) :
      Outcome s request (.redirect userID call.newAuthorizationCode none)
        (s.setCode call.newAuthorizationCode payload)
  | codeSpent {r : Reply} (code : String) (hr : r.grantee = none) :
      Outcome s request r (s.deleteCode code)
  | exchanged {user : User} (code : String) (clientID : Option String) (expiresAt : ℤ)
      (hgrounds : Grounds env call s request user.id)
      (huser : s.users.get user.id = some user) :
      Outcome s request (newTokens call user)
        ((s.deleteCode code).insertSession true call.newSessionID
          (newSession env call user.id clientID expiresAt)).2
  | ended {r : Reply} {p : String → Session → Bool} {q : String → Bool} (hr : r.grantee = none)
      (hends : Ends env call s request p q) : Outcome s request r (s.without p q)
  | reopened {user : User} {p : String → Session → Bool} {q : String → Bool}
      (hends : Ends env call s request p q) (hgrounds : Grounds env call s request user.id)
      (huser : (s.users.get user.id).isSome ∨
        user.id ≠ "" ∧ ∃ hash, s.findCached hash = some user) :
      Outcome s request (newTokens call user) ((s.without p q).opened env call user)
  | rotated {input : OIDCTokenInput} {session : String × Session} {user : User} (expiresAt : ℤ)
      (hrequest : request = .issueTokenByRefreshToken input)
      (hsession : s.selectLiveSession (env.hashRefreshToken input.refreshToken) = some session)
      (hid : session.2.userID = user.id) (hgrounds : Grounds env call s request user.id) :
      Outcome s request (.tokens user session.1 call.newRefreshToken)
        (s.rotateSession session.1 (env.hashRefreshToken call.newRefreshToken) expiresAt)
  | mfaSet {r : Reply} {f : UserRow → UserRow} (hr : r.grantee = none)
      (hrequest : request.setsMFA)
      (hf : ∀ row, (f row).lockedUntil = row.lockedUntil) :
      Outcome s request r (s.updateUser call.caller.userID f).2
  | enrolled {user : User} {f : UserRow → UserRow} (hrequest : request.setsMFA)
      (hf : ∀ row, (f row).lockedUntil = row.lockedUntil)
      (hgrounds : Grounds env call s request user.id)
      (huser : ((s.updateUser user.id f).2.users.get user.id).isSome) :
      Outcome s request (newTokens call user) ((s.updateUser user.id f).2.opened env call user)
  | locked {userID : String} {lockedUntil : Option ℤ} {users : Users} {user : User}
      (hrequest : request = .lockUser userID lockedUntil)
      (husers : s.users.update userID (fun row =>
        { row with lockedUntil := some (lockedUntil.getD (env.hundredYearsAfter s.now)) }) =
          some users) :
      Outcome s request (.account user)
        (State.without { s with users := users } (fun _ session => session.userID = userID)
          (s.keysOf fun _ session => session.userID = userID))
  | unlocked {userID : String} {users : Users} {user : User}
      (hrequest : request = .unlockUser userID)
      (husers : s.users.update userID (fun row => { row with lockedUntil := none }) =
        some users) :
      Outcome s request (.account user) { s with users := users }
  | deletedUser {r : Reply} {s' : State} {userID : String} (hrequest : request = .deleteUser userID)
      (hr : r = .noContent ∨ r = userNotFound ∧ s.users.get userID = none)
      (hs : Deleted s s' userID fun _ => false) : Outcome s request r s'
  | deletedOwnUser {s' : State} (hrequest : request = .deleteOwnUser)
      (hs : Deleted s s' call.caller.userID
        (s.keysOf fun _ session => session.userID = call.caller.userID)) :
      Outcome s request .noContent s'

end Layr.Auth

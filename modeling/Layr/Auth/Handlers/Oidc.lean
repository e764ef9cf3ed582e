import Layr.Auth.Handlers.Passkey

/-!
# OAuth providers and the hosted sign-in

Sign-in with an account at an OAuth provider, the hosted sign-in of OpenID Connect with its forms,
and the token and sign-out endpoints for relying parties.
-/

namespace Layr.Auth

open Go Prog

variable (env : Env) (call : Call)

/-! ## Authorization codes -/

/-- `issueOIDCAuthorizationCode`. -/
def issueOIDCAuthorizationCode (userID : String) (payload : OIDCAuthorizationStatePayload) :
    Act Unit :=
  change fun s => s.setCode call.newAuthorizationCode
    { clientID := payload.clientID
      redirectURI := payload.redirectURI
      userID := userID
      scope := payload.scope
      codeChallenge := payload.codeChallenge
      codeChallengeMethod := payload.codeChallengeMethod
      nonce := payload.nonce }

/-- The end of the hosted sign-in, for a user who has signed in there or at a provider: a code for
the relying party and a session for the browser, which is not cached. -/
def completeOIDCAuthorization (stateID : String) (payload : OIDCAuthorizationStatePayload)
    (refreshTokenExpirySeconds : ℤ) (userID : String) : Handler := do
  change fun s => s.deleteOIDCState stateID
  issueOIDCAuthorizationCode call userID payload
  let now ← query State.now
  let session : Session := ⟨userID, none, env.hashRefreshToken call.newRefreshToken,
    now + refreshTokenExpirySeconds⟩
  let _ ← stmt fun s => s.insertSession true call.newSessionID session
  reply (.redirect userID call.newAuthorizationCode (some call.newRefreshToken))

/-! ## OAuth providers -/

structure AuthorizeOAuthInput where
  provider : String
  redirectURI : String
  state : String
  oidcState : String
  deriving DecidableEq, Repr

/-- Whether a provider is configured, and enabled. -/
def Env.providerEnabled (provider : String) : Option Bool :=
  env.config.oauthProviders.lookup provider

def resourceNotFound : Reply := .oauthError 404 "invalid_request" "Resource not found"

def oauthAccessDenied : Reply := .oauthError 403 "access_denied" "Access denied"

def defaultCallback (provider : String) : String :=
  env.serverBaseURL ++ "/v1/auth/oauth/" ++ provider ++ "/callback"

def handleAuthorizeOAuth (input : AuthorizeOAuthInput) : Handler := do
  let isEnabled ← require (env.providerEnabled input.provider) resourceNotFound
  ensure isEnabled oauthAccessDenied
  ensure (env.isProviderResolved input.provider)
    (.oauthError 400 "invalid_request" "Invalid request")
  let redirectURI :=
    if input.redirectURI = "" then defaultCallback env input.provider else input.redirectURI
  let state := if input.state = "" then call.newStateID else input.state
  change fun s => s.setOAuthState state ⟨state, input.provider, redirectURI, input.oidcState⟩
  reply (.providerRedirect state)

structure OAuthCallbackInput where
  provider : String
  code : String
  redirectURI : String
  state : String
  deriving DecidableEq, Repr

/-- `CompleteOAuthFlow`. Where the sign-in at the provider belongs to a hosted sign-in, it ends
there. -/
def completeOAuthFlow (user : User) (payload : OAuthStatePayload) : Handler := do
  let oidcState ← query fun s =>
    if payload.oidcStateID = "" then none else s.findOIDCState payload.oidcStateID
  oidcState.elim (completeSignInFlow env call user) fun oidcState =>
    completeOIDCAuthorization env call payload.oidcStateID oidcState
      (if env.config.refreshTokenExpirySeconds ≤ 0 then defaultRefreshTokenExpirySeconds
        else env.config.refreshTokenExpirySeconds)
      user.id

/-- The part of the callback for an anonymous caller, who is linked to the identity. The lock and
the second factor are not among the columns that are read. -/
def linkAnonymous (provider : String) (userInfo : OAuthUserInfo) (payload : OAuthStatePayload)
    (existingUserID : Option String) (anonymousUser : User) : Handler := do
  ensure (existingUserID.all (fun userID => userID = anonymousUser.id))
    (.oauthError 409 "invalid_request" "OAuth identity is already linked to another account")
  let conflicting ← query fun s =>
    if userInfo.email = "" then none else s.selectUserByEmail userInfo.email
  ensure (conflicting.all (fun user => user.id = anonymousUser.id))
    (.oauthError 409 "invalid_request" "Email is already in use by another account")
  change fun s => s.linkIdentity true provider userInfo.providerUserID anonymousUser.id
  let user ← stmt fun s => s.updateUser anonymousUser.id fun row =>
    { row with
      email := row.email <|> nilIfEmpty userInfo.email
      emailVerifiedAt :=
        if userInfo.email = "" then row.emailVerifiedAt
        else some (row.emailVerifiedAt.getD s.now)
      isAnonymous := false }
  let user ← require user (.oauthError 500 "server_error" "Service temporarily unavailable")
  completeOAuthFlow env call
    { User.zero with
      id := user.id, email := user.email, phone := user.phone, role := user.role
      isAnonymous := user.isAnonymous }
    payload

/-- The part of the callback for an identity that is known. -/
def signInIdentity (payload : OAuthStatePayload) (existingUserID : String) : Handler := do
  let user ← query fun s => s.selectUser existingUserID
  let user := user.getD User.zero
  ensureUnlocked user (.oauthError 423 "access_denied" "Account is temporarily locked")
  completeOAuthFlow env call user payload

/-- The part of the callback for a new identity, whose user is found by its email. -/
def registerIdentity (provider : String) (userInfo : OAuthUserInfo) (payload : OAuthStatePayload) :
    Handler := do
  let upserted ← stmt fun s =>
    s.upsertUser (fun row => row.email.isSome && row.email = nilIfEmpty userInfo.email)
      call.newUserID
      { UserRow.default with email := nilIfEmpty userInfo.email, emailVerifiedAt := some s.now } id
  let user := (upserted.map Prod.fst).getD User.zero
  change fun s => s.linkIdentity false provider userInfo.providerUserID user.id
  completeOAuthFlow env call user payload

/-- The address that the provider was to send the user to. -/
def OAuthCallbackInput.callback (input : OAuthCallbackInput) (payload : OAuthStatePayload) :
    String :=
  if input.redirectURI ≠ "" then input.redirectURI
  else if payload.redirectURI ≠ "" then payload.redirectURI
  else defaultCallback env input.provider

/-- `handleProcessOAuthCallback` once it has read its parameters. The stored states are those that
`handleAuthorizeOAuth` has written. -/
def handleProcessOAuthCallback (input : OAuthCallbackInput) : Handler := do
  ensure (input.state ≠ "")
    (.oauthError 400 "invalid_request" "OAuth state parameter is required")
  let payload ← look (.oauthState input.state) fun s => s.findOAuthState input.state
  let payload ← require payload oauthAccessDenied
  ensure (payload.stateID = input.state) oauthAccessDenied
  change fun s => s.deleteOAuthState input.state
  ensure (input.provider ≠ "" ∧ input.code ≠ "")
    (.oauthError 400 "invalid_request" "Provider and authorization code required")
  let isEnabled ← require (env.providerEnabled input.provider) resourceNotFound
  ensure isEnabled oauthAccessDenied
  ensure (env.isProviderResolved input.provider)
    (.oauthError 400 "invalid_request" "Invalid request")
  let userInfo ← require (env.exchangeCode input.provider input.code (input.callback env payload))
    (.oauthError 400 "invalid_grant" "Authentication failed")
  let existingUserID ← query fun s => s.selectIdentity input.provider userInfo.providerUserID
  let anonymousUser ← resolveAnonymousCaller call
  anonymousUser.elim
    (existingUserID.elim (registerIdentity env call input.provider userInfo payload)
      (signInIdentity env call payload))
    (linkAnonymous env call input.provider userInfo payload existingUserID)

/-! ## The hosted sign-in -/

/-- `GetOIDCClient`. -/
def Env.oidcClient (clientID : String) : Option OIDCClientConfig :=
  if env.config.oidcEnabled then
    env.config.oidcClients.find? fun client => client.clientID = clientID
  else none

structure AuthorizeOIDCInput where
  state : String
  mode : String
  clientID : String
  redirectURI : String
  responseType : String
  codeChallenge : String
  codeChallengeMethod : String
  scope : String
  nonce : String
  deriving DecidableEq, Repr

/-- What the request asks for. -/
def AuthorizeOIDCInput.payload (input : AuthorizeOIDCInput) : OIDCAuthorizationStatePayload where
  clientID := input.clientID
  redirectURI := input.redirectURI
  scope := input.scope
  clientState := input.state
  codeChallenge := input.codeChallenge
  codeChallengeMethod := input.codeChallengeMethod
  nonce := input.nonce

/-- `handleAuthorizeOIDC`. A caller who is signed in gets a code at once. -/
def handleAuthorizeOIDC (input : AuthorizeOIDCInput) : Handler := do
  ensure env.config.oidcEnabled oauthAccessDenied
  let resumed ← query fun s =>
    if input.state ≠ "" ∧ input.mode ≠ "" then s.findOIDCState input.state else none
  if resumed.isSome then reply (.page (.mode input.mode) "" "")
  ensure (input.clientID ≠ "") (.oauthError 400 "invalid_client" "Missing client_id parameter")
  let client ← require (env.oidcClient input.clientID)
    (.oauthError 400 "invalid_client" ("Unknown client_id '" ++ input.clientID ++ "'"))
  ensure (input.redirectURI ≠ "")
    (.oauthError 400 "invalid_request" "Missing redirect_uri parameter")
  ensure (input.redirectURI ∈ client.redirectURIs)
    (.oauthError 400 "invalid_request" "Unauthorized redirect_uri")
  ensure (input.responseType = "code")
    (.redirectError "unsupported_response_type" "Response type must be 'code'")
  ensure (input.codeChallenge ≠ "" ∧ input.codeChallengeMethod = "S256")
    (.redirectError "invalid_request" "PKCE code_challenge with S256 method is required")
  if call.caller.userID ≠ "" then
    issueOIDCAuthorizationCode call call.caller.userID input.payload
    reply (.redirect call.caller.userID call.newAuthorizationCode none)
  change fun s => s.setOIDCState call.newStateID input.payload
  reply (.page .signIn "" "")

/-- The form of the hosted sign-in. -/
structure OIDCForm where
  state : String
  action : String
  mfaToken : String
  mfaCode : String
  recipient : String
  otpCode : String
  email : String
  password : String
  confirmPassword : String
  deriving DecidableEq, Repr

def sessionInvalid : Reply :=
  .oauthError 400 "invalid_request" "Authorization session expired or invalid"

def mfaExpired : Reply := .page .signIn "MFA session expired. Please sign in again." ""

def hostedLocked : Reply := .page .signIn "Account temporarily locked. Please try again later." ""

/-- Ends the hosted sign-in of a user. -/
def completeHosted (form : OIDCForm) (payload : OIDCAuthorizationStatePayload) (user : User) :
    Handler :=
  completeOIDCAuthorization env call form.state payload env.config.refreshTokenExpirySeconds user.id

/-- Asks for the second factor. -/
def askForMFA (user : User) : Handler := do
  let mfaToken := "mfa_oidc_" ++ call.newMFAToken
  change fun s => s.setOIDCMFA mfaToken user.id
  reply (.page (.mfa mfaToken) "" "Two-factor authentication required")

/-- The action `verify_mfa`. The lock is not checked. -/
def hostedVerifyMFA (form : OIDCForm) (payload : OIDCAuthorizationStatePayload) : Handler := do
  let mfaCode := Strings.trimSpace form.mfaCode
  ensure (form.mfaToken ≠ "") mfaExpired
  let mfaUserID ← query fun s => s.findOIDCMFA form.mfaToken
  let mfaUserID ← require (mfaUserID.filter fun userID => userID ≠ "") mfaExpired
  ensure (mfaCode ≠ "")
    (.page (.mfa form.mfaToken) "Two-factor authentication code is required" "")
  let user ← query fun s => s.selectUser mfaUserID
  let user ← require user mfaExpired
  checkMFACode env user mfaCode
    (.page (.mfa form.mfaToken) "Multi-factor authentication configuration error" "")
    (.page (.mfa form.mfaToken) "Failed to verify multi-factor authentication" "")
    (.page (.mfa form.mfaToken) "Invalid two-factor authentication code" "")
  change fun s => s.deleteOIDCMFA form.mfaToken
  completeHosted env call form payload user

/-- Whether the hosted pages offer codes for a recipient. -/
def Env.isHostedOTPShown (recipient : String) : Bool :=
  if isEmail recipient then env.config.emailOTPEnabled && env.config.showEmailOTP && env.emailReady
  else env.config.smsOTPEnabled && env.config.showSMSOTP && env.smsReady

/-- The action `send_otp`. -/
def hostedSendOTP (form : OIDCForm) : Handler := do
  let recipient := Strings.trimSpace form.recipient
  ensure (recipient ≠ "")
    (.page .otpRequest "Please enter an email address or phone number" "")
  ensure (env.isHostedOTPShown recipient)
    (.page .otpRequest
      (if isEmail recipient then "Email OTP sign-in is not available"
        else "SMS OTP sign-in is not available") "")
  let ttl := env.otpTTL recipient
  let recipient ← require
    (if isEmail recipient then some (Strings.toLower recipient) else normalizePhone recipient)
    (.page .otpRequest
      "Invalid phone number format: must be in E.164 format with country code" "")
  -- the two pages below are given the recipient as their notice
  ensure (call.isLimited = false) (.page .otpRequest
    "Rate limit exceeded. Too many requests from this IP address." recipient)
  ensure (call.isCoolingDown = false) (.page .otpRequest
    "Please wait 60 seconds before requesting another code" recipient)
  dispatchCode env call recipient "sign_in" ttl
  reply (.page (.otpVerify recipient) "" "Verification code sent!")

/-- The recipient of a code in the hosted form, where a phone number that cannot be normalised
stands as it is. -/
def hostedRecipient (recipient : String) : String :=
  if isEmail recipient then Strings.toLower recipient
  else (normalizePhone recipient).getD recipient

/-- The action `verify_otp`. -/
def hostedVerifyOTP (form : OIDCForm) (payload : OIDCAuthorizationStatePayload) : Handler := do
  let recipient := Strings.trimSpace form.recipient
  let otpCode := Strings.trimSpace form.otpCode
  ensure (recipient ≠ "" ∧ otpCode ≠ "")
    (.page (.otpVerify recipient) "Verification code is required" "")
  let email := isEmail recipient
  let recipient := hostedRecipient recipient
  let invalid : Reply := .page (.otpVerify recipient) "Invalid or expired verification code" ""
  let otp ← query fun s => s.selectLiveOTP recipient "sign_in"
  let otp ← require otp invalid
  if env.verifyCode otpCode otp.2.codeHash = false then
    change fun s => s.countAttempt otp.1
    reply invalid
  change fun s => s.deleteOTP otp.1
  let upserted ← upsertRecipient call email recipient
  let user := (upserted.map Prod.fst).getD User.zero
  if (upserted.map Prod.snd).getD false = false then ensureUnlocked user hostedLocked
  if user.mfaEnabled then askForMFA call user
  else completeHosted env call form payload user

/-- The action `sign_up`. -/
def hostedSignUp (form : OIDCForm) (payload : OIDCAuthorizationStatePayload) : Handler := do
  ensure (env.config.passwordEnabled && env.config.showSignUp)
    (.page .signIn "Sign-up is disabled" "")
  let email := Strings.toLower (Strings.trimSpace form.email)
  ensure (email ≠ "" ∧ form.password ≠ "") (.page .signUp "Email and password are required" "")
  ensure (form.password = form.confirmPassword) (.page .signUp "Passwords do not match" "")
  ensure (env.config.passwordMinLength ≤ form.password.utf8ByteSize)
    (.page .signUp ("Password must be at least " ++ toString env.config.passwordMinLength ++
      " characters") "")
  let existing ← query fun s => s.selectUserByEmail email
  ensure existing.isNone
    (.page .signUp "An account with this email already exists" "")
  let user ← stmt fun s => s.insertUser call.newUserID
    { UserRow.default with
      email := some email, passwordHash := some (env.hashPassword form.password) }
  let user ← require user (.page .signUp "Failed to create account" "")
  completeHosted env call form payload user

/-- The action `sign_in`. -/
def hostedSignIn (form : OIDCForm) (payload : OIDCAuthorizationStatePayload) : Handler := do
  ensure (env.config.passwordEnabled && env.config.showPassword)
    (.page .signIn "Password sign-in is disabled" "")
  let email := Strings.toLower (Strings.trimSpace form.email)
  ensure (email ≠ "" ∧ form.password ≠ "") (.page .signIn "Email and password are required" "")
  let user ← query fun s => s.selectUserByEmail email
  let user ← require (user.filter fun user => user.passwordHash.isSome)
    (.page .signIn "Invalid email or password" "")
  ensureUnlocked user hostedLocked
  ensure (user.passwordHash.any fun hash => env.verifyPassword form.password hash)
    (.page .signIn "Invalid email or password" "")
  if user.mfaEnabled then
    let mfaCode := Strings.trimSpace form.mfaCode
    if mfaCode ≠ "" then
      checkMFACode env user mfaCode
        (.page .signIn "Multi-factor authentication configuration error" "")
        (.page .signIn "Failed to verify multi-factor authentication" "")
        (.page .signIn "Invalid two-factor authentication code" "")
      completeHosted env call form payload user
    else askForMFA call user
  else completeHosted env call form payload user

def handleSubmitOIDCAuthorize (form : OIDCForm) : Handler := do
  ensure env.config.oidcEnabled oauthAccessDenied
  ensure (form.state ≠ "") sessionInvalid
  let payload ← query fun s => s.findOIDCState form.state
  let payload ← require payload sessionInvalid
  let action := Strings.trimSpace form.action
  if action = "verify_mfa" then hostedVerifyMFA env call form payload
  else if action = "send_otp" then hostedSendOTP env call form
  else if action = "verify_otp" then hostedVerifyOTP env call form payload
  else if action = "sign_up" then hostedSignUp env call form payload
  else hostedSignIn env call form payload

/-! ## The token endpoint -/

structure OIDCTokenInput where
  clientID : String
  clientSecret : String
  code : String
  redirectURI : String
  codeVerifier : String
  refreshToken : String
  deriving DecidableEq, Repr

def invalidGrant : Reply := .oauthError 400 "invalid_grant" "Authorization code invalid or expired"

/-- The client is public, or shows its secret. -/
def OIDCClientConfig.accepts (client : OIDCClientConfig) (clientSecret : String) : Bool :=
  client.isPublic || (clientSecret ≠ "" && clientSecret = client.clientSecret)

/-- `handleIssueOIDCTokenAuthorizationCode`. The lock is not among the columns that are read. -/
def handleIssueOIDCTokenAuthorizationCode (input : OIDCTokenInput) : Handler := do
  ensure env.config.oidcEnabled oauthAccessDenied
  ensure (input.clientID ≠ "") (.oauthError 401 "invalid_client" "Missing client credentials")
  let client ← require (env.oidcClient input.clientID)
    (.oauthError 401 "invalid_client" "Invalid client credentials")
  ensure (client.accepts input.clientSecret)
    (.oauthError 401 "invalid_client" "Invalid client secret")
  ensure (input.code ≠ "") invalidGrant
  let payload ← look (.code input.code) fun s => s.findCode input.code
  let payload ← require payload invalidGrant
  change fun s => s.deleteCode input.code
  ensure (payload.clientID = input.clientID) (.oauthError 400 "invalid_grant" "Client mismatch")
  ensure (input.redirectURI = "" ∨ payload.redirectURI = input.redirectURI)
    (.oauthError 400 "invalid_grant" "redirect_uri mismatch")
  ensure (payload.codeChallenge ≠ "" ∧
      payload.codeChallenge = env.codeChallengeS256 input.codeVerifier)
    (.oauthError 400 "invalid_grant" "Invalid code_verifier for PKCE challenge")
  let user ← query fun s => s.selectUser payload.userID
  let user ← require user (.oauthError 500 "server_error" "Service temporarily unavailable")
  let now ← query State.now
  let session : Session := ⟨user.id, some input.clientID, env.hashRefreshToken call.newRefreshToken,
    now + env.config.refreshTokenExpirySeconds⟩
  let _ ← stmt fun s => s.insertSession true call.newSessionID session
  reply (.tokens user call.newSessionID call.newRefreshToken)

def invalidRefreshGrant : Reply :=
  .oauthError 400 "invalid_grant" "Invalid or expired refresh token"

/-- `handleIssueOIDCTokenRefreshToken`. The session keeps its id and gets a new token; what the
key-value store has under the old one stays. -/
def handleIssueOIDCTokenRefreshToken (input : OIDCTokenInput) : Handler := do
  ensure env.config.oidcEnabled oauthAccessDenied
  ensure ((env.oidcClient input.clientID).all
      (fun client => input.clientID = "" || client.accepts input.clientSecret))
    (.oauthError 401 "invalid_client" "Invalid client secret")
  ensure (input.refreshToken ≠ "")
    (.oauthError 400 "invalid_request" "Missing refresh_token parameter")
  let tokenHash := env.hashRefreshToken input.refreshToken
  let session ← look (.sessionGrant tokenHash) fun s => s.selectLiveSession tokenHash
  let session ← require session invalidRefreshGrant
  let user ← query fun s => s.selectUser session.2.userID
  let user ← require user invalidRefreshGrant
  let now ← query State.now
  if user.isLocked now then
    change fun s => s.deleteSession session.1
    reply (.oauthError 400 "invalid_grant" "Account is temporarily locked")
  let now ← query State.now
  change fun s => s.rotateSession session.1 (env.hashRefreshToken call.newRefreshToken)
    (now + env.config.refreshTokenExpirySeconds)
  reply (.tokens user session.1 call.newRefreshToken)

/-! ## The sign-out endpoint -/

/-- The user who signs out: that of the token hint, or else that of the session token. -/
def signOutUserID (idTokenHint : String) (s : State) : String :=
  let hinted := if idTokenHint = "" then "" else (env.idTokenSubject idTokenHint).getD ""
  if hinted = "" ∧ call.sessionToken ≠ "" then
    ((s.selectSession (env.hashRefreshToken call.sessionToken)).map fun e => e.2.userID).getD ""
  else hinted

/-- `handleSignOutOIDC`. Of the sessions in the key-value store only those of relying parties are
deleted. -/
def handleSignOutOIDC (idTokenHint : String) : Handler := do
  ensure env.config.oidcEnabled oauthAccessDenied
  let callerUserID ← query (signOutUserID env call idTokenHint)
  if callerUserID ≠ "" then
    let targets ← query fun s => s.sessionsWhere fun _ session =>
      session.userID = callerUserID && session.clientID.isSome
    change fun s => s.deleteCachedOf targets
    let _ ← stmt fun s => s.deleteSessionsWhere fun _ session => session.userID = callerUserID
  reply (.message "Signed out")

end Layr.Auth

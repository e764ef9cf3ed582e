import Layr.Auth.Statements

/-!
# Sessions

How the service gives out a session, when it asks for a second factor first, and the handlers that
refresh a session and end it, for its user and for the control plane.
-/

namespace Layr.Auth

open Go Prog

/-! ## Giving out a session -/

def defaultRefreshTokenExpirySeconds : ℤ := 2592000

def defaultSessionTTLSeconds : ℤ := 900

variable (env : Env) (call : Call)

/-- `HashRefreshToken`. -/
def Env.hashRefreshToken (token : String) : String := env.digest.hex token

/-- `issueSessionResponse`. A session that the database does not take is given out all the
same. -/
def issueSessionResponse (user : User) : Handler := do
  let refreshHash := env.hashRefreshToken call.newRefreshToken
  let refreshTokenExpirySeconds :=
    if env.config.refreshTokenExpirySeconds ≤ 0 then defaultRefreshTokenExpirySeconds
    else env.config.refreshTokenExpirySeconds
  let now ← query State.now
  let session : Session := ⟨user.id, none, refreshHash, now + refreshTokenExpirySeconds⟩
  let _ ← stmt fun s => s.insertSession call.isAddressAccepted call.newSessionID session
  if env.config.fastPathSessionsEnabled then
    let sessionTTLSeconds :=
      if env.config.sessionTTLSeconds ≤ 0 then defaultSessionTTLSeconds
      else env.config.sessionTTLSeconds
    change fun s => s.setCached refreshHash user sessionTTLSeconds
  reply (.tokens user call.newSessionID call.newRefreshToken)

/-- Whether the policy asks for a second factor in a sign-in. -/
def shouldTriggerMFA : Bool :=
  env.config.mfaPolicy = "always" || env.config.mfaPolicy = "" ||
    (env.config.mfaPolicy = "adaptive" && call.risk.any fun riskAssessment =>
      riskAssessment.level = "medium" || riskAssessment.level = "high" ||
        env.config.mfaRiskTriggers.any fun trigger => riskAssessment.reasons.contains trigger)

/-- `completeSignInFlow`. -/
def completeSignInFlow (user : User) : Handler := do
  if user.mfaEnabled && env.config.mfaEnabled && shouldTriggerMFA env call then
    let mfaTicket := "mfa_tk_" ++ call.newTicket
    change fun s => s.setTicket mfaTicket user.id
    reply (.mfaRequired mfaTicket)
  issueSessionResponse env call user

/-- Stops with the reply for a user that is locked. -/
def ensureUnlocked (user : User) (r : Reply) : Act Unit := do
  let now ← query State.now
  ensure (user.isLocked now = false) r

def accountLocked : Reply := .error 423 "Account temporarily locked"

def serviceUnavailable : Reply := .error 500 "Service temporarily unavailable"

def authenticationRequired : Reply := .error 401 "Authentication required"

def invalidJSONBody : Reply := .error 400 "Invalid JSON body"

def accessDenied : Reply := .error 403 "Access denied"

/-- `resolveAnonymousCaller`: the caller, if it is an anonymous user without email and phone. -/
def resolveAnonymousCaller : Act (Option User) :=
  query fun s => (s.selectUser call.caller.userID).filter fun user =>
    call.caller.userID ≠ "" && user.email.isNone && user.phone.isNone && user.isAnonymous

/-- `checkCaptcha`. -/
def checkCaptcha : Act Unit :=
  call.captcha.elim (pure ()) fun failed => reply (.error failed.1 failed.2)

/-- `checkPasswordBreach`. -/
def checkPasswordBreach : Act Unit :=
  call.breach.elim (pure ()) fun failed => reply (.error failed.1 failed.2)

/-- `RequireScope`. -/
def requireScope : Act Unit :=
  call.scope.elim (pure ()) fun failed => reply (.error failed.1 failed.2)

/-! ## Refreshing a session -/

/-- The token of the body, or that of the cookies and headers where the body has none. -/
def presentedToken (given : String) : String := if given = "" then call.sessionToken else given

/-- The part of `handleRefreshToken` for a session in the key-value store. -/
def refreshCached (tokenHash : String) (user : User) : Handler := do
  change fun s => s.deleteCached tokenHash
  let _ ← stmt fun s => s.deleteSessionsWhere fun _ session => session.refreshTokenHash = tokenHash
  ensureUnlocked user accountLocked
  issueSessionResponse env call user

/-- The part of `handleRefreshToken` for a session in the database. -/
def refreshStored (tokenHash : String) : Handler := do
  let found ← look (.session tokenHash) fun s => s.selectSession tokenHash
  let session ← require found (.error 401 "Refresh token revoked or invalid")
  let now ← query State.now
  if session.2.expiresAt < now then
    change fun s => s.deleteSession session.1
    reply (.error 401 "Refresh token expired")
  let user ← query fun s => s.selectUser session.2.userID
  let user ← require user (.error 401 "Refresh token revoked or invalid")
  let now ← query State.now
  if user.isLocked now then
    change fun s => s.deleteSession session.1
    reply accountLocked
  -- the result of the deletion is not looked at
  change fun s => s.deleteSession session.1
  issueSessionResponse env call user

def handleRefreshToken (refreshToken : Option String) : Handler := do
  let given ← require refreshToken invalidJSONBody
  let token := presentedToken call given
  ensure (token ≠ "") (.error 401 "Refresh token is required")
  let tokenHash := env.hashRefreshToken token
  if env.config.fastPathSessionsEnabled then
    let cached ← look (.cachedSession tokenHash) fun s => s.findCached tokenHash
    (cached.filter fun user => user.id ≠ "").elim (refreshStored env call tokenHash)
      (refreshCached env call tokenHash)
  else refreshStored env call tokenHash

/-! ## Ending a session -/

def handleSignOut (refreshToken : String) : Handler := do
  let token := presentedToken call refreshToken
  if token ≠ "" then
    let tokenHash := env.hashRefreshToken token
    change fun s => s.deleteCached tokenHash
    let _ ← stmt fun s =>
      s.deleteSessionsWhere fun _ session => session.refreshTokenHash = tokenHash
  reply .noContent

def handleRevokeSession (sessionID : String) : Handler := do
  ensure (call.caller.userID ≠ "") authenticationRequired
  ensure (env.isUUID sessionID) (.error 400 "Invalid session ID")
  let deleted ← stmt fun s => s.deleteSessionsWhere fun id session =>
    id = sessionID && session.userID = call.caller.userID
  ensure (deleted ≠ []) (.error 404 "Session not found")
  change fun s => s.deleteCachedOf deleted
  reply .noContent

/-- The session of the caller, by the id or by the hash that came with the request. -/
def currentSessionID (s : State) : String :=
  if env.isUUID call.caller.sessionID then call.caller.sessionID
  else if call.caller.refreshTokenHash ≠ "" then
    ((s.sessionsWhere fun _ session => session.userID = call.caller.userID &&
      session.refreshTokenHash = call.caller.refreshTokenHash).head?.map Prod.fst).getD ""
  else ""

def handleRevokeOtherSessions : Handler := do
  ensure (call.caller.userID ≠ "") authenticationRequired
  let currentSessionID ← query (currentSessionID env call)
  if currentSessionID = "" then
    let active ← query fun s => s.sessionsWhere fun _ session =>
      session.userID = call.caller.userID && s.now < session.expiresAt
    if active.length ≤ 1 then reply (.revoked 0)
    reply (.error 400 "Current session identifier is required to revoke other devices")
  let deleted ← stmt fun s => s.deleteSessionsWhere fun id session =>
    session.userID = call.caller.userID && id ≠ currentSessionID
  change fun s => s.deleteCachedOf deleted
  reply (.revoked deleted.length)

/-- `handleDeleteUser` of the user's own account. -/
def handleDeleteOwnUser : Handler := do
  ensure (call.caller.userID ≠ "") authenticationRequired
  let user ← query fun s => s.selectUser call.caller.userID
  let sessions ← query fun s => s.sessionsWhere fun _ session =>
    session.userID = call.caller.userID
  change fun s => s.deleteCachedOf sessions
  let _ ← stmt fun s => s.deleteUser call.caller.userID
  change fun s => s.deleteOTPsWhere fun otp => user.any fun user =>
    (user.email.any fun email => email ≠ "" && otp.recipient = email) ||
      (user.phone.any fun phone => phone ≠ "" && otp.recipient = phone)
  reply .noContent

/-! ## Anonymous users -/

def handleSignInAnonymous : Handler := do
  ensure env.config.anonymousEnabled accessDenied
  let user ← stmt fun s =>
    s.insertUser call.newUserID { UserRow.default with isAnonymous := true }
  let user ← require user serviceUnavailable
  issueSessionResponse env call user

/-! ## The control plane -/

def invalidUserUUID : Reply := .error 400 "Invalid user UUID"

def userNotFound : Reply := .error 404 "User not found"

/-- `handleDeleteUser` of the control plane. The sessions in the key-value store stay. -/
def handleDeleteUser (userID : String) : Handler := do
  requireScope call
  ensure (env.isUUID userID) invalidUserUUID
  let user ← stmt fun s => s.deleteUser userID
  let _ ← require user userNotFound
  reply .noContent

def handleLockUser (userID : String) (lockedUntil : Option ℤ) : Handler := do
  requireScope call
  ensure (env.isUUID userID) invalidUserUUID
  let now ← query State.now
  let lockedUntil := lockedUntil.getD (env.hundredYearsAfter now)
  let user ← stmt fun s =>
    s.updateUser userID fun row => { row with lockedUntil := some lockedUntil }
  let user ← require user userNotFound
  let deleted ← stmt fun s => s.deleteSessionsWhere fun _ session => session.userID = userID
  change fun s => s.deleteCachedOf deleted
  reply (.account user)

def handleUnlockUser (userID : String) : Handler := do
  requireScope call
  ensure (env.isUUID userID) invalidUserUUID
  let user ← stmt fun s => s.updateUser userID fun row => { row with lockedUntil := none }
  let user ← require user userNotFound
  reply (.account user)

def handleRevokeUserSessions (userID : String) : Handler := do
  requireScope call
  ensure (env.isUUID userID) invalidUserUUID
  let deleted ← stmt fun s => s.deleteSessionsWhere fun _ session => session.userID = userID
  change fun s => s.deleteCachedOf deleted
  reply .noContent

end Layr.Auth

import Layr.Auth.Handlers.Password

/-!
# Passkeys, second factors and verified addresses

The ceremonies of passkeys, the second factor of a sign-in and its set-up, and the verification of
email addresses and phone numbers.
-/

namespace Layr.Auth

open Go Prog

variable (env : Env) (call : Call)

/-! ## Passkeys -/

/-- `handleBeginPasskeySignUp`. The user is the one that the body names, and the caller only where
it names none. -/
def handleBeginPasskeySignUp (userID : Option String) : Handler := do
  ensure env.config.passkeysEnabled accessDenied
  let given ← require userID invalidJSONBody
  let userID := if given = "" then call.caller.userID else given
  ensure (userID ≠ "") (.error 400 "User ID is required")
  change fun s => s.generateChallenge call.newChallenge userID
  reply (.passkeyOptions call.newChallenge userID)

structure VerifyPasskeySignUpInput where
  challenge : String
  credentialID : String
  publicKey : String
  deriving DecidableEq, Repr

def invalidChallenge : Reply := .error 400 "Invalid or expired challenge"

/-- The end of `handleVerifyPasskeySignUp`: the passkey is stored for the user, who gets a
session. -/
def registerPasskey (input : VerifyPasskeySignUpInput) (user : Option User) : Handler := do
  let user ← require user serviceUnavailable
  let isInserted ← stmt fun s => s.insertPasskey input.credentialID ⟨user.id, input.publicKey⟩
  ensure isInserted serviceUnavailable
  issueSessionResponse env call user

def handleVerifyPasskeySignUp (input : Option VerifyPasskeySignUpInput) : Handler := do
  ensure env.config.passkeysEnabled accessDenied
  let input ← require input invalidJSONBody
  let expectedUserID ← stmt fun s => s.consumeChallenge input.challenge
  let expectedUserID ← require (expectedUserID.filter fun userID => userID ≠ "") invalidChallenge
  ensure (call.caller.userID = "" ∨ call.caller.userID = expectedUserID) invalidChallenge
  let anonymousUser ← resolveAnonymousCaller call
  anonymousUser.elim
    (do
      let user ← stmt fun s =>
        s.upsertUserByID (env.isUUID expectedUserID) expectedUserID UserRow.default
      registerPasskey env call input user)
    fun anonymousUser => do
      let user ← stmt fun s =>
        s.updateUser anonymousUser.id fun row => { row with isAnonymous := false }
      registerPasskey env call input user

def handleBeginPasskeySignIn : Handler := do
  ensure env.config.passkeysEnabled accessDenied
  change fun s => s.generateChallenge call.newChallenge ""
  reply (.passkeyOptions call.newChallenge "")

structure VerifyPasskeySignInInput where
  challenge : String
  credentialID : String
  clientDataJSON : String
  authenticatorData : String
  signature : String
  deriving DecidableEq, Repr

/-- `handleVerifyPasskeySignIn`. A request without a signature is not refused. -/
def handleVerifyPasskeySignIn (input : Option VerifyPasskeySignInInput) : Handler := do
  ensure env.config.passkeysEnabled accessDenied
  let input ← require input invalidJSONBody
  let challenge ← stmt fun s => s.consumeChallenge input.challenge
  let _ ← require challenge invalidChallenge
  let passkey ← query fun s => s.selectPasskey input.credentialID
  let passkey ← require passkey invalidCredentials
  ensure (input.signature = "" ∨ env.verifySignature passkey.publicKey input.clientDataJSON
    input.authenticatorData input.signature) invalidCredentials
  let user ← query fun s => s.selectUser passkey.userID
  let user ← require user serviceUnavailable
  ensureUnlocked user accountLocked
  issueSessionResponse env call user

/-! ## Second factors -/

/-- The secret of the user's second factor, where one is set. -/
def User.mfaSecret (user : User) : Option String :=
  user.encryptedMFASecret.filter fun secret => secret ≠ ""

/-- The secret of the user accepts the code. -/
def Env.acceptsCode (user : User) (code : String) (now : ℤ) : Bool :=
  (user.mfaSecret.bind env.decrypt).any fun secret => env.validateCode secret code now

/-- The checks of a code against the secret of a user, as three handlers make them. -/
def checkMFACode (user : User) (code : String) (notSetUp failed invalid : Reply) : Act Unit := do
  let encrypted ← require user.mfaSecret notSetUp
  let secret ← require (env.decrypt encrypted) failed
  let now ← query State.now
  ensure (env.validateCode secret code now) invalid

def mfaNotSetUp : Reply := .error 400 "MFA is not set up on this account"

def invalidMFACode : Reply := .error 401 "Invalid MFA code"

def handleSetupMFA : Handler := do
  ensure env.config.mfaEnabled accessDenied
  ensure (call.caller.userID ≠ "") authenticationRequired
  let user ← query fun s => s.selectUser call.caller.userID
  let user ← require user userNotFound
  ensureUnlocked user accountLocked
  let _ ← stmt fun s => s.updateUser user.id fun row =>
    { row with encryptedMFASecret := some (env.encrypt call.newSecret), mfaEnabled := false }
  reply (.mfaSecret call.newSecret)

def handleVerifyMFA (code : String) : Handler := do
  ensure env.config.mfaEnabled accessDenied
  ensure (call.caller.userID ≠ "") authenticationRequired
  let code := Strings.trimSpace code
  ensure (code ≠ "") (.error 400 "Code is required")
  let user ← query fun s => s.selectUser call.caller.userID
  let user ← require user userNotFound
  ensureUnlocked user accountLocked
  checkMFACode env user code mfaNotSetUp serviceUnavailable invalidMFACode
  let _ ← stmt fun s => s.updateUser user.id fun row => { row with mfaEnabled := true }
  issueSessionResponse env call { user with mfaEnabled := true }

structure ChallengeMFAInput where
  mfaTicket : String
  code : String
  deriving DecidableEq, Repr

def invalidMFATicket : Reply := .error 401 "Invalid or expired MFA ticket"

def handleChallengeMFA (input : Option ChallengeMFAInput) : Handler := do
  ensure env.config.mfaEnabled accessDenied
  let input ← require input invalidJSONBody
  let ticket := Strings.trimSpace input.mfaTicket
  let code := Strings.trimSpace input.code
  ensure (ticket ≠ "" ∧ code ≠ "") (.error 400 "MFA ticket and code are required")
  let userID ← look (.mfaTicket ticket) fun s => s.findTicket ticket
  let userID ← require (userID.filter fun userID => userID ≠ "") invalidMFATicket
  change fun s => s.deleteTicket ticket
  let user ← query fun s => s.selectUser userID
  let user ← require user invalidMFATicket
  ensureUnlocked user accountLocked
  checkMFACode env user code mfaNotSetUp serviceUnavailable invalidMFACode
  issueSessionResponse env call user

def handleDisableMFA : Handler := do
  ensure env.config.mfaEnabled accessDenied
  ensure (call.caller.userID ≠ "") authenticationRequired
  let user ← query fun s => s.selectUser call.caller.userID
  let user ← require user userNotFound
  ensureUnlocked user accountLocked
  let _ ← stmt fun s => s.updateUser user.id fun row =>
    { row with encryptedMFASecret := none, mfaEnabled := false }
  reply .noContent

/-! ## Verified addresses -/

/-- The purpose of the codes that verify an address. -/
def verificationPurpose (email : Bool) : String :=
  if email then "email_verification" else "phone_verification"

/-- The address to verify: the given one, or that of the caller's token. -/
def verificationRecipient (email : Bool) (given : String) : String :=
  if email then
    if normalizeEmail given = "" then normalizeEmail call.caller.email else normalizeEmail given
  else
    if Strings.trimSpace given = "" then Strings.trimSpace call.caller.phone
    else Strings.trimSpace given

/-- The time an email address, or a phone number, was verified. -/
def UserRow.verifiedTime (email : Bool) (row : UserRow) : Option ℤ :=
  if email then row.emailVerifiedAt else row.phoneVerifiedAt

/-- `handleRequestEmailVerification` and `handleRequestPhoneVerification` once they have a
recipient. -/
def requestVerification (email : Bool) (recipient : String) : Handler := do
  let existing ← query fun s =>
    if email then s.selectUserByEmail recipient else s.selectUserByPhone recipient
  if call.caller.userID ≠ "" then
    ensure (existing.all (fun user => user.id = call.caller.userID))
      (.error 409 (if email then "Email is already in use by another account"
        else "Phone number is already in use by another account"))
    ensure (existing.all (fun user => (user.verifiedTime email).isNone))
      (.message (if email then "Email is already verified"
        else "Phone number is already verified"))
  else
    ensure (existing.any (fun user => (user.verifiedTime email).isNone)) .noContent
  dispatchCode env call recipient (verificationPurpose email) codeTTL
  reply .noContent

def handleRequestEmailVerification (email : String) : Handler := do
  let recipient := verificationRecipient call true email
  ensure (recipient ≠ "" ∧ isEmail recipient) (.error 400 "Email address is required")
  ensure env.emailReady serviceUnavailable
  requestVerification env call true recipient

def handleRequestPhoneVerification (phone : String) : Handler := do
  let recipient := verificationRecipient call false phone
  ensure (recipient ≠ "") (.error 400 "Phone number is required")
  let recipient ← require (normalizePhone recipient) invalidPhone
  ensure env.smsReady serviceUnavailable
  requestVerification env call false recipient

def maxOtpAttempts : ℕ := 5

/-- `handleConfirmEmailVerification` and `handleConfirmPhoneVerification` once they have a
recipient. A caller who is signed in gets a session. -/
def confirmVerification (email : Bool) (recipient code : String) : Handler := do
  let purpose := verificationPurpose email
  let otp ← query fun s => s.selectOTP recipient purpose
  let otp ← require otp (.error 400 "Invalid or expired verification code")
  let now ← query State.now
  ensure (now ≤ otp.2.expiresAt) (.error 400 "Verification code has expired")
  if maxOtpAttempts ≤ otp.2.attempts then
    change fun s => s.deleteOTP otp.1
    reply (.error 400 "Maximum attempts exceeded")
  if env.verifyCode code otp.2.codeHash = false then
    change fun s => s.countAttempt otp.1
    reply (.error 400 "Invalid verification code")
  change fun s => s.deleteOTPsWhere fun otp => otp.recipient = recipient && otp.purpose = purpose
  if call.caller.userID ≠ "" then
    let user ← stmt fun s => s.updateUser call.caller.userID fun row =>
      { row.verifiedAt email recipient s.now with isAnonymous := false }
    let user ← require user serviceUnavailable
    issueSessionResponse env call user
  else
    let user ← stmt fun s => s.updateUsersWhere (UserRow.isReachedAt email recipient) fun row =>
      if email then { row with emailVerifiedAt := some s.now }
      else { row with phoneVerifiedAt := some s.now }
    let _ ← require user serviceUnavailable
    reply (.message (if email then "Email successfully verified"
      else "Phone number successfully verified"))

structure ConfirmVerificationInput where
  recipient : String
  code : String
  deriving DecidableEq, Repr

def handleConfirmEmailVerification (input : Option ConfirmVerificationInput) : Handler := do
  let input ← require input invalidJSONBody
  let recipient := verificationRecipient call true input.recipient
  let code := Strings.trimSpace input.code
  ensure (recipient ≠ "" ∧ code ≠ "") (.error 400 "Email and verification code are required")
  confirmVerification env call true recipient code

def handleConfirmPhoneVerification (input : Option ConfirmVerificationInput) : Handler := do
  let input ← require input invalidJSONBody
  let recipient := verificationRecipient call false input.recipient
  let code := Strings.trimSpace input.code
  ensure (recipient ≠ "" ∧ code ≠ "")
    (.error 400 "Phone number and verification code are required")
  let recipient ← require (normalizePhone recipient) invalidPhone
  confirmVerification env call false recipient code

end Layr.Auth

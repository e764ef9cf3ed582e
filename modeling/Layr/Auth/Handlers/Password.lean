import Layr.Auth.Handlers.Sessions

/-!
# Passwords and one-time codes

Registration and sign-in with a password, the reset of a password, and the sign-in with a one-time
code by email or SMS.
-/

namespace Layr.Auth

open Go Prog

/-! ## Recipients -/

def phoneSeparators : List Char := [' ', '\t', '\r', '\n', '-', '(', ')', '.']

/-- `NormalizePhone`. -/
def normalizePhone (rawPhone : String) : Option String :=
  match (Strings.trimSpace rawPhone).toList with
  | '+' :: rest =>
    let digits := rest.filter fun c => !phoneSeparators.contains c
    if digits.all Unicode.isDigit && 8 ≤ digits.length && digits.length ≤ 15 then
      some (String.ofList ('+' :: digits))
    else none
  | _ => none

def invalidPhone : Reply :=
  .error 400 "Invalid phone number format: must be in E.164 format with country code"

/-- Texts with an at sign are taken for email addresses, others for phone numbers. -/
def isEmail (recipient : String) : Bool := Strings.containsRune recipient '@'

/-- `strings.TrimSpace(strings.ToLower(email))`. -/
def normalizeEmail (email : String) : String := Strings.trimSpace (Strings.toLower email)

/-- A pointer to the text, or nil for the empty text. -/
def nilIfEmpty (text : String) : Option String := if text = "" then none else some text

/-! ## One-time codes -/

/-- `otp.CodeTTL`. -/
def codeTTL : ℤ := 900

variable (env : Env) (call : Call)

/-- `HashCode`. -/
def Env.hashCode (code : String) : String := env.digest.hex (Strings.trimSpace code)

/-- `VerifyCode`. -/
def Env.verifyCode (inputCode storedHash : String) : Bool := env.hashCode inputCode = storedHash

/-- The new code is stored for the recipient and sent to it. -/
def dispatchCode (recipient purpose : String) (ttl : ℤ) : Act Unit := do
  let now ← query State.now
  let otp : Otp := ⟨recipient, env.hashCode call.newCode, purpose, 0, now + ttl⟩
  change fun s => s.insertOTP call.newOTPID otp
  change fun s => s.send recipient call.newCode

def pleaseWait : Reply := .error 429 "Please wait 60 seconds before requesting another code"

def addressLimited : Reply :=
  .error 429 "Rate limit exceeded. Too many requests from this IP address."

def passwordTooShort : Reply :=
  .error 400 ("Password must be at least " ++ toString env.config.passwordMinLength ++
    " characters")

/-! ## Registration and sign-in -/

structure SignUpInput where
  email : String
  phone : String
  password : String
  deriving DecidableEq, Repr

/-- The end of `handleSignUp` for an anonymous caller, who becomes a registered user. -/
def convertBySignUp (email phone : Option String) (password : String) (anonymousUser : User) :
    Handler := do
  let existing ← query fun s => s.selectUserByEither email phone
  ensure (existing.all (fun user => user.id = anonymousUser.id))
    (.error 409 (if email.isSome then "Email is already in use by another account"
      else "Phone number is already in use by another account"))
  let user ← stmt fun s => s.updateUser anonymousUser.id fun row =>
    { row with email := email, phone := phone, isAnonymous := false,
               passwordHash := some (env.hashPassword password) }
  let user ← require user serviceUnavailable
  issueSessionResponse env call user

def handleSignUp (input : Option SignUpInput) : Handler := do
  ensure env.config.passwordEnabled accessDenied
  let input ← require input invalidJSONBody
  let email := normalizeEmail input.email
  let phone := Strings.trimSpace input.phone
  let phone ← require (if phone = "" then some "" else normalizePhone phone) invalidPhone
  ensure (email ≠ "" ∨ phone ≠ "") (.error 400 "Email or phone number is required")
  ensure (env.config.passwordMinLength ≤ input.password.utf8ByteSize) (passwordTooShort env)
  checkCaptcha call
  checkPasswordBreach call
  let anonymousUser ← resolveAnonymousCaller call
  anonymousUser.elim
    (do
      let user ← stmt fun s => s.insertUser call.newUserID
        { UserRow.default with email := nilIfEmpty email, phone := nilIfEmpty phone,
                               passwordHash := some (env.hashPassword input.password) }
      let user ← require user serviceUnavailable
      issueSessionResponse env call user)
    (convertBySignUp env call (nilIfEmpty email) (nilIfEmpty phone) input.password)

structure SignInInput where
  email : String
  phone : String
  password : String
  deriving DecidableEq, Repr

/-- The email of the input, or else its phone number. -/
def SignInInput.identifier (input : SignInInput) : Option String :=
  let identifier := normalizeEmail input.email
  if identifier = "" ∧ input.phone ≠ "" then normalizePhone input.phone else some identifier

def invalidCredentials : Reply := .error 401 "Invalid credentials"

def handleSignIn (input : Option SignInInput) : Handler := do
  let input ← require input invalidJSONBody
  let identifier ← require input.identifier invalidPhone
  ensure (identifier ≠ "" ∧ input.password ≠ "") invalidCredentials
  checkCaptcha call
  ensure (call.isLimited = false)
    (.error 429 "Too many login attempts. Please try again later.")
  let user ← query fun s => s.selectUserByRecipient identifier
  -- a row without a password hash cannot be scanned
  let user ← require (user.filter fun user => user.passwordHash.isSome) invalidCredentials
  ensureUnlocked user accountLocked
  ensure (user.passwordHash.any fun hash => env.verifyPassword input.password hash)
    invalidCredentials
  completeSignInFlow env call user

/-! ## The reset of a password -/

structure RequestPasswordResetInput where
  email : String
  phone : String
  deriving DecidableEq, Repr

/-- The email of the input, or else its phone number, as it stands. -/
def resetRecipient (email phone : String) : String :=
  if normalizeEmail email = "" then Strings.trimSpace phone else normalizeEmail email

/-- Phone numbers are normalised. -/
def normalizeRecipient (recipient : String) : Option String :=
  if isEmail recipient then some recipient else normalizePhone recipient

def handleRequestPasswordReset (input : Option RequestPasswordResetInput) : Handler := do
  ensure env.config.passwordEnabled accessDenied
  let input ← require input invalidJSONBody
  let recipient := resetRecipient input.email input.phone
  ensure (recipient ≠ "") (.error 400 "Email or phone number is required")
  checkCaptcha call
  ensure (if isEmail recipient then env.emailReady else env.smsReady) serviceUnavailable
  let recipient ← require (normalizeRecipient recipient) invalidPhone
  ensure (call.isLimited = false) addressLimited
  ensure (call.isCoolingDown = false) pleaseWait
  let user ← query fun s => s.selectUserByRecipient recipient
  let _ ← require user .noContent
  dispatchCode env call recipient "password_reset" codeTTL
  reply .noContent

structure ConfirmPasswordResetInput where
  email : String
  phone : String
  code : String
  password : String
  deriving DecidableEq, Repr

def maxPasswordResetAttempts : ℕ := 5

def invalidResetCode : Reply := .error 400 "Invalid or expired reset code"

def handleConfirmPasswordReset (input : Option ConfirmPasswordResetInput) : Handler := do
  ensure env.config.passwordEnabled accessDenied
  let input ← require input invalidJSONBody
  let recipient := resetRecipient input.email input.phone
  ensure (recipient ≠ "" ∧ input.code ≠ "" ∧ input.password ≠ "")
    (.error 400 "Recipient, code, and new password are required")
  let recipient ← require (normalizeRecipient recipient) invalidPhone
  ensure (env.config.passwordMinLength ≤ input.password.utf8ByteSize) (passwordTooShort env)
  checkPasswordBreach call
  let otp ← query fun s => s.selectLiveOTP recipient "password_reset"
  let otp ← require otp invalidResetCode
  if maxPasswordResetAttempts ≤ otp.2.attempts then
    change fun s => s.deleteOTP otp.1
    reply (.error 400 "Maximum attempts exceeded")
  if env.verifyCode input.code otp.2.codeHash = false then
    change fun s => s.countAttempt otp.1
    reply (.error 400 "Invalid reset code")
  change fun s => s.deleteOTP otp.1
  let user ← stmt fun s => s.updateUsersWhere
    (fun row => row.email = some recipient || row.phone = some recipient)
    fun row => { row with passwordHash := some (env.hashPassword input.password) }
  let user ← require user invalidResetCode
  ensureUnlocked user accountLocked
  issueSessionResponse env call user

/-! ## Sign-in with a one-time code -/

structure SendOTPInput where
  recipient : String
  purpose : String
  deriving DecidableEq, Repr

/-- The purpose of a code, which is a sign-in where none is given. -/
def otpPurpose (purpose : String) : String :=
  if Strings.trimSpace purpose = "" then "sign_in" else Strings.trimSpace purpose

/-- The kind of code is enabled. -/
def Env.isOTPEnabled (recipient : String) : Bool :=
  if isEmail recipient then env.config.emailOTPEnabled else env.config.smsOTPEnabled

def Env.isDeliveryReady (recipient : String) : Bool :=
  if isEmail recipient then env.emailReady else env.smsReady

/-- How long a code is valid, in seconds. -/
def Env.otpTTL (recipient : String) : ℤ :=
  60 * if isEmail recipient then env.config.emailOTPExpiryMinutes
    else env.config.smsOTPExpiryMinutes

def handleSendOTP (input : Option SendOTPInput) : Handler := do
  ensure (env.config.emailOTPEnabled || env.config.smsOTPEnabled) accessDenied
  let input ← require (input.filter fun input => input.recipient ≠ "")
    (.error 400 "Recipient email or phone number is required")
  checkCaptcha call
  let recipient := normalizeEmail input.recipient
  let purpose := otpPurpose input.purpose
  ensure (env.isOTPEnabled recipient) accessDenied
  ensure (env.isDeliveryReady recipient) serviceUnavailable
  let ttl := env.otpTTL recipient
  let recipient ← require (normalizeRecipient recipient) invalidPhone
  ensure (call.isLimited = false) addressLimited
  ensure (call.isCoolingDown = false) pleaseWait
  dispatchCode env call recipient purpose ttl
  reply .noContent

structure VerifyOTPInput where
  recipient : String
  code : String
  purpose : String
  deriving DecidableEq, Repr

/-- The row has the recipient as its email address, or as its phone number. -/
def UserRow.isReachedAt (email : Bool) (recipient : String) (row : UserRow) : Bool :=
  if email then row.email = some recipient else row.phone = some recipient

/-- The email address, or the phone number, is set and verified. -/
def UserRow.verifiedAt (email : Bool) (recipient : String) (now : ℤ) (row : UserRow) : UserRow :=
  if email then { row with email := some recipient, emailVerifiedAt := some now }
  else { row with phone := some recipient, phoneVerifiedAt := some now }

/-- The email address, or the phone number, is verified now unless it is already. -/
def UserRow.stillVerifiedAt (email : Bool) (now : ℤ) (row : UserRow) : UserRow :=
  if email then { row with emailVerifiedAt := some (row.emailVerifiedAt.getD now) }
  else { row with phoneVerifiedAt := some (row.phoneVerifiedAt.getD now) }

/-- The statement that finds the user of a recipient or registers one. -/
def upsertRecipient (email : Bool) (recipient : String) : Act (Option (User × Bool)) :=
  stmt fun s => s.upsertUser (UserRow.isReachedAt email recipient) call.newUserID
    (UserRow.default.verifiedAt email recipient s.now) (UserRow.stillVerifiedAt email s.now)

/-- The end of `handleVerifyOTP` for an anonymous caller. -/
def convertByOTP (email : Bool) (recipient : String) (anonymousUser : User) : Handler := do
  let conflicting ← query fun s =>
    if email then s.selectUserByEmail recipient else s.selectUserByPhone recipient
  ensure (conflicting.all (fun user => user.id = anonymousUser.id))
    (.error 409 (if email then "Email is already in use by another account"
      else "Phone number is already in use by another account"))
  let user ← stmt fun s => s.updateUser anonymousUser.id fun row =>
    { row.verifiedAt email recipient s.now with isAnonymous := false }
  -- an error of the statement is not looked at
  issueSessionResponse env call (user.getD User.zero)

def handleVerifyOTP (input : Option VerifyOTPInput) : Handler := do
  ensure (env.config.emailOTPEnabled || env.config.smsOTPEnabled) accessDenied
  let input ← require (input.filter fun input => input.recipient ≠ "" && input.code ≠ "")
    (.error 400 "Recipient and code are required")
  checkCaptcha call
  let recipient := normalizeEmail input.recipient
  let purpose := otpPurpose input.purpose
  let email := isEmail recipient
  ensure (env.isOTPEnabled recipient) accessDenied
  let recipient ← require (normalizeRecipient recipient) invalidPhone
  let otp ← query fun s => s.selectLiveOTP recipient purpose
  let otp ← require otp (.error 400 "Invalid or expired OTP code")
  if env.verifyCode input.code otp.2.codeHash = false then
    change fun s => s.countAttempt otp.1
    reply (.error 400 "Invalid OTP code")
  change fun s => s.deleteOTP otp.1
  let anonymousUser ← resolveAnonymousCaller call
  anonymousUser.elim
    (do
      let upserted ← upsertRecipient call email recipient
      let user := (upserted.map Prod.fst).getD User.zero
      if (upserted.map Prod.snd).getD false = false then ensureUnlocked user accountLocked
      completeSignInFlow env call user)
    (convertByOTP env call email recipient)

end Layr.Auth

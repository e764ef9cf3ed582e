import Layr.Auth.Handlers.Oidc

/-!
# The requests of the authentication service

The requests that give out tokens and codes, or take them back, with the handlers that serve
them. Left out are the requests that only read, and those that write a user's own data:
`handleUpdateUserEmail`, `handleUpdateUserPhone`, `handleUpdateUserPassword`, `handleCreateUser` and
`handleDeletePasskey`. What is proved about runs is about runs without them.
-/

namespace Layr.Auth

inductive Request
  | signUp (input : Option SignUpInput)
  | signIn (input : Option SignInInput)
  | signInAnonymous
  | requestPasswordReset (input : Option RequestPasswordResetInput)
  | confirmPasswordReset (input : Option ConfirmPasswordResetInput)
  | sendOTP (input : Option SendOTPInput)
  | verifyOTP (input : Option VerifyOTPInput)
  | beginPasskeySignUp (userID : Option String)
  | verifyPasskeySignUp (input : Option VerifyPasskeySignUpInput)
  | beginPasskeySignIn
  | verifyPasskeySignIn (input : Option VerifyPasskeySignInInput)
  | setupMFA
  | verifyMFA (code : String)
  | challengeMFA (input : Option ChallengeMFAInput)
  | disableMFA
  | requestEmailVerification (email : String)
  | requestPhoneVerification (phone : String)
  | confirmEmailVerification (input : Option ConfirmVerificationInput)
  | confirmPhoneVerification (input : Option ConfirmVerificationInput)
  | refreshToken (refreshToken : Option String)
  | signOut (refreshToken : String)
  | revokeSession (sessionID : String)
  | revokeOtherSessions
  | deleteOwnUser
  | authorizeOAuth (input : AuthorizeOAuthInput)
  | processOAuthCallback (input : OAuthCallbackInput)
  | authorizeOIDC (input : AuthorizeOIDCInput)
  | submitOIDCAuthorize (form : OIDCForm)
  | issueTokenByCode (input : OIDCTokenInput)
  | issueTokenByRefreshToken (input : OIDCTokenInput)
  | signOutOIDC (idTokenHint : String)
  | deleteUser (userID : String)
  | lockUser (userID : String) (lockedUntil : Option ℤ)
  | unlockUser (userID : String)
  | revokeUserSessions (userID : String)
  deriving DecidableEq

/-- The handler of a request. -/
def Request.handler (env : Env) (call : Call) : Request → Handler
  | signUp input => handleSignUp env call input
  | signIn input => handleSignIn env call input
  | signInAnonymous => handleSignInAnonymous env call
  | requestPasswordReset input => handleRequestPasswordReset env call input
  | confirmPasswordReset input => handleConfirmPasswordReset env call input
  | sendOTP input => handleSendOTP env call input
  | verifyOTP input => handleVerifyOTP env call input
  | beginPasskeySignUp userID => handleBeginPasskeySignUp env call userID
  | verifyPasskeySignUp input => handleVerifyPasskeySignUp env call input
  | beginPasskeySignIn => handleBeginPasskeySignIn env call
  | verifyPasskeySignIn input => handleVerifyPasskeySignIn env call input
  | setupMFA => handleSetupMFA env call
  | verifyMFA code => handleVerifyMFA env call code
  | challengeMFA input => handleChallengeMFA env call input
  | disableMFA => handleDisableMFA env call
  | requestEmailVerification email => handleRequestEmailVerification env call email
  | requestPhoneVerification phone => handleRequestPhoneVerification env call phone
  | confirmEmailVerification input => handleConfirmEmailVerification env call input
  | confirmPhoneVerification input => handleConfirmPhoneVerification env call input
  | refreshToken token => handleRefreshToken env call token
  | signOut token => handleSignOut env call token
  | revokeSession sessionID => handleRevokeSession env call sessionID
  | revokeOtherSessions => handleRevokeOtherSessions env call
  | deleteOwnUser => handleDeleteOwnUser call
  | authorizeOAuth input => handleAuthorizeOAuth env call input
  | processOAuthCallback input => handleProcessOAuthCallback env call input
  | authorizeOIDC input => handleAuthorizeOIDC env call input
  | submitOIDCAuthorize form => handleSubmitOIDCAuthorize env call form
  | issueTokenByCode input => handleIssueOIDCTokenAuthorizationCode env call input
  | issueTokenByRefreshToken input => handleIssueOIDCTokenRefreshToken env call input
  | signOutOIDC idTokenHint => handleSignOutOIDC env call idTokenHint
  | deleteUser userID => handleDeleteUser env call userID
  | lockUser userID lockedUntil => handleLockUser env call userID lockedUntil
  | unlockUser userID => handleUnlockUser env call userID
  | revokeUserSessions userID => handleRevokeUserSessions env call userID

/-- The reply to a request that is served alone, and the state after it. -/
def serve (env : Env) (call : Call) (request : Request) (s : State) : Reply × State :=
  (request.handler env call).answer s

end Layr.Auth

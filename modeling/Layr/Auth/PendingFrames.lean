import Layr.Auth.History

/-!
# Requests that leave pending sign-ins alone

A one-time code waits in its row, and the state of a sign-in at a provider under its key. Most
requests touch neither. That a handler keeps a part of the state is found from its statements by
the rules of `Keeps`.
-/

namespace Layr.Auth

open Go Prog State

/-- Requests that have to do with codes. -/
def Request.handlesCodes : Request → Bool
  | requestPasswordReset _ | confirmPasswordReset _ | sendOTP _ | verifyOTP _
  | requestEmailVerification _ | requestPhoneVerification _ | confirmEmailVerification _
  | confirmPhoneVerification _ | submitOIDCAuthorize _ | deleteOwnUser => true
  | _ => false

/-- Requests that have to do with sign-ins at providers. -/
def Request.handlesOAuth : Request → Bool
  | authorizeOAuth _ | processOAuthCallback _ => true
  | _ => false

theorem State.otps_upsertUserByID (s : State) (isUUID : Bool) (id : String) (row : UserRow) :
    (s.upsertUserByID isUUID id row).2.otps = s.otps := by
  unfold upsertUserByID
  split
  · rfl
  · split_ifs <;> rfl

theorem State.oauthStates_upsertUserByID (s : State) (isUUID : Bool) (id : String)
    (row : UserRow) : (s.upsertUserByID isUUID id row).2.oauthStates = s.oauthStates := by
  unfold upsertUserByID
  split
  · rfl
  · split_ifs <;> rfl

section keeps

variable {env : Env} {call : Call}

attribute [local simp] Prog.bind_assoc otps_upsertUserByID oauthStates_upsertUserByID
  insertUser updateUser updateUsersWhere upsertUser deleteUser
  insertSession deleteSessionsWhere deleteSession rotateSession
  setCached deleteCached deleteCachedOf insertOTP deleteOTP
  deleteOTPsWhere countAttempt send generateChallenge
  consumeChallenge insertPasskey linkIdentity setTicket deleteTicket
  setCode deleteCode setOIDCMFA deleteOIDCMFA setOIDCState
  deleteOIDCState setOAuthState deleteOAuthState

attribute [local simp] checkCaptcha checkPasswordBreach requireScope ensureUnlocked checkMFACode
  issueSessionResponse completeSignInFlow resolveAnonymousCaller issueOIDCAuthorizationCode
  completeOIDCAuthorization completeOAuthFlow registerIdentity signInIdentity linkAnonymous
  dispatchCode requestVerification confirmVerification upsertRecipient convertByOTP
  convertBySignUp registerPasskey refreshStored refreshCached completeHosted askForMFA
  hostedVerifyMFA hostedSendOTP hostedVerifyOTP hostedSignUp hostedSignIn

attribute [local simp] handleSignUp handleSignIn handleSignInAnonymous handleRequestPasswordReset
  handleConfirmPasswordReset handleSendOTP handleVerifyOTP handleBeginPasskeySignUp
  handleVerifyPasskeySignUp handleBeginPasskeySignIn handleVerifyPasskeySignIn handleSetupMFA
  handleVerifyMFA handleChallengeMFA handleDisableMFA handleRequestEmailVerification
  handleRequestPhoneVerification handleConfirmEmailVerification handleConfirmPhoneVerification
  handleRefreshToken handleSignOut handleRevokeSession handleRevokeOtherSessions
  handleDeleteOwnUser handleAuthorizeOAuth handleProcessOAuthCallback handleAuthorizeOIDC
  handleSubmitOIDCAuthorize handleIssueOIDCTokenAuthorizationCode handleIssueOIDCTokenRefreshToken
  handleSignOutOIDC handleDeleteUser handleLockUser handleUnlockUser handleRevokeUserSessions

theorem keepsCodes_handler {request : Request} (h : request.handlesCodes = false) :
    (request.handler env call).Keeps otps := by
  cases request with
  | requestPasswordReset | confirmPasswordReset | sendOTP | verifyOTP | requestEmailVerification
  | requestPhoneVerification | confirmEmailVerification | confirmPhoneVerification
  | submitOIDCAuthorize | deleteOwnUser => cases h
  | _ => simp [Request.handler]

theorem keepsOAuthStates_handler {request : Request} (h : request.handlesOAuth = false) :
    (request.handler env call).Keeps oauthStates := by
  cases request with
  | authorizeOAuth | processOAuthCallback => cases h
  | _ => simp [Request.handler]

end keeps

end Layr.Auth

import Layr.Core.Session
import Layr.Kv.KeyRecords

/-!
# The guard of the control plane

The handlers below `/v1/_/` ask `RequireScope` and nothing else. A request should pass only with
the credential of an enabled holder who has the scope. `CheckScope` looks at no account where the
middleware has accepted a token, and passes every request with neither a token for service accounts
nor a key, so this holds exactly for the requests of `Covered`.
-/

namespace Layr.Core

open Go

namespace Server

variable (server : Server) (accounts : Accounts) (request : Request) (requiredScope : String)

/-! ## Credentials and their holders -/

/-- The request has the key of an enabled account with the scope. -/
def KeyHolder : Prop :=
  request.serviceAccountKey ≠ "" ∧ ∃ id account, accounts.get id = some account ∧
    account.keyHash = server.digest.hex (Strings.trimSpace request.serviceAccountKey) ∧
    account.isEnabled ∧ hasScope account.scopes requiredScope

/-- The request has an accepted token for an enabled account with the scope. -/
def TokenHolder : Prop :=
  ∃ claims account, server.tokenIdentity request = some (.m2m claims) ∧
    accounts.get claims.subject = some account ∧
    account.isEnabled ∧ hasScope account.scopes requiredScope

/-- The scopes that every console user has. -/
def consoleUserScopes : List String :=
  ["console:user.read", "console:user.write", "console:config.read", "console:config.write"]

/-- The request has the session or the access token of a console user. -/
def IsConsoleUser (userID : String) : Prop :=
  (request.consoleToken ≠ "" ∧
    server.consoleSession (server.digest.hex request.consoleToken) = some userID) ∨
  ∃ claims, server.tokenIdentity request = some (.user claims) ∧
    claims.role = "console_operator" ∧ claims.subject = userID

/-- The request is that of an enabled console user who has the scope, as every console user or
through an enabled service account of their own. -/
def ConsoleHolder : Prop :=
  ∃ userID, server.IsConsoleUser request userID ∧ server.isConsoleUserEnabled userID ∧
    (hasScope consoleUserScopes requiredScope ∨
      ∃ id account, accounts.get id = some account ∧ account.consoleUserID = some userID ∧
        account.isEnabled ∧ hasScope account.scopes requiredScope)

/-- The request has the credential of an enabled holder with the scope. -/
def Justified : Prop :=
  server.KeyHolder accounts request requiredScope ∨
    server.TokenHolder accounts request requiredScope ∨
    server.ConsoleHolder accounts request requiredScope

/-! ## What the parts of the middleware find -/

variable {server accounts request requiredScope}

theorem authenticate_ok {secretKey clientIP id : String} {account : ServiceAccount}
    (h : server.authenticate accounts secretKey clientIP = .ok (id, account)) :
    accounts.get id = some account ∧
      account.keyHash = server.digest.hex (Strings.trimSpace secretKey) ∧
      account.isEnabled := by
  unfold authenticate at h
  dsimp only at h
  split at h
  · cases h
  split at h
  · cases h
  rename_i hfound
  split at h
  · cases h
  rename_i henabled
  split at h
  · cases h
  split at h
  · cases h
  cases h
  have hkey := List.find?_some hfound
  have hget : accounts.get id = some account :=
    Table.get_eq_some_iff.mpr (List.mem_of_find?_eq_some hfound)
  simp only [isKeyOf, Bool.and_eq_true, decide_eq_true_eq] at hkey
  exact ⟨hget, hkey.2, by simpa using henabled⟩

variable {identity : Identity}

theorem tokenIdentity_cases (h : server.tokenIdentity request = some identity) :
    (∃ claims, identity = .m2m claims ∧ claims.role = "service_role") ∨
      ∃ claims, identity = .user claims ∧ claims.isM2M = false := by
  unfold tokenIdentity at h
  split at h
  · cases h
  split at h
  · cases h
  rename_i claims _
  split at h
  · cases h
  split at h
  · split at h
    · cases h
    · cases h
      exact .inl ⟨_, rfl, rfl⟩
  · rename_i hkind
    cases h
    exact .inr ⟨claims, rfl, by simpa using hkind⟩

theorem keyIdentity_cases (h : server.keyIdentity accounts request = some identity) :
    ∃ id account, identity = .account id account := by
  unfold keyIdentity at h
  split at h
  · cases h
  split at h
  · cases h
  · cases h
    exact ⟨_, _, rfl⟩

theorem sessionIdentity_cases (h : server.sessionIdentity request = some identity) :
    ∃ userID role, identity = .session userID role := by
  unfold sessionIdentity at h
  split at h
  · cases h
  split at h
  · cases h
  split at h
  · cases h
  · cases h
    exact ⟨_, _, rfl⟩

/-- The token decides whom the request is from, if it is accepted. -/
theorem identity_of_token (h : server.tokenIdentity request = some identity) :
    server.identity accounts request = identity := by
  simp [Server.identity, h]

/-- Without an accepted token, the request is from an account, a session or nobody. -/
theorem identity_of_no_token (h : server.tokenIdentity request = none) :
    (∃ id account, server.identity accounts request = .account id account) ∨
      (∃ userID role, server.identity accounts request = .session userID role) ∨
      server.identity accounts request = .anonymous := by
  unfold Server.identity
  rw [h, Option.none_or]
  cases hkey : server.keyIdentity accounts request with
  | some =>
    obtain ⟨id, account, rfl⟩ := keyIdentity_cases hkey
    exact .inl ⟨id, account, rfl⟩
  | none =>
    rw [Option.none_or]
    cases hsession : server.sessionIdentity request with
    | some =>
      obtain ⟨userID, role, rfl⟩ := sessionIdentity_cases hsession
      exact .inr (.inl ⟨userID, role, rfl⟩)
    | none => exact .inr (.inr rfl)

/-! ## The check, by who the request is from -/

/-- A context stays that of a service account, or not, when it is attached. -/
theorem isServiceAccount_withAuthContext (context : AuthContext) :
    (withAuthContext context).isServiceAccount = context.isServiceAccount := by
  cases hkind : context.isServiceAccount with
  | true =>
    have hid : context.serviceAccountID ≠ "" ∨ context.jwt.isM2M := by
      simpa [AuthContext.isServiceAccount] using hkind
    simp only [withAuthContext, hkind, if_true]
    rcases hid with hid | hm2m
    · simp [AuthContext.isServiceAccount, hid]
    · by_cases hrole : context.jwt.role = ""
      · simp [AuthContext.isServiceAccount, JWTClaims.isM2M, hrole]
      · simp [AuthContext.isServiceAccount, hrole, hm2m]
  | false =>
    have hnot : context.serviceAccountID = "" ∧ context.jwt.isM2M = false := by
      simpa [AuthContext.isServiceAccount] using hkind
    have hsuffix : Strings.hasSuffix context.jwt.audience ":service_account" = false := by
      have h := hnot.2
      simp only [JWTClaims.isM2M, Bool.or_eq_false_iff] at h
      exact h.2
    -- the role that is filled in for a user is not that of service accounts
    have hrole : ∀ jwt : JWTClaims,
        jwt = (if context.jwt.role = "" then { context.jwt with role := "authenticated" }
          else context.jwt) → jwt.isM2M = false := by
      intro jwt hjwt
      split at hjwt
      · rw [hjwt]
        simp [JWTClaims.isM2M, hsuffix]
      · rw [hjwt]
        exact hnot.2
    simp only [withAuthContext, hkind, Bool.false_eq_true, if_false]
    split
    · simp [AuthContext.isServiceAccount, hrole _ rfl]
    split
    · simp [AuthContext.isServiceAccount, hrole _ rfl]
    · exact hkind

theorem scope_withAuthContext (context : AuthContext) :
    (withAuthContext context).jwt.scope = context.jwt.scope := by
  unfold withAuthContext
  dsimp only
  split_ifs <;> rfl

/-- The check of a context that `WithAuthContext` has attached. -/
theorem checkScope_of_context {context : AuthContext}
    (h : (server.identity accounts request).context = withAuthContext context) :
    server.checkScope accounts request requiredScope =
      if context.isServiceAccount then context.hasScope requiredScope
      else server.checkKey accounts request requiredScope := by
  have hscope : (withAuthContext context).hasScope requiredScope =
      context.hasScope requiredScope := by
    unfold AuthContext.hasScope JWTClaims.scopes
    rw [scope_withAuthContext]
  unfold checkScope middleware
  rw [h]
  dsimp only
  rw [isServiceAccount_withAuthContext, hscope]

theorem checkScope_m2m {claims : JWTClaims} (hrole : claims.role = "service_role")
    (h : server.identity accounts request = .m2m claims) :
    server.checkScope accounts request requiredScope = hasScope claims.scopes requiredScope := by
  rw [checkScope_of_context (congrArg Identity.context h)]
  simp [AuthContext.isServiceAccount, AuthContext.hasScope, JWTClaims.isM2M, hrole]

theorem checkScope_account {id : String} {account : ServiceAccount}
    (h : server.identity accounts request = .account id account) :
    server.checkScope accounts request requiredScope =
      hasScope (Strings.fields (Strings.join " " account.scopes)) requiredScope := by
  rw [checkScope_of_context (congrArg Identity.context h)]
  simp [AuthContext.isServiceAccount, AuthContext.hasScope, JWTClaims.isM2M, JWTClaims.scopes]

theorem checkScope_user {claims : JWTClaims} (hkind : claims.isM2M = false)
    (h : server.identity accounts request = .user claims) :
    server.checkScope accounts request requiredScope =
      server.checkKey accounts request requiredScope := by
  rw [checkScope_of_context (congrArg Identity.context h)]
  simp [AuthContext.isServiceAccount, hkind]

/-- A session has no scope, whatever the role of its user. -/
theorem checkScope_session {userID role : String}
    (h : server.identity accounts request = .session userID role) :
    server.checkScope accounts request requiredScope =
      if role = "service_role" then false
      else server.checkKey accounts request requiredScope := by
  have hsuffix : Strings.hasSuffix "" ":service_account" = false := by decide +kernel
  have hnone : hasScope (Strings.fields "") requiredScope = false := hasScope_nil requiredScope
  rw [checkScope_of_context (congrArg Identity.context h)]
  simp [AuthContext.isServiceAccount, AuthContext.hasScope, JWTClaims.isM2M, JWTClaims.scopes,
    hsuffix, hnone]

theorem checkScope_anonymous (h : server.identity accounts request = .anonymous) :
    server.checkScope accounts request requiredScope =
      server.checkKey accounts request requiredScope := by
  have hnot : AuthContext.empty.isServiceAccount = false := by decide +kernel
  simp [checkScope, middleware, h, Identity.context, hnot]

/-- A key that passes is that of an enabled account with the scope. -/
theorem keyHolder_of_checkKey (hkey : request.serviceAccountKey ≠ "")
    (h : server.checkKey accounts request requiredScope) :
    server.KeyHolder accounts request requiredScope := by
  unfold checkKey at h
  rw [if_neg hkey] at h
  split at h
  · cases h
  rename_i id account hauth
  have hrow := authenticate_ok hauth
  exact ⟨hkey, id, account, hrow.1, hrow.2.1, hrow.2.2, h⟩

/-- Where only the key is looked for, the check is right up to the requests without a key. -/
theorem checkKey_justified_iff
    (htoken : ¬ server.TokenHolder accounts request requiredScope) :
    (server.checkKey accounts request requiredScope →
        server.Justified accounts request requiredScope) ↔
      (request.serviceAccountKey = "" →
        server.ConsoleHolder accounts request requiredScope) := by
  by_cases hkey : request.serviceAccountKey = ""
  · have hpass : server.checkKey accounts request requiredScope := by
      simp [checkKey, hkey]
    have hno : ¬ server.KeyHolder accounts request requiredScope := fun h => h.1 hkey
    simp [hpass, hkey, Justified, hno, htoken]
  · have hholder : server.checkKey accounts request requiredScope →
        server.Justified accounts request requiredScope :=
      fun h => .inl (keyHolder_of_checkKey hkey h)
    simp only [hkey, false_implies, iff_true]
    exact hholder

/-! ## The requests for which the guard is right -/

variable (server accounts request requiredScope)

/-- The requests that the guard judges rightly, by their sender.
- With a token for service accounts: its scopes suffice only if the account still has the scope
  and is enabled, or another credential of the request suffices.
- With an accepted key: the scopes of the account, joined by blanks and split again, suffice only
  if the account's own scopes do.
- Otherwise: there is a key, or the request is that of a console user with the scope. -/
def CoveredFor : Identity → Prop
  | .m2m claims => hasScope claims.scopes requiredScope →
      server.Justified accounts request requiredScope
  | .account _ account =>
      hasScope (Strings.fields (Strings.join " " account.scopes)) requiredScope →
        server.KeyHolder accounts request requiredScope ∨
          server.ConsoleHolder accounts request requiredScope
  | .session _ role => role ≠ "service_role" → request.serviceAccountKey = "" →
      server.ConsoleHolder accounts request requiredScope
  | .user _ | .anonymous => request.serviceAccountKey = "" →
      server.ConsoleHolder accounts request requiredScope

/-- The guard judges the request rightly, given whom the middleware takes for its sender. -/
def Covered : Prop :=
  server.CoveredFor accounts request requiredScope (server.identity accounts request)

theorem guard_justified_iff_covered :
    (server.requireScope accounts request requiredScope = none →
        server.Justified accounts request requiredScope) ↔
      server.Covered accounts request requiredScope := by
  have hrequire : server.requireScope accounts request requiredScope = none ↔
      server.checkScope accounts request requiredScope := by
    unfold requireScope
    split
    · rename_i h
      simp [h]
    · rename_i h
      simp [h]
  rw [hrequire]
  unfold Covered
  cases htoken : server.tokenIdentity request with
  | some identity =>
    have hidentity : server.identity accounts request = identity := identity_of_token htoken
    rcases tokenIdentity_cases htoken with ⟨claims, rfl, hrole⟩ | ⟨claims, rfl, hkind⟩
    · rw [checkScope_m2m hrole hidentity, hidentity]
      exact Iff.rfl
    · rw [checkScope_user hkind hidentity, hidentity]
      apply checkKey_justified_iff
      rintro ⟨claims', account, h, -⟩
      rw [htoken] at h
      cases h
  | none =>
    have hnotoken : ¬ server.TokenHolder accounts request requiredScope := by
      rintro ⟨claims, account, h, -⟩
      rw [htoken] at h
      cases h
    rcases identity_of_no_token htoken with ⟨id, account, h⟩ | ⟨userID, role, h⟩ | h
    · rw [checkScope_account h, h]
      simp [CoveredFor, Justified, hnotoken]
    · rw [checkScope_session h, h]
      by_cases hrole : role = "service_role"
      · simp [CoveredFor, hrole]
      · simp only [CoveredFor, hrole, if_false, ne_eq, not_false_eq_true, forall_const]
        exact checkKey_justified_iff hnotoken
    · rw [checkScope_anonymous h, h]
      exact checkKey_justified_iff hnotoken

/-! ## Requests that pass without a credential -/

/-- A server without console users that accepts two tokens: one of an application's user, and one
for the service account `a` with every scope. -/
def sampleServer : Server where
  digest := Kv.Digest.bytes
  verifyAccessToken token :=
    if token = "u.b.c" then some ⟨"u", "authenticated", "x:user", ""⟩
    else if token = "m.b.c" then some ⟨"a", "service_role", "x:service_account", "*"⟩
    else none
  layrAudience := "x:service_account"
  isIPAllowed _ _ := false
  sessionUser _ := none
  consoleSession _ := none
  isConsoleUserEnabled _ := false
  now := 0

/-- The service account `a`, which is disabled. -/
def disabledAccounts : Accounts :=
  ⟨[("a", ⟨none, "a", none, "k", "h", ["*"], false, [], none⟩)], by simp⟩

def bareRequest : Request := ⟨fun _ => "", fun _ => "", "::1"⟩

def bearerRequest (token : String) : Request :=
  ⟨fun name => if name = "Authorization" then "Bearer " ++ token else "", fun _ => "", "::1"⟩

/-- Nobody has a scope where the only account is disabled and there is no console user. -/
theorem not_justified_disabled (request : Request) (requiredScope : String) :
    ¬ sampleServer.Justified disabledAccounts request requiredScope := by
  have hdisabled : ∀ id account, disabledAccounts.get id = some account →
      account.isEnabled = false := by
    intro id account hget
    have hmem := Table.get_eq_some_iff.mp hget
    simp only [disabledAccounts, List.mem_singleton, Prod.mk.injEq] at hmem
    rw [hmem.2]
  rintro (⟨-, id, account, hget, -, henabled, -⟩ | ⟨claims, account, -, hget, henabled, -⟩ |
    ⟨userID, -, henabled, -⟩)
  · simp [hdisabled id account hget] at henabled
  · simp [hdisabled _ account hget] at henabled
  · simp [sampleServer] at henabled

/-- The request passes, and nobody has the scope. -/
def PassesUnjustified (request : Request) : Prop :=
  sampleServer.requireScope disabledAccounts request "data:schema.write" = none ∧
    ¬ sampleServer.Justified disabledAccounts request "data:schema.write"

theorem passesUnjustified_of_checkScope {request : Request}
    (h : sampleServer.checkScope disabledAccounts request "data:schema.write") :
    PassesUnjustified request := by
  refine ⟨?_, not_justified_disabled request _⟩
  unfold requireScope
  rw [if_pos h]

/-- A request without any credential passes, one with only the token of an application's user
passes, and one with the token of a disabled account passes. -/
theorem guard_passes_unjustified :
    PassesUnjustified bareRequest ∧ PassesUnjustified (bearerRequest "u.b.c") ∧
      PassesUnjustified (bearerRequest "m.b.c") := by
  refine ⟨?_, ?_, ?_⟩
  · apply passesUnjustified_of_checkScope
    decide +kernel
  · apply passesUnjustified_of_checkScope
    decide +kernel
  · apply passesUnjustified_of_checkScope
    decide +kernel

end Server

end Layr.Core

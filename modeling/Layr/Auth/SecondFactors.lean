import Layr.Auth.History

/-!
# Second factors in sign-ins

With second factors enabled and asked for always, a user who has one gets tokens or a code in a
sign-in that presents an accepted code of the second factor, except in the flows that never ask:
the reset of a password, passkeys, single sign-on, a callback of a provider that ends a hosted
sign-in, and the registration of an anonymous user.
-/

namespace Layr.Auth

open Go

/-- The requests of the endpoints that users sign in at. -/
def Request.isLogin : Request → Bool
  | signIn _ | sendOTP _ | verifyOTP _ | requestPasswordReset _ | confirmPasswordReset _
  | beginPasskeySignUp _ | verifyPasskeySignUp _ | beginPasskeySignIn | verifyPasskeySignIn _
  | challengeMFA _ | authorizeOAuth _ | processOAuthCallback _ | authorizeOIDC _
  | submitOIDCAuthorize _ | issueTokenByCode _ => true
  | _ => false

/-- Time goes by, or a request comes to an endpoint that users sign in at. -/
def Event.IsLogin : Event → Prop
  | .tick _ => True
  | .serve _ request => request.isLogin

theorem Request.isLogin_of_authorizes {request : Request} (h : request.authorizes) :
    request.isLogin := by
  cases request <;> first | rfl | cases h

theorem Request.isLogin_of_confirms {request : Request} (h : request.confirms) :
    request.isLogin = false := by
  cases request <;> first | rfl | cases h

/-- The code of a second factor that a request has. -/
def Request.mfaCode : Request → Option String
  | challengeMFA (some input) => some (Strings.trimSpace input.code)
  | submitOIDCAuthorize form => some (Strings.trimSpace form.mfaCode)
  | _ => none

variable (env : Env)

/-- The request presents a code that the second factor of the user accepts. -/
def PresentsMFACode (s : State) (request : Request) (userID : String) : Prop :=
  ∃ user code, s.users.get userID = some user ∧ request.mfaCode = some code ∧
    env.acceptsCode user code s.now

/-- Such a code is presented in the sign-in that a request belongs to: by the request, or by the
one that was answered with the authorization code which the request exchanges. -/
inductive SecondFactorPresented (w : World) (userID : String) : Request → Prop
  | now {request : Request} (hcode : PresentsMFACode env w.state request userID) :
      SecondFactorPresented w userID request
  | before {input : OIDCTokenInput} {served : Served} {token : Option String}
      (hmem : served ∈ w.log) (hreply : served.reply = .redirect userID input.code token)
      (hcode : PresentsMFACode env served.before served.request userID) :
      SecondFactorPresented w userID (.issueTokenByCode input)

/-- The request may sign the user in and never asks for a second factor. -/
def Request.skipsMFA (call : Call) (s : State) (user : User) : Request → Prop
  | confirmPasswordReset (some input) => ∃ recipient,
      normalizeRecipient (resetRecipient input.email input.phone) = some recipient ∧
        user.HasAddress recipient
  | verifyPasskeySignIn (some input) => ∃ passkey,
      s.selectPasskey input.credentialID = some passkey ∧ passkey.userID = user.id
  | verifyPasskeySignUp (some input) => anonymousCaller call s = some user ∨
      (s.consumeChallenge input.challenge).1 = some user.id
  | verifyPasskeySignUp none | signUp _ | verifyOTP _ => anonymousCaller call s = some user
  | processOAuthCallback input => anonymousCaller call s = some user ∨ ∃ payload info,
      s.findOAuthState input.state = some payload ∧ s.IsHosted payload ∧
        env.exchangeCode input.provider input.code (input.callback env payload) = some info ∧
        (s.selectIdentity input.provider info.providerUserID = some user.id ∨
          user.email = some info.email)
  | authorizeOIDC _ => call.caller.userID = user.id
  | _ => False

/-- What the events of a run meet: nobody sets up a second factor or takes it away, and the
requests that never ask for one sign in users who have none. -/
def MFAAsked (w : World) : Event → Prop
  | .tick _ => True
  | .serve call request => request.setsMFA = false ∧ ∀ user,
      w.state.users.get user.id = some user → request.skipsMFA env call w.state user →
        user.mfaEnabled = false

/-- The codes for users with a second factor were given out to requests that presented a code of
it. -/
def CodesVerified (w : World) : Prop :=
  ∀ code entry user, w.state.codes.get code = some entry →
    w.state.users.get entry.value.userID = some user → user.mfaEnabled →
    ∃ served ∈ w.log, ∃ token, served.reply = .redirect entry.value.userID code token ∧
      PresentsMFACode env served.before served.request entry.value.userID

variable {env} {call : Call} {s : State} {w : World} {request : Request} {user : User}

theorem skipsMFA_of_converts (hrequest : request.converts)
    (huser : anonymousCaller call s = some user) : request.skipsMFA env call s user := by
  cases request with
  | signUp | verifyOTP => exact huser
  | verifyPasskeySignUp input =>
    cases input with
    | none => exact huser
    | some input => exact .inl huser
  | processOAuthCallback => exact .inl huser
  | _ => cases hrequest

/-- The grounds for tokens or a code for a user with a second factor, in a sign-in that asks for
it: a code of the second factor, or an authorization code. -/
theorem Grounds.mfaCode (hmfa : env.config.mfaEnabled)
    (hpolicy : env.config.mfaPolicy = "always") (hlogin : request.isLogin)
    (huser : s.users.get user.id = some user) (henabled : user.mfaEnabled)
    (hasked : ¬request.skipsMFA env call s user) {userID : String} (hid : userID = user.id)
    (h : Grounds env call s request userID) :
    PresentsMFACode env s request user.id ∨ ∃ input payload, request = .issueTokenByCode input ∧
      s.findCode input.code = some payload ∧ payload.userID = user.id := by
  have hsame : ∀ {other : User}, other.id = user.id → s.users.get other.id = some other →
      other = user := fun heq hother => Option.some.inj (hother.symm.trans (heq ▸ huser))
  have hasks : asksForMFA env call user := by
    rw [asksForMFA, henabled, hmfa, shouldTriggerMFA, hpolicy]
    rfl
  -- grounds without a code are ruled out by the policy or the condition
  cases h with
  | created hnew =>
    rw [hid, huser] at hnew
    cases hnew
  | converted hrequest hcaller =>
    cases hsame hid (get_of_anonymousCaller hcaller).1
    exact absurd (skipsMFA_of_converts hrequest hcaller) hasked
  | password hother _ _ _ hnot | oneTimeCode hother _ _ _ hnot =>
    cases hsame hid hother
    rw [hnot] at hasks
    cases hasks
  | resetCode hother haddress hrecipient =>
    cases hsame hid hother
    exact absurd ⟨_, hrecipient, haddress⟩ hasked
  | passkeySignUp hother hchallenge =>
    cases hsame hid hother
    exact absurd (.inr hchallenge) hasked
  | assertion hother hpasskey howner =>
    cases hsame hid hother
    exact absurd ⟨_, hpasskey, howner⟩ hasked
  | cachedSession | storedSession | refreshGrant | enrolment => cases hlogin
  | confirmed hrequest =>
    rw [Request.isLogin_of_confirms hrequest] at hlogin
    cases hlogin
  | secondFactor hother _ hcode | hostedSecondFactor hother _ _ hcode =>
    cases hsame hid hother
    exact .inl ⟨_, _, huser, rfl, hcode⟩
  | hosted hother _ hcode =>
    cases hsame hid hother
    exact .inl ⟨_, _, huser, rfl, hcode henabled⟩
  | identity hother hpayload hinfo hidentity _ hhosted =>
    cases hsame hid hother
    exact absurd (.inr ⟨_, _, hpayload, hhosted hasks, hinfo, .inl hidentity⟩) hasked
  | providerEmail hother hpayload hinfo hemail _ hhosted =>
    cases hsame hid hother
    exact absurd (.inr ⟨_, _, hpayload, hhosted hasks, hinfo, .inr hemail.2⟩) hasked
  | singleSignOn => exact absurd hid hasked
  | authorizationCode hother hcode howner => exact .inr ⟨_, _, rfl, hcode, howner.trans hid⟩

theorem MFAAsked.not_skipsMFA (h : MFAAsked env w (.serve call request))
    (huser : w.state.users.get user.id = some user) (henabled : user.mfaEnabled) :
    ¬request.skipsMFA env call w.state user := by
  intro hskips
  rw [h.2 user huser hskips] at henabled
  cases henabled

/-- A new code for such a user goes to a request with a second factor. -/
theorem CodesVerified.serve (hmfa : env.config.mfaEnabled)
    (hpolicy : env.config.mfaPolicy = "always") (hinv : CodesVerified env w)
    (hasked : MFAAsked env w (.serve call request)) :
    CodesVerified env (w.serve env call request) := by
  intro code entry user hget huser henabled
  have houtcome := serve_outcome env call request w.state
  obtain ⟨old, hold, holdEnabled⟩ := houtcome.mfa_old hasked.1 huser henabled
  have hid : old.id = entry.value.userID := Users.id_of_get hold
  rcases houtcome.code_get hget with hcode | ⟨hauthorizes, token, hreply⟩
  · obtain ⟨served, hmem, hserved⟩ := hinv code entry old hcode hold holdEnabled
    exact ⟨served, List.mem_cons_of_mem _ hmem, hserved⟩
  · -- the code is new, and the request that gets it presents a code of the second factor
    rw [← hid] at hold hreply ⊢
    have hgrounds : Grounds env call w.state request old.id :=
      houtcome.grounds (by rw [hreply]; rfl)
    rcases hgrounds.mfaCode hmfa hpolicy (Request.isLogin_of_authorizes hauthorizes) hold
      holdEnabled (hasked.not_skipsMFA hold holdEnabled) rfl with hpresents | ⟨_, _, rfl, -⟩
    · exact ⟨_, List.mem_cons_self, token, hreply, hpresents⟩
    · cases hauthorizes

/-- As long as the flows that never ask for a second factor sign in users who have none, a sign-in
of a user with a second factor presents an accepted code of it. -/
theorem second_factor_presented (env : Env) {start w : World} {call : Call} {request : Request}
    {user : User} (hmfa : env.config.mfaEnabled) (hpolicy : env.config.mfaPolicy = "always")
    (hstart : CodesVerified env start) (hrun : Runs.Run (World.step env) (MFAAsked env) start w)
    (hasked : MFAAsked env w (.serve call request)) (hlogin : request.isLogin)
    (huser : w.state.users.get user.id = some user) (henabled : user.mfaEnabled)
    (hgranted : (serve env call request w.state).1.grantee = some user.id) :
    SecondFactorPresented env w user.id request := by
  have hinv : CodesVerified env w := World.invariant env hrun hstart
    (fun _ _ _ hinv hasked => hinv.serve hmfa hpolicy hasked) fun _ _ hinv => hinv
  have hgrounds := (serve_outcome env call request w.state).grounds hgranted
  rcases hgrounds.mfaCode hmfa hpolicy hlogin huser henabled (hasked.not_skipsMFA huser henabled)
    rfl with hcode | ⟨input, payload, rfl, hfound, hid⟩
  · exact .now hcode
  · obtain ⟨entry, hget, rfl, -⟩ := get_of_find hfound
    rw [← hid] at huser ⊢
    obtain ⟨served, hmem, token, hreply, hcode⟩ := hinv _ entry user hget huser henabled
    exact .before hmem hreply hcode

/-! ## A sign-in without the second factor -/

/-- A user with a second factor. -/
def protectedUser : User :=
  { UserRow.default with
    email := some "v@x", passwordHash := some "password", encryptedMFASecret := some "secret"
    mfaEnabled := true, id := "v" }

/-- A service with one user that nobody has used yet. -/
def protectedWorld : World where
  state := { State.initial 0 with
    users := (Users.empty.insert "v" protectedUser.toUserRow).getD .empty }
  log := []

/-- The user signs in with the password and is asked for the second factor. -/
def askedWorld : World :=
  protectedWorld.serve sampleEnv (sampleCall "1") (.signIn (some ⟨"v@x", "", "password"⟩))

theorem codesVerified_protectedWorld : CodesVerified sampleEnv protectedWorld := by
  intro code entry user hget
  cases hget

/-- The user with a second factor shows a code of it. -/
theorem protectedUser_signIn :
    SecondFactorPresented sampleEnv askedWorld protectedUser.id
      (.challengeMFA (some ⟨"mfa_tk_t1", "secret"⟩)) := by
  have hasked : MFAAsked sampleEnv askedWorld
      (.serve (sampleCall "2") (.challengeMFA (some ⟨"mfa_tk_t1", "secret"⟩))) :=
    ⟨rfl, fun _ _ h => h.elim⟩
  have huser : askedWorld.state.users.get protectedUser.id = some protectedUser := by
    decide +kernel
  exact second_factor_presented sampleEnv rfl rfl codesVerified_protectedWorld
    (World.run_serve _ .refl ⟨rfl, fun _ _ h => h.elim⟩) hasked rfl huser rfl (by decide +kernel)

/-- The user has a code sent to reset the password. -/
def resetWorld : World :=
  protectedWorld.serve sampleEnv (sampleCall "1") (.requestPasswordReset (some ⟨"v@x", ""⟩))

/-- With second factors enabled and asked for always, the reset of the password signs in a user
who has one without asking for it. -/
theorem reset_skips_second_factor :
    sampleEnv.config.mfaEnabled ∧ sampleEnv.config.mfaPolicy = "always" ∧
    ∃ w : World, Runs.Run (World.step sampleEnv) (fun _ event => event.IsLogin) protectedWorld w ∧
      w.state.users.get protectedUser.id = some protectedUser ∧ protectedUser.mfaEnabled ∧
      ∃ call input,
        (serve sampleEnv call (.confirmPasswordReset (some input)) w.state).1.grantee =
          some protectedUser.id ∧
        ¬SecondFactorPresented sampleEnv w protectedUser.id
          (.confirmPasswordReset (some input)) := by
  refine ⟨rfl, rfl, resetWorld, World.run_serve _ .refl rfl, by decide +kernel, rfl,
    sampleCall "2", ⟨"v@x", "", "c1", "new password"⟩, by decide +kernel, ?_⟩
  intro hpresented
  cases hpresented with
  | now hpresents =>
    obtain ⟨_, _, _, hcode, _⟩ := hpresents
    cases hcode

end Layr.Auth

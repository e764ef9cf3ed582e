import Layr.Auth.History

/-!
# Whose secret a request presents

In runs of the public endpoints of registration, sign-in and refresh, tokens for a registered user
answer a request that presents a secret of this user, except where a ceremony of passkeys names
the user: whoever begins one names any user and gets a session for it at the end.
-/

namespace Layr.Auth

open Go

/-- The requests of the public endpoints of registration, sign-in and refresh. -/
def Request.isPublic : Request → Bool
  | signUp _ | signIn _ | signInAnonymous | requestPasswordReset _ | confirmPasswordReset _
  | sendOTP _ | verifyOTP _ | beginPasskeySignUp _ | verifyPasskeySignUp _ | beginPasskeySignIn
  | verifyPasskeySignIn _ | refreshToken _ => true
  | _ => false

theorem Request.isPublic_of_confirms {request : Request} (h : request.confirms) :
    request.isPublic = false := by
  cases request <;> first | rfl | cases h

/-- Time goes by, or a request comes to a public endpoint. -/
def Event.IsPublic : Event → Prop
  | .tick _ => True
  | .serve _ request => request.isPublic

variable (env : Env)

/-- The passkey was registered by a request that was authenticated as the user. -/
def RegisteredBy (log : List Served) (credentialID userID : String) : Prop :=
  ∃ served ∈ log, ∃ input, served.request = .verifyPasskeySignUp (some input) ∧
    input.credentialID = credentialID ∧ served.call.caller.userID = userID ∧
    served.reply.grantee = some userID

/-- The code was sent to an address of the user. -/
def SentTo (s : State) (user : User) (text : String) : Prop :=
  ∃ recipient code, user.HasAddress recipient ∧ (recipient, code) ∈ s.outbox ∧
    Strings.trimSpace text = Strings.trimSpace code

/-- The secret of a user that a request presents: the password, a one-time code that was sent to
the user's own address, a refresh token of the user, or an accepted assertion for a passkey that
the user has registered. -/
inductive Presents (w : World) (call : Call) (user : User) : Request → Prop
  | password {input : SignInInput} {hash : String} (hhash : user.passwordHash = some hash)
      (hpassword : env.verifyPassword input.password hash) :
      Presents w call user (.signIn (some input))
  | resetCode {input : ConfirmPasswordResetInput} (hcode : SentTo w.state user input.code) :
      Presents w call user (.confirmPasswordReset (some input))
  | oneTimeCode {input : VerifyOTPInput} (hcode : SentTo w.state user input.code) :
      Presents w call user (.verifyOTP (some input))
  | refreshToken {given sessionID : String}
      (hissued : IsIssued w.log ⟨user.id, sessionID, presentedToken call given⟩) :
      Presents w call user (.refreshToken (some given))
  | assertion {input : VerifyPasskeySignInInput} {passkey : Passkey}
      (hpasskey : w.state.selectPasskey input.credentialID = some passkey)
      (hid : passkey.userID = user.id)
      (hsignature : env.verifySignature passkey.publicKey input.clientDataJSON
        input.authenticatorData input.signature)
      (hregistered : RegisteredBy w.log input.credentialID user.id) :
      Presents w call user (.verifyPasskeySignIn (some input))

/-- Sessions were given out to their users, and codes were sent to their recipients. -/
structure Accounted (w : World) : Prop extends SessionsIssued env w where
  otps : ∀ id otp, w.state.otps.get id = some otp →
    ∃ code, (otp.recipient, code) ∈ w.state.outbox ∧ otp.codeHash = env.hashCode code

/-- What the events of a run meet: ceremonies of passkeys register passkeys of anonymous or new
users only, and sign-ins with passkeys have a signature and use passkeys that were registered by
their users. -/
def PasskeysOwned (w : World) : Event → Prop
  | .tick _ => True
  | .serve _ request => request.isPublic ∧
    match request with
    | .verifyPasskeySignUp (some input) => ∀ user,
      (w.state.consumeChallenge input.challenge).1 = some user.id →
      w.state.users.get user.id = some user → user.isAnonymous
    | .verifyPasskeySignIn (some input) => input.signature ≠ "" ∧ ∀ passkey,
      w.state.selectPasskey input.credentialID = some passkey →
      RegisteredBy w.log input.credentialID passkey.userID
    | _ => True

variable {env} {w : World} {call : Call} {request : Request} {user : User}

/-- A row of a code is from before or holds the code that is sent. -/
theorem Accounted.serve (hinv : Accounted env w) (call : Call) (request : Request) :
    Accounted env (w.serve env call request) where
  toSessionsIssued := hinv.toSessionsIssued.serve env call request
  otps id otp hget := by
    have houtcome := serve_outcome env call request w.state
    rcases houtcome.otp_get hget with ⟨old, hold, hrecipient, hhash⟩ | ⟨hsent, hhash⟩
    · obtain ⟨code, hsent, hcode⟩ := hinv.otps id old hold
      exact ⟨code, hrecipient ▸ houtcome.outbox hsent, hhash.trans hcode⟩
    · exact ⟨call.newCode, hsent, hhash⟩

theorem Accounted.of_run {allowed : World → Event → Prop} {start : World}
    (hstart : Accounted env start) (hrun : Runs.Run (World.step env) allowed start w) :
    Accounted env w :=
  World.invariant env hrun hstart (fun _ call request hinv _ => hinv.serve call request)
    fun _ _ hinv => ⟨⟨hinv.sessions, hinv.cache⟩, hinv.otps⟩

/-- A code that is accepted was sent. -/
theorem Accounted.sentTo (hinv : Accounted env w) {recipient text : String}
    (haddress : user.HasAddress recipient) (hcode : w.state.HasCode env recipient text) :
    SentTo w.state user text := by
  obtain ⟨id, otp, hget, rfl, hverify⟩ := hcode
  obtain ⟨code, hsent, hhash⟩ := hinv.otps id otp hget
  have heq : env.hashCode text = env.hashCode code := (of_decide_eq_true hverify).trans hhash
  exact ⟨otp.recipient, code, haddress, hsent, env.digest.injective heq⟩

/-- The grounds for tokens of a registered user are a secret of the user. -/
theorem Accounted.presents (hinv : Accounted env w)
    (hallowed : PasskeysOwned w (.serve call request))
    (huser : w.state.users.get user.id = some user) (hregistered : user.isAnonymous = false)
    {userID : String} (hid : userID = user.id)
    (hgrounds : Grounds env call w.state request userID) : Presents env w call user request := by
  -- the user of the grounds is the user
  have hsame : ∀ {other : User}, other.id = user.id → w.state.users.get other.id = some other →
      other = user := fun heq hother => Option.some.inj (hother.symm.trans (heq ▸ huser))
  obtain ⟨hpublic, hallowed⟩ := hallowed
  cases hgrounds with
  | created hnew =>
    rw [hid, huser] at hnew
    cases hnew
  | converted _ hcaller =>
    cases hsame hid (get_of_anonymousCaller hcaller).1
    have hanonymous := (Option.filter_eq_some_iff.mp hcaller).2
    rw [hregistered, Bool.and_false] at hanonymous
    cases hanonymous
  | password hother hhash hpassword =>
    cases hsame hid hother
    exact .password hhash hpassword
  | resetCode hother haddress _ hcode =>
    cases hsame hid hother
    exact .resetCode (hinv.sentTo haddress hcode)
  | oneTimeCode hother haddress hcode =>
    cases hsame hid hother
    exact .oneTimeCode (hinv.sentTo haddress hcode)
  | passkeySignUp hother hchallenge =>
    cases hsame hid hother
    rw [hallowed _ hchallenge hother] at hregistered
    cases hregistered
  | assertion hother hpasskey howner hsignature =>
    cases hsame hid hother
    exact .assertion hpasskey howner (hsignature hallowed.1)
      (howner ▸ hallowed.2 _ hpasskey)
  | cachedSession _ hcached =>
    obtain ⟨entry, hget, rfl, -⟩ := get_of_find hcached
    obtain ⟨sessionID, token, hissued, hhash⟩ := hinv.cache _ entry hget
    rw [hid, ← env.digest.injective hhash] at hissued
    exact .refreshToken hissued
  | storedSession hsession howner =>
    obtain ⟨hget, hhash⟩ := get_of_selectSession hsession
    obtain ⟨token, hissued, hissuedHash⟩ := hinv.sessions _ _ hget
    rw [howner, hid, ← env.digest.injective (hhash.symm.trans hissuedHash)] at hissued
    exact .refreshToken hissued
  | secondFactor | enrolment | identity | providerEmail | singleSignOn | hostedSecondFactor
  | hosted | authorizationCode | refreshGrant => cases hpublic
  | confirmed hrequest =>
    rw [Request.isPublic_of_confirms hrequest] at hpublic
    cases hpublic

/-- As long as passkeys belong to those who register them, tokens for a registered user answer a
request that presents a secret of this user. -/
theorem secret_presented (env : Env) {start w : World} {call : Call} {request : Request}
    {user : User} (hstart : Accounted env start)
    (hrun : Runs.Run (World.step env) PasskeysOwned start w)
    (hallowed : PasskeysOwned w (.serve call request))
    (huser : w.state.users.get user.id = some user) (hregistered : user.isAnonymous = false)
    (hgranted : (serve env call request w.state).1.grantee = some user.id) :
    Presents env w call user request :=
  (hstart.of_run hrun).presents hallowed huser hregistered rfl
    ((serve_outcome env call request w.state).grounds hgranted)

/-! ## A takeover -/

theorem accounted_sampleWorld : Accounted sampleEnv sampleWorld where
  sessions _ _ h := by cases h
  cache _ _ h := by cases h
  otps _ _ h := by cases h

/-- The service after somebody has registered and a sign-in has failed. -/
def joinedWorld : World :=
  (sampleWorld.serve sampleEnv (sampleCall "1") (.signUp (some ⟨"w@x", "", "secret word"⟩))).serve
    sampleEnv (sampleCall "2") (.signIn (some ⟨"w@x", "", "password"⟩))

/-- The user who has registered signs in with the password. -/
theorem registered_signIn :
    ∃ user, joinedWorld.state.users.get "u1" = some user ∧ user.email = some "w@x" ∧
      Presents sampleEnv joinedWorld (sampleCall "3") user
        (.signIn (some ⟨"w@x", "", "secret word"⟩)) := by
  have hrun : Runs.Run (World.step sampleEnv) PasskeysOwned sampleWorld joinedWorld :=
    World.run_serve _ (World.run_serve _ .refl ⟨rfl, trivial⟩) ⟨rfl, trivial⟩
  obtain ⟨user, huser⟩ := Option.isSome_iff_exists.mp
    (show (joinedWorld.state.users.get "u1").isSome = true by decide +kernel)
  have hrow : (joinedWorld.state.users.get "u1").map (fun user =>
      (user.id, user.email, user.isAnonymous)) = some ("u1", some "w@x", false) := by
    decide +kernel
  simp only [huser, Option.map_some, Option.some.injEq, Prod.mk.injEq] at hrow
  obtain ⟨hid, hemail, hregistered⟩ := hrow
  refine ⟨user, huser, hemail, secret_presented sampleEnv accounted_sampleWorld hrun
    ⟨rfl, trivial⟩ (hid.symm ▸ huser) hregistered ?_⟩
  rw [hid]
  decide +kernel

/-- What somebody sends who has a ceremony of passkeys begun for the registered user. -/
def takeover : VerifyPasskeySignUpInput := ⟨"h1", "credential", "key"⟩

/-- The service after a ceremony of passkeys was begun for the registered user. -/
def takenWorld : World :=
  sampleWorld.serve sampleEnv (sampleCall "1") (.beginPasskeySignUp (some "v"))

/-- Somebody who is not signed in and knows nothing but the id of a registered user gets tokens for
this user in two requests. -/
theorem passkey_takeover :
    ∃ w : World, Runs.Run (World.step sampleEnv) (fun _ event => event.IsPublic) sampleWorld w ∧
      w.state.users.get sampleUser.id = some sampleUser ∧ sampleUser.isAnonymous = false ∧
      ∃ call : Call, call.caller.userID = "" ∧
        (serve sampleEnv call (.verifyPasskeySignUp (some takeover)) w.state).1.grantee =
          some sampleUser.id ∧
        ¬Presents sampleEnv w call sampleUser (.verifyPasskeySignUp (some takeover)) :=
  ⟨takenWorld, World.run_serve _ .refl rfl, by decide +kernel, rfl, sampleCall "2", rfl,
    by decide +kernel, fun hpresents => by cases hpresents⟩

end Layr.Auth

import Layr.Auth.Outcomes

/-!
# The outcome of every handler

Each handler, whatever it is asked, has one of the outcomes of its request. A handler that has not
yet changed anything that matters refuses by the rules for its checks.
-/

namespace Layr.Auth

open Go Prog

variable {env : Env} {call : Call} {s : State} {request : Request}

variable {f : State → UserRow → UserRow} {id recipient : String} {user : User}

/-! ## Checks -/

namespace Quiet

variable {α : Type} {s₁ : State} {r : Reply} {c : Prop} [Decidable c] {o : Option α}
  {Q : α → State → Prop} {Q' : Unit → State → Prop} (hs : Quiet s s₁)

include hs

theorem ensure (hr : r.grantee = none) (h : c → Q' () s₁) :
    (Prog.ensure c r : Act Unit).wp Q' (Outcome env call s request) s₁ :=
  (wp_ensure c r).mpr ⟨h, fun _ => .refused hr hs⟩

/-- A check whose result does not matter for what follows. -/
theorem check (hr : r.grantee = none) (h : Q' () s₁) :
    (Prog.ensure c r : Act Unit).wp Q' (Outcome env call s request) s₁ :=
  hs.ensure hr fun _ => h

theorem require (hr : r.grantee = none) (h : ∀ a, o = some a → Q a s₁) :
    (Prog.require o r : Act α).wp Q (Outcome env call s request) s₁ :=
  (wp_require o r).mpr ⟨fun _ => .refused hr hs, h⟩

theorem checkCaptcha (h : Q' () s₁) :
    (checkCaptcha call).wp Q' (Outcome env call s request) s₁ :=
  (wp_checkCaptcha call).mpr ⟨fun _ => h, fun _ _ => .refused rfl hs⟩

theorem checkPasswordBreach (h : Q' () s₁) :
    (checkPasswordBreach call).wp Q' (Outcome env call s request) s₁ := by
  simp only [Auth.checkPasswordBreach, wp_elim, wp_pure, wp_reply]
  exact ⟨fun _ => h, fun _ _ => .refused rfl hs⟩

theorem requireScope (h : Q' () s₁) :
    (requireScope call).wp Q' (Outcome env call s request) s₁ :=
  (wp_requireScope call).mpr ⟨fun _ => h, fun _ _ => .refused rfl hs⟩

theorem ensureUnlocked (hr : r.grantee = none)
    (h : user.isLocked s₁.now = false → Q' () s₁) :
    (ensureUnlocked user r).wp Q' (Outcome env call s request) s₁ :=
  (wp_ensureUnlocked user r).mpr ⟨h, fun _ => .refused hr hs⟩

theorem checkMFACode {code : String} {notSetUp failed invalid : Reply}
    (hnotSetUp : notSetUp.grantee = none) (hfailed : failed.grantee = none)
    (hinvalid : invalid.grantee = none) (h : env.acceptsCode user code s₁.now → Q' () s₁) :
    (checkMFACode env user code notSetUp failed invalid).wp Q' (Outcome env call s request)
      s₁ := by
  simp only [Auth.checkMFACode, wp_bind, wp_query, wp_require, wp_ensure]
  refine ⟨fun _ => .refused hnotSetUp hs, fun secret hsecret => ⟨fun _ => .refused hfailed hs,
    fun key hkey => ⟨fun haccepted => h ?_, fun _ => .refused hinvalid hs⟩⟩⟩
  rw [Env.acceptsCode, hsecret, Option.bind_some, hkey]
  exact haccepted

theorem completeSignInFlow {Q : Empty → State → Prop}
    (h : asksForMFA env call user = false →
      Outcome env call s request (newTokens call user) (s₁.opened env call user)) :
    (completeSignInFlow env call user).wp Q (Outcome env call s request) s₁ :=
  (wp_completeSignInFlow env call user).mpr
    ⟨fun _ => .refused rfl (hs.trans (.same rfl)), h⟩

end Quiet

/-! ## Users and codes that are looked up -/

theorem isSome_of_get {users : Users} (h : users.get id = some user) :
    id ≠ "" → (users.get id).isSome := by
  intro _
  rw [h]
  rfl

theorem get_of_selectUserByRecipient (h : s.selectUserByRecipient recipient = some user) :
    s.users.get user.id = some user ∧ user.HasAddress recipient := by
  obtain ⟨hget, hp⟩ := Users.find_eq_some h
  exact ⟨hget, by simpa [UserRow.HasAddress] using hp⟩

theorem get_of_anonymousCaller (h : anonymousCaller call s = some user) :
    s.users.get user.id = some user ∧ call.caller.userID = user.id := by
  have hget := (Option.filter_eq_some_iff.mp h).1
  have hid : user.id = call.caller.userID := Users.id_of_get hget
  exact ⟨hid ▸ hget, hid.symm⟩

theorem hasAddress_of_isReachedAt {email : Bool} {row : UserRow}
    (h : row.isReachedAt email recipient) : row.HasAddress recipient := by
  cases email with
  | false => exact .inr (by simpa [UserRow.isReachedAt] using h)
  | true => exact .inl (by simpa [UserRow.isReachedAt] using h)

theorem hasCode_of_selectLiveOTP {purpose text : String} {otp : String × Otp}
    (h : s.selectLiveOTP recipient purpose = some otp)
    (hcode : env.verifyCode text otp.2.codeHash) : s.HasCode env recipient text := by
  have hmatches := List.find?_some h
  simp only [Bool.and_eq_true, decide_eq_true_eq] at hmatches
  exact ⟨otp.1, otp.2, Table.get_eq_some_iff.mpr (List.mem_of_find?_eq_some h), hmatches.1.1, hcode⟩

theorem keeps_stillVerifiedAt (email : Bool) (now : ℤ) :
    Users.Kept.Keeps (UserRow.stillVerifiedAt email now) := by
  intro row
  cases email <;> exact ⟨rfl, rfl, rfl⟩

theorem keeps_verifiedAt (email : Bool) (recipient : String) (now : ℤ) :
    Users.Kept.Keeps (UserRow.verifiedAt email recipient now) := by
  intro row
  cases email <;> exact ⟨rfl, rfl, rfl⟩

theorem keeps_convertedAt (email : Bool) (recipient : String) (now : ℤ) :
    Users.Kept.Keeps fun row => { row.verifiedAt email recipient now with isAnonymous := false } :=
  keeps_verifiedAt email recipient now

namespace Quiet

variable {s₁ : State} {row : State → UserRow} {r : Reply} (hs : Quiet s s₁)

include hs

/-- The statement that finds a user or registers one. -/
theorem upserted {p : UserRow → Bool} {Q : Option (User × Bool) → State → Prop}
    (hlock : (row s₁).lockedUntil = none) (hmfa : (row s₁).mfaEnabled = false)
    (hf : Users.Kept.Keeps (f s₁)) (hfailed : ∀ s₂, Quiet s s₂ → Q none s₂)
    (hnew : ∀ s₂ user, Quiet s s₂ → s₁.users.get user.id = none →
      s₂.users.get user.id = some user → Q (some (user, true)) s₂)
    (hold : ∀ s₂ user old, Quiet s s₂ → s₂.oidcStates = s₁.oidcStates →
      s₁.users.get old.id = some old → p old.toUserRow →
      user = ⟨f s₁ old.toUserRow, old.id⟩ → s₂.users.get user.id = some user →
      Q (some (user, false)) s₂) :
    (stmt fun s => s.upsertUser p id (row s) (f s) : Act (Option (User × Bool))).wp Q
      (Outcome env call s request) s₁ := by
  have hs₂ := hs.trans (.upsertUser s₁ p id hlock hmfa hf)
  rw [wp_stmt]
  rcases hupserted : (s₁.upsertUser p id (row s₁) (f s₁)).1 with _ | ⟨user, isNew⟩
  · exact hfailed _ hs₂
  · obtain ⟨hget, ⟨rfl, -, hnone⟩ | ⟨rfl, old, hfound, hp, huser⟩⟩ := upsertUser_eq_some hupserted
    · exact hnew _ user hs₂ hnone hget
    · exact hold _ user old hs₂ rfl hfound hp huser hget

/-- The user of a recipient is found, with its lock checked and its second factor as it was, or is
new. -/
theorem upsertRecipient {email : Bool} {Q : User → State → Prop} (hr : r.grantee = none)
    (husers : s₁.users = s.users)
    (hnew : ∀ s₂ user, Quiet s s₂ → s.users.get user.id = none →
      (user.id ≠ "" → (s₂.users.get user.id).isSome) → Q user s₂)
    (hold : ∀ s₂ user old, Quiet s s₂ → s.users.get old.id = some old →
      old.HasAddress recipient → user.id = old.id → old.isLocked s.now = false →
      user.mfaEnabled = old.mfaEnabled →
      (user.id ≠ "" → (s₂.users.get user.id).isSome) → Q user s₂) :
    (upsertRecipient call email recipient).wp
      (fun upserted s' =>
        ((upserted.map Prod.snd).getD false = false →
          (Layr.Auth.ensureUnlocked ((upserted.map Prod.fst).getD User.zero) r).wp
            (fun _ s' => Q ((upserted.map Prod.fst).getD User.zero) s')
            (Outcome env call s request) s') ∧
        (¬(upserted.map Prod.snd).getD false = false →
          Q ((upserted.map Prod.fst).getD User.zero) s'))
      (Outcome env call s request) s₁ := by
  have hdefault := keeps_verifiedAt email recipient s₁.now UserRow.default
  unfold Layr.Auth.upsertRecipient
  refine hs.upserted hdefault.1 hdefault.2.1 (keeps_stillVerifiedAt email s₁.now) ?_ ?_ ?_
  · -- the statement has failed, and the user is that of an unset variable
    intro s₂ hs₂
    have hzero := hnew s₂ User.zero hs₂ (Users.get_empty_id _) fun h => absurd rfl h
    exact ⟨fun _ => hs₂.ensureUnlocked hr fun _ => hzero, fun _ => hzero⟩
  · intro s₂ user hs₂ hnone hget
    exact ⟨nofun, fun _ => hnew s₂ user hs₂ (husers ▸ hnone) (isSome_of_get hget)⟩
  · intro s₂ user old hs₂ _ hfound hreached huser hget
    have hkept := keeps_stillVerifiedAt email s₁.now old.toUserRow
    refine ⟨fun _ => hs₂.ensureUnlocked hr fun hlock => ?_, fun h => absurd rfl h⟩
    have hlocked : user.isLocked s₂.now = old.isLocked s.now := by
      rw [huser, UserRow.isLocked, UserRow.isLocked, hkept.1, hs₂.now]
    exact hold s₂ user old hs₂ (husers ▸ hfound) (hasAddress_of_isReachedAt hreached)
      (huser ▸ rfl) (hlocked ▸ hlock) (huser ▸ hkept.2.1) (isSome_of_get hget)

/-- The statement that updates a user, when it keeps the lock and the second factor. -/
theorem updated {Q : Option User → State → Prop} (hf : Users.Kept.Keeps (f s₁))
    (hfailed : ∀ s₂, Quiet s s₂ → Q none s₂)
    (h : ∀ s₂ user, Quiet s s₂ → user.id = id → s₂.users.get user.id = some user →
      Q (some user) s₂) :
    (stmt fun s => s.updateUser id (f s) : Act (Option User)).wp Q
      (Outcome env call s request) s₁ := by
  have hs₂ := hs.trans (.updateUser s₁ id hf)
  rw [wp_stmt]
  rcases hupdated : (s₁.updateUser id (f s₁)).1 with _ | user
  · exact hfailed _ hs₂
  · obtain ⟨old, -, rfl, hget⟩ := updateUser_eq_some hupdated
    exact h _ _ hs₂ rfl hget

theorem requireUpdated {Q : User → State → Prop} (hr : r.grantee = none)
    (hf : Users.Kept.Keeps (f s₁))
    (h : ∀ s₂ user old, Quiet s s₂ → s₁.users.get id = some old → user.id = id →
      s₂.users.get user.id = some user → Q user s₂) :
    (stmt fun s => s.updateUser id (f s) : Act (Option User)).wp
      (fun user s' => (Prog.require user r : Act User).wp Q (Outcome env call s request) s')
      (Outcome env call s request) s₁ := by
  have hs₂ := hs.trans (.updateUser s₁ id hf)
  rw [wp_stmt]
  refine hs₂.require hr fun user hupdated => ?_
  obtain ⟨old, hold, rfl, hget⟩ := updateUser_eq_some hupdated
  exact h _ _ old hs₂ hold rfl hget

/-- The statement that registers a user. -/
theorem requireInserted {Q : User → State → Prop} (hr : r.grantee = none)
    (husers : s₁.users = s.users) (hlock : (row s₁).lockedUntil = none)
    (hmfa : (row s₁).mfaEnabled = false)
    (h : ∀ s₂ user, Quiet s s₂ → s.users.get user.id = none →
      s₂.users.get user.id = some user → Q user s₂) :
    (stmt fun s => s.insertUser id (row s) : Act (Option User)).wp
      (fun user s' => (Prog.require user r : Act User).wp Q (Outcome env call s request) s')
      (Outcome env call s request) s₁ := by
  have hs₂ := hs.trans (.insertUser s₁ id hlock hmfa)
  rw [wp_stmt]
  refine hs₂.require hr fun user hinserted => ?_
  obtain ⟨rfl, hnone, hget⟩ := insertUser_eq_some hinserted
  exact h _ _ hs₂ (husers ▸ hnone) hget

end Quiet

/-- A session for nobody, where the error of a statement was not looked at. -/
theorem Outcome.opened_zero {s₁ : State} (hs : Quiet s s₁) :
    Outcome env call s request (newTokens call User.zero) (s₁.opened env call User.zero) :=
  .opened hs (.created (Users.get_empty_id _)) fun h => absurd rfl h

/-! ## Passwords and one-time codes -/

/-- A handler comes to one of the outcomes of its request, from a state in which nothing has
happened. -/
def Settled (env : Env) (call : Call) (request : Request) (handler : Handler) : Prop :=
  ∀ {Q : Empty → State → Prop} {s : State}, Quiet s s →
    handler.wp Q (Outcome env call s request) s

variable {Q : Empty → State → Prop}

theorem signUp_settled (input : Option SignUpInput) :
    Settled env call (.signUp input) (handleSignUp env call input) := by
  intro _ _ hs
  simp only [handleSignUp, convertBySignUp, wp_bind, wp_query, wp_elim,
    wp_resolveAnonymousCaller, wp_issueSessionResponse]
  refine hs.check rfl <| hs.require rfl fun input _ => hs.require rfl fun phone _ => hs.check rfl <|
    hs.check rfl <| hs.checkCaptcha <| hs.checkPasswordBreach ⟨fun _ => ?_,
    fun anonymousUser hcaller => hs.check rfl <| ?_⟩
  · exact hs.requireInserted rfl rfl rfl rfl fun s₂ user hs₂ hnone hget =>
      .opened hs₂ (.created hnone) (isSome_of_get hget)
  · exact hs.requireUpdated rfl (fun _ => ⟨rfl, rfl, rfl⟩) fun s₂ user _ hs₂ _ hid hget =>
      .opened hs₂ (hid ▸ .converted rfl hcaller) (isSome_of_get hget)

theorem signIn_settled (input : Option SignInInput) :
    Settled env call (.signIn input) (handleSignIn env call input) := by
  intro _ _ hs
  simp only [handleSignIn, wp_bind, wp_query]
  refine hs.require rfl fun input hinput => hs.require rfl fun identifier _ => hs.check rfl <|
    hs.checkCaptcha <| hs.check rfl <| hs.require rfl fun user huser =>
    hs.ensureUnlocked rfl fun hlock => hs.ensure rfl fun hpassword =>
    hs.completeSignInFlow fun hmfa => ?_
  subst hinput
  obtain ⟨hget, -⟩ := get_of_selectUserByRecipient (Option.filter_eq_some_iff.mp huser).1
  rcases hhash : user.passwordHash with _ | hash
  · rw [hhash] at hpassword
    cases hpassword
  · rw [hhash, Option.any_some] at hpassword
    exact .opened hs (.password hget hhash hpassword hlock hmfa) (isSome_of_get hget)

theorem signInAnonymous_settled :
    Settled env call .signInAnonymous (handleSignInAnonymous env call) := by
  intro _ _ hs
  simp only [handleSignInAnonymous, wp_bind, wp_issueSessionResponse]
  exact hs.check rfl <| hs.requireInserted rfl rfl rfl rfl fun s₂ user hs₂ hnone hget =>
    .opened hs₂ (.created hnone) (isSome_of_get hget)

theorem requestPasswordReset_settled (input : Option RequestPasswordResetInput) :
    Settled env call (.requestPasswordReset input) (handleRequestPasswordReset env call input) := by
  intro _ _ hs
  simp only [handleRequestPasswordReset, wp_bind, wp_query, wp_dispatchCode, wp_reply]
  exact hs.check rfl <| hs.require rfl fun input _ => hs.check rfl <| hs.checkCaptcha <|
    hs.check rfl <| hs.require rfl fun recipient _ => hs.check rfl <| hs.check rfl <|
    hs.require rfl fun _ _ => .dispatched _ _ _ rfl

theorem confirmPasswordReset_settled (input : Option ConfirmPasswordResetInput) :
    Settled env call (.confirmPasswordReset input) (handleConfirmPasswordReset env call input) := by
  intro _ s hs
  simp only [handleConfirmPasswordReset, wp_bind, wp_query, wp_change, wp_stmt, wp_reply,
    wp_ite, wp_issueSessionResponse]
  refine hs.check rfl <| hs.require rfl fun input hinput => hs.check rfl <|
    hs.require rfl fun recipient hrecipient => hs.check rfl <| hs.checkPasswordBreach <|
    hs.require rfl fun otp hotp => ⟨fun _ => .refused rfl (.deleteOTP s _), fun _ => ⟨fun _ =>
    .refused rfl (.countAttempt s _), fun hcode => ?_⟩⟩
  subst hinput
  have hs₁ := (Quiet.deleteOTP s otp.1).trans (.updateUsersWhere _
    (fun row => row.email = some recipient || row.phone = some recipient)
    (f := fun row => { row with passwordHash := some (env.hashPassword input.password) })
    fun _ => ⟨rfl, rfl, rfl⟩)
  refine hs₁.require rfl fun user hupdated => hs₁.ensureUnlocked rfl fun hlock => ?_
  obtain ⟨old, hold, hp, rfl, hget⟩ := updateUsersWhere_eq_some hupdated
  have hgrounds : Grounds env call s (.confirmPasswordReset (some input)) old.id :=
    .resetCode hold (by simpa [UserRow.HasAddress] using hp) hrecipient
      (hasCode_of_selectLiveOTP hotp (by simpa using hcode)) hlock
  exact .opened hs₁ hgrounds (isSome_of_get hget)

theorem sendOTP_settled (input : Option SendOTPInput) :
    Settled env call (.sendOTP input) (handleSendOTP env call input) := by
  intro _ _ hs
  simp only [handleSendOTP, wp_bind, wp_dispatchCode, wp_reply]
  exact hs.check rfl <| hs.require rfl fun input _ => hs.checkCaptcha <| hs.check rfl <|
    hs.check rfl <| hs.require rfl fun recipient _ => hs.check rfl <| hs.check rfl <|
    .dispatched _ _ _ rfl

theorem verifyOTP_settled (input : Option VerifyOTPInput) :
    Settled env call (.verifyOTP input) (handleVerifyOTP env call input) := by
  intro Q s hs
  simp only [handleVerifyOTP, convertByOTP, wp_bind, wp_query, wp_change, wp_reply, wp_ite,
    wp_elim, wp_resolveAnonymousCaller, wp_issueSessionResponse]
  refine hs.check rfl <| hs.require rfl fun input hinput => hs.checkCaptcha <| hs.check rfl <|
    hs.require rfl fun recipient _ => hs.require rfl fun otp hotp => ⟨fun _ =>
    .refused rfl (.countAttempt s _), fun hcode => ?_⟩
  obtain ⟨rfl, -⟩ := Option.filter_eq_some_iff.mp hinput
  have hs₁ := Quiet.deleteOTP s otp.1
  refine ⟨fun _ => hs₁.upsertRecipient (Q := fun user =>
    (completeSignInFlow env call user).wp Q (Outcome env call s _)) rfl rfl ?_ ?_,
    fun anonymousUser hcaller => hs₁.check rfl ?_⟩
  · intro s₂ user hs₂ hnone hsome
    exact hs₂.completeSignInFlow fun _ => .opened hs₂ (.created hnone) hsome
  · intro s₂ user old hs₂ hold haddress hid hlock hmfa hsome
    refine hs₂.completeSignInFlow fun hasks => .opened hs₂ (hid ▸ ?_) hsome
    refine .oneTimeCode hold haddress ?_ hlock ?_
    · exact hasCode_of_selectLiveOTP hotp (by simpa using hcode)
    · rwa [asksForMFA, hmfa] at hasks
  · exact hs₁.updated (keeps_convertedAt _ _ _) (fun s₂ hs₂ => .opened_zero hs₂)
      fun s₂ user hs₂ hid hget => .opened hs₂ (hid ▸ .converted rfl hcaller) (isSome_of_get hget)

/-! ## Passkeys -/

theorem beginPasskeySignUp_settled (userID : Option String) :
    Settled env call (.beginPasskeySignUp userID) (handleBeginPasskeySignUp env call userID) := by
  intro _ _ hs
  simp only [handleBeginPasskeySignUp, wp_bind, wp_change, wp_reply]
  exact hs.check rfl <| hs.require rfl fun given _ => hs.check rfl <| .refused rfl (.same rfl)

/-- A passkey is stored and its user gets a session. -/
theorem Quiet.registerPasskey {s₁ : State} {input : VerifyPasskeySignUpInput} {o : Option User}
    (hs : Quiet s s₁)
    (h : ∀ user, o = some user →
      Grounds env call s request user.id ∧ s₁.users.get user.id = some user) :
    (registerPasskey env call input o).wp Q (Outcome env call s request) s₁ := by
  simp only [Layr.Auth.registerPasskey, wp_bind, wp_stmt, wp_issueSessionResponse]
  refine hs.require rfl fun user huser => ?_
  have hs₂ : Quiet s (s₁.insertPasskey input.credentialID ⟨user.id, input.publicKey⟩).2 :=
    hs.trans (.same rfl)
  exact hs₂.check rfl <| .opened hs₂ (h user huser).1 (isSome_of_get (h user huser).2)

theorem verifyPasskeySignUp_settled (input : Option VerifyPasskeySignUpInput) :
    Settled env call (.verifyPasskeySignUp input) (handleVerifyPasskeySignUp env call input) := by
  intro _ s hs
  simp only [handleVerifyPasskeySignUp, wp_bind, wp_stmt, wp_elim,
    wp_resolveAnonymousCaller]
  refine hs.check rfl <| hs.require rfl fun input hinput => ?_
  subst hinput
  have hs₁ : Quiet s (s.consumeChallenge input.challenge).2 := .same rfl
  refine hs₁.require rfl fun expectedUserID hexpected => hs₁.check rfl ⟨fun _ => ?_,
    fun anonymousUser hcaller => ?_⟩
  · refine Quiet.registerPasskey (hs₁.trans (.upsertUserByID _ _ _ rfl rfl)) fun user huser => ?_
    obtain ⟨rfl, hget, hold | hnone⟩ := upsertUserByID_eq_some huser
    · exact ⟨.passkeySignUp hold (Option.filter_eq_some_iff.mp hexpected).1, hget⟩
    · exact ⟨.created hnone, hget⟩
  · refine Quiet.registerPasskey (hs₁.trans (.updateUser _ _ fun _ => ⟨rfl, rfl, rfl⟩))
      fun user huser => ?_
    obtain ⟨old, -, rfl, hget⟩ := updateUser_eq_some huser
    have hgrounds : Grounds env call s (.verifyPasskeySignUp (some input)) anonymousUser.id :=
      .converted rfl hcaller
    exact ⟨hgrounds, hget⟩

theorem beginPasskeySignIn_settled :
    Settled env call .beginPasskeySignIn (handleBeginPasskeySignIn env call) := by
  intro _ _ hs
  simp only [handleBeginPasskeySignIn, wp_bind, wp_change, wp_reply]
  exact hs.check rfl <| .refused rfl (.same rfl)

theorem verifyPasskeySignIn_settled (input : Option VerifyPasskeySignInInput) :
    Settled env call (.verifyPasskeySignIn input) (handleVerifyPasskeySignIn env call input) := by
  intro _ s hs
  simp only [handleVerifyPasskeySignIn, wp_bind, wp_stmt, wp_query,
    wp_issueSessionResponse]
  refine hs.check rfl <| hs.require rfl fun input hinput => ?_
  subst hinput
  have hs₁ : Quiet s (s.consumeChallenge input.challenge).2 := .same rfl
  refine hs₁.require rfl fun _ _ => hs₁.require rfl fun passkey hpasskey =>
    hs₁.ensure rfl fun hsignature => hs₁.require rfl fun user huser =>
    hs₁.ensureUnlocked rfl fun hlock => ?_
  have hid : user.id = passkey.userID := Users.id_of_get huser
  have hget : s.users.get user.id = some user := hid ▸ huser
  exact .opened hs₁ (.assertion hget hpasskey hid.symm hsignature.resolve_left hlock)
    (isSome_of_get hget)

/-! ## Second factors -/

theorem isSome_updateUser {f : UserRow → UserRow} (h : s.users.get id = some user) :
    ((s.updateUser id f).2.users.get id).isSome := by
  unfold State.updateUser
  rcases hupdate : s.users.update id f with _ | users
  · exact Option.isSome_iff_exists.mpr ⟨user, h⟩
  · obtain ⟨old, -, hget⟩ := Users.update_eq_some hupdate
    exact Option.isSome_iff_exists.mpr ⟨_, (hget id).trans (if_pos rfl)⟩

theorem setupMFA_settled : Settled env call .setupMFA (handleSetupMFA env call) := by
  intro _ _ hs
  simp only [handleSetupMFA, wp_bind, wp_query, wp_stmt, wp_reply]
  refine hs.check rfl <| hs.check rfl <| hs.require rfl fun user huser =>
    hs.ensureUnlocked rfl fun _ => ?_
  rw [Users.id_of_get huser]
  exact .mfaSet rfl rfl fun _ => rfl

theorem disableMFA_settled : Settled env call .disableMFA (handleDisableMFA env call) := by
  intro _ _ hs
  simp only [handleDisableMFA, wp_bind, wp_query, wp_stmt, wp_reply]
  refine hs.check rfl <| hs.check rfl <| hs.require rfl fun user huser =>
    hs.ensureUnlocked rfl fun _ => ?_
  rw [Users.id_of_get huser]
  exact .mfaSet rfl rfl fun _ => rfl

theorem verifyMFA_settled (code : String) :
    Settled env call (.verifyMFA code) (handleVerifyMFA env call code) := by
  intro _ s hs
  simp only [handleVerifyMFA, wp_bind, wp_query, wp_stmt, wp_issueSessionResponse]
  refine hs.check rfl <| hs.check rfl <| hs.check rfl <| hs.require rfl fun user huser =>
    hs.ensureUnlocked rfl fun hlock => hs.checkMFACode rfl rfl rfl fun _ => ?_
  have hget : s.users.get user.id = some user := by rwa [Users.id_of_get huser]
  have hgrounds : Grounds env call s (.verifyMFA code) user.id := .enrolment hget hlock
  exact .enrolled rfl (fun _ => rfl) hgrounds (isSome_updateUser hget)

theorem challengeMFA_settled (input : Option ChallengeMFAInput) :
    Settled env call (.challengeMFA input) (handleChallengeMFA env call input) := by
  intro _ s hs
  simp only [handleChallengeMFA, wp_bind, wp_look, wp_query, wp_change,
    wp_issueSessionResponse]
  refine hs.check rfl <| hs.require rfl fun input hinput => hs.check rfl <|
    hs.require rfl fun userID _ => ?_
  subst hinput
  have hs₁ : Quiet s (s.deleteTicket (Strings.trimSpace input.mfaTicket)) := .same rfl
  refine hs₁.require rfl fun user huser => hs₁.ensureUnlocked rfl fun hlock =>
    hs₁.checkMFACode rfl rfl rfl fun hcode => ?_
  obtain rfl : user.id = userID := Users.id_of_get huser
  exact .opened hs₁ (.secondFactor huser hlock hcode) (isSome_of_get huser)

/-! ## Verified addresses -/

theorem requestVerification_outcome (email : Bool) (recipient : String) :
    (requestVerification env call email recipient).wp Q (Outcome env call s request) s := by
  have hs := Quiet.refl s
  simp only [requestVerification, wp_bind, wp_query, wp_ite, wp_dispatchCode, wp_reply]
  exact ⟨fun _ => hs.check rfl <| hs.check rfl <| .dispatched _ _ _ rfl, fun _ => hs.check rfl <|
    .dispatched _ _ _ rfl⟩

theorem requestEmailVerification_settled (email : String) :
    Settled env call (.requestEmailVerification email)
      (handleRequestEmailVerification env call email) := by
  intro _ _ hs
  simp only [handleRequestEmailVerification, wp_bind]
  exact hs.check rfl <| hs.check rfl <| requestVerification_outcome _ _

theorem requestPhoneVerification_settled (phone : String) :
    Settled env call (.requestPhoneVerification phone)
      (handleRequestPhoneVerification env call phone) := by
  intro _ _ hs
  simp only [handleRequestPhoneVerification, wp_bind]
  exact hs.check rfl <| hs.require rfl fun _ _ => hs.check rfl <| requestVerification_outcome _ _

theorem confirmVerification_outcome (email : Bool) (recipient code : String)
    (hrequest : request.confirms) :
    (confirmVerification env call email recipient code).wp Q (Outcome env call s request) s := by
  have hs := Quiet.refl s
  simp only [confirmVerification, wp_bind, wp_query, wp_change, wp_ite, wp_reply,
    wp_issueSessionResponse]
  refine hs.require rfl fun otp _ => hs.check rfl ⟨fun _ => .refused rfl (.deleteOTP s _), fun _ =>
    ⟨fun _ => .refused rfl (.countAttempt s _), fun _ => ?_⟩⟩
  have hs₁ := Quiet.deleteOTPsWhere s fun otp =>
    otp.recipient = recipient && otp.purpose = verificationPurpose email
  refine ⟨fun _ => hs₁.requireUpdated rfl (keeps_convertedAt _ _ _) ?_, fun _ => ?_⟩
  · intro s₂ user old hs₂ hold hid hget
    have holdID : old.id = call.caller.userID := Users.id_of_get hold
    refine .opened hs₂ ?_ (isSome_of_get hget)
    rw [hid, ← holdID]
    exact .confirmed hrequest (holdID ▸ hold) holdID.symm
  · have hkeeps : Users.Kept.Keeps fun row : UserRow =>
        if email then { row with emailVerifiedAt := some s.now }
        else { row with phoneVerifiedAt := some s.now } := by
      intro row
      cases email <;> exact ⟨rfl, rfl, rfl⟩
    have hs₂ := hs₁.trans (.updateUsersWhere _ (UserRow.isReachedAt email recipient) hkeeps)
    rw [wp_stmt]
    exact hs₂.require rfl fun _ _ => .refused rfl hs₂

theorem confirmEmailVerification_settled (input : Option ConfirmVerificationInput) :
    Settled env call (.confirmEmailVerification input)
      (handleConfirmEmailVerification env call input) := by
  intro _ _ hs
  simp only [handleConfirmEmailVerification, wp_bind]
  exact hs.require rfl fun input _ => hs.check rfl <| confirmVerification_outcome _ _ _ rfl

theorem confirmPhoneVerification_settled (input : Option ConfirmVerificationInput) :
    Settled env call (.confirmPhoneVerification input)
      (handleConfirmPhoneVerification env call input) := by
  intro _ _ hs
  simp only [handleConfirmPhoneVerification, wp_bind]
  exact hs.require rfl fun input _ => hs.check rfl <| hs.require rfl fun _ _ =>
    confirmVerification_outcome _ _ _ rfl

/-! ## Sessions -/

theorem deleteSession_eq (s : State) (id : String) :
    s.deleteSession id = s.without (fun id' _ => id' = id) fun _ => false := by
  unfold State.deleteSession State.without
  rw [Table.deleteWhere_eq_self (t := s.cache) fun _ _ => rfl]
  rfl

/-- Where no session is deleted, nothing changes. -/
theorem deleteSessionsWhere_eq_self {p : String → Session → Bool}
    (h : (s.deleteSessionsWhere p).1 = []) : (s.deleteSessionsWhere p).2 = s := by
  unfold State.deleteSessionsWhere
  rw [Table.deleteWhere_eq_self fun e he => by simpa using List.filter_eq_nil_iff.mp h e he]

theorem refreshCached_outcome {given : String} (hid : user.id ≠ "")
    (hcached : s.findCached (env.hashRefreshToken (presentedToken call given)) = some user) :
    (refreshCached env call (env.hashRefreshToken (presentedToken call given)) user).wp Q
      (Outcome env call s (.refreshToken (some given))) s := by
  simp only [refreshCached, wp_bind, wp_change, wp_stmt, wp_ensureUnlocked,
    wp_issueSessionResponse]
  exact ⟨fun hlock => .reopened (.cached given) (.cachedSession hid hcached hlock)
      (.inr ⟨hid, _, hcached⟩), fun _ => .ended rfl (.cached given)⟩

theorem refreshStored_outcome {given : String}
    (hcached : env.config.fastPathSessionsEnabled → ∀ user,
      s.findCached (env.hashRefreshToken (presentedToken call given)) = some user →
      user.id = "") :
    (refreshStored env call (env.hashRefreshToken (presentedToken call given))).wp Q
      (Outcome env call s (.refreshToken (some given))) s := by
  have hs := Quiet.refl s
  simp only [refreshStored, wp_bind, wp_look, wp_query, wp_change, wp_ite, wp_reply,
    wp_issueSessionResponse, deleteSession_eq]
  refine hs.require rfl fun session hsession => ?_
  have hends := Ends.stored hsession hcached
  refine ⟨fun _ => .ended rfl hends, fun _ => hs.require rfl fun user huser => ⟨fun _ =>
    .ended rfl hends, fun hlock => ?_⟩⟩
  have hid : user.id = session.2.userID := Users.id_of_get huser
  have hget : s.users.get user.id = some user := hid ▸ huser
  exact .reopened hends (.storedSession hsession hid.symm hget (by simpa using hlock))
    (.inl (Option.isSome_of_eq_some hget))

theorem refreshToken_settled (refreshToken : Option String) :
    Settled env call (.refreshToken refreshToken) (handleRefreshToken env call refreshToken) := by
  intro _ _ hs
  simp only [handleRefreshToken, wp_bind, wp_look, wp_ite, wp_elim]
  refine hs.require rfl fun given hgiven => hs.check rfl ?_
  subst hgiven
  refine ⟨fun _ => ⟨fun hnone => refreshStored_outcome fun _ user hcached => ?_,
    fun user huser => ?_⟩, fun hslow => refreshStored_outcome fun hfast => absurd hfast hslow⟩
  · simpa [hcached] using hnone
  · obtain ⟨hcached, hid⟩ := Option.filter_eq_some_iff.mp huser
    exact refreshCached_outcome (by simpa using hid) hcached

theorem signOut_settled (refreshToken : String) :
    Settled env call (.signOut refreshToken) (handleSignOut env call refreshToken) := by
  intro _ s hs
  simp only [handleSignOut, wp_bind, wp_change, wp_stmt, wp_ite, wp_reply]
  exact ⟨fun _ => .ended rfl (.signOut refreshToken), fun _ => .refused rfl (.refl s)⟩

theorem revokeSession_settled (sessionID : String) :
    Settled env call (.revokeSession sessionID) (handleRevokeSession env call sessionID) := by
  intro _ _ hs
  simp only [handleRevokeSession, wp_bind, wp_change, wp_stmt, wp_reply, wp_ensure]
  refine ⟨fun _ => ⟨fun _ => ⟨fun _ => .ended rfl (.own sessionID), fun hnone => ?_⟩,
    fun _ => .refused rfl hs⟩, fun _ => .refused rfl hs⟩
  rw [deleteSessionsWhere_eq_self (not_not.mp hnone)]
  exact .refused rfl hs

theorem revokeOtherSessions_settled :
    Settled env call .revokeOtherSessions (handleRevokeOtherSessions env call) := by
  intro _ _ hs
  simp only [handleRevokeOtherSessions, wp_bind, wp_query, wp_change, wp_stmt, wp_ite,
    wp_reply]
  exact hs.check rfl ⟨fun _ => ⟨fun _ => .refused rfl hs, fun _ => .refused rfl hs⟩, fun _ =>
    .ended rfl .others⟩

theorem revokeUserSessions_settled (userID : String) :
    Settled env call (.revokeUserSessions userID) (handleRevokeUserSessions env call userID) := by
  intro _ _ hs
  simp only [handleRevokeUserSessions, wp_bind, wp_change, wp_stmt, wp_reply]
  exact hs.requireScope <| hs.check rfl <| .ended rfl (.user userID)

theorem lockUser_settled (userID : String) (lockedUntil : Option ℤ) :
    Settled env call (.lockUser userID lockedUntil)
      (handleLockUser env call userID lockedUntil) := by
  intro _ _ hs
  simp only [handleLockUser, wp_bind, wp_query, wp_change, wp_stmt, wp_reply, wp_require]
  refine hs.requireScope <| hs.check rfl ⟨fun hnone => ?_, fun user huser => ?_⟩
  · rw [State.updateUser, updateUser_eq_none hnone]
    exact .refused rfl hs
  · obtain ⟨users, husers, -⟩ := Option.bind_eq_some_iff.mp huser
    rw [State.updateUser, husers]
    exact .locked rfl husers

theorem unlockUser_settled (userID : String) :
    Settled env call (.unlockUser userID) (handleUnlockUser env call userID) := by
  intro _ _ hs
  simp only [handleUnlockUser, wp_bind, wp_stmt, wp_reply, wp_require]
  refine hs.requireScope <| hs.check rfl ⟨fun hnone => ?_, fun user huser => ?_⟩
  · rw [State.updateUser, updateUser_eq_none hnone]
    exact .refused rfl hs
  · obtain ⟨users, husers, -⟩ := Option.bind_eq_some_iff.mp huser
    rw [State.updateUser, husers]
    exact .unlocked rfl husers

theorem deleted_deleteUser (s : State) (userID : String) :
    Deleted s (s.deleteUser userID).2 userID fun _ => false where
  users := rfl
  sessions := rfl
  cache := (Table.deleteWhere_eq_self fun _ _ => rfl).symm
  codes := rfl
  otps _ _ h := h
  outbox := rfl
  now := rfl

theorem deleteUser_settled (userID : String) :
    Settled env call (.deleteUser userID) (handleDeleteUser env call userID) := by
  intro _ s hs
  simp only [handleDeleteUser, wp_bind, wp_stmt, wp_reply, wp_require]
  have hdeleted := deleted_deleteUser s userID
  exact hs.requireScope <| hs.check rfl ⟨fun hnone => .deletedUser rfl (.inr ⟨rfl,
    hnone⟩) hdeleted, fun _ _ => .deletedUser rfl (.inl rfl) hdeleted⟩

theorem deleteOwnUser_settled : Settled env call .deleteOwnUser (handleDeleteOwnUser call) := by
  intro _ _ hs
  simp only [handleDeleteOwnUser, wp_bind, wp_query, wp_change, wp_stmt, wp_reply]
  refine hs.check rfl <| .deletedOwnUser rfl ⟨rfl, rfl, rfl, rfl, ?_, rfl, rfl⟩
  intro id otp h
  have hfilter := (Table.get_deleteWhere _ _ id).symm.trans h
  exact (Option.filter_eq_some_iff.mp hfilter).1

/-! ## OAuth providers -/

theorem authorizeOAuth_settled (input : AuthorizeOAuthInput) :
    Settled env call (.authorizeOAuth input) (handleAuthorizeOAuth env call input) := by
  intro _ _ hs
  simp only [handleAuthorizeOAuth, wp_bind, wp_change, wp_reply]
  exact hs.require rfl fun _ _ => hs.check rfl <| hs.check rfl <| .refused rfl (.same rfl)

/-- The end of a sign-in at a provider: a session, or a code where it belongs to a hosted
sign-in. -/
theorem Quiet.completeOAuthFlow {s₁ : State} {input : OAuthCallbackInput}
    {payload : OAuthStatePayload} (hs : Quiet s s₁)
    (hgrounds : (asksForMFA env call user → s₁.IsHosted payload) →
      Grounds env call s (.processOAuthCallback input) user.id)
    (huser : user.id ≠ "" → (s₁.users.get user.id).isSome) :
    (completeOAuthFlow env call user payload).wp Q
      (Outcome env call s (.processOAuthCallback input)) s₁ := by
  simp only [Layr.Auth.completeOAuthFlow, wp_bind, wp_query, wp_elim,
    wp_completeOIDCAuthorization]
  refine ⟨fun _ => hs.completeSignInFlow fun hmfa => .opened hs (hgrounds fun h => ?_) huser,
    fun oidcState hstate => .authorized _ _ _ hs rfl (hgrounds fun _ => ?_)⟩
  · rw [hmfa] at h
    cases h
  · split at hstate
    · cases hstate
    · next hid => exact ⟨hid, by rw [hstate]; rfl⟩

section callback

variable {input : OAuthCallbackInput} {payload : OAuthStatePayload} {info : OAuthUserInfo}

theorem linkAnonymous_outcome {existingUserID : Option String} {anonymousUser : User}
    (hcaller : anonymousCaller call s = some anonymousUser) :
    (linkAnonymous env call input.provider info payload existingUserID anonymousUser).wp Q
      (Outcome env call s (.processOAuthCallback input)) (s.deleteOAuthState input.state) := by
  have hs₁ : Quiet s (s.deleteOAuthState input.state) := .same rfl
  have hs₂ : Quiet s ((s.deleteOAuthState input.state).linkIdentity true input.provider
      info.providerUserID anonymousUser.id) := .same rfl
  simp only [linkAnonymous, wp_bind, wp_query, wp_change]
  refine hs₁.check rfl <| hs₁.check rfl <| hs₂.requireUpdated rfl (fun _ => ⟨rfl, rfl,
    rfl⟩) fun s₃ user _ hs₃ _ hid hget => hs₃.completeOAuthFlow ?_ ?_
  · exact fun _ => hid ▸ .converted rfl hcaller
  · exact isSome_of_get hget

theorem signInIdentity_outcome {userID : String}
    (hpayload : s.findOAuthState input.state = some payload)
    (hinfo : env.exchangeCode input.provider input.code (input.callback env payload) = some info)
    (hidentity : s.selectIdentity input.provider info.providerUserID = some userID) :
    (signInIdentity env call payload userID).wp Q
      (Outcome env call s (.processOAuthCallback input)) (s.deleteOAuthState input.state) := by
  have hs₁ : Quiet s (s.deleteOAuthState input.state) := .same rfl
  simp only [signInIdentity, wp_bind, wp_query]
  rcases huser : (s.deleteOAuthState input.state).selectUser userID with _ | user
  · exact hs₁.ensureUnlocked rfl fun _ => hs₁.completeOAuthFlow
      (fun _ => .created (Users.get_empty_id _)) fun h => absurd rfl h
  · obtain rfl : user.id = userID := Users.id_of_get huser
    exact hs₁.ensureUnlocked rfl fun hlock => hs₁.completeOAuthFlow
      (fun hmfa => .identity huser hpayload hinfo hidentity hlock hmfa) (isSome_of_get huser)

theorem email_of_match {email : String} {row : UserRow}
    (h : row.email.isSome && decide (row.email = nilIfEmpty email)) :
    email ≠ "" ∧ row.email = some email := by
  rw [Bool.and_eq_true, decide_eq_true_eq] at h
  obtain ⟨hsome, heq⟩ := h
  rw [heq, nilIfEmpty] at hsome
  split at hsome
  · cases hsome
  · next hne => exact ⟨hne, heq.trans (if_neg hne)⟩

theorem registerIdentity_outcome
    (hpayload : s.findOAuthState input.state = some payload)
    (hinfo : env.exchangeCode input.provider input.code (input.callback env payload) = some info)
    (hidentity : s.selectIdentity input.provider info.providerUserID = none) :
    (registerIdentity env call input.provider info payload).wp Q
      (Outcome env call s (.processOAuthCallback input)) (s.deleteOAuthState input.state) := by
  simp only [registerIdentity, wp_bind, wp_change]
  have hs₁ : Quiet s (s.deleteOAuthState input.state) := .same rfl
  refine hs₁.upserted rfl rfl (fun _ => ⟨rfl, rfl, rfl⟩) ?_ ?_ ?_
  · intro s₂ hs₂
    exact (hs₂.trans (.same (by rfl))).completeOAuthFlow
      (fun _ => .created (Users.get_empty_id _)) fun h => absurd rfl h
  · intro s₂ user hs₂ hnone hget
    exact (hs₂.trans (.same (by rfl))).completeOAuthFlow (fun _ => .created hnone)
      (isSome_of_get hget)
  · intro s₂ user old hs₂ hstates hold hp huser hget
    subst huser
    refine (hs₂.trans (.same (by rfl))).completeOAuthFlow (fun hmfa => ?_)
      (isSome_of_get hget)
    have hhosted : s₂.IsHosted payload → s.IsHosted payload := by
      unfold State.IsHosted State.findOIDCState
      rw [hstates, hs₂.now]
      exact id
    exact .providerEmail hold hpayload hinfo (email_of_match hp) hidentity fun h =>
      hhosted (hmfa h)

end callback

theorem processOAuthCallback_settled (input : OAuthCallbackInput) :
    Settled env call (.processOAuthCallback input) (handleProcessOAuthCallback env call input) := by
  intro _ s hs
  simp only [handleProcessOAuthCallback, wp_bind, wp_look, wp_query, wp_change, wp_elim,
    wp_resolveAnonymousCaller]
  have hs₁ : Quiet s (s.deleteOAuthState input.state) := .same rfl
  exact hs.check rfl <| hs.require rfl fun payload hpayload => hs.check rfl <| hs₁.check rfl <|
    hs₁.require rfl fun _ _ => hs₁.check rfl <| hs₁.check rfl <| hs₁.require rfl fun info hinfo =>
    ⟨fun _ => ⟨registerIdentity_outcome hpayload hinfo, fun _ =>
    signInIdentity_outcome hpayload hinfo⟩, fun _ hcaller => linkAnonymous_outcome hcaller⟩

/-! ## The hosted sign-in -/

theorem authorizeOIDC_settled (input : AuthorizeOIDCInput) :
    Settled env call (.authorizeOIDC input) (handleAuthorizeOIDC env call input) := by
  intro _ _ hs
  simp only [handleAuthorizeOIDC, issueOIDCAuthorizationCode, wp_bind, wp_query, wp_change,
    wp_ite, wp_reply]
  refine hs.check rfl ⟨fun _ => .refused rfl hs, fun _ => hs.check rfl <| hs.require rfl fun _ _ =>
    hs.check rfl <| hs.check rfl <| hs.check rfl <| hs.check rfl ⟨fun hcaller => ?_, fun _ =>
    .refused rfl (.same rfl)⟩⟩
  exact .coded rfl rfl (.singleSignOn hcaller)

theorem askForMFA_outcome {s₁ : State} (hs : Quiet s s₁) (user : User) :
    (askForMFA call user).wp Q (Outcome env call s request) s₁ := by
  simp only [askForMFA, wp_bind, wp_change, wp_reply]
  exact .refused rfl (hs.trans (.same rfl))

theorem completeHosted_outcome {s₁ : State} (hs : Quiet s s₁) {form : OIDCForm}
    {payload : OIDCAuthorizationStatePayload}
    (hgrounds : Grounds env call s (.submitOIDCAuthorize form) user.id) :
    (completeHosted env call form payload user).wp Q
      (Outcome env call s (.submitOIDCAuthorize form)) s₁ := by
  rw [completeHosted, wp_completeOIDCAuthorization]
  exact .authorized _ _ _ hs rfl hgrounds

section forms

variable {form : OIDCForm} {payload : OIDCAuthorizationStatePayload}

theorem hostedVerifyMFA_outcome (haction : Strings.trimSpace form.action = "verify_mfa") :
    (hostedVerifyMFA env call form payload).wp Q
      (Outcome env call s (.submitOIDCAuthorize form)) s := by
  have hs := Quiet.refl s
  simp only [hostedVerifyMFA, wp_bind, wp_query, wp_change]
  refine hs.check rfl <| hs.require rfl fun userID htoken => hs.check rfl <|
    hs.require rfl fun user huser => hs.checkMFACode rfl rfl rfl fun hcode => ?_
  obtain rfl : user.id = userID := Users.id_of_get huser
  exact completeHosted_outcome (.same (by rfl))
    (.hostedSecondFactor huser haction (Option.filter_eq_some_iff.mp htoken).1 hcode)

theorem hostedSendOTP_outcome :
    (hostedSendOTP env call form).wp Q (Outcome env call s (.submitOIDCAuthorize form)) s := by
  have hs := Quiet.refl s
  simp only [hostedSendOTP, wp_bind, wp_dispatchCode, wp_reply]
  exact hs.check rfl <| hs.check rfl <| hs.require rfl fun _ _ => hs.check rfl <| hs.check rfl <|
    .dispatched _ _ _ rfl

theorem hostedVerifyOTP_outcome :
    (hostedVerifyOTP env call form payload).wp Q
      (Outcome env call s (.submitOIDCAuthorize form)) s := by
  have hs := Quiet.refl s
  simp only [hostedVerifyOTP, wp_bind, wp_query, wp_change, wp_ite, wp_reply]
  refine hs.check rfl <| hs.require rfl fun otp hotp => ⟨fun _ => .refused rfl (.countAttempt s _),
    fun hcode => ?_⟩
  refine (Quiet.deleteOTP s otp.1).upsertRecipient (Q := fun user s' =>
    (user.mfaEnabled → (askForMFA call user).wp Q
      (Outcome env call s (.submitOIDCAuthorize form)) s') ∧
    (¬user.mfaEnabled → (completeHosted env call form payload user).wp Q
      (Outcome env call s (.submitOIDCAuthorize form)) s')) rfl rfl ?_ ?_
  · intro s₂ user hs₂ hnone _
    exact ⟨fun _ => askForMFA_outcome hs₂ user, fun _ =>
      completeHosted_outcome hs₂ (.created hnone)⟩
  · intro s₂ user old hs₂ hold _ hid hlock hmfa _
    refine ⟨fun _ => askForMFA_outcome hs₂ user, fun hnot => completeHosted_outcome hs₂ (hid ▸ ?_)⟩
    exact .hosted hold hlock fun h => absurd (hmfa.trans h) hnot

theorem hostedSignUp_outcome :
    (hostedSignUp env call form payload).wp Q
      (Outcome env call s (.submitOIDCAuthorize form)) s := by
  have hs := Quiet.refl s
  simp only [hostedSignUp, wp_bind, wp_query]
  exact hs.check rfl <| hs.check rfl <| hs.check rfl <| hs.check rfl <| hs.check rfl <|
    hs.requireInserted rfl rfl rfl rfl fun s₂ user hs₂ hnone _ =>
    completeHosted_outcome hs₂ (.created hnone)

theorem hostedSignIn_outcome :
    (hostedSignIn env call form payload).wp Q
      (Outcome env call s (.submitOIDCAuthorize form)) s := by
  have hs := Quiet.refl s
  simp only [hostedSignIn, wp_bind, wp_query, wp_ite]
  refine hs.check rfl <| hs.check rfl <| hs.require rfl fun user huser =>
    hs.ensureUnlocked rfl fun hlock => hs.check rfl ?_
  have hget := Users.get_find (Option.filter_eq_some_iff.mp huser).1
  refine ⟨fun _ => ⟨fun _ => hs.checkMFACode rfl rfl rfl fun hcode => ?_, fun _ =>
    askForMFA_outcome hs user⟩, fun hnot => ?_⟩
  · exact completeHosted_outcome hs (.hosted hget hlock fun _ => hcode)
  · exact completeHosted_outcome hs (.hosted hget hlock fun h => absurd h hnot)

end forms

theorem submitOIDCAuthorize_settled (form : OIDCForm) :
    Settled env call (.submitOIDCAuthorize form) (handleSubmitOIDCAuthorize env call form) := by
  intro _ _ hs
  simp only [handleSubmitOIDCAuthorize, wp_bind, wp_query, wp_ite]
  exact hs.check rfl <| hs.check rfl <| hs.require rfl fun payload _ => ⟨hostedVerifyMFA_outcome,
    fun _ => ⟨fun _ => hostedSendOTP_outcome, fun _ => ⟨fun _ => hostedVerifyOTP_outcome, fun _ =>
    ⟨fun _ => hostedSignUp_outcome, fun _ => hostedSignIn_outcome⟩⟩⟩⟩

/-! ## The token and sign-out endpoints -/

theorem issueTokenByCode_settled (input : OIDCTokenInput) :
    Settled env call (.issueTokenByCode input)
      (handleIssueOIDCTokenAuthorizationCode env call input) := by
  intro _ s hs
  simp only [handleIssueOIDCTokenAuthorizationCode, wp_bind, wp_look, wp_query, wp_change,
    wp_stmt, wp_reply]
  refine hs.check rfl <| hs.check rfl <| hs.require rfl fun _ _ => hs.check rfl <| hs.check rfl <|
    hs.require rfl fun payload hpayload => ?_
  -- from here on the code is gone, whatever the reply
  refine (wp_ensure _ _).mpr ⟨fun _ => ?_, fun _ => .codeSpent _ rfl⟩
  refine (wp_ensure _ _).mpr ⟨fun _ => ?_, fun _ => .codeSpent _ rfl⟩
  refine (wp_ensure _ _).mpr ⟨fun _ => ?_, fun _ => .codeSpent _ rfl⟩
  refine (wp_require _ _).mpr ⟨fun _ => .codeSpent _ rfl, fun user huser => ?_⟩
  have hid : user.id = payload.userID := Users.id_of_get huser
  have hget : s.users.get user.id = some user := hid ▸ huser
  exact .exchanged _ _ _ (.authorizationCode hget hpayload hid.symm) hget

theorem issueTokenByRefreshToken_settled (input : OIDCTokenInput) :
    Settled env call (.issueTokenByRefreshToken input)
      (handleIssueOIDCTokenRefreshToken env call input) := by
  intro _ _ hs
  simp only [handleIssueOIDCTokenRefreshToken, wp_bind, wp_look, wp_query, wp_change,
    wp_ite, wp_reply]
  refine hs.check rfl <| hs.check rfl <| hs.check rfl <| hs.require rfl fun session hsession =>
    hs.require rfl fun user huser => ?_
  have hid : user.id = session.2.userID := Users.id_of_get huser
  refine ⟨fun _ => ?_, fun hlock => ?_⟩
  · rw [deleteSession_eq]
    exact .ended rfl (.grant hsession)
  · exact .rotated _ rfl hsession hid.symm
      (.refreshGrant hsession hid.symm (hid ▸ huser) (by simpa using hlock))

theorem signOutOIDC_settled (idTokenHint : String) :
    Settled env call (.signOutOIDC idTokenHint) (handleSignOutOIDC env call idTokenHint) := by
  intro _ _ hs
  simp only [handleSignOutOIDC, wp_bind, wp_query, wp_change, wp_stmt, wp_ite, wp_reply]
  exact hs.check rfl ⟨fun _ => .ended rfl (.relyingParties idTokenHint), fun _ => .refused rfl hs⟩

/-! ## All requests -/

/-- What a request comes to. -/
theorem serve_outcome (env : Env) (call : Call) (request : Request) (s : State) :
    Outcome env call s request (serve env call request s).1 (serve env call request s).2 := by
  have h : Settled env call request (request.handler env call) := by
    cases request with
    | signUp => exact signUp_settled _
    | signIn => exact signIn_settled _
    | signInAnonymous => exact signInAnonymous_settled
    | requestPasswordReset => exact requestPasswordReset_settled _
    | confirmPasswordReset => exact confirmPasswordReset_settled _
    | sendOTP => exact sendOTP_settled _
    | verifyOTP => exact verifyOTP_settled _
    | beginPasskeySignUp => exact beginPasskeySignUp_settled _
    | verifyPasskeySignUp => exact verifyPasskeySignUp_settled _
    | beginPasskeySignIn => exact beginPasskeySignIn_settled
    | verifyPasskeySignIn => exact verifyPasskeySignIn_settled _
    | setupMFA => exact setupMFA_settled
    | verifyMFA => exact verifyMFA_settled _
    | challengeMFA => exact challengeMFA_settled _
    | disableMFA => exact disableMFA_settled
    | requestEmailVerification => exact requestEmailVerification_settled _
    | requestPhoneVerification => exact requestPhoneVerification_settled _
    | confirmEmailVerification => exact confirmEmailVerification_settled _
    | confirmPhoneVerification => exact confirmPhoneVerification_settled _
    | refreshToken => exact refreshToken_settled _
    | signOut => exact signOut_settled _
    | revokeSession => exact revokeSession_settled _
    | revokeOtherSessions => exact revokeOtherSessions_settled
    | deleteOwnUser => exact deleteOwnUser_settled
    | authorizeOAuth => exact authorizeOAuth_settled _
    | processOAuthCallback => exact processOAuthCallback_settled _
    | authorizeOIDC => exact authorizeOIDC_settled _
    | submitOIDCAuthorize => exact submitOIDCAuthorize_settled _
    | issueTokenByCode => exact issueTokenByCode_settled _
    | issueTokenByRefreshToken => exact issueTokenByRefreshToken_settled _
    | signOutOIDC => exact signOutOIDC_settled _
    | deleteUser => exact deleteUser_settled _
    | lockUser => exact lockUser_settled _ _
    | unlockUser => exact unlockUser_settled _
    | revokeUserSessions => exact revokeUserSessions_settled _
  exact wp_iff_answer.mp (@h (fun _ _ => True) _ (.refl s))

end Layr.Auth

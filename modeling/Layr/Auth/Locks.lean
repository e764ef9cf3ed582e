import Layr.Auth.History

/-!
# Locked users

An administrator locks a user until some time. Until then the user gets neither tokens nor
authorization codes, except by the requests that do not look at the lock in the table: those that
go on with something from before the lock, and those of a caller whom the middleware lets through.
-/

namespace Layr.Auth

open Go Prog

variable (env : Env)

/-- What a request that was served did to the lock of a user: nothing, or the time it is locked
until now, if any. -/
def Served.lockSet (served : Served) (id : String) : Option (Option ℤ) :=
  match served.request, served.reply with
  | .lockUser userID lockedUntil, .account _ =>
    if userID = id then some (some (lockedUntil.getD (env.hundredYearsAfter served.before.now)))
    else none
  | .unlockUser userID, .account _ => if userID = id then some none else none
  | .deleteUser userID, .noContent => if userID = id then some none else none
  | .deleteOwnUser, .noContent => if served.call.caller.userID = id then some none else none
  | _, _ => none

/-- The time until which administrators have locked the user: that of the latest lock, unless the
user was unlocked or deleted since. -/
def lockOf : List Served → String → Option ℤ
  | [], _ => none
  | served :: log, id => (served.lockSet env id).getD (lockOf log id)

/-- The request may give tokens or a code to the user and does not look at the lock in the
table. -/
def Request.skipsLock (call : Call) (s : State) (user : User) : Request → Prop
  | signUp _ | verifyOTP _ | verifyPasskeySignUp none => anonymousCaller call s = some user
  | verifyPasskeySignUp (some input) => anonymousCaller call s = some user ∨
      (s.consumeChallenge input.challenge).1 = some user.id
  | processOAuthCallback input => anonymousCaller call s = some user ∨ ∃ payload info,
      s.findOAuthState input.state = some payload ∧
        env.exchangeCode input.provider input.code (input.callback env payload) = some info ∧
        s.selectIdentity input.provider info.providerUserID = none ∧
        user.email = some info.email
  | confirmEmailVerification _ | confirmPhoneVerification _ | authorizeOIDC _ =>
      call.caller.userID = user.id
  | submitOIDCAuthorize form => Strings.trimSpace form.action = "verify_mfa" ∧
      s.findOIDCMFA form.mfaToken = some user.id
  | issueTokenByCode input => ∃ payload, s.findCode input.code = some payload ∧
      payload.userID = user.id
  | refreshToken (some given) => ∃ copy : User, copy.id = user.id ∧
      s.findCached (env.hashRefreshToken (presentedToken call given)) = some copy
  | _ => False

/-- What the events of a run meet: the requests that do not look at the lock serve users who are
not locked. -/
def LocksChecked (w : World) : Event → Prop
  | .tick _ => True
  | .serve call request => ∀ user, w.state.users.get user.id = some user →
      request.skipsLock env call w.state user → user.isLocked w.state.now = false

/-- The locks that administrators have set are in the table. -/
def LocksStored (w : World) : Prop :=
  ∀ id lockedUntil, lockOf env w.log id = some lockedUntil →
    ∃ user, w.state.users.get id = some user ∧ user.lockedUntil = some lockedUntil

variable {env} {call : Call} {s s' : State} {w : World} {request : Request} {user : User}
  {r : Reply} {id : String}

/-! ## Locks in the log and in the table -/

variable (env call s request id) in
/-- The lock in the table after a request is the one that the request has set, or else the one
before it. -/
def LockFollows (r : Reply) (s' : State) : Prop :=
  match Served.lockSet env ⟨s, call, request, r⟩ id with
  | some lock => ∀ lockedUntil, lock = some lockedUntil →
    ∃ user, s'.users.get id = some user ∧ user.lockedUntil = some lockedUntil
  | none => ∀ user, s.users.get id = some user →
    ∃ user', s'.users.get id = some user' ∧ user'.lockedUntil = user.lockedUntil

theorem LockFollows.of_none (hset : Served.lockSet env ⟨s, call, request, r⟩ id = none)
    (hkept : ∀ user, s.users.get id = some user →
      ∃ user', s'.users.get id = some user' ∧ user'.lockedUntil = user.lockedUntil) :
    LockFollows env call s request id r s' := by
  rw [LockFollows, hset]
  exact hkept

theorem LockFollows.of_some {lock : Option ℤ}
    (hset : Served.lockSet env ⟨s, call, request, r⟩ id = some lock)
    (hlock : ∀ lockedUntil, lock = some lockedUntil →
      ∃ user, s'.users.get id = some user ∧ user.lockedUntil = some lockedUntil) :
    LockFollows env call s request id r s' := by
  rw [LockFollows, hset]
  exact hlock

theorem LockFollows.lifted (hset : Served.lockSet env ⟨s, call, request, r⟩ id = some none) :
    LockFollows env call s request id r s' := by
  refine .of_some hset fun lockedUntil hlock => ?_
  cases hlock

theorem LockFollows.same (hset : Served.lockSet env ⟨s, call, request, r⟩ id = none) :
    LockFollows env call s request id r s :=
  .of_none hset fun user hget => ⟨user, hget, rfl⟩

variable {Q : Empty → State → Prop}

theorem handleLockUser_lock (lockedUntil : Option ℤ) :
    (handleLockUser env call id lockedUntil).wp Q
      (LockFollows env call s (.lockUser id lockedUntil) id) s := by
  simp only [handleLockUser, wp_bind, wp_query, wp_change, wp_stmt, wp_reply, wp_require,
    wp_requireScope, wp_ensure]
  refine ⟨fun _ => ⟨fun _ => ⟨fun hnone => ?_, fun user huser => ?_⟩, fun _ => .same rfl⟩,
    fun _ _ => .same rfl⟩
  · rw [State.updateUser, updateUser_eq_none hnone]
    exact .same rfl
  · obtain ⟨old, -, hrow, hget⟩ := updateUser_eq_some huser
    refine .of_some (if_pos rfl) fun _ hlock => ⟨user, hget, ?_⟩
    rw [hrow, ← hlock]

theorem handleUnlockUser_lock :
    (handleUnlockUser env call id).wp Q (LockFollows env call s (.unlockUser id) id) s := by
  simp only [handleUnlockUser, wp_bind, wp_stmt, wp_reply, wp_require, wp_requireScope, wp_ensure]
  refine ⟨fun _ => ⟨fun _ => ⟨fun hnone => ?_, fun user huser => ?_⟩, fun _ => .same rfl⟩,
    fun _ _ => .same rfl⟩
  · rw [State.updateUser, updateUser_eq_none hnone]
    exact .same rfl
  · exact .lifted (if_pos rfl)

theorem handleDeleteUser_lock :
    (handleDeleteUser env call id).wp Q (LockFollows env call s (.deleteUser id) id) s := by
  simp only [handleDeleteUser, wp_bind, wp_stmt, wp_reply, wp_require, wp_requireScope, wp_ensure]
  refine ⟨fun _ => ⟨fun _ => ⟨fun hnone => ?_, fun user huser => ?_⟩, fun _ => .same rfl⟩,
    fun _ _ => .same rfl⟩
  · refine .of_none rfl fun user hget => ?_
    rw [State.deleteUser, hget] at hnone
    cases hnone
  · exact .lifted (if_pos rfl)

theorem handleDeleteOwnUser_lock :
    (handleDeleteOwnUser call).wp Q
      (LockFollows env call s .deleteOwnUser call.caller.userID) s := by
  simp only [handleDeleteOwnUser, wp_bind, wp_query, wp_change, wp_stmt, wp_reply, wp_ensure]
  exact ⟨fun _ => .lifted (if_pos rfl), fun _ => .same rfl⟩

theorem lockSet_eq_none (hrequest : ¬request.setsLock call id) :
    Served.lockSet env ⟨s, call, request, r⟩ id = none := by
  unfold Served.lockSet
  dsimp only
  split
  · exact if_neg hrequest
  · exact if_neg hrequest
  · exact if_neg hrequest
  · exact if_neg hrequest
  · rfl

/-- The lock of a user in the table follows the requests. -/
theorem serve_lock (env : Env) (call : Call) (request : Request) (s : State) (id : String) :
    LockFollows env call s request id (serve env call request s).1
      (serve env call request s).2 := by
  by_cases hrequest : request.setsLock call id
  · cases request with
    | lockUser userID lockedUntil =>
      obtain rfl : userID = id := hrequest
      exact wp_iff_answer.mp (handleLockUser_lock (Q := fun _ _ => True) lockedUntil)
    | unlockUser userID =>
      obtain rfl : userID = id := hrequest
      exact wp_iff_answer.mp (handleUnlockUser_lock (Q := fun _ _ => True))
    | deleteUser userID =>
      obtain rfl : userID = id := hrequest
      exact wp_iff_answer.mp (handleDeleteUser_lock (Q := fun _ _ => True))
    | deleteOwnUser =>
      obtain rfl : call.caller.userID = id := hrequest
      exact wp_iff_answer.mp (handleDeleteOwnUser_lock (Q := fun _ _ => True))
    | _ => exact hrequest.elim
  · exact .of_none (lockSet_eq_none hrequest) fun user hget =>
      (serve_outcome env call request s).lock_kept hget hrequest

/-- No request changes a lock other than as the log says. -/
theorem LocksStored.serve (hinv : LocksStored env w) (call : Call) (request : Request) :
    LocksStored env (w.serve env call request) := by
  intro id lockedUntil hlock
  have hfollows := serve_lock env call request w.state id
  unfold LockFollows at hfollows
  simp only [World.serve, lockOf] at hlock
  split at hfollows
  · next lock hset =>
    rw [hset] at hlock
    exact hfollows lockedUntil hlock
  · next hset =>
    rw [hset] at hlock
    obtain ⟨user, hget, hrow⟩ := hinv id lockedUntil hlock
    obtain ⟨user', hget', hrow'⟩ := hfollows user hget
    exact ⟨user', hget', hrow'.trans hrow⟩

/-! ## Nothing for locked users -/

theorem skipsLock_of_converts (hrequest : request.converts)
    (huser : anonymousCaller call s = some user) : request.skipsLock env call s user := by
  cases request with
  | signUp | verifyOTP => exact huser
  | verifyPasskeySignUp input =>
    cases input with
    | none => exact huser
    | some input => exact .inl huser
  | processOAuthCallback => exact .inl huser
  | _ => cases hrequest

theorem skipsLock_of_confirms (hrequest : request.confirms)
    (huser : call.caller.userID = user.id) : request.skipsLock env call s user := by
  cases request with
  | confirmEmailVerification | confirmPhoneVerification => exact huser
  | _ => cases hrequest

/-- The grounds for tokens or a code for a user who is in the table: the user is not locked, or
the request does not look. -/
theorem Grounds.unlocked (huser : s.users.get user.id = some user) {userID : String}
    (hid : userID = user.id) (h : Grounds env call s request userID) :
    user.isLocked s.now = false ∨ request.skipsLock env call s user := by
  have hsame : ∀ {other : User}, other.id = user.id → s.users.get other.id = some other →
      other = user := fun heq hother => Option.some.inj (hother.symm.trans (heq ▸ huser))
  cases h with
  | created hnew =>
    rw [hid, huser] at hnew
    cases hnew
  | password hother _ _ hlock | oneTimeCode hother _ _ hlock | resetCode hother _ _ _ hlock
  | assertion hother _ _ _ hlock | secondFactor hother hlock | enrolment hother hlock
  | identity hother _ _ _ hlock | hosted hother hlock | storedSession _ _ hother hlock
  | refreshGrant _ _ hother hlock =>
    cases hsame hid hother
    exact .inl hlock
  | converted hrequest hcaller =>
    cases hsame hid (get_of_anonymousCaller hcaller).1
    exact .inr (skipsLock_of_converts hrequest hcaller)
  | passkeySignUp hother hchallenge =>
    cases hsame hid hother
    exact .inr (.inr hchallenge)
  | cachedSession _ hcached => exact .inr ⟨_, hid, hcached⟩
  | confirmed hrequest _ hcaller =>
    exact .inr (skipsLock_of_confirms hrequest (hcaller.trans hid))
  | providerEmail hother hpayload hinfo hemail hidentity =>
    cases hsame hid hother
    exact .inr (.inr ⟨_, _, hpayload, hinfo, hidentity, hemail.2⟩)
  | singleSignOn => exact .inr hid
  | hostedSecondFactor _ haction htoken => exact .inr ⟨haction, hid ▸ htoken⟩
  | authorizationCode _ hcode howner => exact .inr ⟨_, hcode, howner.trans hid⟩

/-- As long as the requests that do not look at the lock serve users who are not locked, a user
whom an administrator has locked gets neither tokens nor codes before the lock ends. -/
theorem lock_enforced (env : Env) {start w : World} {call : Call} {request : Request}
    {userID : String} {lockedUntil : ℤ} (hstart : LocksStored env start)
    (hrun : Runs.Run (World.step env) (LocksChecked env) start w)
    (hchecked : LocksChecked env w (.serve call request))
    (hlock : lockOf env w.log userID = some lockedUntil) (hbefore : w.state.now < lockedUntil) :
    (serve env call request w.state).1.grantee ≠ some userID := by
  have hinv : LocksStored env w := World.invariant env hrun hstart
    (fun _ call request hinv _ => hinv.serve call request) fun _ _ hinv => hinv
  obtain ⟨user, huser, hrow⟩ := hinv userID lockedUntil hlock
  obtain rfl : user.id = userID := Users.id_of_get huser
  have hlocked : user.isLocked w.state.now := by
    rw [UserRow.isLocked, hrow, Option.any_some, decide_eq_true hbefore]
  intro hgranted
  have hgrounds := (serve_outcome env call request w.state).grounds hgranted
  have hunlocked : user.isLocked w.state.now = false :=
    (hgrounds.unlocked huser rfl).elim id (hchecked user huser)
  rw [hlocked] at hunlocked
  cases hunlocked

/-! ## A code from before the lock -/

/-- The user is locked for a thousand seconds. -/
def lockedWorld : World :=
  sampleWorld.serve sampleEnv (sampleCall "1") (.lockUser "v" (some 1000))

/-- The locked user cannot sign in with the password. -/
theorem locked_signIn :
    (serve sampleEnv (sampleCall "2") (.signIn (some ⟨"v@x", "", "password"⟩))
      lockedWorld.state).1.grantee ≠ some "v" := by
  have hstart : LocksStored sampleEnv sampleWorld := fun _ _ hlock => by cases hlock
  have hlock : lockOf sampleEnv lockedWorld.log "v" = some 1000 := by decide +kernel
  exact lock_enforced sampleEnv hstart (World.run_serve _ .refl fun _ _ h => h.elim)
    (fun _ _ h => h.elim) hlock (by decide +kernel)

/-- The user, who is signed in, gets a code for a relying party. -/
def codedWorld : World :=
  sampleWorld.serve sampleEnv { sampleCall "1" with caller := ⟨"v", "", "", "", ""⟩ }
    (.authorizeOIDC ⟨"", "", "app", "https://app", "code", "challenge", "S256", "openid", ""⟩)

/-- After that the user is locked for a thousand seconds. -/
def codedLockedWorld : World :=
  codedWorld.serve sampleEnv (sampleCall "2") (.lockUser "v" (some 1000))

/-- A code from before the lock gets tokens for the locked user. -/
theorem code_outlives_lock :
    ∃ w : World, Runs.Run (World.step sampleEnv) (fun _ _ => True) sampleWorld w ∧
      lockOf sampleEnv w.log "v" = some 1000 ∧ w.state.now < 1000 ∧
      (serve sampleEnv (sampleCall "3")
        (.issueTokenByCode ⟨"app", "", "a1", "https://app", "challenge", ""⟩)
        w.state).1.grantee = some "v" :=
  ⟨codedLockedWorld, World.run_serve _ (World.run_serve _ .refl trivial) trivial,
    by decide +kernel, by decide +kernel, by decide +kernel⟩

end Layr.Auth

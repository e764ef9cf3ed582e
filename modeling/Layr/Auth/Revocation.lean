import Layr.Auth.History

/-!
# Revoked sessions

A session is a row of a table and, while it is fresh, an entry of the key-value store. Once it is
revoked or its user is deleted, its refresh token gets no tokens any more, as long as every entry
of the key-value store has its row: the requests that revoke sessions find the entries by the
rows.
-/

namespace Layr.Auth

open Go Prog

variable (env : Env)

variable {issued : Issued} {hash : String} {q : String → Bool} {p : String → Session → Bool}

/-- The request has revoked the session, or deleted its user, and has said so. -/
def Served.Revokes (served : Served) (issued : Issued) : Prop :=
  match served.request, served.reply with
  | .signOut given, .noContent =>
    issued.refreshToken = presentedToken served.call given ∧ issued.refreshToken ≠ ""
  | .revokeSession sessionID, .noContent => issued.sessionID = sessionID
  | .revokeOtherSessions, .revoked _ =>
    currentSessionID env served.call served.before ≠ "" ∧
      issued.userID = served.call.caller.userID ∧
      issued.sessionID ≠ currentSessionID env served.call served.before
  | .signOutOIDC idTokenHint, .message _ =>
    issued.userID = signOutUserID env served.call idTokenHint served.before ∧ issued.userID ≠ ""
  | .lockUser userID _, .account _ => issued.userID = userID
  | .revokeUserSessions userID, .noContent => issued.userID = userID
  | .deleteUser userID, .noContent => issued.userID = userID
  | .deleteOwnUser, .noContent => issued.userID = served.call.caller.userID
  | _, _ => False

/-- The session was given out and revoked after that. -/
def IsRevoked : List Served → Issued → Prop
  | [], _ => False
  | served :: log, issued =>
    IsRevoked log issued ∨ IsIssued log issued ∧ served.Revokes env issued

/-- What the events of a run meet. The address of the client is accepted, and the session and the
refresh token that are drawn are new. The sessions of a user whom the control plane deletes, the
sessions without a relying party of a user who signs out at the hosted endpoint, and the session
of a refresh grant are not in the key-value store. -/
def KeysFollow (w : World) : Event → Prop
  | .tick _ => True
  | .serve call request => call.isAddressAccepted ∧
    w.state.sessions.get call.newSessionID = none ∧
    (∀ issued, IsIssued w.log issued → issued.refreshToken ≠ call.newRefreshToken) ∧
    match request with
    | .deleteUser userID => ∀ id session, w.state.sessions.get id = some session →
      session.userID = userID → w.state.hasCached session.refreshTokenHash = false
    | .signOutOIDC idTokenHint => ∀ id session, w.state.sessions.get id = some session →
      session.userID = signOutUserID env call idTokenHint w.state → session.clientID = none →
      w.state.hasCached session.refreshTokenHash = false
    | .issueTokenByRefreshToken input =>
      w.state.hasCached (env.hashRefreshToken input.refreshToken) = false
    | _ => True

variable {env} {call : Call} {s s' s₁ : State} {w : World} {request : Request} {user : User}
  {r : Reply}

/-! ## Sessions have their users -/

/-- The foreign key of `auth.sessions`. -/
def SessionsOwned (s : State) : Prop :=
  ∀ id session, s.sessions.get id = some session → (s.users.get session.userID).isSome

namespace SessionsOwned

variable (h : SessionsOwned s)

include h

theorem of_eq (hsessions : s'.sessions = s.sessions)
    (husers : ∀ id, (s.users.get id).isSome → (s'.users.get id).isSome) :
    SessionsOwned s' :=
  fun id session hget => husers _ (h id session (hsessions ▸ hget))

theorem quiet (hs : Quiet s s₁) : SessionsOwned s₁ := by
  refine h.of_eq hs.sessions fun id hid => ?_
  obtain ⟨user, hget⟩ := Option.isSome_iff_exists.mp hid
  obtain ⟨user', hget', -⟩ := hs.users.old id user hget
  exact Option.isSome_of_eq_some hget'

theorem update {users : Users} {id : String} {f : UserRow → UserRow}
    (husers : s.users.update id f = some users) : SessionsOwned { s with users := users } := by
  refine h.of_eq rfl fun k hk => ?_
  obtain ⟨old, -, hget⟩ := Users.update_eq_some husers
  rw [hget]
  split
  · rfl
  · exact hk

theorem updateUser (id : String) (f : UserRow → UserRow) :
    SessionsOwned (s.updateUser id f).2 := by
  unfold State.updateUser
  rcases hupdate : s.users.update id f with _ | users
  · exact h
  · exact h.update hupdate

theorem insertSession (isAccepted : Bool) (newID : String) (session : Session) :
    SessionsOwned (s.insertSession isAccepted newID session).2 := by
  intro id row hget
  rcases insertSession_get s hget with hold | ⟨-, rfl, huser⟩
  · exact h id row hold
  · exact huser

theorem opened : SessionsOwned (s.opened env call user) := by
  intro id row hget
  rw [opened_sessions] at hget
  rw [opened_users]
  exact h.insertSession _ _ _ id row hget

theorem without (p : String → Session → Bool) (q : String → Bool) :
    SessionsOwned (s.without p q) :=
  fun id session hget => h id session (get_of_deleteWhere hget)

theorem deleted {userID : String} (hs : Deleted s s' userID q) : SessionsOwned s' := by
  intro id session hget
  rw [hs.sessions, Table.get_deleteWhere, Option.filter_eq_some_iff] at hget
  have hne : session.userID ≠ userID := by simpa using hget.2
  rw [hs.users, Users.get_delete, if_neg hne]
  exact h id session hget.1

theorem outcome (houtcome : Outcome env call s request r s') : SessionsOwned s' := by
  cases houtcome with
  | refused _ hs => exact h.quiet hs
  | dispatched | coded | codeSpent => exact h
  | opened hs => exact (h.quiet hs).opened
  | authorized _ _ _ hs => exact insertSession (h.quiet hs) _ _ _
  | exchanged => exact insertSession h _ _ _
  | ended => exact h.without _ _
  | reopened => exact (h.without _ _).opened
  | rotated =>
    intro id row hget
    rw [State.rotateSession, Table.get_update] at hget
    split at hget
    · obtain ⟨old, hold, rfl⟩ := Option.map_eq_some_iff.mp hget
      exact h id old hold
    · exact h id row hget
  | mfaSet => exact h.updateUser _ _
  | enrolled => exact (h.updateUser _ _).opened
  | locked _ husers => exact (h.update husers).without _ _
  | unlocked _ husers => exact h.update husers
  | deletedUser _ _ hs | deletedOwnUser _ hs => exact h.deleted hs

end SessionsOwned

/-! ## Entries of the key-value store have their rows -/

/-- Every session in the key-value store that the refresh endpoint goes on with is in the table. -/
def CacheStored (s : State) : Prop :=
  ∀ hash user, s.findCached hash = some user → user.id ≠ "" →
    ∃ id session, s.sessions.get id = some session ∧ session.refreshTokenHash = hash ∧
      session.userID = user.id

theorem without_findCached (h : (s.without p q).findCached hash = some user) :
    s.findCached hash = some user ∧ q hash = false := by
  obtain ⟨entry, hget, rfl, hlive⟩ := get_of_find h
  rw [State.without, Table.get_deleteWhere, Option.filter_eq_some_iff] at hget
  exact ⟨find_of_get hget.1 hlive, by simpa using hget.2⟩

theorem opened_findCached {hash : String} {other : User}
    (h : (s.opened env call user).findCached hash = some other) :
    s.findCached hash = some other ∨
      hash = env.hashRefreshToken call.newRefreshToken ∧ other = user.cached := by
  obtain ⟨entry, hget, rfl, hlive⟩ := get_of_find h
  rw [opened_now] at hlive
  rcases opened_cache_get _ _ _ hget with hold | hnew
  · exact .inl (find_of_get hold hlive)
  · exact .inr hnew

/-- What a request takes out of the table it also takes out of the key-value store. -/
def KeysTaken (s : State) (p : String → Session → Bool) (q : String → Bool) : Prop :=
  ∀ id session, s.sessions.get id = some session → p id session →
    s.hasCached session.refreshTokenHash → q session.refreshTokenHash

theorem hasCached_of_findCached (h : s.findCached hash = some user) (hid : user.id ≠ "") :
    s.hasCached hash := by
  rw [State.hasCached, h, Option.any_some]
  exact decide_eq_true hid

theorem hasCached_eq_false (h : ∀ user, s.findCached hash = some user → user.id = "") :
    s.hasCached hash = false := by
  unfold State.hasCached
  rcases hfind : s.findCached hash with _ | user
  · rfl
  · simp [h user hfind]

/-- Sessions that are not in the key-value store need not be taken out of it. -/
theorem KeysTaken.of_not_cached
    (h : ∀ id session, s.sessions.get id = some session → p id session →
      s.hasCached session.refreshTokenHash = false) : KeysTaken s p q := by
  intro id session hget hp hcached
  rw [h id session hget hp] at hcached
  cases hcached

theorem keysTaken_keysOf (s : State) (p : String → Session → Bool) :
    KeysTaken s p (s.keysOf p) := by
  intro id session hget hp _
  refine List.any_eq_true.mpr ⟨(id, session), ?_, decide_eq_true rfl⟩
  exact List.mem_filter.mpr ⟨Table.get_eq_some_iff.mp hget, hp⟩

namespace CacheStored

variable (h : CacheStored s)

include h

theorem quiet (hs : Quiet s s₁) : CacheStored s₁ := by
  intro hash user hfind hid
  rw [State.findCached, hs.cache, hs.now] at hfind
  rw [hs.sessions]
  exact h hash user hfind hid

theorem insertSession (isAccepted : Bool) (newID : String) (session : Session) :
    CacheStored (s.insertSession isAccepted newID session).2 := by
  intro hash user hfind hid
  obtain ⟨id, row, hget, hrow⟩ := h hash user hfind hid
  exact ⟨id, row, insertSession_kept s hget, hrow⟩

theorem opened (haccepted : call.isAddressAccepted)
    (hnew : s.sessions.get call.newSessionID = none)
    (huser : user.id ≠ "" → (s.users.get user.id).isSome) :
    CacheStored (s.opened env call user) := by
  intro hash other hfind hid
  rw [opened_sessions]
  rcases opened_findCached hfind with hold | ⟨rfl, rfl⟩
  · obtain ⟨id, row, hget, hrow⟩ := h hash other hold hid
    exact ⟨id, row, insertSession_kept s hget, hrow⟩
  · rw [haccepted]
    exact ⟨_, _, insertSession_new s (huser hid) hnew, rfl, rfl⟩

theorem without (htaken : KeysTaken s p q) : CacheStored (s.without p q) := by
  intro hash user hfind hid
  obtain ⟨hold, hq⟩ := without_findCached hfind
  obtain ⟨id, row, hget, rfl, howner⟩ := h hash user hold hid
  refine ⟨id, row, ?_, rfl, howner⟩
  rw [State.without, Table.get_deleteWhere, hget, Option.filter_some, if_pos]
  cases hp : p id row with
  | false => rfl
  | true =>
    rw [htaken id row hget hp (hasCached_of_findCached hold hid)] at hq
    cases hq

theorem rotated {session : String × Session} {newHash : String} {expiresAt : ℤ}
    (hsession : s.selectLiveSession hash = some session) (hcached : s.hasCached hash = false) :
    CacheStored (s.rotateSession session.1 newHash expiresAt) := by
  intro hash' user hfind hid
  obtain ⟨id, row, hget, rfl, howner⟩ := h hash' user hfind hid
  refine ⟨id, row, ?_, rfl, howner⟩
  rw [State.rotateSession, Table.get_update, if_neg, hget]
  -- the session that is rotated has another hash, which is not in the key-value store
  rintro rfl
  obtain ⟨hget', rfl⟩ := get_of_selectLiveSession hsession
  obtain rfl : row = session.2 := Option.some.inj (hget.symm.trans hget')
  have hfind : s.findCached session.2.refreshTokenHash = some user := hfind
  rw [hasCached_of_findCached hfind hid] at hcached
  cases hcached

theorem deleted {userID : String} (hs : Deleted s s' userID q)
    (htaken : KeysTaken s (fun _ session => session.userID = userID) q) : CacheStored s' := by
  have hwithout := h.without htaken
  intro hash user hfind hid
  rw [State.findCached, hs.cache, hs.now] at hfind
  rw [hs.sessions]
  exact hwithout hash user hfind hid

end CacheStored

theorem Ends.keysTaken (hfast : env.config.fastPathSessionsEnabled)
    (hkeys : KeysFollow env w (.serve call request)) (h : Ends env call w.state request p q) :
    KeysTaken w.state p q := by
  obtain ⟨-, -, -, hkeys⟩ := hkeys
  cases h with
  | signOut | cached => exact fun _ _ _ hp _ => hp
  | stored hsession hcached =>
    obtain ⟨hget', hhash⟩ := get_of_selectSession hsession
    refine .of_not_cached fun id session hget hp => ?_
    obtain rfl := of_decide_eq_true hp
    obtain rfl := Option.some.inj (hget.symm.trans hget')
    exact hasCached_eq_false (hhash ▸ hcached hfast)
  | grant hsession =>
    obtain ⟨hget', hhash⟩ := get_of_selectLiveSession hsession
    refine .of_not_cached fun id session hget hp => ?_
    obtain rfl := of_decide_eq_true hp
    obtain rfl := Option.some.inj (hget.symm.trans hget')
    exact hhash ▸ hkeys
  | own | others | user => exact keysTaken_keysOf _ _
  | relyingParties =>
    intro id session hget hp hcached
    have howner := of_decide_eq_true hp
    cases hclient : session.clientID with
    | none =>
      rw [hkeys id session hget howner hclient] at hcached
      cases hcached
    | some =>
      refine keysTaken_keysOf w.state _ id session hget ?_ hcached
      simp [howner, hclient]

theorem CacheStored.outcome (hfast : env.config.fastPathSessionsEnabled)
    (hkeys : KeysFollow env w (.serve call request)) (howned : SessionsOwned w.state)
    (h : CacheStored w.state) (houtcome : Outcome env call w.state request r s') :
    CacheStored s' := by
  have haccepted := hkeys.1
  have hnew := hkeys.2.1
  cases houtcome with
  | refused _ hs => exact h.quiet hs
  | dispatched | coded | codeSpent | mfaSet | unlocked => exact h
  | opened hs _ huser =>
    exact (h.quiet hs).opened haccepted (by rw [hs.sessions]; exact hnew) huser
  | authorized _ _ _ hs => exact insertSession (h.quiet hs) _ _ _
  | exchanged => exact insertSession h _ _ _
  | ended _ hends => exact h.without (hends.keysTaken hfast hkeys)
  | reopened hends _ huser =>
    refine (h.without (hends.keysTaken hfast hkeys)).opened haccepted ?_ fun _ => ?_
    · rw [State.without, Table.get_deleteWhere, hnew, Option.filter_none]
    · rcases huser with hsome | ⟨hid, hash, hfind⟩
      · exact hsome
      · obtain ⟨id, session, hget, -, howner⟩ := h hash _ hfind hid
        exact howner ▸ howned id session hget
  | rotated _ hrequest hsession =>
    subst hrequest
    exact h.rotated hsession hkeys.2.2.2
  | enrolled _ _ _ huser => exact opened h haccepted hnew fun _ => huser
  | locked => exact without h (keysTaken_keysOf w.state _)
  | deletedUser hrequest _ hs =>
    subst hrequest
    exact h.deleted hs (.of_not_cached fun id session hget hp =>
      hkeys.2.2.2 id session hget (of_decide_eq_true hp))
  | deletedOwnUser _ hs => exact h.deleted hs (keysTaken_keysOf w.state _)

/-! ## Revoked sessions have no rows -/

variable (env call s request) in
/-- No session in the table is one that the request has revoked. -/
def Unrevoked (r : Reply) (s' : State) : Prop :=
  ∀ id session token, s'.sessions.get id = some session →
    session.refreshTokenHash = env.hashRefreshToken token →
    ¬Served.Revokes env ⟨s, call, request, r⟩ ⟨session.userID, id, token⟩

theorem Unrevoked.of_deleted (p : String → Session → Bool)
    (hsessions : s'.sessions = s.sessions.deleteWhere p)
    (hp : ∀ id session token, s.sessions.get id = some session →
      session.refreshTokenHash = env.hashRefreshToken token →
      Served.Revokes env ⟨s, call, request, r⟩ ⟨session.userID, id, token⟩ →
      p id session) : Unrevoked env call s request r s' := by
  intro id session token hget hhash hrevokes
  rw [hsessions, Table.get_deleteWhere, Option.filter_eq_some_iff] at hget
  rw [hp id session token hget.1 hhash hrevokes] at hget
  cases hget.2

/-- The sessions of a user are deleted. -/
theorem Unrevoked.of_user {userID : String}
    (hsessions : s'.sessions = s.sessions.deleteWhere fun _ session => session.userID = userID)
    (huser : ∀ issued, Served.Revokes env ⟨s, call, request, r⟩ issued → issued.userID = userID) :
    Unrevoked env call s request r s' :=
  .of_deleted _ hsessions fun _ _ _ _ _ hrevokes => decide_eq_true (huser _ hrevokes)

theorem Unrevoked.refused (h : ∀ issued, ¬Served.Revokes env ⟨s, call, request, r⟩ issued) :
    Unrevoked env call s request r s' := fun _ _ _ _ _ => h _

variable {Q : Empty → State → Prop}

theorem handleSignOut_unrevoked (given : String) :
    (handleSignOut env call given).wp Q (Unrevoked env call s (.signOut given)) s := by
  simp only [handleSignOut, wp_bind, wp_change, wp_stmt, wp_ite, wp_reply]
  refine ⟨fun _ => .of_deleted (fun _ session => session.refreshTokenHash =
    env.hashRefreshToken (presentedToken call given)) rfl fun _ _ token _ hhash hrevokes => ?_,
    fun hempty => .refused fun _ hrevokes => ?_⟩
  · obtain rfl : token = presentedToken call given := hrevokes.1
    exact decide_eq_true hhash
  · exact hrevokes.2 (hrevokes.1.trans (not_not.mp hempty))

theorem handleRevokeSession_unrevoked (sessionID : String) :
    (handleRevokeSession env call sessionID).wp Q
      (Unrevoked env call s (.revokeSession sessionID)) s := by
  simp only [handleRevokeSession, wp_bind, wp_change, wp_stmt, wp_reply, wp_ensure]
  refine ⟨fun _ => ⟨fun _ => ⟨fun hdeleted => ?_, fun _ => .refused fun _ => id⟩,
    fun _ => .refused fun _ => id⟩, fun _ => .refused fun _ => id⟩
  refine .of_deleted (fun id session => id = sessionID && session.userID = call.caller.userID) rfl
    fun id session token hget _ hrevokes => ?_
  -- a session with the id was deleted, and there is only one
  obtain ⟨⟨id', session'⟩, he⟩ := List.exists_mem_of_ne_nil _ hdeleted
  obtain ⟨hmem, hp⟩ := List.mem_filter.mp he
  obtain ⟨hid, -⟩ := Bool.and_eq_true_iff.mp hp
  obtain rfl : id = sessionID := hrevokes
  obtain rfl : id' = id := of_decide_eq_true hid
  have hget' : s.sessions.get id' = some session' := Table.get_eq_some_iff.mpr hmem
  obtain rfl := Option.some.inj (hget.symm.trans hget')
  exact hp

theorem handleRevokeOtherSessions_unrevoked :
    (handleRevokeOtherSessions env call).wp Q (Unrevoked env call s .revokeOtherSessions) s := by
  simp only [handleRevokeOtherSessions, wp_bind, wp_query, wp_change, wp_stmt, wp_ite, wp_reply,
    wp_ensure]
  refine ⟨fun _ => ⟨fun hempty => ⟨fun _ => .refused fun _ hrevokes => hrevokes.1 hempty,
    fun _ => .refused fun _ => id⟩, fun _ => ?_⟩, fun _ => .refused fun _ => id⟩
  refine .of_deleted (fun id session => session.userID = call.caller.userID &&
    id ≠ currentSessionID env call s) rfl fun id session token _ _ hrevokes => ?_
  exact Bool.and_eq_true_iff.mpr ⟨decide_eq_true hrevokes.2.1, decide_eq_true hrevokes.2.2⟩

theorem handleRevokeUserSessions_unrevoked (userID : String) :
    (handleRevokeUserSessions env call userID).wp Q
      (Unrevoked env call s (.revokeUserSessions userID)) s := by
  simp only [handleRevokeUserSessions, wp_bind, wp_change, wp_stmt, wp_reply, wp_ensure,
    wp_requireScope]
  exact ⟨fun _ => ⟨fun _ => .of_user rfl fun _ => id, fun _ => .refused fun _ => id⟩,
    fun _ _ => .refused fun _ => id⟩

theorem handleSignOutOIDC_unrevoked (idTokenHint : String) :
    (handleSignOutOIDC env call idTokenHint).wp Q
      (Unrevoked env call s (.signOutOIDC idTokenHint)) s := by
  simp only [handleSignOutOIDC, wp_bind, wp_query, wp_change, wp_stmt, wp_ite, wp_reply, wp_ensure]
  refine ⟨fun _ => ⟨fun _ => ?_, fun hempty => .refused fun _ hrevokes => ?_⟩,
    fun _ => .refused fun _ => id⟩
  · exact .of_user rfl fun _ => And.left
  · exact hrevokes.2 (hrevokes.1.trans (not_not.mp hempty))

theorem handleLockUser_unrevoked (userID : String) (lockedUntil : Option ℤ) :
    (handleLockUser env call userID lockedUntil).wp Q
      (Unrevoked env call s (.lockUser userID lockedUntil)) s := by
  simp only [handleLockUser, wp_bind, wp_query, wp_change, wp_stmt, wp_reply, wp_ensure,
    wp_require, wp_requireScope]
  exact ⟨fun _ => ⟨fun _ => ⟨fun _ => .refused fun _ => id, fun _ _ => .of_user rfl fun _ => id⟩,
    fun _ => .refused fun _ => id⟩, fun _ _ => .refused fun _ => id⟩

theorem handleDeleteUser_unrevoked (userID : String) :
    (handleDeleteUser env call userID).wp Q (Unrevoked env call s (.deleteUser userID)) s := by
  simp only [handleDeleteUser, wp_bind, wp_stmt, wp_reply, wp_ensure, wp_require, wp_requireScope]
  exact ⟨fun _ => ⟨fun _ => ⟨fun _ => .refused fun _ => id, fun _ _ => .of_user rfl fun _ => id⟩,
    fun _ => .refused fun _ => id⟩, fun _ _ => .refused fun _ => id⟩

theorem handleDeleteOwnUser_unrevoked :
    (handleDeleteOwnUser call).wp Q (Unrevoked env call s .deleteOwnUser) s := by
  simp only [handleDeleteOwnUser, wp_bind, wp_query, wp_change, wp_stmt, wp_reply, wp_ensure]
  exact ⟨fun _ => .of_user rfl fun _ => id, fun _ => .refused fun _ => id⟩

theorem serve_unrevoked (env : Env) (call : Call) (request : Request) (s : State) :
    Unrevoked env call s request (serve env call request s).1 (serve env call request s).2 := by
  have hwp : ∀ {p : Handler}, p.wp (fun _ _ => True) (Unrevoked env call s request) s →
      Unrevoked env call s request (p.answer s).1 (p.answer s).2 := wp_iff_answer.mp
  cases request with
  | signOut given => exact hwp (handleSignOut_unrevoked given)
  | revokeSession sessionID => exact hwp (handleRevokeSession_unrevoked sessionID)
  | revokeOtherSessions => exact hwp handleRevokeOtherSessions_unrevoked
  | revokeUserSessions userID => exact hwp (handleRevokeUserSessions_unrevoked userID)
  | signOutOIDC idTokenHint => exact hwp (handleSignOutOIDC_unrevoked idTokenHint)
  | lockUser userID lockedUntil => exact hwp (handleLockUser_unrevoked userID lockedUntil)
  | deleteUser userID => exact hwp (handleDeleteUser_unrevoked userID)
  | deleteOwnUser => exact hwp handleDeleteOwnUser_unrevoked
  | _ => exact fun _ _ _ _ _ => id

/-! ## Whole runs -/

variable (env) in
/-- Sessions were given out once, are in the table if they are in the key-value store, and are not
in the table once they are revoked. -/
structure Revocable (w : World) : Prop extends SessionsIssued env w where
  unique : ∀ issued issued', IsIssued w.log issued → IsIssued w.log issued' →
    issued.refreshToken = issued'.refreshToken → issued = issued'
  owned : SessionsOwned w.state
  stored : CacheStored w.state
  gone : ∀ issued, IsRevoked env w.log issued → ∀ id session,
    w.state.sessions.get id = some session →
    session.refreshTokenHash ≠ env.hashRefreshToken issued.refreshToken

theorem IsRevoked.isIssued {log : List Served} (h : IsRevoked env log issued) :
    IsIssued log issued := by
  induction log with
  | nil => exact h.elim
  | cons served log ih =>
    rcases h with hold | ⟨hissued, -⟩
    · exact (ih hold).cons _
    · exact hissued.cons _

theorem IsIssued.of_cons {log : List Served} {served : Served}
    (h : IsIssued (served :: log) issued) :
    IsIssued log issued ∨ served.Issues issued := by
  obtain ⟨other, hmem, hissues⟩ := h
  rcases List.mem_cons.mp hmem with rfl | hmem
  · exact .inr hissues
  · exact .inl ⟨other, hmem, hissues⟩

theorem Reply.issued_eq_none (hr : r.grantee = none) : r.issued call = none := by
  cases r <;> first | rfl | cases hr

/-- A session that is given out has the token that was drawn. -/
theorem Outcome.issued_token (h : Outcome env call s request r s')
    (hissued : r.issued call = some issued) : issued.refreshToken = call.newRefreshToken := by
  cases h with
  | refused hr | dispatched _ _ _ hr | codeSpent _ hr | ended hr | mfaSet hr =>
    rw [Reply.issued_eq_none hr] at hissued
    cases hissued
  | opened | authorized | exchanged | reopened | rotated | enrolled =>
    cases hissued
    rfl
  | coded | locked | unlocked | deletedOwnUser => cases hissued
  | deletedUser _ hr =>
    rcases hr with rfl | ⟨rfl, -⟩
    · cases hissued
    · cases hissued

/-- The row of a token that was given out is that of its session. -/
theorem Revocable.row_of_issued (hinv : Revocable env w) (hissued : IsIssued w.log issued)
    {id : String} {session : Session} (hget : w.state.sessions.get id = some session)
    (hhash : session.refreshTokenHash = env.hashRefreshToken issued.refreshToken) :
    issued = ⟨session.userID, id, issued.refreshToken⟩ := by
  obtain ⟨token, hrow, hrowHash⟩ := hinv.sessions id session hget
  obtain rfl : issued.refreshToken = token := env.digest.injective (hhash.symm.trans hrowHash)
  exact hinv.unique issued _ hissued hrow rfl

/-- A session that is created is new, one that is revoked leaves the table. -/
theorem Revocable.serve (hfast : env.config.fastPathSessionsEnabled)
    (hinv : Revocable env w) (hkeys : KeysFollow env w (.serve call request)) :
    Revocable env (w.serve env call request) := by
  have houtcome := serve_outcome env call request w.state
  have hfresh := hkeys.2.2.1
  -- a session with a token from before is not new
  have hold : ∀ {issued : Issued}, IsIssued w.log issued → ∀ {id session},
      (w.serve env call request).state.sessions.get id = some session →
      session.refreshTokenHash = env.hashRefreshToken issued.refreshToken →
      w.state.sessions.get id = some session := by
    intro issued hissued id session hget hhash
    refine (houtcome.session_get hget).resolve_right ?_
    rintro ⟨-, hnew⟩
    exact hfresh issued hissued (env.digest.injective (hhash.symm.trans hnew))
  refine ⟨hinv.toSessionsIssued.serve env call request, ?_, hinv.owned.outcome houtcome,
    hinv.stored.outcome hfast hkeys hinv.owned houtcome, ?_⟩
  · intro issued issued' hissued hissued' htoken
    rcases hissued.of_cons with hlog | hnew
    · rcases hissued'.of_cons with hlog' | hnew'
      · exact hinv.unique issued issued' hlog hlog' htoken
      · exact absurd (htoken.trans (houtcome.issued_token hnew')) (hfresh issued hlog)
    · rcases hissued'.of_cons with hlog' | hnew'
      · exact absurd (htoken.symm.trans (houtcome.issued_token hnew)) (hfresh issued' hlog')
      · exact Option.some.inj (hnew.symm.trans hnew')
  · intro issued hrevoked id session hget hhash
    rcases hrevoked with hbefore | ⟨hissued, hrevokes⟩
    · exact hinv.gone issued hbefore id session (hold hbefore.isIssued hget hhash) hhash
    · have hrow := hinv.row_of_issued hissued (hold hissued hget hhash) hhash
      rw [hrow] at hrevokes
      exact serve_unrevoked env call request w.state id session issued.refreshToken hget hhash
        hrevokes

theorem Revocable.later (hinv : Revocable env w) (seconds : ℕ) :
    Revocable env (w.later seconds) := by
  refine ⟨⟨hinv.sessions, hinv.cache⟩, hinv.unique, hinv.owned, ?_, hinv.gone⟩
  intro hash user hfind hid
  obtain ⟨entry, hget, rfl, hlive⟩ := get_of_find hfind
  have hnow : w.state.now ≤ (w.later seconds).state.now := by
    show w.state.now ≤ w.state.now + (seconds : ℤ)
    omega
  exact hinv.stored hash _ (find_of_get hget (lt_of_le_of_lt hnow hlive)) hid

theorem refreshStored_refused (hnone : s.selectSession hash = none) :
    (refreshStored env call hash).wp Q (fun r _ => r.grantee = none) s := by
  simp only [refreshStored, wp_bind, wp_look, wp_require]
  refine ⟨fun _ => rfl, fun session hsession => ?_⟩
  rw [hnone] at hsession
  cases hsession

/-- The refresh endpoint gives out tokens for sessions in the key-value store or in the table
only. -/
theorem handleRefreshToken_refused {given : String}
    (hhash : env.hashRefreshToken (presentedToken call given) = hash)
    (hcached : s.hasCached hash = false) (hnone : s.selectSession hash = none) :
    (handleRefreshToken env call (some given)).wp Q (fun r _ => r.grantee = none) s := by
  simp only [handleRefreshToken, wp_bind, wp_look, wp_ite, wp_elim, wp_require, wp_ensure]
  refine ⟨fun _ => rfl, fun given' hgiven => ⟨fun _ => ?_, fun _ => rfl⟩⟩
  cases hgiven
  rw [hhash]
  refine ⟨fun _ => ⟨fun _ => refreshStored_refused hnone, fun user huser => ?_⟩,
    fun _ => refreshStored_refused hnone⟩
  obtain ⟨hfind, hid⟩ := Option.filter_eq_some_iff.mp huser
  rw [hasCached_of_findCached hfind (of_decide_eq_true hid)] at hcached
  cases hcached

/-- As long as every session in the key-value store has its row, the refresh token of a session
that was revoked, or whose user was deleted, gets no tokens. -/
theorem revocation_final (env : Env) {start w : World} {call : Call} {issued : Issued}
    {given : String} (hfast : env.config.fastPathSessionsEnabled)
    (hstart : Revocable env start) (hrun : Runs.Run (World.step env) (KeysFollow env) start w)
    (hrevoked : IsRevoked env w.log issued)
    (hgiven : presentedToken call given = issued.refreshToken) :
    (serve env call (.refreshToken (some given)) w.state).1.grantee = none := by
  have hinv : Revocable env w := World.invariant env hrun hstart
    (fun _ _ _ hinv hkeys => hinv.serve hfast hkeys) fun _ seconds hinv => hinv.later seconds
  have hgone := hinv.gone issued hrevoked
  have hcached : w.state.hasCached (env.hashRefreshToken issued.refreshToken) = false := by
    refine hasCached_eq_false fun user hfind => ?_
    by_contra hid
    obtain ⟨id, session, hget, hhash, -⟩ := hinv.stored _ user hfind hid
    exact hgone id session hget hhash
  have hnone : w.state.selectSession (env.hashRefreshToken issued.refreshToken) = none := by
    rcases hselect : w.state.selectSession (env.hashRefreshToken issued.refreshToken) with
      _ | session
    · rfl
    · obtain ⟨hget, hhash⟩ := get_of_selectSession hselect
      exact absurd hhash (hgone _ _ hget)
  have hrefused : (handleRefreshToken env call (some given)).wp (fun _ _ => True)
      (fun r _ => r.grantee = none) w.state :=
    handleRefreshToken_refused (congrArg env.hashRefreshToken hgiven) hcached hnone
  exact wp_iff_answer.mp hrefused

/-! ## A session that outlives its user -/

theorem revocable_sampleWorld : Revocable sampleEnv sampleWorld where
  sessions _ _ h := by cases h
  cache _ _ h := by cases h
  unique _ _ h := by
    obtain ⟨_, hmem, -⟩ := h
    cases hmem
  owned _ _ h := by cases h
  stored _ _ h := by cases h
  gone _ h := h.elim

/-- The registered user signs in. -/
def signedInWorld : World :=
  sampleWorld.serve sampleEnv (sampleCall "1") (.signIn (some ⟨"v@x", "", "password"⟩))

/-- The user signs out. -/
def signedOutWorld : World :=
  signedInWorld.serve sampleEnv (sampleCall "2") (.signOut "r1")

/-- The control plane deletes the user. -/
def userlessWorld : World :=
  signedInWorld.serve sampleEnv (sampleCall "2") (.deleteUser "v")

/-- The session of the sign-in. -/
def sampleIssued : Issued := ⟨"v", "s1", "r1"⟩

theorem signedInWorld_issued :
    Served.Issues ⟨sampleWorld.state, sampleCall "1", .signIn (some ⟨"v@x", "", "password"⟩),
      (serve sampleEnv (sampleCall "1") (.signIn (some ⟨"v@x", "", "password"⟩))
        sampleWorld.state).1⟩ sampleIssued := by
  decide +kernel

theorem isIssued_signedInWorld : IsIssued signedInWorld.log issued ↔ issued = sampleIssued := by
  constructor
  · intro h
    rcases h.of_cons with ⟨_, hmem, -⟩ | hissues
    · cases hmem
    · exact Option.some.inj (hissues.symm.trans signedInWorld_issued)
  · rintro rfl
    exact ⟨_, List.mem_cons_self, signedInWorld_issued⟩

theorem run_signedInWorld :
    Runs.Run (World.step sampleEnv) (KeysFollow sampleEnv) sampleWorld signedInWorld := by
  refine World.run_serve _ .refl ⟨rfl, rfl, fun issued h => ?_, trivial⟩
  obtain ⟨_, hmem, -⟩ := h
  cases hmem

/-- The refresh token of a session that was signed out gets nothing. -/
theorem refresh_after_signOut :
    IsRevoked sampleEnv signedOutWorld.log sampleIssued ∧
      (serve sampleEnv (sampleCall "3") (.refreshToken (some "r1"))
          signedOutWorld.state).1.grantee =
        none := by
  have hreply : (serve sampleEnv (sampleCall "2") (.signOut "r1") signedInWorld.state).1 =
      .noContent := by decide +kernel
  have hrevoked : IsRevoked sampleEnv signedOutWorld.log sampleIssued := by
    refine .inr ⟨isIssued_signedInWorld.mpr rfl, ?_⟩
    rw [hreply]
    exact ⟨rfl, by decide⟩
  have hkeys : KeysFollow sampleEnv signedInWorld (.serve (sampleCall "2") (.signOut "r1")) := by
    refine ⟨rfl, by decide +kernel, fun issued h => ?_, trivial⟩
    rw [isIssued_signedInWorld.mp h]
    decide
  exact ⟨hrevoked, revocation_final sampleEnv rfl revocable_sampleWorld
    (World.run_serve _ run_signedInWorld hkeys) hrevoked rfl⟩

/-- The refresh token of a user whom the control plane has deleted gets tokens. -/
theorem refresh_after_deletion :
    sampleEnv.config.fastPathSessionsEnabled ∧
    ∃ w : World, Runs.Run (World.step sampleEnv) (fun _ _ => True) sampleWorld w ∧
      IsRevoked sampleEnv w.log sampleIssued ∧
      (serve sampleEnv (sampleCall "3") (.refreshToken (some sampleIssued.refreshToken))
        w.state).1.grantee = some "v" := by
  have hreply : (serve sampleEnv (sampleCall "2") (.deleteUser "v") signedInWorld.state).1 =
      .noContent := by decide +kernel
  refine ⟨rfl, userlessWorld, World.run_serve _ (World.run_serve _ .refl trivial) trivial, ?_,
    by decide +kernel⟩
  refine .inr ⟨isIssued_signedInWorld.mpr rfl, ?_⟩
  rw [hreply]
  rfl

end Layr.Auth

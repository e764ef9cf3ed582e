import Layr.Auth.HandlerOutcomes

/-!
# What requests leave behind

For every outcome of a request: which sessions, copies of sessions, one-time codes and
authorization codes are new, and what becomes of the locks and second factors of users.
-/

namespace Layr.Auth

variable {env : Env} {call : Call} {s s' : State} {request : Request} {r : Reply}

variable {session : Session} {newID id hash k : String} {user : User} {f : UserRow → UserRow}

/-! ## The states after the ends of handlers -/

section ends

variable (env call s)

@[simp] theorem opened_users (user : User) : (s.opened env call user).users = s.users := by
  unfold State.opened; dsimp only; split <;> rfl

@[simp] theorem opened_codes (user : User) : (s.opened env call user).codes = s.codes := by
  unfold State.opened; dsimp only; split <;> rfl

@[simp] theorem opened_otps (user : User) : (s.opened env call user).otps = s.otps := by
  unfold State.opened; dsimp only; split <;> rfl

@[simp] theorem opened_outbox (user : User) : (s.opened env call user).outbox = s.outbox := by
  unfold State.opened; dsimp only; split <;> rfl

@[simp] theorem opened_now (user : User) : (s.opened env call user).now = s.now := by
  unfold State.opened; dsimp only; split <;> rfl

theorem opened_sessions (user : User) :
    (s.opened env call user).sessions =
      (s.insertSession call.isAddressAccepted call.newSessionID
        (newSession env call user.id none (s.now + env.refreshTokenExpiry))).2.sessions := by
  unfold State.opened; dsimp only; split <;> rfl

/-- A session in the table after an insert. -/
theorem insertSession_get {isAccepted : Bool} {row : Session}
    (h : (s.insertSession isAccepted newID session).2.sessions.get id = some row) :
    s.sessions.get id = some row ∨
      id = newID ∧ row = session ∧ (s.users.get session.userID).isSome := by
  unfold State.insertSession at h
  dsimp only at h
  split at h
  · next haccepted =>
    exact (Table.get_of_insert_getD h).imp_right fun ⟨_, hid, hrow⟩ =>
      ⟨hid, hrow, (Bool.and_eq_true_iff.mp haccepted).2⟩
  · exact .inl h

/-- An insert leaves the sessions in the table as they are. -/
theorem insertSession_kept {isAccepted : Bool} {row : Session} (h : s.sessions.get id = some row) :
    (s.insertSession isAccepted newID session).2.sessions.get id = some row := by
  unfold State.insertSession
  dsimp only
  split
  · rcases hinsert : s.sessions.insert newID session with _ | sessions
    · exact h
    · exact Table.get_insert_of_get hinsert h
  · exact h

/-- The session that is inserted for a user, if its id is new. -/
theorem insertSession_new (huser : (s.users.get session.userID).isSome)
    (hnew : s.sessions.get newID = none) :
    (s.insertSession true newID session).2.sessions.get newID = some session := by
  obtain ⟨sessions, hinsert⟩ := Table.exists_insert hnew session
  unfold State.insertSession
  dsimp only
  rw [huser, Bool.and_self, if_pos rfl, hinsert, Option.getD_some, Table.get_insert hinsert,
    if_pos rfl]

/-- A copy of a session after one was given out. -/
theorem opened_cache_get {entry : Entry User}
    (h : (s.opened env call user).cache.get hash = some entry) :
    s.cache.get hash = some entry ∨
      hash = env.hashRefreshToken call.newRefreshToken ∧ entry.value = user.cached := by
  unfold State.opened at h
  dsimp only at h
  split at h
  · rw [State.setCached, Store.set, Table.get_upsert_const] at h
    split at h
    · next hhash => exact .inr ⟨hhash, by rw [← Option.some.inj h]⟩
    · exact .inl h
  · exact .inl h

theorem get_of_find {α : Type} {store : Store α} {now : ℤ} {key : String} {value : α}
    (h : store.find now key = some value) :
    ∃ entry, store.get key = some entry ∧ entry.value = value ∧ now < entry.expiresAt := by
  obtain ⟨entry, hentry, rfl⟩ := Option.map_eq_some_iff.mp h
  obtain ⟨hget, hlive⟩ := Option.filter_eq_some_iff.mp hentry
  exact ⟨entry, hget, rfl, of_decide_eq_true hlive⟩

theorem find_of_get {α : Type} {store : Store α} {now : ℤ} {key : String} {entry : Entry α}
    (hget : store.get key = some entry) (hlive : now < entry.expiresAt) :
    store.find now key = some entry.value := by
  rw [Store.find, hget, Option.filter_some, if_pos (decide_eq_true hlive), Option.map_some]

theorem get_of_deleteWhere {κ ρ : Type} [DecidableEq κ] {t : Table κ ρ} {p : κ → ρ → Bool} {k : κ}
    {row : ρ} (h : (t.deleteWhere p).get k = some row) : t.get k = some row := by
  rw [Table.get_deleteWhere] at h
  exact (Option.filter_eq_some_iff.mp h).1

end ends

theorem setCode_get {newCode code : String} {payload : OIDCAuthorizationCodePayload}
    {entry : Entry OIDCAuthorizationCodePayload}
    (h : (s.setCode newCode payload).codes.get code = some entry) :
    s.codes.get code = some entry ∨ code = newCode ∧ entry.value = payload := by
  rw [State.setCode, Store.set, Table.get_upsert_const] at h
  split at h
  · next hcode => exact .inr ⟨hcode, by rw [← Option.some.inj h]⟩
  · exact .inl h

theorem update_lockedUntil {users users' : Users} (h : users.update id f = some users')
    (hget : users.get k = some user) (hf : k = id → ∀ row, (f row).lockedUntil = row.lockedUntil) :
    ∃ user', users'.get k = some user' ∧ user'.lockedUntil = user.lockedUntil := by
  obtain ⟨old, hold, hget'⟩ := Users.update_eq_some h
  rw [hget']
  by_cases hk : k = id
  · rw [hk, hold] at hget
    obtain rfl := Option.some.inj hget
    exact ⟨_, if_pos hk, hf hk old.toUserRow⟩
  · exact ⟨user, by rw [if_neg hk]; exact hget, rfl⟩

theorem updateUser_lockedUntil (hget : s.users.get k = some user)
    (hf : ∀ row, (f row).lockedUntil = row.lockedUntil) :
    ∃ user', (s.updateUser id f).2.users.get k = some user' ∧
      user'.lockedUntil = user.lockedUntil := by
  unfold State.updateUser
  rcases hupdate : s.users.update id f with _ | users
  · exact ⟨user, hget, rfl⟩
  · exact update_lockedUntil hupdate hget fun _ => hf

theorem update_mfaEnabled {users users' : Users} (h : users.update id f = some users')
    (hget : users'.get k = some user) (hmfa : user.mfaEnabled)
    (hf : ∀ row, (f row).mfaEnabled = row.mfaEnabled) :
    ∃ old, users.get k = some old ∧ old.mfaEnabled := by
  obtain ⟨old, hold, hget'⟩ := Users.update_eq_some h
  rw [hget'] at hget
  split at hget
  · next hk =>
    cases hget
    exact ⟨old, hk ▸ hold, (hf old.toUserRow).symm.trans hmfa⟩
  · exact ⟨user, hget, hmfa⟩

/-! ## Sessions -/

/-- The key-value store has a session under the hash that the refresh endpoint goes on with. -/
def State.hasCached (s : State) (hash : String) : Bool :=
  (s.findCached hash).any fun user => user.id ≠ ""

/-- A session that a reply gives out. -/
structure Issued where
  userID : String
  sessionID : String
  refreshToken : String
  deriving DecidableEq, Repr

/-- The session of a reply: one of its tokens, or one of a cookie. -/
def Reply.issued (call : Call) : Reply → Option Issued
  | tokens user sessionID refreshToken => some ⟨user.id, sessionID, refreshToken⟩
  | redirect userID _ refreshToken =>
    refreshToken.map fun token => ⟨userID, call.newSessionID, token⟩
  | _ => none

/-- The session that a refresh token stands for. -/
theorem get_of_selectLiveSession {session : String × Session}
    (h : s.selectLiveSession hash = some session) :
    s.sessions.get session.1 = some session.2 ∧ session.2.refreshTokenHash = hash := by
  have hp := List.find?_some h
  rw [Bool.and_eq_true, decide_eq_true_eq] at hp
  exact ⟨Table.get_eq_some_iff.mpr (List.mem_of_find?_eq_some h), hp.1⟩

theorem get_of_selectSession {hash : String} {session : String × Session}
    (h : s.selectSession hash = some session) :
    s.sessions.get session.1 = some session.2 ∧ session.2.refreshTokenHash = hash :=
  ⟨Table.get_eq_some_iff.mpr (List.mem_of_find?_eq_some h), by simpa using List.find?_some h⟩

/-- The request sets the lock of the user, takes it away or deletes the user. -/
def Request.setsLock (call : Call) (id : String) : Request → Prop
  | lockUser userID _ | unlockUser userID | deleteUser userID => userID = id
  | deleteOwnUser => call.caller.userID = id
  | _ => False

section

variable (h : Outcome env call s request r s')

include h

/-- A session that was not there before is the one that the reply gives out. -/
theorem Outcome.session_get (hget : s'.sessions.get id = some session) :
    s.sessions.get id = some session ∨
      r.issued call = some ⟨session.userID, id, call.newRefreshToken⟩ ∧
        session.refreshTokenHash = env.hashRefreshToken call.newRefreshToken := by
  cases h with
  | refused _ hs => exact .inl (hs.sessions ▸ hget)
  | dispatched | coded | codeSpent | mfaSet | unlocked => exact .inl hget
  | opened hs =>
    rw [opened_sessions] at hget
    rcases insertSession_get _ hget with hold | ⟨rfl, rfl, -⟩
    · exact .inl (hs.sessions ▸ hold)
    · exact .inr ⟨rfl, rfl⟩
  | authorized _ _ _ hs =>
    rcases insertSession_get _ hget with hold | ⟨rfl, rfl, -⟩
    · exact .inl (hs.sessions ▸ hold)
    · exact .inr ⟨rfl, rfl⟩
  | exchanged =>
    rcases insertSession_get _ hget with hold | ⟨rfl, rfl, -⟩
    · exact .inl hold
    · exact .inr ⟨rfl, rfl⟩
  | ended | locked => exact .inl (get_of_deleteWhere hget)
  | reopened =>
    rw [opened_sessions] at hget
    rcases insertSession_get _ hget with hold | ⟨rfl, rfl, -⟩
    · exact .inl (get_of_deleteWhere hold)
    · exact .inr ⟨rfl, rfl⟩
  | rotated expiresAt _ hsession hid =>
    rw [State.rotateSession, Table.get_update] at hget
    split at hget
    · next heq =>
      rw [heq, (get_of_selectLiveSession hsession).1] at hget
      cases hget
      exact .inr ⟨by rw [heq, hid]; rfl, rfl⟩
    · exact .inl hget
  | enrolled =>
    rw [opened_sessions] at hget
    rcases insertSession_get _ hget with hold | ⟨rfl, rfl, -⟩
    · exact .inl hold
    · exact .inr ⟨rfl, rfl⟩
  | deletedUser _ _ hs | deletedOwnUser _ hs =>
    exact .inl (get_of_deleteWhere (hs.sessions ▸ hget))

/-- A copy of a session that was not there before is one of the session that the reply gives
out. -/
theorem Outcome.cache_get {entry : Entry User} (hget : s'.cache.get hash = some entry) :
    s.cache.get hash = some entry ∨
      hash = env.hashRefreshToken call.newRefreshToken ∧
        r.issued call = some ⟨entry.value.id, call.newSessionID, call.newRefreshToken⟩ := by
  cases h with
  | refused _ hs | authorized _ _ _ hs => exact .inl (hs.cache ▸ hget)
  | dispatched | coded | codeSpent | exchanged | rotated | mfaSet | unlocked => exact .inl hget
  | opened hs =>
    rcases opened_cache_get _ _ _ hget with hold | ⟨rfl, hvalue⟩
    · exact .inl (hs.cache ▸ hold)
    · exact .inr ⟨rfl, by rw [hvalue]; rfl⟩
  | ended | locked => exact .inl (get_of_deleteWhere hget)
  | reopened =>
    rcases opened_cache_get _ _ _ hget with hold | ⟨rfl, hvalue⟩
    · exact .inl (get_of_deleteWhere hold)
    · exact .inr ⟨rfl, by rw [hvalue]; rfl⟩
  | enrolled =>
    rcases opened_cache_get _ _ _ hget with hold | ⟨rfl, hvalue⟩
    · exact .inl hold
    · exact .inr ⟨rfl, by rw [hvalue]; rfl⟩
  | deletedUser _ _ hs | deletedOwnUser _ hs => exact .inl (get_of_deleteWhere (hs.cache ▸ hget))

/-! ## Codes -/

/-- A code that was not there before has been sent to its recipient. -/
theorem Outcome.otp_get {otp : Otp} (hget : s'.otps.get id = some otp) :
    (∃ old, s.otps.get id = some old ∧ otp.recipient = old.recipient ∧
      otp.codeHash = old.codeHash) ∨
      (otp.recipient, call.newCode) ∈ s'.outbox ∧ otp.codeHash = env.hashCode call.newCode := by
  cases h with
  | refused _ hs | authorized _ _ _ hs => exact .inl (hs.otps id otp hget)
  | dispatched =>
    rcases Table.get_of_insert_getD hget with hold | ⟨-, -, rfl⟩
    · exact .inl ⟨otp, hold, rfl, rfl⟩
    · exact .inr ⟨List.mem_cons_self, rfl⟩
  | opened hs =>
    rw [opened_otps] at hget
    exact .inl (hs.otps id otp hget)
  | coded | codeSpent | exchanged | ended | rotated | mfaSet | locked | unlocked =>
    exact .inl ⟨otp, hget, rfl, rfl⟩
  | reopened | enrolled =>
    rw [opened_otps] at hget
    exact .inl ⟨otp, hget, rfl, rfl⟩
  | deletedUser _ _ hs | deletedOwnUser _ hs => exact .inl ⟨otp, hs.otps id otp hget, rfl, rfl⟩

/-- What was sent stays sent. -/
theorem Outcome.outbox {message : String × String} (hmem : message ∈ s.outbox) : message ∈ s'.outbox
    := by
  cases h with
  | refused _ hs | authorized _ _ _ hs | deletedUser _ _ hs | deletedOwnUser _ hs =>
    exact hs.outbox ▸ hmem
  | dispatched => exact List.mem_cons_of_mem _ hmem
  | opened hs =>
    rw [opened_outbox, hs.outbox]
    exact hmem
  | coded | codeSpent | exchanged | ended | rotated | mfaSet | locked | unlocked => exact hmem
  | reopened | enrolled =>
    rw [opened_outbox]
    exact hmem

/-- A code that was not there before is the one that the reply gives out. -/
theorem Outcome.code_get {code : String} {entry : Entry OIDCAuthorizationCodePayload}
    (hget : s'.codes.get code = some entry) :
    s.codes.get code = some entry ∨
      request.authorizes ∧ ∃ token, r = .redirect entry.value.userID code token := by
  cases h with
  | refused _ hs | deletedUser _ _ hs | deletedOwnUser _ hs => exact .inl (hs.codes ▸ hget)
  | dispatched | ended | rotated | mfaSet | locked | unlocked => exact .inl hget
  | opened hs =>
    rw [opened_codes] at hget
    exact .inl (hs.codes ▸ hget)
  | authorized _ _ _ hs hrequest =>
    rcases setCode_get hget with hold | ⟨rfl, hvalue⟩
    · exact .inl (hs.codes ▸ hold)
    · exact .inr ⟨hrequest, _, by rw [hvalue]⟩
  | coded hid hrequest =>
    rcases setCode_get hget with hold | ⟨rfl, hvalue⟩
    · exact .inl hold
    · exact .inr ⟨hrequest, none, by rw [hvalue, hid]⟩
  | codeSpent | exchanged => exact .inl (get_of_deleteWhere hget)
  | reopened | enrolled =>
    rw [opened_codes] at hget
    exact .inl hget

/-! ## Locks and second factors -/

/-- The lock of a user stays as it is until a request sets it. -/
theorem Outcome.lock_kept (hget : s.users.get id = some user)
    (hrequest : ¬request.setsLock call id) :
    ∃ user', s'.users.get id = some user' ∧ user'.lockedUntil = user.lockedUntil := by
  have hquiet : ∀ {s₁ : State}, Quiet s s₁ → ∃ user', s₁.users.get id = some user' ∧
      user'.lockedUntil = user.lockedUntil := by
    intro s₁ hs
    obtain ⟨user', hget', hlock, -⟩ := hs.users.old id user hget
    exact ⟨user', hget', hlock⟩
  cases h with
  | refused _ hs | authorized _ _ _ hs => exact (hquiet hs :)
  | dispatched | coded | codeSpent | exchanged | ended | rotated => exact ⟨user, hget, rfl⟩
  | opened hs =>
    rw [opened_users]
    exact hquiet hs
  | reopened =>
    rw [opened_users]
    exact ⟨user, hget, rfl⟩
  | mfaSet _ _ hf => exact updateUser_lockedUntil hget hf
  | enrolled _ hf =>
    rw [opened_users]
    exact updateUser_lockedUntil hget hf
  | locked heq husers | unlocked heq husers =>
    subst heq
    exact update_lockedUntil husers hget fun hid => absurd hid.symm hrequest
  | deletedUser heq _ hs | deletedOwnUser heq hs =>
    subst heq
    rw [hs.users, Users.get_delete, if_neg (Ne.symm hrequest)]
    exact ⟨user, hget, rfl⟩

/-- A second factor that is enabled was enabled before, unless the request sets it. -/
theorem Outcome.mfa_old (hrequest : request.setsMFA = false) (hget : s'.users.get id = some user)
    (hmfa : user.mfaEnabled) : ∃ old, s.users.get id = some old ∧ old.mfaEnabled := by
  have hquiet : ∀ {s₁ : State}, Quiet s s₁ → s₁.users.get id = some user →
      ∃ old, s.users.get id = some old ∧ old.mfaEnabled := by
    intro s₁ hs hget₁
    rcases hold : s.users.get id with _ | old
    · rw [(hs.users.new id user hget₁ hold).2] at hmfa
      cases hmfa
    · obtain ⟨user', huser', -, hkept, -⟩ := hs.users.old id old hold
      obtain rfl : user = user' := Option.some.inj (hget₁.symm.trans huser')
      exact ⟨old, rfl, hkept.symm.trans hmfa⟩
  have hsame : s.users.get id = some user → ∃ old, s.users.get id = some old ∧
      old.mfaEnabled := fun hget => ⟨user, hget, hmfa⟩
  cases h with
  | refused _ hs | authorized _ _ _ hs => exact hquiet hs hget
  | dispatched | coded | codeSpent | exchanged | ended | rotated => exact hsame hget
  | opened hs =>
    rw [opened_users] at hget
    exact hquiet hs hget
  | reopened =>
    rw [opened_users] at hget
    exact hsame hget
  | mfaSet _ heq | enrolled heq =>
    rw [hrequest] at heq
    cases heq
  | locked _ husers | unlocked _ husers => exact update_mfaEnabled husers hget hmfa fun _ => rfl
  | deletedUser _ _ hs | deletedOwnUser _ hs =>
    rw [hs.users, Users.get_delete] at hget
    split at hget
    · cases hget
    · exact hsame hget

/-- A reply with tokens or a code has its grounds. -/
theorem Outcome.grounds {userID : String} (hr : r.grantee = some userID) :
    Grounds env call s request userID := by
  cases h with
  | refused hnone | dispatched _ _ _ hnone | codeSpent _ hnone | ended hnone | mfaSet hnone =>
    rw [hnone] at hr
    cases hr
  | opened _ hgrounds | authorized _ _ _ _ _ hgrounds | coded _ _ hgrounds
  | exchanged _ _ _ hgrounds | reopened _ hgrounds | rotated _ _ _ _ hgrounds
  | enrolled _ _ hgrounds =>
    cases hr
    exact hgrounds
  | locked | unlocked | deletedOwnUser => cases hr
  | deletedUser _ heq =>
    rcases heq with rfl | ⟨rfl, -⟩
    · cases hr
    · cases hr

end

end Layr.Auth

import Layr.Auth.Requests

/-!
# What the statements leave as it is

The lookups behind the statements on users, and a relation between states that differ in nothing
that bears on tokens, with the statements that keep to it.
-/

namespace Layr.Auth

open Prog

/-! ## Lookups of users -/

namespace Users

variable {users users' : Users} {id : String} {user : User} {row : UserRow} {f : UserRow → UserRow}
  {p : UserRow → Bool}

theorem get_eq_some :
    users.get id = some user ↔ users.table.get id = some user.toUserRow ∧ user.id = id := by
  unfold get
  rw [Option.map_eq_some_iff]
  constructor
  · rintro ⟨row, hrow, rfl⟩
    exact ⟨hrow, rfl⟩
  · rintro ⟨hrow, rfl⟩
    exact ⟨_, hrow, rfl⟩

theorem id_of_get (h : users.get id = some user) : user.id = id :=
  (get_eq_some.mp h).2

theorem ne_empty_of_get (h : users.get id = some user) : id ≠ "" :=
  users.named id _ (get_eq_some.mp h).1

theorem get_eq_none : users.get id = none ↔ users.table.get id = none := by
  rw [get, Option.map_eq_none_iff]

theorem find_eq_some (h : users.find p = some user) :
    users.get user.id = some user ∧ p user.toUserRow := by
  unfold find at h
  rw [Option.map_eq_some_iff] at h
  obtain ⟨e, he, rfl⟩ := h
  exact ⟨get_eq_some.mpr ⟨Table.get_eq_some_iff.mpr (List.mem_of_find?_eq_some he), rfl⟩,
    by simpa using List.find?_some he⟩

theorem insert_eq_some (h : users.insert id row = some users') :
    users.get id = none ∧
      ∀ k, users'.get k = if k = id then some ⟨row, id⟩ else users.get k := by
  unfold insert at h
  split at h
  · cases h
  · split at h
    · cases h
    · split at h
      · cases h
      · next table hinsert =>
        cases h
        refine ⟨get_eq_none.mpr (Table.get_eq_none_of_insert hinsert), fun k => ?_⟩
        unfold get
        rw [Table.get_insert hinsert]
        split
        · next heq => rw [heq]; rfl
        · rfl

theorem update_eq_some (h : users.update id f = some users') :
    ∃ user, users.get id = some user ∧
      ∀ k, users'.get k = if k = id then some ⟨f user.toUserRow, id⟩ else users.get k := by
  unfold update at h
  split at h
  · cases h
  · next row hrow =>
    split at h
    · cases h
    · cases h
      refine ⟨⟨row, id⟩, get_eq_some.mpr ⟨hrow, rfl⟩, fun k => ?_⟩
      unfold get
      rw [Table.get_update]
      split
      · next heq => rw [heq, hrow]; rfl
      · rfl

theorem get_updateWhere (users : Users) (p : UserRow → Bool) (f : UserRow → UserRow)
    (id : String) :
    (users.updateWhere p f).get id = (users.get id).map fun user =>
      { user with toUserRow := if p user.toUserRow then f user.toUserRow else user.toUserRow } := by
  unfold get updateWhere
  rw [Table.get_updateWhere, Option.map_map, Option.map_map]
  rfl

theorem get_delete (users : Users) (id k : String) :
    (users.delete id).get k = if k = id then none else users.get k := by
  unfold get delete
  rw [Table.get_delete]
  split <;> rfl

/-- There is no user without an id. -/
theorem get_empty_id (users : Users) : users.get "" = none := by
  rcases h : users.get "" with _ | user
  · rfl
  · exact absurd rfl (ne_empty_of_get h)

theorem get_find (h : users.find p = some user) : users.get user.id = some user :=
  (find_eq_some h).1

end Users

/-! ## What the statements on users return -/

section statements

variable {s : State} {id : String} {row : UserRow} {f : UserRow → UserRow}
  {p : UserRow → Bool} {user : User}

theorem insertUser_eq_some (h : (s.insertUser id row).1 = some user) :
    user = ⟨row, id⟩ ∧ s.users.get id = none ∧
      (s.insertUser id row).2.users.get id = some user := by
  unfold State.insertUser at h ⊢
  rcases hinsert : s.users.insert id row with _ | users
  · rw [hinsert] at h
    cases h
  · rw [hinsert] at h
    cases h
    obtain ⟨hnone, hget⟩ := Users.insert_eq_some hinsert
    exact ⟨rfl, hnone, (hget id).trans (if_pos rfl)⟩

theorem updateUser_eq_some (h : (s.updateUser id f).1 = some user) :
    ∃ old, s.users.get id = some old ∧ user = ⟨f old.toUserRow, id⟩ ∧
      (s.updateUser id f).2.users.get id = some user := by
  obtain ⟨users, hupdate, hfound⟩ := Option.bind_eq_some_iff.mp h
  obtain ⟨old, hold, hget⟩ := Users.update_eq_some hupdate
  rw [hget, if_pos rfl] at hfound
  cases hfound
  refine ⟨old, hold, rfl, ?_⟩
  unfold State.updateUser
  rw [hupdate]
  exact (hget id).trans (if_pos rfl)

theorem updateUser_eq_none (h : (s.updateUser id f).1 = none) : s.users.update id f = none := by
  rcases hupdate : s.users.update id f with _ | users
  · rfl
  · obtain ⟨old, -, hget⟩ := Users.update_eq_some hupdate
    have hfound := Option.bind_eq_none_iff.mp h users hupdate
    rw [hget, if_pos rfl] at hfound
    cases hfound

theorem updateUsersWhere_eq_some (h : (s.updateUsersWhere p f).1 = some user) :
    ∃ old, s.users.get old.id = some old ∧ p old.toUserRow ∧
      user = { old with toUserRow := f old.toUserRow } ∧
      (s.updateUsersWhere p f).2.users.get old.id = some user := by
  obtain ⟨old, hfind, rfl⟩ := Option.map_eq_some_iff.mp h
  obtain ⟨hold, hp⟩ := Users.find_eq_some hfind
  refine ⟨old, hold, hp, rfl, ?_⟩
  unfold State.updateUsersWhere
  rw [Users.get_updateWhere, hold, Option.map_some, if_pos hp]

/-- An upsert finds its user or registers a new one. -/
theorem upsertUser_eq_some {isNew : Bool} (h : (s.upsertUser p id row f).1 = some (user, isNew)) :
    (s.upsertUser p id row f).2.users.get user.id = some user ∧
      (isNew ∧ user = ⟨row, id⟩ ∧ s.users.get user.id = none ∨
        isNew = false ∧ ∃ old, s.users.get old.id = some old ∧ p old.toUserRow ∧
          user = ⟨f old.toUserRow, old.id⟩) := by
  unfold State.upsertUser Users.upsert at h ⊢
  rcases hfind : s.users.find p with _ | old
  · rw [hfind] at h
    rcases hinsert : s.users.insert id row with _ | users
    · rw [hinsert] at h
      cases h
    · rw [hinsert] at h
      obtain ⟨rfl, rfl⟩ := Prod.mk.inj (Option.some.inj h)
      obtain ⟨hnone, hget⟩ := Users.insert_eq_some hinsert
      exact ⟨(hget id).trans (if_pos rfl), .inl ⟨rfl, rfl, hnone⟩⟩
  · rw [hfind] at h
    obtain ⟨hold, hp⟩ := Users.find_eq_some hfind
    rcases hupdate : s.users.update old.id f with _ | users
    · simp only [hupdate] at h
      cases h
    · obtain ⟨old', hold', hget⟩ := Users.update_eq_some hupdate
      obtain rfl : old = old' := Option.some.inj (hold.symm.trans hold')
      simp only [hupdate, Option.bind_some, hget, if_true, Option.map_some] at h
      obtain ⟨rfl, rfl⟩ := Prod.mk.inj (Option.some.inj h)
      refine ⟨?_, .inr ⟨rfl, old, hold, hp, rfl⟩⟩
      simp only [hupdate]
      exact (hget old.id).trans (if_pos rfl)

theorem upsertUserByID_eq_some {isUUID : Bool}
    (h : (s.upsertUserByID isUUID id row).1 = some user) :
    user.id = id ∧ (s.upsertUserByID isUUID id row).2.users.get id = some user ∧
      (s.users.get id = some user ∨ s.users.get id = none) := by
  unfold State.upsertUserByID at h ⊢
  rcases hget : s.users.get id with _ | old
  · cases isUUID with
    | false => simp [hget] at h
    | true =>
      simp only [hget, if_true] at h
      obtain ⟨rfl, -, hnew⟩ := insertUser_eq_some h
      exact ⟨rfl, hnew, .inr rfl⟩
  · rw [hget] at h
    cases h
    exact ⟨Users.id_of_get hget, hget, .inl rfl⟩

end statements

/-! ## States that give out the same tokens -/

/-- Users keep their locks and second factors, and new ones have neither. -/
structure Users.Kept (users users' : Users) : Prop where
  old : ∀ id user, users.get id = some user → ∃ user', users'.get id = some user' ∧
    user'.lockedUntil = user.lockedUntil ∧ user'.mfaEnabled = user.mfaEnabled ∧
    user'.encryptedMFASecret = user.encryptedMFASecret
  new : ∀ id user', users'.get id = some user' → users.get id = none →
    user'.lockedUntil = none ∧ user'.mfaEnabled = false

namespace Users.Kept

variable {users users' users'' : Users} {id : String} {row : UserRow} {f : UserRow → UserRow}

theorem refl (users : Users) : Users.Kept users users where
  old _ user h := ⟨user, h, rfl, rfl, rfl⟩
  new _ user h hnone := by rw [h] at hnone; cases hnone

theorem trans (h : Users.Kept users users') (h' : Users.Kept users' users'') :
    Users.Kept users users'' where
  old id user hget := by
    obtain ⟨user', hget', hlock, hmfa, hsecret⟩ := h.old id user hget
    obtain ⟨user'', hget'', hlock', hmfa', hsecret'⟩ := h'.old id user' hget'
    exact ⟨user'', hget'', hlock'.trans hlock, hmfa'.trans hmfa, hsecret'.trans hsecret⟩
  new id user'' hget'' hnone := by
    rcases hget' : users'.get id with _ | user'
    · exact h'.new id user'' hget'' hget'
    · obtain ⟨user, hget, hlock, hmfa, -⟩ := h'.old id user' hget'
      obtain rfl : user'' = user := Option.some.inj (hget''.symm.trans hget)
      obtain ⟨hlock', hmfa'⟩ := h.new id user' hget' hnone
      exact ⟨hlock.trans hlock', hmfa.trans hmfa'⟩

/-- The columns that an update leaves as they are. -/
def Keeps (f : UserRow → UserRow) : Prop :=
  ∀ row, (f row).lockedUntil = row.lockedUntil ∧ (f row).mfaEnabled = row.mfaEnabled ∧
    (f row).encryptedMFASecret = row.encryptedMFASecret

theorem insert (users : Users) (id : String) (hlock : row.lockedUntil = none)
    (hmfa : row.mfaEnabled = false) : Users.Kept users ((users.insert id row).getD users) := by
  rcases h : users.insert id row with _ | users'
  · exact refl users
  obtain ⟨hnone, hget⟩ := Users.insert_eq_some h
  rw [Option.getD_some]
  constructor
  · intro k user hk
    refine ⟨user, ?_, rfl, rfl, rfl⟩
    rw [hget, if_neg (by rintro rfl; rw [hk] at hnone; cases hnone), hk]
  · intro k user hk hkNone
    rw [hget] at hk
    split at hk
    · cases hk
      exact ⟨hlock, hmfa⟩
    · rw [hkNone] at hk
      cases hk

theorem update (users : Users) (id : String) (hf : Keeps f) :
    Users.Kept users ((users.update id f).getD users) := by
  rcases h : users.update id f with _ | users'
  · exact refl users
  obtain ⟨user, huser, hget⟩ := Users.update_eq_some h
  rw [Option.getD_some]
  constructor
  · intro k other hk
    rw [hget]
    split
    · next heq =>
      subst heq
      obtain rfl : user = other := Option.some.inj (huser.symm.trans hk)
      exact ⟨_, rfl, hf user.toUserRow⟩
    · exact ⟨other, hk, rfl, rfl, rfl⟩
  · intro k other hk hkNone
    rw [hget] at hk
    split at hk
    · next heq =>
      rw [heq, huser] at hkNone
      cases hkNone
    · rw [hkNone] at hk
      cases hk

theorem updateWhere (users : Users) (p : UserRow → Bool) (hf : Keeps f) :
    Users.Kept users (users.updateWhere p f) := by
  constructor
  · intro k user hk
    rw [Users.get_updateWhere, hk]
    refine ⟨_, rfl, ?_⟩
    dsimp only
    split
    · exact hf user.toUserRow
    · exact ⟨rfl, rfl, rfl⟩
  · intro k user hk hkNone
    rw [Users.get_updateWhere, hkNone] at hk
    cases hk

theorem upsert (users : Users) (p : UserRow → Bool) (id : String)
    (hlock : row.lockedUntil = none) (hmfa : row.mfaEnabled = false) (hf : Keeps f) :
    Users.Kept users (users.upsert p id row f).2 := by
  unfold Users.upsert
  split
  · exact update users _ hf
  · exact insert users id hlock hmfa

end Users.Kept

/-- Nothing has changed that bears on the tokens and codes of users: sessions and codes are as
they were, and there are no new one-time codes. -/
structure Quiet (s s' : State) : Prop where
  users : s.users.Kept s'.users
  sessions : s'.sessions = s.sessions
  cache : s'.cache = s.cache
  codes : s'.codes = s.codes
  otps : ∀ id otp', s'.otps.get id = some otp' → ∃ otp, s.otps.get id = some otp ∧
    otp'.recipient = otp.recipient ∧ otp'.codeHash = otp.codeHash
  outbox : s'.outbox = s.outbox
  now : s'.now = s.now

namespace Quiet

variable {s s' s'' : State} {row : UserRow} {f : UserRow → UserRow}

theorem refl (s : State) : Quiet s s where
  users := .refl _
  sessions := rfl
  cache := rfl
  codes := rfl
  otps _ otp h := ⟨otp, h, rfl, rfl⟩
  outbox := rfl
  now := rfl

theorem trans (h : Quiet s s') (h' : Quiet s' s'') : Quiet s s'' where
  users := h.users.trans h'.users
  sessions := h'.sessions.trans h.sessions
  cache := h'.cache.trans h.cache
  codes := h'.codes.trans h.codes
  otps id otp'' hget := by
    obtain ⟨otp', hget', hrecipient', hhash'⟩ := h'.otps id otp'' hget
    obtain ⟨otp, hget, hrecipient, hhash⟩ := h.otps id otp' hget'
    exact ⟨otp, hget, hrecipient'.trans hrecipient, hhash'.trans hhash⟩
  outbox := h'.outbox.trans h.outbox
  now := h'.now.trans h.now

/-- A change of challenges, passkeys, identities, tickets and pending sign-ins only. -/
theorem same (h : (s'.users, s'.sessions, s'.cache, s'.codes, s'.otps, s'.outbox, s'.now) =
    (s.users, s.sessions, s.cache, s.codes, s.otps, s.outbox, s.now)) : Quiet s s' := by
  obtain ⟨husers, hsessions, hcache, hcodes, hotps, houtbox, hnow⟩ := by simpa using h
  refine ⟨husers ▸ .refl _, hsessions, hcache, hcodes, fun _ otp hget => ?_, houtbox, hnow⟩
  exact ⟨otp, hotps ▸ hget, rfl, rfl⟩

/-- A change of the users only. -/
theorem of_users {users : Users} (h : s.users.Kept users) : Quiet s { s with users := users } where
  __ := refl s
  users := h

theorem insertUser (s : State) (id : String) (hlock : row.lockedUntil = none)
    (hmfa : row.mfaEnabled = false) : Quiet s (s.insertUser id row).2 :=
  of_users (.insert _ id hlock hmfa)

theorem updateUser (s : State) (id : String) (hf : Users.Kept.Keeps f) :
    Quiet s (s.updateUser id f).2 :=
  of_users (.update _ id hf)

theorem updateUsersWhere (s : State) (p : UserRow → Bool) (hf : Users.Kept.Keeps f) :
    Quiet s (s.updateUsersWhere p f).2 :=
  of_users (.updateWhere _ p hf)

theorem upsertUser (s : State) (p : UserRow → Bool) (id : String)
    (hlock : row.lockedUntil = none) (hmfa : row.mfaEnabled = false) (hf : Users.Kept.Keeps f) :
    Quiet s (s.upsertUser p id row f).2 :=
  of_users (.upsert _ p id hlock hmfa hf)

theorem upsertUserByID (s : State) (isUUID : Bool) (id : String)
    (hlock : row.lockedUntil = none) (hmfa : row.mfaEnabled = false) :
    Quiet s (s.upsertUserByID isUUID id row).2 := by
  unfold State.upsertUserByID
  split
  · exact refl s
  · split
    · exact insertUser s id hlock hmfa
    · exact refl s

theorem deleteOTP (s : State) (id : String) : Quiet s (s.deleteOTP id) where
  __ := refl s
  otps _ otp h := ⟨otp, (Table.get_of_delete h).2, rfl, rfl⟩

theorem deleteOTPsWhere (s : State) (p : Otp → Bool) : Quiet s (s.deleteOTPsWhere p) where
  __ := refl s
  otps k otp h := by
    rw [show (s.deleteOTPsWhere p).otps = s.otps.deleteWhere fun _ otp => p otp from rfl,
      Table.get_deleteWhere] at h
    exact ⟨otp, (Option.filter_eq_some_iff.mp h).1, rfl, rfl⟩

theorem countAttempt (s : State) (id : String) : Quiet s (s.countAttempt id) where
  __ := refl s
  otps k otp h := by
    rw [show (s.countAttempt id).otps = s.otps.update id fun otp =>
      { otp with attempts := otp.attempts + 1 } from rfl, Table.get_update] at h
    split at h
    · obtain ⟨old, hold, rfl⟩ := Option.map_eq_some_iff.mp h
      exact ⟨old, hold, rfl, rfl⟩
    · exact ⟨otp, h, rfl, rfl⟩

end Quiet

end Layr.Auth

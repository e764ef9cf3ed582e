import Layr.Auth.History
import Layr.Lib.Threads

/-!
# Things that are used once

Refresh tokens, tickets of second factors, authorization codes and states of OAuth sign-ins are
each found by one statement and deleted by another, and nobody looks at what the deletion did. As
long as requests find one of them one after the other, at most one goes on with it; when their
statements interleave, two can.
-/

namespace Layr.Auth

open Go Prog OneShot

variable (env : Env) (call : Call)

/-! ## Values in the key-value store -/

section keys

variable {α : Type}

/-- There is no other value under the key than before, and time has not gone back. -/
def KeyLater (store : State → Store α) (key : String) (s s' : State) : Prop :=
  (∀ entry, (store s').get key = some entry → (store s).get key = some entry) ∧ s.now ≤ s'.now

theorem KeyLater.of_eq {store : State → Store α} {key : String} {s s' : State}
    (hstore : store s' = store s) (hnow : s'.now = s.now) : KeyLater store key s s' :=
  ⟨fun _ h => hstore ▸ h, hnow.ge⟩

theorem KeyLater.of_delete {store : State → Store α} {key : String} {s s' : State}
    (hstore : store s' = (store s).delete key) (hnow : s'.now = s.now) :
    KeyLater store key s s' :=
  ⟨fun _ h => get_of_deleteWhere (hstore ▸ h), hnow.ge⟩

/-- What is found later was found before, with the same value. -/
theorem KeyLater.find {store : State → Store α} {key : String} {s s' : State}
    (h : KeyLater store key s s') {value : α} (hfind : (store s').find s'.now key = some value) :
    (store s).find s.now key = some value := by
  obtain ⟨entry, hget, rfl, hlive⟩ := get_of_find hfind
  exact find_of_get (h.1 entry hget) (lt_of_le_of_lt h.2 hlive)

/-- A value under a key, which a statement with the tag looks for. -/
def keyOneShot (tag : Access) (store : State → Store α) (key : String) (usable : α → Bool)
    (passes : Reply → Prop) : OneShot State Access Reply where
  finds t s := t = tag && ((store s).find s.now key).any usable
  gone s := ∀ value, (store s).find s.now key = some value → usable value = false
  passes := passes
  may _ _ := True
  later := KeyLater store key
  later_refl _ := .of_eq rfl rfl
  later_trans h h' := ⟨fun entry hget => h.1 entry (h'.1 entry hget), h.2.trans h'.2⟩
  gone_later hgone h value hfind := hgone value (h.find hfind)
  not_finds {t s} hgone := by
    rcases hfind : (store s).find s.now key with _ | value
    · simp
    · simp [hgone value hfind]

variable {tag : Access} {store : State → Store α} {key : String} {usable : α → Bool}
  {passes : Reply → Prop} {s : State}

theorem keyOneShot_finds {value : α} (hfind : (store s).find s.now key = some value)
    (husable : usable value) :
    (false || (keyOneShot tag store key usable passes).finds tag s) := by
  simp [keyOneShot, hfind, husable]

theorem keyOneShot_gone {s' : State} (hstore : store s' = (store s).delete key) :
    (keyOneShot tag store key usable passes).gone s' := by
  intro value hfind
  rw [Store.find, hstore, Table.get_delete, if_pos rfl] at hfind
  cases hfind

theorem moves_of_keeps {β : Type} {p : Act β} (hp : p.Keeps fun s => (store s, s.now)) :
    (keyOneShot tag store key usable passes).Moves p :=
  .of_keeps hp fun _ _ h => .of_eq (Prod.mk.inj h).1 (Prod.mk.inj h).2

end keys

/-! ## Statements that leave a thing alone -/

-- what comes behind the deletion of a key leaves the other keys alone
attribute [local simp] Prog.bind_assoc State.insertSession State.setCached State.setTicket
  State.setCode State.deleteOIDCState State.upsertUser State.updateUser State.linkIdentity
  resolveAnonymousCaller ensureUnlocked checkMFACode issueSessionResponse completeSignInFlow
  issueOIDCAuthorizationCode completeOIDCAuthorization completeOAuthFlow registerIdentity
  signInIdentity linkAnonymous

section moves

variable {a : OneShot State Access Reply} {user : User}

theorem moves_ensureUnlocked (r : Reply) : a.Moves (ensureUnlocked user r) :=
  .bind (.query _) fun _ => .ensure _ _

end moves

/-! ## Tickets of second factors -/

/-- The request went on to verify a code of the second factor. -/
def Reply.verifies (r : Reply) : Prop := r.grantee ≠ none ∨ r = invalidMFACode

theorem Reply.not_verifies {r : Reply} (hr : r.grantee = none) (hne : r ≠ invalidMFACode) :
    ¬r.verifies := fun h => h.elim (absurd hr) hne

def ticketOneShot (ticket : String) : OneShot State Access Reply :=
  keyOneShot (.mfaTicket ticket) State.tickets ticket (fun userID => userID ≠ "") Reply.verifies

/-- The ticket is deleted before the session is issued. -/
theorem handleChallengeMFA_safe (input : ChallengeMFAInput) (s : State) :
    (ticketOneShot (Strings.trimSpace input.mfaTicket)).SafeRequest
      (handleChallengeMFA env call (some input)) false s := by
  unfold handleChallengeMFA
  refine .ensure (Reply.not_verifies rfl (by decide)) fun _ =>
    .require (Reply.not_verifies rfl (by decide)) fun input' hinput => ?_
  cases hinput
  refine .ensure (Reply.not_verifies rfl (by decide)) fun _ => .look fun s₁ _ _ =>
    .require (Reply.not_verifies rfl (by decide)) fun userID hfind =>
    .change (fun _ => .of_delete rfl rfl) fun s₂ _ => ?_
  obtain ⟨hfind, hne⟩ := Option.filter_eq_some_iff.mp hfind
  rw [ticketOneShot, keyOneShot_finds hfind hne]
  exact (moves_of_keeps (by simp)).safe (keyOneShot_gone rfl)

/-! ## Authorization codes -/

/-- The request went on to give out tokens or a code. -/
def Reply.grants (r : Reply) : Prop := r.grantee ≠ none

def codeOneShot (code : String) : OneShot State Access Reply :=
  keyOneShot (.code code) State.codes code (fun _ => true) Reply.grants

/-- The code is looked up, deleted, and only then checked against the request. -/
theorem handleIssueOIDCTokenAuthorizationCode_safe (input : OIDCTokenInput) (s : State) :
    (codeOneShot input.code).SafeRequest
      (handleIssueOIDCTokenAuthorizationCode env call input) false s := by
  unfold handleIssueOIDCTokenAuthorizationCode
  refine .ensure (· rfl) fun _ => .ensure (· rfl) fun _ => .require (· rfl) fun _ _ =>
    .ensure (· rfl) fun _ => .ensure (· rfl) fun _ => .look fun s₁ _ _ =>
    .require (· rfl) fun payload hfind => .change (fun _ => .of_delete rfl rfl) fun s₂ _ => ?_
  rw [codeOneShot, keyOneShot_finds hfind rfl]
  exact (moves_of_keeps (by simp)).safe (keyOneShot_gone rfl)

/-! ## States of OAuth sign-ins -/

/-- The request went on to sign somebody in, or to ask for the second factor. -/
def Reply.signsIn (r : Reply) : Prop := r.grantee ≠ none ∨ ∃ ticket, r = .mfaRequired ticket

theorem not_signsIn_oauthError (status : ℕ) (code description : String) :
    ¬(Reply.oauthError status code description).signsIn := by
  rintro (h | ⟨_, h⟩)
  · exact h rfl
  · cases h

theorem not_signsIn_noContent : ¬Reply.noContent.signsIn := by
  rintro (h | ⟨_, h⟩)
  · exact h rfl
  · cases h

def oauthStateOneShot (state : String) : OneShot State Access Reply :=
  keyOneShot (.oauthState state) State.oauthStates state (fun _ => true) Reply.signsIn

theorem handleProcessOAuthCallback_safe (input : OAuthCallbackInput) (s : State) :
    (oauthStateOneShot input.state).SafeRequest (handleProcessOAuthCallback env call input)
      false s := by
  unfold handleProcessOAuthCallback
  refine .ensure (not_signsIn_oauthError _ _ _) fun _ => .look fun s₁ _ _ =>
    .require (not_signsIn_oauthError _ _ _) fun payload hfind =>
    .ensure (not_signsIn_oauthError _ _ _) fun _ =>
    .change (fun _ => .of_delete rfl rfl) fun s₂ _ => ?_
  rw [oauthStateOneShot, keyOneShot_finds hfind rfl]
  exact (moves_of_keeps (by simp)).safe (keyOneShot_gone rfl)

/-! ## Refresh tokens -/

/-- Neither a copy of a session nor a session with the hash is new, and time has not gone
back. -/
structure TokenLater (hash : String) (s s' : State) : Prop where
  cache : ∀ entry, s'.cache.get hash = some entry → s.cache.get hash = some entry
  sessions : ∀ id session, s'.sessions.get id = some session → session.refreshTokenHash = hash →
    s.sessions.get id = some session
  now : s.now ≤ s'.now

theorem TokenLater.refl (hash : String) (s : State) : TokenLater hash s s :=
  ⟨fun _ h => h, fun _ _ h _ => h, le_rfl⟩

theorem TokenLater.trans {hash : String} {s s' s'' : State} (h : TokenLater hash s s')
    (h' : TokenLater hash s' s'') : TokenLater hash s s'' where
  cache entry hget := h.cache entry (h'.cache entry hget)
  sessions id session hget hhash := h.sessions id session (h'.sessions id session hget hhash) hhash
  now := h.now.trans h'.now

/-- A token does not come back into the key-value store. -/
theorem TokenLater.hasCached {hash : String} {s s' : State} (h : TokenLater hash s s')
    (hcached : s.hasCached hash = false) : s'.hasCached hash = false := by
  have hlater : KeyLater State.cache hash s s' := ⟨h.cache, h.now⟩
  unfold State.hasCached at hcached ⊢
  rcases hfind : s'.findCached hash with _ | user
  · rfl
  · rwa [State.findCached, hlater.find hfind] at hcached

/-- A refresh token, by its hash. A refresh grant may look for a session only while the key-value
store has none under the hash. -/
def tokenOneShot (hash : String) : OneShot State Access Reply where
  finds tag s :=
    match tag with
    | .cachedSession hash' =>
      hash' = hash && env.config.fastPathSessionsEnabled && s.hasCached hash
    | .session hash' => hash' = hash && (s.selectSession hash).isSome
    | .sessionGrant hash' => hash' = hash && (s.selectLiveSession hash).isSome
    | _ => false
  gone s := (env.config.fastPathSessionsEnabled → s.hasCached hash = false) ∧
    ∀ id session, s.sessions.get id = some session → session.refreshTokenHash ≠ hash
  passes := Reply.grants
  may tag s :=
    match tag with
    | .sessionGrant _ => env.config.fastPathSessionsEnabled → s.hasCached hash = false
    | _ => True
  later := TokenLater hash
  later_refl := .refl hash
  later_trans := .trans
  gone_later hgone h := ⟨fun hfast => h.hasCached (hgone.1 hfast), fun id session hget hhash =>
    hgone.2 id session (h.sessions id session hget hhash) hhash⟩
  not_finds {tag s} hgone := by
    cases tag with
    | cachedSession hash' =>
      cases hfast : env.config.fastPathSessionsEnabled with
      | false => simp
      | true => simp [hgone.1 hfast]
    | session hash' =>
      rcases hselect : s.selectSession hash with _ | session
      · simp
      · have hget := get_of_selectSession hselect
        exact absurd hget.2 (hgone.2 _ _ hget.1)
    | sessionGrant hash' =>
      rcases hselect : s.selectLiveSession hash with _ | session
      · simp
      · have hget := get_of_selectLiveSession hselect
        exact absurd hget.2 (hgone.2 _ _ hget.1)
    | mfaTicket | code | oauthState => rfl

/-- At most one session has the hash. -/
def State.HashedOnce (s : State) (hash : String) : Prop :=
  ∀ id id' session session', s.sessions.get id = some session →
    s.sessions.get id' = some session' → session.refreshTokenHash = hash →
    session'.refreshTokenHash = hash → id = id'

theorem TokenLater.hashedOnce {hash : String} {s s' : State} (h : TokenLater hash s s')
    (hone : s.HashedOnce hash) : s'.HashedOnce hash :=
  fun _ _ _ _ hget hget' hhash hhash' => hone _ _ _ _ (h.sessions _ _ hget hhash)
    (h.sessions _ _ hget' hhash') hhash hhash'

/-- Once the session with the hash is deleted, or has another hash, none has it. -/
theorem TokenLater.unhashed {hash id : String} {session : Session} {s s' : State}
    (h : TokenLater hash s s') (hone : s.HashedOnce hash) (hget : s.sessions.get id = some session)
    (hhash : session.refreshTokenHash = hash)
    (hid : ∀ row, s'.sessions.get id = some row → row.refreshTokenHash ≠ hash) :
    ∀ id' row, s'.sessions.get id' = some row → row.refreshTokenHash ≠ hash := by
  intro id' row hget' hhash'
  obtain rfl := hone _ _ _ _ hget (h.sessions id' row hget' hhash') hhash hhash'
  exact hid row hget' hhash'

section tokens

variable {env call} {hash : String} {s : State}

theorem tokenLater_deleteSession (id : String) : TokenLater hash s (s.deleteSession id) :=
  ⟨fun _ h => h, fun _ _ h _ => get_of_deleteWhere h, le_rfl⟩

theorem moves_newSession (hfresh : env.hashRefreshToken call.newRefreshToken ≠ hash) (user : User) :
    (tokenOneShot env hash).Moves (issueSessionResponse env call user) := by
  refine .bind (.query _) fun _ => .bind (.stmt fun s => ?_) fun _ =>
    .ite (.bind (.change fun s => ?_) fun _ => .reply _) (.reply _)
  · refine ⟨fun _ h => h, fun id row hget hhash => ?_, le_rfl⟩
    rcases insertSession_get s hget with hold | ⟨-, rfl, -⟩
    · exact hold
    · exact absurd hhash hfresh
  · refine ⟨fun entry hget => ?_, fun _ _ h _ => h, le_rfl⟩
    rwa [State.setCached, Store.set, Table.get_upsert_const, if_neg (Ne.symm hfresh)] at hget

/-- Every way to the new session leads through the deletion of the row. -/
theorem refreshStored_safe (hone : s.HashedOnce hash)
    (hcached : env.config.fastPathSessionsEnabled → s.hasCached hash = false)
    (hfresh : env.hashRefreshToken call.newRefreshToken ≠ hash) :
    (tokenOneShot env hash).SafeRequest (refreshStored env call hash) false s := by
  unfold refreshStored
  refine .look fun s₁ h₁ _ => .require (· rfl) fun session hsession =>
    .query fun s₂ h₂ => .ite (fun _ => ?_) fun _ => ?_
  · exact .change (fun _ => tokenLater_deleteSession _) fun _ _ => .stop (· rfl)
  refine .query fun s₃ h₃ => .require (· rfl) fun user _ => .query fun s₄ h₄ =>
    .ite (fun _ => ?_) fun _ => ?_
  · exact .change (fun _ => tokenLater_deleteSession _) fun _ _ => .stop (· rfl)
  refine .change (fun _ => tokenLater_deleteSession _) fun s₅ h₅ => ?_
  have hfound : (false || (tokenOneShot env hash).finds (.session hash) s₁) := by
    simp [tokenOneShot, hsession]
  have hlater : TokenLater hash s₁ (s₅.deleteSession session.1) :=
    (h₂.trans (h₃.trans (h₄.trans h₅))).trans (tokenLater_deleteSession _)
  obtain ⟨hget, hhash⟩ := get_of_selectSession hsession
  rw [hfound]
  refine Moves.safe (moves_newSession hfresh user) ⟨fun hfast => ?_, ?_⟩
  · exact hlater.hasCached (h₁.hasCached (hcached hfast))
  · refine hlater.unhashed (h₁.hashedOnce hone) hget hhash fun row hrow => ?_
    rw [State.deleteSession, Table.get_delete, if_pos rfl] at hrow
    cases hrow

theorem refreshCached_safe (hfresh : env.hashRefreshToken call.newRefreshToken ≠ hash)
    (user : User) : (tokenOneShot env hash).SafeRequest
      (refreshCached env call hash user) true s := by
  have hsessions : ∀ s : State, TokenLater hash s
      (s.deleteSessionsWhere fun _ session => session.refreshTokenHash = hash).2 :=
    fun s => ⟨fun _ h => h, fun _ _ h _ => get_of_deleteWhere h, le_rfl⟩
  unfold refreshCached
  refine .change (fun s => ⟨fun _ h => get_of_deleteWhere h, fun _ _ h _ => h, le_rfl⟩)
    fun s₁ _ => .stmt hsessions fun s₂ h₂ => ?_
  refine Moves.safe ?_ ⟨fun _ => (hsessions s₂).hasCached (h₂.hasCached ?_), fun id row hrow => ?_⟩
  · exact .bind (moves_ensureUnlocked _) fun _ => moves_newSession hfresh user
  · simp [State.hasCached, State.findCached, State.deleteCached, Store.find, Table.get_delete]
  · rw [State.deleteSessionsWhere, Table.get_deleteWhere, Option.filter_eq_some_iff] at hrow
    simpa using hrow.2

/-- The token is looked up in the key-value store and then in the table. -/
theorem handleRefreshToken_safe {token given : String}
    (hone : s.HashedOnce (env.hashRefreshToken token))
    (hgiven : presentedToken call given = token) (hfresh : call.newRefreshToken ≠ token) :
    (tokenOneShot env (env.hashRefreshToken token)).SafeRequest
      (handleRefreshToken env call (some given)) false s := by
  have hfresh : env.hashRefreshToken call.newRefreshToken ≠ env.hashRefreshToken token :=
    fun h => hfresh (env.digest.injective h)
  unfold handleRefreshToken
  refine .require (· rfl) fun given' hinput => ?_
  cases hinput
  refine .ensure (· rfl) fun _ => ?_
  rw [hgiven]
  dsimp only
  generalize env.hashRefreshToken token = hash at hone hfresh ⊢
  refine .ite (fun hfast => .look fun s₁ h₁ _ => ?_)
    fun hslow => refreshStored_safe hone (fun hfast => absurd hfast hslow) hfresh
  have hfinds : (tokenOneShot env hash).finds (.cachedSession hash) s₁ = s₁.hasCached hash := by
    simp [tokenOneShot, hfast]
  rw [hfinds, State.hasCached]
  rcases hcached : s₁.findCached hash with _ | user
  · exact refreshStored_safe (h₁.hashedOnce hone)
      (fun _ => by simp [State.hasCached, hcached]) hfresh
  · rw [Option.filter_some, Option.any_some]
    cases hid : decide (user.id ≠ "") with
    | false =>
      exact refreshStored_safe (h₁.hashedOnce hone)
        (fun _ => by rw [State.hasCached, hcached, Option.any_some, hid]) hfresh
    | true => exact refreshCached_safe hfresh user

theorem handleIssueOIDCTokenRefreshToken_safe {input : OIDCTokenInput}
    (hone : s.HashedOnce (env.hashRefreshToken input.refreshToken))
    (hfresh : call.newRefreshToken ≠ input.refreshToken) :
    (tokenOneShot env (env.hashRefreshToken input.refreshToken)).SafeRequest
      (handleIssueOIDCTokenRefreshToken env call input) false s := by
  have hfresh : env.hashRefreshToken call.newRefreshToken ≠
      env.hashRefreshToken input.refreshToken :=
    fun h => hfresh (env.digest.injective h)
  unfold handleIssueOIDCTokenRefreshToken
  refine .ensure (· rfl) fun _ => .ensure (· rfl) fun _ => .ensure (· rfl) fun _ => ?_
  dsimp only
  generalize env.hashRefreshToken input.refreshToken = hash at hone hfresh ⊢
  refine .look fun s₁ h₁ hcached => .require (· rfl) fun session hsession => .query fun s₂ h₂ =>
    .require (· rfl) fun user _ => .query fun s₃ h₃ => .ite (fun _ => ?_) fun _ => ?_
  · exact .change (fun _ => tokenLater_deleteSession _) fun _ _ => .stop (· rfl)
  obtain ⟨hget, hhash⟩ := get_of_selectLiveSession hsession
  have hrotate : ∀ (s : State) (expiresAt : ℤ), TokenLater hash s
      (s.rotateSession session.1 (env.hashRefreshToken call.newRefreshToken) expiresAt) := by
    refine fun s expiresAt => ⟨fun _ h => h, fun id row hrow hrowHash => ?_, le_rfl⟩
    rw [State.rotateSession, Table.get_update] at hrow
    split at hrow
    · obtain ⟨old, -, rfl⟩ := Option.map_eq_some_iff.mp hrow
      exact absurd hrowHash hfresh
    · exact hrow
  refine .query fun s₄ h₄ => .change (fun s => hrotate s _) fun s₅ h₅ => ?_
  have hfound : (false || (tokenOneShot env hash).finds (.sessionGrant hash) s₁) := by
    simp [tokenOneShot, hsession]
  have hlater : TokenLater hash s₁ (s₅.rotateSession session.1
      (env.hashRefreshToken call.newRefreshToken)
      (s₄.now + env.config.refreshTokenExpirySeconds)) :=
    (h₂.trans (h₃.trans (h₄.trans h₅))).trans (hrotate s₅ _)
  rw [hfound]
  refine Moves.safe (.reply _) ⟨fun hfast => hlater.hasCached (hcached hfast), ?_⟩
  refine hlater.unhashed (h₁.hashedOnce hone) hget hhash fun row hrow => ?_
  rw [State.rotateSession, Table.get_update, if_pos rfl] at hrow
  obtain ⟨old, -, rfl⟩ := Option.map_eq_some_iff.mp hrow
  exact hfresh

end tokens

/-! ## All of them -/

/-- What is to be used once. -/
inductive Artefact
  | refreshToken (token : String)
  | mfaTicket (ticket : String)
  | authorizationCode (code : String)
  | oauthState (state : String)

/-- How requests find the artefact, and which of them go on with it. -/
def Artefact.oneShot : Artefact → OneShot State Access Reply
  | refreshToken token => tokenOneShot env (env.hashRefreshToken token)
  | mfaTicket ticket => ticketOneShot ticket
  | authorizationCode code => codeOneShot code
  | oauthState state => oauthStateOneShot state

/-- The handlers of the requests that present the artefact. Another refresh token is drawn in each
of them. -/
inductive Artefact.Presented : Artefact → Handler → Prop
  | refresh {token given : String} {call : Call} (hgiven : presentedToken call given = token)
      (hfresh : call.newRefreshToken ≠ token) :
      Presented (.refreshToken token) (handleRefreshToken env call (some given))
  | refreshGrant {call : Call} {input : OIDCTokenInput}
      (hfresh : call.newRefreshToken ≠ input.refreshToken) :
      Presented (.refreshToken input.refreshToken) (handleIssueOIDCTokenRefreshToken env call input)
  | challenge {call : Call} {input : ChallengeMFAInput} :
      Presented (.mfaTicket (Strings.trimSpace input.mfaTicket))
        (handleChallengeMFA env call (some input))
  | exchange {call : Call} {input : OIDCTokenInput} :
      Presented (.authorizationCode input.code)
        (handleIssueOIDCTokenAuthorizationCode env call input)
  | callback {call : Call} {input : OAuthCallbackInput} :
      Presented (.oauthState input.state) (handleProcessOAuthCallback env call input)

/-- Time goes by. -/
def tick (seconds : ℕ) : Handler := do
  change fun s => { s with now := s.now + seconds }
  reply .noContent

/-- What runs side by side: any number of requests that present the artefact, and the clock. -/
def Artefact.Concurrent (artefact : Artefact) (p : Handler) : Prop :=
  artefact.Presented env p ∨ ∃ seconds, p = tick seconds

/-- No two sessions share the refresh token. -/
def Artefact.IsSingle (s : State) : Artefact → Prop
  | refreshToken token => s.HashedOnce (env.hashRefreshToken token)
  | _ => True

theorem tick_safe (artefact : Artefact) (seconds : ℕ) (s : State) :
    (artefact.oneShot env).SafeRequest (tick seconds) false s := by
  have hnow : ∀ s : State, s.now ≤ s.now + (seconds : ℤ) := fun s => by omega
  cases artefact with
  | refreshToken token =>
    exact .change (fun s => ⟨fun _ h => h, fun _ _ h _ => h, hnow s⟩) fun _ _ => .reply (· rfl)
  | mfaTicket ticket =>
    exact .change (fun s => ⟨fun _ h => h, hnow s⟩)
      fun _ _ => .reply (Reply.not_verifies rfl (by decide))
  | authorizationCode code =>
    exact .change (fun s => ⟨fun _ h => h, hnow s⟩) fun _ _ => .reply (· rfl)
  | oauthState state =>
    exact .change (fun s => ⟨fun _ h => h, hnow s⟩) fun _ _ => .reply not_signsIn_noContent

/-- Whatever competes for the artefact is safe, and so is the passing of time. -/
theorem Artefact.safe {artefact : Artefact} {start s : State} {p : Handler}
    (hsingle : artefact.IsSingle env start) (hlater : (artefact.oneShot env).later start s)
    (hp : artefact.Concurrent env p) : (artefact.oneShot env).SafeRequest p false s := by
  rcases hp with hp | ⟨seconds, rfl⟩
  · cases hp with
    | refresh hgiven hfresh =>
      exact handleRefreshToken_safe (TokenLater.hashedOnce hlater hsingle) hgiven hfresh
    | refreshGrant hfresh =>
      exact handleIssueOIDCTokenRefreshToken_safe (TokenLater.hashedOnce hlater hsingle) hfresh
    | challenge => exact handleChallengeMFA_safe env _ _ s
    | exchange => exact handleIssueOIDCTokenAuthorizationCode_safe env _ _ s
    | callback => exact handleProcessOAuthCallback_safe env _ _ s
  · exact tick_safe env artefact seconds s

/-- As long as no request finds the artefact while another that has found it is at work, at most
one request goes on with it. -/
theorem artefact_used_once (env : Env) {artefact : Artefact} {start : State}
    {pool : Pool State Access Reply} (hsingle : artefact.IsSingle env start)
    (hrun : Runs.Run (Pool.step (artefact.oneShot env))
      (Pool.allowed (artefact.oneShot env) (artefact.Concurrent env)) (.initial start) pool)
    {i j : ℕ} {r r' : Reply} (hi : pool.threads[i]? = some (.reply r))
    (hr : (artefact.oneShot env).passes r) (hj : pool.threads[j]? = some (.reply r'))
    (hr' : (artefact.oneShot env).passes r') : i = j :=
  passes_unique (fun _ hp _ hlater => artefact.safe env hsingle hlater hp) hrun hi hr hj hr'

/-- The registered user, who is signed in, gets a code for a relying party. -/
def sampleCoded : State :=
  (serve sampleEnv { sampleCall "1" with caller := ⟨"v", "", "", "", ""⟩ }
    (.authorizeOIDC ⟨"", "", "app", "https://app", "code", "challenge", "S256", "openid", ""⟩)
    sampleWorld.state).2

def sampleExchange : OIDCTokenInput := ⟨"app", "", "a1", "https://app", "challenge", ""⟩

/-- Two requests exchange one code. The second starts when the first has ended: the first gets
tokens, the second does not, and no thread but the first goes on with the code. -/
theorem exchange_twice :
    ∃ (pool : Pool State Access Reply) (first second : Reply),
      Runs.Run (Pool.step (Artefact.oneShot sampleEnv (.authorizationCode "a1")))
        (Pool.allowed (Artefact.oneShot sampleEnv (.authorizationCode "a1"))
          (Artefact.Concurrent sampleEnv (.authorizationCode "a1"))) (.initial sampleCoded) pool ∧
      pool.threads = [.reply first, .reply second] ∧
      first.grantee = some "v" ∧ second.grantee = none ∧
      ∀ (j : ℕ) (r : Reply), pool.threads[j]? = some (.reply r) → r.grantee ≠ none → 0 = j := by
  let handler (suffix : String) : Handler :=
    handleIssueOIDCTokenAuthorizationCode sampleEnv (sampleCall suffix) sampleExchange
  have hrequest (suffix : String) :
      Artefact.Concurrent sampleEnv (.authorizationCode "a1") (handler suffix) :=
    .inl (@Artefact.Presented.exchange sampleEnv (sampleCall suffix) sampleExchange)
  let answer := (handler "2").answer sampleCoded
  have hfirst : answer.1.grantee = some "v" := by decide +kernel
  have hsecond : ((handler "3").answer answer.2).1.grantee = none := by decide +kernel
  have hmay : ∀ tag s, (Artefact.oneShot sampleEnv (.authorizationCode "a1")).may tag s :=
    fun _ _ => trivial
  have hnone : ∀ j ∈ ([] : List ℕ), j < ([] : List Reply).length := nofun
  obtain ⟨found, hfound, hrun⟩ := Pool.run_next hmay (hrequest "2") hnone Runs.Run.refl
  obtain ⟨found', -, hrun'⟩ := Pool.run_next hmay (hrequest "3") hfound hrun
  have hsingle : Artefact.IsSingle sampleEnv sampleCoded (.authorizationCode "a1") := trivial
  have hpasses : answer.1.grants := by
    rw [Reply.grants, hfirst]
    exact Option.some_ne_none "v"
  exact ⟨_, _, _, hrun', rfl, hfirst, hsecond, fun j r hj hr =>
    artefact_used_once sampleEnv hsingle hrun' List.getElem?_cons_zero hpasses hj hr⟩

/-! ## A refresh token that is used twice -/

/-- The registered user signs in. -/
def sampleSignedIn : State :=
  (serve sampleEnv (sampleCall "1") (.signIn (some ⟨"v@x", "", "password"⟩)) sampleWorld.state).2

/-- Two requests refresh the session. Both find it before one of them deletes it. -/
def race : List (Move State Access Reply) :=
  [.start (handleRefreshToken sampleEnv (sampleCall "2") (some "r1")),
    .start (handleRefreshToken sampleEnv (sampleCall "3") (some "r1")),
    .advance 0, .advance 1] ++
    List.replicate 6 (.advance 0) ++ List.replicate 6 (.advance 1)

/-- What is started presents the refresh token; otherwise statements interleave as they like. -/
def Interleaves (_ : Pool State Access Reply) : Move State Access Reply → Prop
  | .start p => Artefact.Concurrent sampleEnv (.refreshToken "r1") p
  | .advance _ => True

theorem interleaves_race : ∀ move ∈ race, ∀ pool, Interleaves pool move := by
  have hpresented : ∀ call : Call, call.newRefreshToken ≠ "r1" →
      Artefact.Concurrent sampleEnv (.refreshToken "r1")
        (handleRefreshToken sampleEnv call (some "r1")) :=
    fun _ hfresh => .inl (.refresh rfl hfresh)
  intro move hmem pool
  simp only [race, List.cons_append, List.nil_append, List.mem_append, List.mem_cons,
    List.mem_replicate] at hmem
  rcases hmem with rfl | rfl | rfl | rfl | ⟨-, rfl⟩ | ⟨-, rfl⟩
  · exact hpresented _ (by decide)
  · exact hpresented _ (by decide)
  · trivial
  · trivial
  · trivial
  · trivial

theorem hashedOnce_sampleSignedIn (hash : String) : sampleSignedIn.HashedOnce hash := by
  have hids : sampleSignedIn.sessions.rows.map Prod.fst = ["s1"] := by decide +kernel
  have hid : ∀ {id session}, sampleSignedIn.sessions.get id = some session → id = "s1" := by
    intro id session hget
    have hmem := List.mem_map_of_mem (f := Prod.fst) (Table.get_eq_some_iff.mp hget)
    rw [hids] at hmem
    exact List.mem_singleton.mp hmem
  exact fun _ _ _ _ hget hget' _ _ => (hid hget).trans (hid hget').symm

/-- The reply of a thread, from the users who were granted tokens. -/
theorem replied_of_map {threads : List Handler} {i : ℕ} {userID : String}
    (h : (threads.map fun p => p.replied.bind Reply.grantee)[i]? = some (some userID)) :
    ∃ r, threads[i]? = some (.reply r) ∧ r.grantee = some userID := by
  rw [List.getElem?_map] at h
  obtain ⟨p, hthread, hp⟩ := Option.map_eq_some_iff.mp h
  obtain ⟨r, hreplied, hr⟩ := Option.bind_eq_some_iff.mp hp
  exact ⟨r, by rw [hthread, eq_reply_of_replied hreplied], hr⟩

/-- Two requests with one refresh token both get tokens. -/
theorem refresh_token_used_twice :
    Artefact.IsSingle sampleEnv sampleSignedIn (.refreshToken "r1") ∧
    ∃ pool : Pool State Access Reply,
      Runs.Run (Pool.step (Artefact.oneShot sampleEnv (.refreshToken "r1"))) Interleaves
        (.initial sampleSignedIn) pool ∧
      (∃ r, pool.threads[0]? = some (.reply r) ∧ r.grantee = some "v") ∧
      ∃ r, pool.threads[1]? = some (.reply r) ∧ r.grantee = some "v" := by
  have hreplies : (Runs.exec (Pool.step (Artefact.oneShot sampleEnv (.refreshToken "r1")))
      (.initial sampleSignedIn) race).map
        (fun pool => pool.threads.map fun p => p.replied.bind Reply.grantee) =
      some [some "v", some "v"] := by decide +kernel
  obtain ⟨pool, hexec, hthreads⟩ := Option.map_eq_some_iff.mp hreplies
  exact ⟨hashedOnce_sampleSignedIn _, pool, Runs.Run.of_exec_always .refl interleaves_race hexec,
    replied_of_map (by rw [hthreads]; rfl), replied_of_map (by rw [hthreads]; rfl)⟩

end Layr.Auth

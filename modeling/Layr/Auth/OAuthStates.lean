import Layr.Auth.SingleUse
import Layr.Auth.CodeRows

/-!
# The states of sign-ins at providers (`handleAuthorizeOAuth`, `handleProcessOAuthCallback`)

`handleAuthorizeOAuth` stores the provider of a sign-in under its state, and the callback takes the
state out again. But it never reads the provider that is stored: it exchanges its code with the
provider that the request names. So a state that was issued for one provider completes a sign-in at
another.
-/

namespace Layr.Auth

open Go Prog

/-! ## What the two requests do -/

section definitions

variable (env : Env)

/-- What the provider says about the user, if the callback gets as far as the exchange of its
code. -/
def OAuthCallbackInput.exchanged (s : State) (input : OAuthCallbackInput) : Option OAuthUserInfo :=
  if input.state = "" then none
  else
    ((s.findOAuthState input.state).filter fun payload => payload.stateID = input.state).bind
      fun payload =>
        if input.provider ≠ "" ∧ input.code ≠ "" ∧ env.providerEnabled input.provider = some true ∧
            env.isProviderResolved input.provider = true then
          env.exchangeCode input.provider input.code (input.callback env payload)
        else none

/-- The provider that a request issued a state for. -/
def Served.issuesState (state : String) (served : Served) : Option String :=
  match served.request with
  | .authorizeOAuth input =>
    if served.reply = .providerRedirect state then some input.provider else none
  | _ => none

/-- The provider that a state was issued for last. -/
def issuedFor (state : String) (log : List Served) : Option String :=
  log.findSome? (Served.issuesState state)

/-- Every code that is exchanged goes to the provider that its state was issued for. -/
def StatesBound (log : List Served) : Prop :=
  ∀ served earlier input provider, served :: earlier <:+ log →
    served.request = .processOAuthCallback input →
    (input.exchanged env served.before).isSome →
    issuedFor input.state earlier = some provider → input.provider = provider

/-- A callback that exchanges its code names the provider that is stored under its state. -/
def AtItsProvider (w : World) : Event → Prop
  | .serve _ (.processOAuthCallback input) => (input.exchanged env w.state).isSome →
    ∀ payload, w.state.findOAuthState input.state = some payload → payload.provider = input.provider
  | _ => True

end definitions

section effects

variable {env : Env} {call : Call} {s : State}

attribute [local simp] Prog.bind_assoc State.updateUser State.upsertUser State.insertSession
  State.setCached State.linkIdentity State.setTicket State.setCode State.deleteOIDCState
  resolveAnonymousCaller ensureUnlocked issueSessionResponse completeSignInFlow
  issueOIDCAuthorizationCode completeOIDCAuthorization completeOAuthFlow registerIdentity
  signInIdentity linkAnonymous

/-- A sign-in at a provider is refused, or stores the provider under the state that it issues. -/
theorem serve_authorizeOAuth (env : Env) (call : Call) (s : State) (input : AuthorizeOAuthInput) :
    (∃ state payload, serve env call (.authorizeOAuth input) s =
      (.providerRedirect state, s.setOAuthState state payload) ∧
        payload.provider = input.provider) ∨
    (serve env call (.authorizeOAuth input) s).2 = s ∧
      ∀ state, (serve env call (.authorizeOAuth input) s).1 ≠ .providerRedirect state := by
  have hwp : (handleAuthorizeOAuth env call input).wp (fun _ _ => True)
      (fun r s' => (∃ state payload,
        (r, s') = (.providerRedirect state, s.setOAuthState state payload) ∧
          payload.provider = input.provider) ∨
        s' = s ∧ ∀ state, r ≠ .providerRedirect state) s := by
    unfold handleAuthorizeOAuth
    refine wp_require_bind.mpr ⟨fun _ => .inr ⟨rfl, fun _ heq => by cases heq⟩, fun _ _ => ?_⟩
    refine wp_ensure_bind.mpr ⟨fun _ => ?_, fun _ => .inr ⟨rfl, fun _ heq => by cases heq⟩⟩
    refine wp_ensure_bind.mpr ⟨fun _ => ?_, fun _ => .inr ⟨rfl, fun _ heq => by cases heq⟩⟩
    refine (wp_bind _ _).mpr ((wp_change _).mpr ?_)
    exact (wp_reply _).mpr (.inl ⟨_, _, rfl, rfl⟩)
  exact wp_iff_answer.mp hwp

/-- The end of a callback: the state is used up or left alone, and without an exchange of the code
there is an error and nothing else happens. -/
structure CallbackEnd (env : Env) (s : State) (input : OAuthCallbackInput) (r : Reply)
    (s' : State) : Prop where
  states : s'.oauthStates = s.oauthStates ∨ s'.oauthStates = s.oauthStates.delete input.state
  refused : input.exchanged env s = none → (∃ status code text, r = .oauthError status code text) ∧
    (s' = s ∨ s' = s.deleteOAuthState input.state)

theorem serve_processOAuthCallback (env : Env) (call : Call) (s : State)
    (input : OAuthCallbackInput) :
    CallbackEnd env s input (serve env call (.processOAuthCallback input) s).1
      (serve env call (.processOAuthCallback input) s).2 := by
  have hearly : ∀ status code text, CallbackEnd env s input (.oauthError status code text) s :=
    fun status code text => ⟨.inl rfl, fun _ => ⟨⟨status, code, text, rfl⟩, .inl rfl⟩⟩
  have hused : ∀ status code text, CallbackEnd env s input (.oauthError status code text)
      (s.deleteOAuthState input.state) :=
    fun status code text => ⟨.inr rfl, fun _ => ⟨⟨status, code, text, rfl⟩, .inr rfl⟩⟩
  have hwp : (handleProcessOAuthCallback env call input).wp (fun _ _ => True)
      (CallbackEnd env s input) s := by
    unfold handleProcessOAuthCallback
    refine wp_ensure_bind.mpr ⟨fun hstate => ?_, fun _ => hearly _ _ _⟩
    refine (wp_bind _ _).mpr ((wp_look _ _).mpr ?_)
    refine wp_require_bind.mpr ⟨fun _ => hearly _ _ _,
      fun payload hpayload => ?_⟩
    refine wp_ensure_bind.mpr ⟨fun hid => ?_, fun _ => hearly _ _ _⟩
    refine (wp_bind _ _).mpr ((wp_change _).mpr ?_)
    refine wp_ensure_bind.mpr ⟨fun hfields => ?_, fun _ => hused _ _ _⟩
    refine wp_require_bind.mpr ⟨fun _ => hused _ _ _,
      fun isEnabled hprovider => ?_⟩
    refine wp_ensure_bind.mpr ⟨fun henabled => ?_, fun _ => hused _ _ _⟩
    refine wp_ensure_bind.mpr ⟨fun hresolved => ?_, fun _ => hused _ _ _⟩
    refine wp_require_bind.mpr ⟨fun _ => hused _ _ _, fun info hinfo => ?_⟩
    have hexchanged : input.exchanged env s = some info := by
      unfold OAuthCallbackInput.exchanged
      rw [if_neg hstate, hpayload, Option.filter_some, if_pos (decide_eq_true hid),
        Option.bind_some, if_pos ⟨hfields.1, hfields.2, henabled ▸ hprovider, hresolved⟩, hinfo]
    -- the rest of the callback does not touch the states any more
    have hkeeps : ∀ {p : Handler}, p.Keeps State.oauthStates →
        p.wp (fun _ _ => True) (CallbackEnd env s input) (s.deleteOAuthState input.state) := by
      intro p hp
      refine hp.wp fun r s' hstates => ⟨.inr hstates, fun hnone => ?_⟩
      rw [hexchanged] at hnone
      cases hnone
    exact hkeeps (by simp)
  exact wp_iff_answer.mp hwp

theorem exists_payload {input : OAuthCallbackInput}
    (h : (input.exchanged env s).isSome) :
    ∃ payload, s.findOAuthState input.state = some payload := by
  obtain ⟨info, hinfo⟩ := Option.isSome_iff_exists.mp h
  obtain ⟨_, hbind⟩ := Option.ite_none_left_eq_some.mp hinfo
  obtain ⟨payload, hpayload, _⟩ := Option.bind_eq_some_iff.mp hbind
  exact ⟨payload, (Option.filter_eq_some_iff.mp hpayload).1⟩

end effects

/-! ## Runs -/

section runs

variable {env : Env} {w : World} {call : Call} {request : Request}

/-- Under a state that was issued stands the provider that it was issued for last. -/
def Remembers (w : World) : Prop :=
  ∀ state entry provider, w.state.oauthStates.get state = some entry →
    issuedFor state w.log = some provider → entry.value.provider = provider

theorem issuedFor_cons (served : Served) (log : List Served) (state : String) :
    issuedFor state (served :: log) = (served.issuesState state <|> issuedFor state log) := by
  rw [issuedFor, List.findSome?_cons]
  cases served.issuesState state with
  | none => rfl
  | some => rfl

theorem Remembers.serve_other (hinv : Remembers w)
    (hstates : ∀ state entry, (w.serve env call request).state.oauthStates.get state = some entry →
      w.state.oauthStates.get state = some entry)
    (hissues : ∀ state, Served.issuesState state ⟨w.state, call, request,
      (serve env call request w.state).1⟩ = none) : Remembers (w.serve env call request) := by
  intro state entry provider hget hissued
  refine hinv state entry provider (hstates state entry hget) ?_
  rw [World.serve, issuedFor_cons, hissues state] at hissued
  exact hissued

/-- What the log knows of a state, other requests do not change. -/
theorem issuesState_of_handlesOAuth (hoauth : request.handlesOAuth = false) (before : State)
    (r : Reply) (state : String) : Served.issuesState state ⟨before, call, request, r⟩ = none := by
  cases request with
  | authorizeOAuth => cases hoauth
  | _ => rfl

/-- Only the OAuth handlers touch the stored states. -/
theorem Remembers.serve (hinv : Remembers w) (call : Call) (request : Request) :
    Remembers (w.serve env call request) := by
  by_cases hoauth : request.handlesOAuth = false
  · have hkept : (w.serve env call request).state.oauthStates = w.state.oauthStates :=
      (keepsOAuthStates_handler hoauth).answer w.state
    exact hinv.serve_other (fun _ _ hget => hkept ▸ hget)
      (issuesState_of_handlesOAuth hoauth w.state _)
  cases request with
  | authorizeOAuth input =>
    rcases serve_authorizeOAuth env call w.state input with ⟨issued, payload, hserve, hprovider⟩ |
      ⟨hsame, hreply⟩
    · -- the state that is issued gets the provider, and the others keep theirs
      intro state entry provider hget hissued
      have hstate : (w.serve env call (.authorizeOAuth input)).state =
          w.state.setOAuthState issued payload := congrArg Prod.snd hserve
      rw [hstate, State.setOAuthState, Store.set, Table.get_upsert_const] at hget
      have hreply : (Auth.serve env call (.authorizeOAuth input) w.state).1 =
          .providerRedirect issued := congrArg Prod.fst hserve
      simp only [World.serve, issuedFor_cons, Served.issuesState] at hissued
      by_cases heq : state = issued
      · rw [if_pos heq] at hget
        rw [if_pos (heq ▸ hreply)] at hissued
        rw [← Option.some.inj hget, hprovider]
        exact Option.some.inj hissued
      · rw [if_neg heq] at hget
        rw [if_neg fun h =>
          heq (Reply.providerRedirect.inj (hreply.symm.trans h)).symm] at hissued
        exact hinv state entry provider hget hissued
    · refine hinv.serve_other (fun _ _ hget => ?_) fun state => if_neg (hreply state)
      rwa [World.serve, hsame] at hget
  | processOAuthCallback input =>
    refine hinv.serve_other (fun state entry hget => ?_) fun _ => rfl
    rcases (serve_processOAuthCallback env call w.state input).states with hsame | hdeleted
    · rwa [World.serve, hsame] at hget
    · rw [World.serve, hdeleted] at hget
      exact (Table.get_of_delete hget).2
  | _ => exact absurd rfl hoauth

/-- In every run in which the callbacks name the provider that is stored under their state, codes
are exchanged with the provider only that the state was issued for. -/
theorem states_bound {start : State}
    (hrun : Runs.Run (World.step env) (AtItsProvider env) ⟨start, []⟩ w) :
    StatesBound env w.log := by
  have hinv : Remembers w ∧ StatesBound env w.log := by
    apply World.invariant env hrun
    · refine ⟨fun _ _ _ _ hissued => ?_, fun served earlier _ _ hsuffix => ?_⟩
      · cases hissued
      · cases List.suffix_nil.mp hsuffix
    · intro w call request hinv hallowed
      refine ⟨hinv.1.serve call request, ?_⟩
      intro served earlier input provider hsuffix hrequest hexchanged hissued
      rcases List.suffix_cons_iff.mp hsuffix with heq | hsuffix
      swap
      · exact hinv.2 served earlier input provider hsuffix hrequest hexchanged hissued
      obtain ⟨rfl, rfl⟩ := List.cons.inj heq
      obtain rfl : request = .processOAuthCallback input := hrequest
      obtain ⟨payload, hpayload⟩ := exists_payload hexchanged
      obtain ⟨entry, hget, rfl, _⟩ := get_of_find hpayload
      rw [← hallowed hexchanged _ hpayload]
      exact hinv.1 input.state entry provider hget hissued
    · exact fun _ _ hinv => hinv
  exact hinv.2

end runs

/-! ### Two providers -/

/-- A service with two providers, which vouch for anybody. -/
def providersEnv : Env :=
  { sampleEnv with
    config := { sampleConfig with oauthProviders := [("good", true), ("evil", true)] }
    isProviderResolved := fun _ => true
    exchangeCode := fun _ _ _ => some ⟨"p", "v@x"⟩ }

/-- A sign-in at the first provider has been started. -/
def started : World :=
  sampleWorld.serve providersEnv (sampleCall "1") (.authorizeOAuth ⟨"good", "", "s", ""⟩)

/-- The callback for a provider. -/
def callback (provider : String) : World :=
  started.serve providersEnv (sampleCall "2") (.processOAuthCallback ⟨provider, "c", "", "s"⟩)

theorem run_callback {allowed : World → Event → Prop} (provider : String)
    (hstarted : allowed sampleWorld
      (.serve (sampleCall "1") (.authorizeOAuth ⟨"good", "", "s", ""⟩)))
    (hallowed : allowed started
      (.serve (sampleCall "2") (.processOAuthCallback ⟨provider, "c", "", "s"⟩))) :
    Runs.Run (World.step providersEnv) allowed ⟨sampleWorld.state, []⟩ (callback provider) :=
  World.run_serve providersEnv (World.run_serve providersEnv .refl hstarted) hallowed

/-- The callback of the first provider completes the sign-in. -/
theorem states_bound_callback :
    (callback "good").log.head?.map Served.reply =
      some (.tokens sampleUser "s2" "r2") ∧
    StatesBound providersEnv (callback "good").log := by
  have hstored : started.state.findOAuthState "s" =
      some ⟨"s", "good", "/v1/auth/oauth/good/callback", ""⟩ := by decide +kernel
  refine ⟨by decide +kernel,
    states_bound (run_callback "good" trivial fun _ payload hpayload => ?_)⟩
  rw [← Option.some.inj (hstored.symm.trans hpayload)]

/-- The callback of the other one does too. -/
theorem completed_at_other_provider :
    Runs.Run (World.step providersEnv) (fun _ _ => True) ⟨sampleWorld.state, []⟩
      (callback "evil") ∧
    issuedFor "s" started.log = some "good" ∧
    (callback "evil").log.head?.map Served.reply =
      some (.tokens sampleUser "s2" "r2") ∧
    ¬StatesBound providersEnv (callback "evil").log := by
  have hissued : issuedFor "s" started.log = some "good" := by decide +kernel
  have hexchanged : ((OAuthCallbackInput.mk "evil" "c" "" "s").exchanged providersEnv
      started.state).isSome := by decide +kernel
  refine ⟨run_callback "evil" trivial trivial, hissued, by decide +kernel, fun hbound => ?_⟩
  have heq := hbound _ _ _ _ (List.suffix_refl _) rfl hexchanged hissued
  exact absurd heq (by decide)

end Layr.Auth

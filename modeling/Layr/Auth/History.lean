import Layr.Auth.Effects
import Layr.Kv.KeyRecords
import Layr.Lib.Runs

/-!
# Runs of the authentication service

The service takes one request after the other while time goes by, and keeps a log of what it was
asked and what it replied. The log is not part of the program: the properties of runs are stated
with it.
-/

namespace Layr.Auth

/-- A request that was served, with the state it met and the reply it got. -/
structure Served where
  before : State
  call : Call
  request : Request
  reply : Reply

/-- The service and what it has served, the latest first. -/
structure World where
  state : State
  log : List Served

inductive Event
  | serve (call : Call) (request : Request)
  | tick (seconds : ℕ)

variable (env : Env)

/-- The service after a request. -/
def World.serve (w : World) (call : Call) (request : Request) : World where
  state := (Layr.Auth.serve env call request w.state).2
  log := ⟨w.state, call, request, (Layr.Auth.serve env call request w.state).1⟩ :: w.log

/-- The service some time later. -/
def World.later (w : World) (seconds : ℕ) : World :=
  { w with state := { w.state with now := w.state.now + seconds } }

def World.step (w : World) : Event → Option World
  | .serve call request => some (w.serve env call request)
  | .tick seconds => some (w.later seconds)

/-- The reply gave out the session. -/
def Served.Issues (served : Served) (issued : Issued) : Prop :=
  served.reply.issued served.call = some issued

instance (served : Served) (issued : Issued) : Decidable (served.Issues issued) :=
  inferInstanceAs (Decidable (_ = _))

/-- The session was given out. -/
def IsIssued (log : List Served) (issued : Issued) : Prop :=
  ∃ served ∈ log, served.Issues issued

theorem World.run_serve {allowed : World → Event → Prop} {start w : World} {call : Call}
    {request : Request} (hrun : Runs.Run (World.step env) allowed start w)
    (hallowed : allowed w (.serve call request)) :
    Runs.Run (World.step env) allowed start (w.serve env call request) :=
  hrun.step hallowed rfl

/-- What is kept by every request and by time holds in every state of a run. -/
theorem World.invariant {allowed : World → Event → Prop} {Inv : World → Prop} {start w : World}
    (hrun : Runs.Run (World.step env) allowed start w) (hstart : Inv start)
    (hserve : ∀ w call request, Inv w → allowed w (.serve call request) →
      Inv (w.serve env call request))
    (htick : ∀ w seconds, Inv w → Inv (w.later seconds)) : Inv w := by
  refine hrun.invariant hstart fun w event w' hinv hallowed hstep => ?_
  cases event with
  | serve call request =>
    cases hstep
    exact hserve w call request hinv hallowed
  | tick seconds =>
    cases hstep
    exact htick w seconds hinv

/-! ## Sessions that were given out -/

/-- Sessions and their copies were given out to their users. -/
structure SessionsIssued (w : World) : Prop where
  sessions : ∀ id session, w.state.sessions.get id = some session →
    ∃ token, IsIssued w.log ⟨session.userID, id, token⟩ ∧
      session.refreshTokenHash = env.hashRefreshToken token
  cache : ∀ hash entry, w.state.cache.get hash = some entry →
    ∃ sessionID token, IsIssued w.log ⟨entry.value.id, sessionID, token⟩ ∧
      hash = env.hashRefreshToken token

theorem IsIssued.cons {log : List Served} {issued : Issued} (h : IsIssued log issued)
    (served : Served) : IsIssued (served :: log) issued := by
  obtain ⟨old, hmem, hissues⟩ := h
  exact ⟨old, List.mem_cons_of_mem _ hmem, hissues⟩

theorem SessionsIssued.serve {w : World} (hinv : SessionsIssued env w) (call : Call)
    (request : Request) : SessionsIssued env (w.serve env call request) := by
  have houtcome := serve_outcome env call request w.state
  constructor
  · intro id session hget
    rcases houtcome.session_get hget with hold | ⟨hissued, hhash⟩
    · obtain ⟨token, hold, hhash⟩ := hinv.sessions id session hold
      exact ⟨token, hold.cons _, hhash⟩
    · exact ⟨call.newRefreshToken, ⟨_, List.mem_cons_self, hissued⟩, hhash⟩
  · intro hash entry hget
    rcases houtcome.cache_get hget with hold | ⟨hhash, hissued⟩
    · obtain ⟨sessionID, token, hold, hhash⟩ := hinv.cache hash entry hold
      exact ⟨sessionID, token, hold.cons _, hhash⟩
    · exact ⟨call.newSessionID, call.newRefreshToken, ⟨_, List.mem_cons_self, hissued⟩, hhash⟩

/-! ## A service to look at -/

/-- A configuration with everything enabled. -/
def sampleConfig : Config where
  passwordEnabled := true
  passwordMinLength := 8
  emailOTPEnabled := true
  emailOTPExpiryMinutes := 10
  smsOTPEnabled := true
  smsOTPExpiryMinutes := 10
  passkeysEnabled := true
  anonymousEnabled := true
  mfaEnabled := true
  mfaPolicy := "always"
  mfaRiskTriggers := []
  fastPathSessionsEnabled := true
  sessionTTLSeconds := 900
  refreshTokenExpirySeconds := 2592000
  oidcEnabled := true
  oidcClients := [⟨"app", "", true, ["https://app"]⟩]
  showPassword := true
  showSignUp := true
  showEmailOTP := true
  showSMSOTP := true
  oauthProviders := []

/-- Surroundings in which hashes and ciphertexts are the texts themselves, and a code is accepted
when it is the secret. -/
def sampleEnv : Env where
  config := sampleConfig
  digest := Kv.Digest.bytes
  hashPassword := id
  verifyPassword password hash := password = hash
  encrypt := id
  decrypt := some
  validateCode secret code _ := secret = code
  verifySignature publicKey _ _ signature := publicKey = signature
  isUUID id := id ≠ ""
  codeChallengeS256 := id
  idTokenSubject := some
  hundredYearsAfter now := now + 3155760000
  emailReady := true
  smsReady := true
  serverBaseURL := ""
  isProviderResolved _ := false
  exchangeCode _ _ _ := none

/-- A request of nobody, with texts drawn by a number. -/
def sampleCall (draw : String) : Call where
  caller := ⟨"", "", "", "", ""⟩
  sessionToken := ""
  captcha := none
  breach := none
  scope := none
  isLimited := false
  isCoolingDown := false
  isAddressAccepted := true
  risk := none
  newUserID := "u" ++ draw
  newSessionID := "s" ++ draw
  newRefreshToken := "r" ++ draw
  newOTPID := "o" ++ draw
  newCode := "c" ++ draw
  newChallenge := "h" ++ draw
  newTicket := "t" ++ draw
  newAuthorizationCode := "a" ++ draw
  newStateID := "i" ++ draw
  newMFAToken := "m" ++ draw
  newSecret := "k" ++ draw

/-- A registered user. -/
def sampleUser : User :=
  { UserRow.default with email := some "v@x", passwordHash := some "password", id := "v" }

/-- A service with one user that nobody has used yet. -/
def sampleWorld : World where
  state := { State.initial 0 with
    users := (Users.empty.insert "v" sampleUser.toUserRow).getD .empty }
  log := []

end Layr.Auth

import Layr.Auth.CodeRows
import Layr.Go.Time
import Layr.Kv.Sweeping
import Layr.Lib.Streaks

/-!
# The counters of the sign-in (`handleSignIn`, `auth/threat/risk.go`)

`handleSignIn` keeps counters in the key-value store: the attempts under each identifier, for the
rate limit, and the failures of each client address and each user, for the risk of a sign-in. The
handler takes the verdicts as part of its call; here they are computed from the store, which other
clients use too. The clock is in microseconds; the service reads it in seconds.
-/

namespace Layr.Auth

open Go Kv

/-! ## The rate limit -/

/-- `RateLimitingConfig`. -/
structure RateLimiting where
  enabled : Bool
  maxSignInAttempts : Int64
  windowDurationSeconds : Int64
  deriving DecidableEq, Repr

/-- `time.Duration(config.RateLimiting.WindowDurationSeconds) * time.Second`. -/
def RateLimiting.windowDuration (config : RateLimiting) : ℤ :=
  (config.windowDurationSeconds * 1000000000).toInt

/-- How long the store keeps a counter that was just hit. -/
def RateLimiting.lifetime (config : RateLimiting) : ℤ := Database.expiresAt 0 config.windowDuration

def rateKey (identifier : String) : String := "auth:ratelimit:sign_in:" ++ identifier

/-- Counts an attempt. A counter that cannot be read does not limit. -/
def RateLimiting.limit (config : RateLimiting) (now : ℤ) (table : Database.Table)
    (identifier : String) : Bool × Database.Table :=
  if config.enabled then
    let (count, table) :=
      Database.increment now table (rateKey identifier) config.windowDuration
    (match count with
      | .ok count => config.maxSignInAttempts.toInt < count
      | .error _ => false, table)
  else (false, table)

/-! ## Failures and the risk of a sign-in -/

def failedAttemptKey (identifier : String) : String :=
  "auth:threat:failed:" ++ Strings.trimSpace identifier

/-- `defaultAttemptWindowTime`. -/
def defaultAttemptWindowTime : ℤ := 15 * Time.minute

/-- `RecordFailedAttempt`, with the default window. -/
def recordFailedAttempt (now : ℤ) (table : Database.Table) (identifier : String) :
    Database.Table :=
  if Strings.trimSpace identifier = "" then table
  else (Database.increment now table (failedAttemptKey identifier) defaultAttemptWindowTime).2

/-- `ResetFailedAttempts`. -/
def resetFailedAttempts (table : Database.Table) (identifier : String) : Database.Table :=
  if Strings.trimSpace identifier = "" then table
  else (Database.delete table (failedAttemptKey identifier)).2

/-- `GetFailedAttempts`. -/
def getFailedAttempts (now : ℤ) (table : Database.Table) (identifier : String) : ℤ :=
  if Strings.trimSpace identifier = "" then 0
  else
    match Database.get now table (failedAttemptKey identifier) with
    | .ok content =>
      if content = "" then 0
      else (Strconv.parseInt (Strings.trimSpace content).toList).getD 0
    | .error _ => 0

/-- The client of a request, and what the query about the recent sessions of its user gives: all of
them, those from its device and those from its address. -/
structure Client where
  clientIP : String
  userAgent : String
  sessions : Option (ℕ × ℕ × ℕ)
  deriving DecidableEq, Repr

/-- `RiskAssessment` with all its fields. -/
structure Assessment where
  score : ℤ
  level : String
  isNewDevice : Bool
  isNewIP : Bool
  failedAttempts : ℤ
  reasons : List String
  deriving DecidableEq, Repr

def failedAttemptsMediumThreshold : ℤ := 3

def failedAttemptsCriticalThreshold : ℤ := 5

def newDeviceRiskScore : ℤ := 30

def newIPRiskScore : ℤ := 20

def excessiveFailedAttemptsRiskScore : ℤ := 30

def criticalFailedAttemptsRiskScore : ℤ := 20

def highRiskThreshold : ℤ := 50

def mediumRiskThreshold : ℤ := 25

def riskLevel (score : ℤ) : String :=
  if highRiskThreshold ≤ score then "high"
  else if mediumRiskThreshold ≤ score then "medium" else "low"

/-- The failures that count for a sign-in: those of its address and those of its user. -/
def totalFailedAttempts (now : ℤ) (table : Database.Table) (userID clientIP : String) : ℤ :=
  getFailedAttempts now table (Strings.trimSpace clientIP) +
    if userID = "" then 0 else getFailedAttempts now table userID

/-- `EvaluateSignInRisk`. -/
def evaluateSignInRisk (now : ℤ) (table : Database.Table) (userID : String) (client : Client) :
    Assessment :=
  let sessions := if userID = "" then none else client.sessions.filter fun counts => 0 < counts.1
  let isNewDevice := sessions.any fun counts =>
    counts.2.1 = 0 && Strings.trimSpace client.userAgent ≠ ""
  let isNewIP := sessions.any fun counts =>
    counts.2.2 = 0 && Strings.trimSpace client.clientIP ≠ ""
  let failedAttempts := totalFailedAttempts now table userID client.clientIP
  let isExcessive := failedAttemptsMediumThreshold ≤ failedAttempts
  let isCritical := failedAttemptsCriticalThreshold ≤ failedAttempts
  let score := (if isNewDevice then newDeviceRiskScore else 0) +
    (if isNewIP then newIPRiskScore else 0) +
    (if isExcessive then excessiveFailedAttemptsRiskScore else 0) +
    if isCritical then criticalFailedAttemptsRiskScore else 0
  { score := score
    level := riskLevel score
    isNewDevice := isNewDevice
    isNewIP := isNewIP
    failedAttempts := failedAttempts
    reasons := (if isNewDevice then ["new_device"] else []) ++
      (if isNewIP then ["new_ip"] else []) ++
      (if isExcessive then ["excessive_failed_attempts"] else []) ++
      if isCritical then ["critical_failed_attempts"] else [] }

/-! ## The sign-in -/

/-- What `handleSignIn` finds under an identifier. -/
inductive Account
  | notFound
  | locked (user : User)
  | wrong (user : User)
  | accepted (user : User)
  deriving DecidableEq, Repr

variable (env : Env) (config : RateLimiting)

/-- The account of an identifier, and whether it has the password. -/
def checkPassword (s : State) (identifier password : String) : Account :=
  match (s.selectUserByRecipient identifier).filter fun user => user.passwordHash.isSome with
  | none => .notFound
  | some user =>
    if user.isLocked s.now then .locked user
    else if user.passwordHash.any fun hash => env.verifyPassword password hash then .accepted user
    else .wrong user

/-- The identifier and the password of a sign-in that gets as far as the rate limit. -/
def signInAttempt (call : Call) (input : Option SignInInput) : Option (String × String) :=
  input.bind fun input => input.identifier.bind fun identifier =>
    if identifier ≠ "" ∧ input.password ≠ "" ∧ call.captcha = none then
      some (identifier, input.password)
    else none

/-- The store after the password was checked: failures are recorded, and the right password clears
the counters. -/
def settleAccount (client : Client) (now : ℤ) (table : Database.Table) (identifier : String) :
    Account → Database.Table
  | .notFound => recordFailedAttempt now table client.clientIP
  | .locked user | .wrong user =>
    recordFailedAttempt now (recordFailedAttempt now table client.clientIP) user.id
  | .accepted user =>
    resetFailedAttempts (resetFailedAttempts
      (Database.delete table (rateKey identifier)).2 client.clientIP) user.id

/-- The user whose password was given. -/
def Account.acceptedUser : Account → Option User
  | accepted user => some user
  | _ => none

/-- What a sign-in gets from the counters, and what it leaves in the store. The risk of a sign-in
with the right password is evaluated when its counters are cleared. -/
def countSignIn (client : Client) (s : State) (now : ℤ) (table : Database.Table)
    (identifier password : String) : (Bool × Option Assessment) × Database.Table :=
  let limited := config.limit now table identifier
  if limited.1 then ((true, none), limited.2)
  else
    let account := checkPassword env s identifier password
    let table := settleAccount client now limited.2 identifier account
    ((false, account.acceptedUser.map fun user => evaluateSignInRisk now table user.id client),
      table)

def Assessment.verdict (assessment : Assessment) : RiskAssessment :=
  ⟨assessment.level, assessment.reasons⟩

/-! ## The service beside its store -/

/-- A request that was served: when and in which states, by whom, with the verdicts in its call, and
the reply. -/
structure Record where
  time : ℤ
  state : State
  table : Database.Table
  client : Client
  call : Call
  request : Request
  reply : Reply

structure Service where
  state : State
  table : Database.Table
  now : ℤ
  log : List Record

/-- The identifier and the password of a request that is a sign-in and gets as far as the rate
limit. -/
def Request.signInAttempt (call : Call) : Request → Option (String × String)
  | signIn input => Auth.signInAttempt call input
  | _ => none

/-- The call with the verdicts of the counters, and the store after the request. -/
def counted (client : Client) (s : State) (now : ℤ) (table : Database.Table) (call : Call)
    (request : Request) : Call × Database.Table :=
  match request.signInAttempt call with
  | none => (call, table)
  | some (identifier, password) =>
    let (verdicts, table) := countSignIn env config client s now table identifier password
    ({ call with isLimited := verdicts.1, risk := verdicts.2.map Assessment.verdict }, table)

/-- The state of the service at a time of the store. -/
def State.atTime (s : State) (now : ℤ) : State := { s with now := now / 1000000 }

/-- A request that comes some time later. -/
def Service.serve (w : Service) (delay : ℕ) (client : Client) (call : Call) (request : Request) :
    Service :=
  let now := w.now + delay
  let s := w.state.atTime now
  let (call, table) := counted env config client s now w.table call request
  let (reply, state) := Auth.serve env call request s
  { state := state, table := table, now := now,
    log := ⟨now, s, w.table, client, call, request, reply⟩ :: w.log }

/-- Another client of the store, or its sweeper. -/
def Service.store (w : Service) (delay : ℕ) (step : Database.Step) : Service :=
  let now := w.now + delay
  { w with now := now, table := step.apply now w.table }

inductive ServiceEvent
  | serve (delay : ℕ) (client : Client) (call : Call) (request : Request)
  | store (delay : ℕ) (step : Database.Step)

def Service.step (w : Service) : ServiceEvent → Option Service
  | .serve delay client call request => some (w.serve env config delay client call request)
  | .store delay step => some (w.store delay step)

/-! ## What the handler replies -/

def tooManyAttempts : Reply := .error 429 "Too many login attempts. Please try again later."

section replies

open Prog

variable {env} {call : Call} {s : State} {input : Option SignInInput}
  {identifier password : String}

/-- The reply of a sign-in that gets as far as the rate limit, by what is found under its
identifier. -/
def signInReply (env : Env) (call : Call) (s : State) (identifier password : String) :
    Reply × State :=
  if call.isLimited then (tooManyAttempts, s)
  else
    match checkPassword env s identifier password with
    | .notFound | .wrong _ => (invalidCredentials, s)
    | .locked _ => (accountLocked, s)
    | .accepted user => (completeSignInFlow env call user).answer s

theorem serve_signIn (h : signInAttempt call input = some (identifier, password)) :
    serve env call (.signIn input) s = signInReply env call s identifier password := by
  obtain ⟨given, rfl, hgiven⟩ := Option.bind_eq_some_iff.mp h
  obtain ⟨found, hidentifier, hfound⟩ := Option.bind_eq_some_iff.mp hgiven
  obtain ⟨⟨hne, hpassword, hcaptcha⟩, ⟨⟩⟩ := Option.ite_none_right_eq_some.mp hfound
  refine answer_eq_of_wp (Q := fun _ _ => True) ?_
  simp only [Request.handler, handleSignIn, wp_bind, wp_query, wp_require, wp_ensure,
    wp_checkCaptcha, wp_ensureUnlocked, hidentifier, hcaptcha, reduceCtorEq, false_implies,
    true_and, Option.some.injEq, forall_eq', forall_const, and_true]
  refine ⟨fun _ => ⟨fun hlimited => ⟨fun hnone => ?_, fun user huser => ⟨fun hlocked =>
    ⟨fun hmatch => wp_iff_answer.mpr ?_, fun hmatch => ?_⟩,
    fun hlocked => ?_⟩⟩, fun hlimited => ?_⟩, fun hnot => absurd ⟨hne, hpassword⟩ hnot⟩
  · simp [signInReply, checkPassword, hlimited, hnone]
  · simp [signInReply, checkPassword, hlimited, huser, hlocked, hmatch]
  · simp [signInReply, checkPassword, hlimited, huser, hlocked, hmatch]
  · simp [signInReply, checkPassword, hlimited, huser, hlocked]
  · rw [signInReply, if_pos (Bool.not_eq_false _ ▸ hlimited)]
    rfl

/-- Only the rate limit gives its reply. -/
theorem signInReply_eq_tooManyAttempts_iff :
    (signInReply env call s identifier password).1 = tooManyAttempts ↔ call.isLimited := by
  unfold signInReply
  by_cases hlimited : call.isLimited
  · rw [if_pos hlimited]
    exact iff_of_true rfl hlimited
  rw [if_neg hlimited]
  refine iff_of_false ?_ hlimited
  cases checkPassword env s identifier password with
  | notFound | wrong user =>
    show ¬invalidCredentials = tooManyAttempts
    decide
  | locked user =>
    show ¬accountLocked = tooManyAttempts
    decide
  | accepted user =>
    have hwp : (completeSignInFlow env call user).wp (fun _ _ => True)
        (fun r _ => r ≠ tooManyAttempts) s := by
      refine (wp_completeSignInFlow _ _ _).mpr ⟨fun _ heq => ?_, fun _ heq => ?_⟩
      · cases heq
      · cases heq
    exact wp_iff_answer.mp hwp

end replies

/-! ## What the rate limit has counted -/

/-- The identifier and the password that a record has counted an attempt for. -/
def Record.attempted (e : Record) : Option (String × String) := e.request.signInAttempt e.call

/-- The attempt of a record under an identifier. It clears the counter if the password is right. -/
def Record.hit (identifier : String) (e : Record) : Option Streaks.Hit :=
  (e.attempted.filter fun attempt => attempt.1 = identifier).map fun attempt =>
    ⟨e.time, !e.call.isLimited &&
      (checkPassword env e.state identifier attempt.2).acceptedUser.isSome⟩

/-- The attempts under an identifier, the latest first. -/
def hits (identifier : String) (log : List Record) : List Streaks.Hit :=
  log.filterMap (Record.hit env identifier)

/-- The text that a count is stored as. There is no row for none. -/
def storedCount (n : ℕ) : Option String := if n = 0 then none else some (Postgres.bigintText n)

/-- At every time to come, the counter of the identifier holds the streak of its attempts. -/
def Tracks (identifier : String) (w : Service) : Prop :=
  ∀ t, w.now ≤ t →
    (Database.aliveRow t w.table (rateKey identifier)).map Database.Row.value =
      storedCount (Streaks.streak config.lifetime t (hits env identifier w.log))

theorem rateKey_injective : Function.Injective rateKey :=
  fun _ _ heq => (String.append_right_inj _).mp heq

theorem rateKey_ne_failedAttemptKey (identifier other : String) :
    rateKey identifier ≠ failedAttemptKey other := by
  have hrate : rateKey identifier = "auth:r" ++ ("atelimit:sign_in:" ++ identifier) := by
    rw [← String.append_assoc]
    rfl
  have hfailed : failedAttemptKey other =
      "auth:t" ++ ("hreat:failed:" ++ Strings.trimSpace other) := by
    rw [← String.append_assoc]
    rfl
  rw [hrate, hfailed]
  exact Strings.append_ne_append (by decide) (by decide) _ _

end Layr.Auth

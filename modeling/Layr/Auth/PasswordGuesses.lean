import Layr.Auth.SignInLimits

/-!
# Guessing a password

The rate limit is to bound the passwords that are compared with the hash of an account. As long as
all of them come under one identifier, its counter has counted each of them, and the bound holds. An
account with an email address and a phone number has two identifiers, and the hosted form counts
nothing.
-/

namespace Layr.Auth

open Go Kv

section definitions

variable (env : Env) (config : RateLimiting)

/-- The comparison of the action `sign_in` of the hosted form, with its result. -/
def hostedCheck (s : State) (form : OIDCForm) : Option (String × Bool) :=
  let email := Strings.toLower (Strings.trimSpace form.email)
  if env.config.oidcEnabled ∧ form.state ≠ "" ∧
      (s.findOIDCState form.state).isSome ∧
      (env.config.passwordEnabled && env.config.showPassword) ∧
      email ≠ "" ∧ form.password ≠ "" then
    (((s.selectUserByEmail email).filter fun user => user.passwordHash.isSome).filter fun user =>
        user.isLocked s.now = false).map fun user =>
      (user.id, user.passwordHash.any fun hash => env.verifyPassword form.password hash)
  else none

/-- The requests that verify a password. -/
def Request.verifiesPassword : Request → Bool
  | signIn _ => true
  | submitOIDCAuthorize form =>
    Strings.trimSpace form.action ∉ ["verify_mfa", "send_otp", "verify_otp", "sign_up"]
  | _ => false

/-- The user with whose hash a sign-in compares the password, and the result. -/
def Account.compared : Account → Option (String × Bool)
  | notFound | locked _ => none
  | wrong user => some (user.id, false)
  | accepted user => some (user.id, true)

/-- The user with whose hash a request compared a password, and the result. -/
def Record.compared (e : Record) : Option (String × Bool) :=
  match e.request with
  | .signIn _ => e.attempted.bind fun attempt =>
    if e.call.isLimited then none
    else (checkPassword env e.state attempt.1 attempt.2).compared
  | .submitOIDCAuthorize form =>
    if e.request.verifiesPassword then hostedCheck env e.state form else none
  | _ => none

/-- The wrong passwords that were compared with the hash of a user after a time, back to the last
right one. -/
def guesses (userID : String) (since : ℤ) : List Record → ℕ
  | [] => 0
  | e :: earlier =>
    if since < e.time ∧ e.compared env ≠ some (userID, true) then
      guesses userID since earlier + if e.compared env = some (userID, false) then 1 else 0
    else 0

/-- Within a window no more wrong passwords than allowed are compared with the hash of the user. -/
def GuessesBounded (userID : String) (log : List Record) : Prop :=
  ∀ e earlier, e :: earlier <:+ log → e.compared env = some (userID, false) →
    (guesses env userID (e.time - config.windowDurationSeconds.toInt * 1000000)
      (e :: earlier) : ℤ) ≤
      config.maxSignInAttempts.toInt

/-- Passwords of the user are compared in sign-ins under the identifier only, and the right ones
under the identifier are the user's. -/
structure Record.UnderOne (userID identifier : String) (e : Record) : Prop where
  reached : ∀ result, e.compared env = some (userID, result) → e.Attempts identifier
  own : e.Attempts identifier → ∀ other, e.compared env = some (other, true) → other = userID

/-- The user is reached under the identifier only, and the counter of the identifier works:
increments succeed, and nobody else touches it. -/
def OneIdentifier (userID identifier : String) (w : Service) : ServiceEvent → Prop
  | .serve delay client call request =>
    (w.record env config delay client call request).UnderOne env userID identifier ∧
    ((w.record env config delay client call request).Attempts identifier →
      (Database.increment (w.now + delay) w.table (rateKey identifier)
        config.windowDuration).1.isOk)
  | .store _ step => rateKey identifier ∉ step.keys

end definitions

/-! ## What an attempt compares -/

section compared

variable {env : Env}

/-- An attempt that the limiter lets through compares what `checkPassword` compares, and one that it
refuses compares nothing. -/
theorem Record.compared_of_attempted {e : Record} {identifier password : String}
    (h : e.attempted = some (identifier, password)) :
    e.compared env = if e.call.isLimited then none
      else (checkPassword env e.state identifier password).compared := by
  obtain ⟨time, state, table, client, call, request, reply⟩ := e
  cases request with
  | signIn input =>
    show (Option.bind (signInAttempt call input) _) = _
    have hattempt : signInAttempt call input = some (identifier, password) := h
    rw [hattempt]
    rfl
  | _ => cases h

end compared

/-! ## The guesses under one identifier -/

section bounded

variable {env : Env} {config : RateLimiting} {userID identifier : String} {w : Service} {delay : ℕ}
  {client : Client} {call : Call} {request : Request}

/-- An attempt that does not have the right password of the user does not clear the counter. -/
theorem Record.UnderOne.hit {e : Record} (hunder : e.UnderOne env userID identifier)
    (hattempts : e.Attempts identifier) (hwrong : e.compared env ≠ some (userID, true)) :
    e.hit env identifier = some ⟨e.time, false⟩ := by
  have hnot := hunder.own hattempts
  obtain ⟨password, hattempted⟩ := hattempts
  have hclears : (!e.call.isLimited &&
      (checkPassword env e.state identifier password).acceptedUser.isSome) = false := by
    by_contra hclears
    rw [Bool.not_eq_false, Bool.and_eq_true, Bool.not_eq_true'] at hclears
    obtain ⟨hlimited, haccepted⟩ := hclears
    have hcompared : e.compared env =
        (checkPassword env e.state identifier password).compared := by
      rw [compared_of_attempted hattempted, hlimited]
      rfl
    cases hcheck : checkPassword env e.state identifier password with
    | accepted user =>
      rw [hcheck] at hcompared
      exact hwrong (hnot user.id hcompared ▸ hcompared)
    | _ =>
      rw [hcheck] at haccepted
      cases haccepted
  rw [Record.hit_of_attempted hattempted, hclears]

/-- Every guess is a hit of the counter of the identifier. -/
theorem guesses_le_recent {log : List Record}
    (hone : ∀ e ∈ log, e.UnderOne env userID identifier) (since : ℤ) :
    guesses env userID since log ≤ Streaks.recent since (hits env identifier log) := by
  induction log with
  | nil => exact Nat.le_refl 0
  | cons e earlier ih =>
    have hunder := hone e List.mem_cons_self
    have hle := ih fun e he => hone e (List.mem_cons_of_mem _ he)
    rw [guesses]
    by_cases hgoes : since < e.time ∧ e.compared env ≠ some (userID, true)
    swap
    · rw [if_neg hgoes]
      exact Nat.zero_le _
    rw [if_pos hgoes, hits, List.filterMap_cons]
    by_cases hattempts : e.Attempts identifier
    · have hrecent : Streaks.recent since (⟨e.time, false⟩ :: hits env identifier earlier) =
          Streaks.recent since (hits env identifier earlier) + 1 := by
        rw [Streaks.recent]
        exact if_pos ⟨rfl, hgoes.1⟩
      rw [hunder.hit hattempts hgoes.2]
      refine le_of_le_of_eq ?_ hrecent.symm
      split_ifs
      · exact Nat.succ_le_succ hle
      · exact hle.trans (Nat.le_succ _)
    · rw [Record.hit_of_not_attempts hattempts,
        if_neg fun hwrong => hattempts (hunder.reached false hwrong)]
      exact hle

/-- What a run keeps in which the user is reached under one identifier. -/
structure Guarded (env : Env) (config : RateLimiting) (userID identifier : String) (w : Service) :
    Prop extends Counts env config identifier w where
  isLog : Streaks.IsLog w.now (hits env identifier w.log)
  underOne : ∀ e ∈ w.log, e.UnderOne env userID identifier
  bounded : GuessesBounded env config userID w.log

theorem isLog_serve (h : Streaks.IsLog w.now (hits env identifier w.log)) :
    Streaks.IsLog (w.serve env config delay client call request).now
      (hits env identifier (w.serve env config delay client call request).log) := by
  have hle : w.now ≤ w.now + delay := by omega
  rw [hits_serve]
  by_cases hattempts : (w.record env config delay client call request).Attempts identifier
  · obtain ⟨password, hattempted⟩ := hattempts
    rw [Record.hit_of_attempted hattempted]
    exact ⟨le_refl _, h.later hle⟩
  · rw [Record.hit_of_not_attempts hattempts]
    exact h.later hle

/-- An increment that succeeds is one of a key that can be stored, and of a count that fits. -/
theorem fits_of_isOk {now : ℤ} {table : Database.Table} {key : String} {n : ℕ} {expiry : ℤ}
    (hok : (Database.increment now table key expiry).1.isOk)
    (hcount : Postgres.isText key →
      (Database.aliveRow now table key).map Database.Row.value = storedCount n)
    (hn : (n : ℤ) < 2 ^ 63) : Postgres.isText key ∧ (n : ℤ) + 1 < 2 ^ 63 := by
  rw [Database.increment, Database.incrementBy] at hok
  by_cases htext : Postgres.isText key
  swap
  · rw [if_neg htext] at hok
    cases hok
  refine ⟨htext, ?_⟩
  by_contra hover
  rw [if_pos htext, incremented_of_storedCount (hcount htext) hn, if_neg hover] at hok
  cases hok

theorem Guarded.fits (hguarded : Guarded env config userID identifier w)
    (henabled : config.enabled)
    (hone : OneIdentifier env config userID identifier w (.serve delay client call request))
    (hattempts : (w.record env config delay client call request).Attempts identifier) :
    Postgres.isText (rateKey identifier) ∧
    (Streaks.streak config.lifetime (w.now + delay) (hits env identifier w.log) : ℤ) + 1 <
      2 ^ 63 :=
  fits_of_isOk (hone.2 hattempts)
    (fun htext => hguarded.tracks henabled htext (w.now + delay) (by omega)) (hguarded.small _)

/-- A password is compared only as long as the streak is shorter than the limit. -/
theorem Guarded.streak_lt (hguarded : Guarded env config userID identifier w)
    (henabled : config.enabled)
    (hone : OneIdentifier env config userID identifier w (.serve delay client call request))
    {result : Bool}
    (hcompared : (w.record env config delay client call request).compared env =
      some (userID, result)) :
    (Streaks.streak config.lifetime (w.now + delay) (hits env identifier w.log) : ℤ) + 1 ≤
      config.maxSignInAttempts.toInt := by
  have hattempts := hone.1.reached result hcompared
  obtain ⟨htext, hfits⟩ := hguarded.fits henabled hone hattempts
  obtain ⟨password, hattempt⟩ := attempts_record.mp hattempts
  by_contra hover
  have hlimited : (w.record env config delay client call request).call.isLimited :=
    (isLimited_record hattempt).trans
      (hguarded.limit_iff.mpr ⟨henabled, htext, Int.lt_add_one_iff.mp (not_le.mp hover), hfits⟩)
  rw [Record.compared_of_attempted (attempted_record.trans hattempt), if_pos hlimited] at hcompared
  cases hcompared

/-- One request keeps the counter in step and the guesses bounded. -/
theorem Guarded.serve (hguarded : Guarded env config userID identifier w)
    (henabled : config.enabled)
    (hwindow : config.windowDurationSeconds.toInt * 1000000 ≤ config.lifetime)
    (hone : OneIdentifier env config userID identifier w (.serve delay client call request)) :
    Guarded env config userID identifier (w.serve env config delay client call request) where
  toCounts := hguarded.toCounts.serve fun hattempts =>
    (hguarded.fits henabled hone hattempts).2
  isLog := isLog_serve hguarded.isLog
  underOne e he := by
    rcases List.mem_cons.mp he with rfl | he
    · exact hone.1
    · exact hguarded.underOne e he
  bounded e earlier hsuffix hwrong := by
    rcases List.suffix_cons_iff.mp hsuffix with heq | hsuffix
    swap
    · exact hguarded.bounded e earlier hsuffix hwrong
    obtain ⟨rfl, rfl⟩ := List.cons.inj heq
    have hlt := hguarded.streak_lt henabled hone hwrong
    have hguesses := guesses_le_recent hguarded.underOne
      (w.now + delay - config.windowDurationSeconds.toInt * 1000000)
    have hrecent := Streaks.recent_le_streak
      (hguarded.isLog.later (by omega : w.now ≤ w.now + delay))
      (by omega : w.now + delay ≤
        w.now + delay - config.windowDurationSeconds.toInt * 1000000 + config.lifetime)
    show ((guesses env userID
      (w.now + delay - config.windowDurationSeconds.toInt * 1000000) _ : ℕ) : ℤ) ≤ _
    rw [guesses, if_pos hwrong]
    split_ifs
    · push_cast
      omega
    · push_cast
      omega

/-- In every run in which the passwords of a user are compared under one identifier only, no more
wrong ones than allowed are compared within a window. -/
theorem guesses_bounded {start : State} {table : Database.Table} {now : ℤ}
    (henabled : config.enabled)
    (hwindow : config.windowDurationSeconds.toInt * 1000000 ≤ config.lifetime)
    (hfresh : Database.aliveRow now table (rateKey identifier) = none)
    (hrun : Runs.Run (Service.step env config) (OneIdentifier env config userID identifier)
      ⟨start, table, now, []⟩ w) :
    GuessesBounded env config userID w.log := by
  have hguarded : Guarded env config userID identifier w := by
    apply hrun.invariant
    · refine ⟨.initial hfresh, trivial, fun _ he => (by cases he), fun e earlier hsuffix => ?_⟩
      cases List.suffix_nil.mp hsuffix
    · intro w event w' hinv hallowed hstep
      cases event with
      | serve =>
        cases hstep
        exact hinv.serve henabled hwindow hallowed
      | store delay step =>
        cases hstep
        have hle : w.now ≤ w.now + delay := by omega
        exact ⟨hinv.toCounts.store hallowed, hinv.isLog.later hle, hinv.underOne, hinv.bounded⟩
  exact hguarded.bounded

end bounded

/-- The passwords of somebody who tries one address. -/
theorem guesses_bounded_tried : GuessesBounded sampleEnv sampleLimits "v" (tried 5).log := by
  have hcompared : ∀ k < 5, ((tried k).record sampleEnv sampleLimits 200000000 sampleClient
      (sampleCall "1") wrongSignIn).compared sampleEnv = some ("v", false) := by decide +kernel
  have hok : ∀ k < 5, (Database.increment ((tried k).now + (200000000 : ℕ)) (tried k).table
      (rateKey "v@x") sampleLimits.windowDuration).1.isOk := by decide +kernel
  have hrun : Runs.Run (Service.step sampleEnv sampleLimits)
      (OneIdentifier sampleEnv sampleLimits "v" "v@x")
        ⟨sampleWorld.state, [], 0, []⟩ (tried 5) := by
    apply run_tried
    intro k hk
    refine ⟨⟨fun _ _ => ⟨"x", attempted_record.trans (attempt_wrongSignIn "1")⟩,
      fun _ other hright => ?_⟩, fun _ => hok k hk⟩
    rw [hcompared k hk] at hright
    cases hright
  exact guesses_bounded rfl (by decide +kernel) rfl hrun

/-! ### An account with two identifiers -/

/-- A service whose user has an email address and a phone number. -/
def reachableService : Service where
  state := { State.initial 0 with
    users := (Users.empty.insert "v"
      { sampleUser.toUserRow with phone := some "+15550001111" }).getD .empty }
  table := []
  now := 0
  log := []

/-- Wrong passwords, one every second: five by email and one by phone. -/
def guessing : List ServiceEvent :=
  (List.replicate 5 wrongSignIn ++ [Request.signIn (some ⟨"", "+15550001111", "x"⟩)]).map
    (.serve 1000000 sampleClient (sampleCall "1"))

def afterGuessing : Service :=
  (Runs.exec (Service.step sampleEnv sampleLimits) reachableService guessing).getD reachableService

/-- Six passwords are compared within six seconds, although five are allowed in a quarter of an
hour. -/
theorem sixth_password_compared :
    Runs.Run (Service.step sampleEnv sampleLimits) (fun _ _ => True) reachableService
      afterGuessing ∧
    afterGuessing.log.map (Record.compared sampleEnv) = List.replicate 6 (some ("v", false)) ∧
    ¬GuessesBounded sampleEnv sampleLimits "v" afterGuessing.log := by
  have hexec : Runs.exec (Service.step sampleEnv sampleLimits) reachableService guessing =
      some afterGuessing := rfl
  have hcompared : afterGuessing.log.map (Record.compared sampleEnv) =
      List.replicate 6 (some ("v", false)) := by decide +kernel
  refine ⟨.of_exec_always .refl (fun _ _ _ => trivial) hexec, hcompared, fun hbounded => ?_⟩
  have htime : afterGuessing.log.head?.map Record.time = some 6000000 := by decide +kernel
  have hguesses : guesses sampleEnv "v"
      (6000000 - sampleLimits.windowDurationSeconds.toInt * 1000000)
      afterGuessing.log = 6 := by decide +kernel
  have hmax : sampleLimits.maxSignInAttempts.toInt = 5 := by decide
  cases hlog : afterGuessing.log with
  | nil =>
    rw [hlog] at htime
    cases htime
  | cons e earlier =>
    rw [hlog] at htime hguesses hcompared
    have hbound := hbounded e earlier (hlog ▸ List.suffix_refl _) (List.cons.inj hcompared).1
    rw [Option.some.inj htime, hguesses, hmax] at hbound
    exact absurd hbound (by decide)

end Layr.Auth

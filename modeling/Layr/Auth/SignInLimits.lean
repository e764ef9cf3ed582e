import Layr.Auth.SignInCounters

/-!
# The rate limit of the sign-in

Every attempt under an identifier hits the counter of the identifier and gives it a new lifetime, so
the counter holds the streak of the attempts. Somebody who keeps trying at a modest pace is limited
in the end, although no window ever has too many attempts.
-/

namespace Layr.Auth

open Go Kv Streaks Database

/-! ## The counter of an identifier -/

section counter

variable {now : ℤ} {table : Database.Table} {key : String} {n : ℕ}

/-- The next count. One that does not fit is an error. -/
theorem incremented_of_storedCount
    (h : (aliveRow now table key).map Row.value = storedCount n)
    (hn : (n : ℤ) < 2 ^ 63) :
    incremented now table key 1 =
      if (n : ℤ) + 1 < 2 ^ 63 then some ((n : ℤ) + 1) else none := by
  unfold storedCount at h
  unfold incremented
  by_cases hzero : n = 0
  · rw [if_pos hzero, Option.map_eq_none_iff] at h
    rw [h, if_pos (by omega), hzero]
    rfl
  · rw [if_neg hzero] at h
    obtain ⟨row, hrow, hvalue⟩ := Option.map_eq_some_iff.mp h
    have hparse : Postgres.parseBigint row.value = some (n : ℤ) := by
      rw [hvalue]
      exact Postgres.parseBigint_bigintText (by omega)
    have hfits : (-2 ^ 63 ≤ (n : ℤ) + 1 ∧ (n : ℤ) + 1 < 2 ^ 63) ↔ (n : ℤ) + 1 < 2 ^ 63 := by omega
    rw [hrow]
    show (Postgres.parseBigint row.value).bind _ = _
    rw [hparse, Option.bind_some]
    exact if_congr hfits rfl rfl

theorem get_recordFailedAttempt (now : ℤ) (table : Database.Table) (identifier other : String) :
    (recordFailedAttempt now table other).get (rateKey identifier) =
      table.get (rateKey identifier) := by
  unfold recordFailedAttempt
  split_ifs
  · rfl
  · exact get_incrementBy_of_ne now table (rateKey_ne_failedAttemptKey identifier other)
      _ _

theorem get_resetFailedAttempts (table : Database.Table) (identifier other : String) :
    (resetFailedAttempts table other).get (rateKey identifier) =
      table.get (rateKey identifier) := by
  unfold resetFailedAttempts
  split_ifs
  · rfl
  · unfold Database.delete
    split_ifs
    · exact (GoMap.get_filter_ne _ _ table).trans
        (if_neg (rateKey_ne_failedAttemptKey identifier other))
    · rfl

end counter

/-! ## Records and the counter -/

section tracks

variable {env : Env} {config : RateLimiting} {identifier password : String}

theorem lifetime_add (now : ℤ) : expiresAt now config.windowDuration =
    now + config.lifetime := by
  rw [RateLimiting.lifetime, expiresAt, expiresAt, zero_add]

/-- The sign-in goes by the verdict of the rate limit. -/
theorem countSignIn_eq (client : Client) (s : State) (now : ℤ) (table : Database.Table) :
    (countSignIn env config client s now table identifier password).1.1 =
      (config.limit now table identifier).1 ∧
    (countSignIn env config client s now table identifier password).2 =
      if (config.limit now table identifier).1 then (config.limit now table identifier).2
      else settleAccount client now (config.limit now table identifier).2 identifier
        (checkPassword env s identifier password) := by
  unfold countSignIn
  generalize config.limit now table identifier = limited
  obtain ⟨isLimited, table'⟩ := limited
  cases isLimited with
  | true | false => exact ⟨rfl, rfl⟩

/-- The counter of an identifier after a sign-in under another, or with a wrong password. -/
theorem get_settleAccount_of_ne {other : String} {account : Account}
    (h : account.acceptedUser.isSome → identifier ≠ other) (client : Client) (now : ℤ)
    (table : Database.Table) :
    (settleAccount client now table other account).get (rateKey identifier) =
      table.get (rateKey identifier) := by
  cases account with
  | notFound => rw [settleAccount, get_recordFailedAttempt]
  | locked user | wrong user => rw [settleAccount, get_recordFailedAttempt, get_recordFailedAttempt]
  | accepted user =>
    have hkey : rateKey identifier ≠ rateKey other := fun heq => h rfl (rateKey_injective heq)
    rw [settleAccount, get_resetFailedAttempts, get_resetFailedAttempts, Database.delete]
    split_ifs
    · exact (GoMap.get_filter_ne _ _ table).trans (if_neg hkey)
    · rfl

/-- The attempts do not depend on the verdicts. -/
theorem signInAttempt_counted (client : Client) (s : State) (now : ℤ) (table : Database.Table)
    (call : Call) (request : Request) :
    request.signInAttempt (counted env config client s now table call request).1 =
      request.signInAttempt call := by
  have hcaptcha : (counted env config client s now table call request).1.captcha =
      call.captcha := by
    unfold counted
    split
    · rfl
    · rfl
  cases request with
  | signIn input =>
    show signInAttempt _ input = signInAttempt call input
    unfold signInAttempt
    rw [hcaptcha]
  | _ => rfl

/-- The record is an attempt under the identifier. -/
def Record.Attempts (identifier : String) (e : Record) : Prop :=
  ∃ password, e.attempted = some (identifier, password)

theorem Record.hit_of_attempted {e : Record} (h : e.attempted = some (identifier, password)) :
    e.hit env identifier = some ⟨e.time, !e.call.isLimited &&
      (checkPassword env e.state identifier password).acceptedUser.isSome⟩ := by
  rw [Record.hit, h, Option.filter_some, if_pos (decide_eq_true rfl), Option.map_some]

theorem Record.hit_of_not_attempts {e : Record} (h : ¬e.Attempts identifier) :
    e.hit env identifier = none := by
  unfold Record.hit
  rw [Option.map_eq_none_iff, Option.filter_eq_none_iff]
  rintro ⟨other, password⟩ hattempt heq
  obtain rfl := of_decide_eq_true heq
  exact h ⟨password, hattempt⟩

/-- The record that a request leaves. -/
def Service.record (env : Env) (config : RateLimiting) (w : Service) (delay : ℕ) (client : Client)
    (call : Call) (request : Request) : Record :=
  let now := w.now + delay
  let s := w.state.atTime now
  let call := (counted env config client s now w.table call request).1
  ⟨now, s, w.table, client, call, request, (Auth.serve env call request s).1⟩

variable {w : Service} {delay : ℕ} {client : Client} {call : Call} {request : Request}

theorem log_serve : (w.serve env config delay client call request).log =
    w.record env config delay client call request :: w.log := rfl

theorem attempted_record : (w.record env config delay client call request).attempted =
    request.signInAttempt call := signInAttempt_counted _ _ _ _ _ _

theorem attempts_record : (w.record env config delay client call request).Attempts identifier ↔
    ∃ password, request.signInAttempt call = some (identifier, password) := by
  rw [Record.Attempts, attempted_record]

/-- A sign-in under one identifier leaves the counters of the others alone. -/
theorem table_serve_of_ne
    (h : ¬(w.record env config delay client call request).Attempts identifier) :
    (w.serve env config delay client call request).table.get (rateKey identifier) =
      w.table.get (rateKey identifier) := by
  show (counted env config client _ _ w.table call request).2.get (rateKey identifier) = _
  unfold counted
  cases hattempt : request.signInAttempt call with
  | none => rfl
  | some attempt =>
    obtain ⟨other, password⟩ := attempt
    have hne : identifier ≠ other := by
      rintro rfl
      exact h (attempts_record.mpr ⟨password, hattempt⟩)
    have hkey : rateKey identifier ≠ rateKey other := fun heq => hne (rateKey_injective heq)
    have hlimit : (config.limit (w.now + delay) w.table other).2.get (rateKey identifier) =
        w.table.get (rateKey identifier) := by
      unfold RateLimiting.limit
      split_ifs
      · exact get_incrementBy_of_ne _ w.table hkey 1 config.windowDuration
      · rfl
    dsimp only
    rw [(countSignIn_eq client _ _ w.table).2]
    split_ifs
    · exact hlimit
    · exact (get_settleAccount_of_ne (fun _ => hne) client _ _).trans hlimit

theorem isLimited_record (h : request.signInAttempt call = some (identifier, password)) :
    (w.record env config delay client call request).call.isLimited =
      (config.limit (w.now + delay) w.table identifier).1 := by
  show (counted env config client _ _ w.table call request).1.isLimited = _
  unfold counted
  rw [h]
  exact (countSignIn_eq client _ _ w.table).1

/-- The counter after a sign-in: the attempt is counted, and the right password clears it. -/
theorem table_serve (h : request.signInAttempt call = some (identifier, password))
    (htext : Postgres.isText (rateKey identifier)) :
    (w.serve env config delay client call request).table.get (rateKey identifier) =
      if (config.limit (w.now + delay) w.table identifier).1 = false ∧
          (checkPassword env (w.state.atTime (w.now + delay))
            identifier password).acceptedUser.isSome
      then none
      else (config.limit (w.now + delay) w.table identifier).2.get (rateKey identifier) := by
  show (counted env config client _ _ w.table call request).2.get (rateKey identifier) = _
  unfold counted
  rw [h]
  dsimp only
  rw [(countSignIn_eq client _ _ w.table).2]
  generalize config.limit _ w.table identifier = limited
  obtain ⟨isLimited, table⟩ := limited
  cases isLimited with
  | true => rfl
  | false =>
    rw [if_neg Bool.false_ne_true]
    cases checkPassword env _ identifier password with
    | accepted user =>
      rw [settleAccount, get_resetFailedAttempts, get_resetFailedAttempts,
        Database.get_delete table htext, if_pos rfl]
      rfl
    | notFound | locked user | wrong user =>
      exact get_settleAccount_of_ne (by rintro ⟨⟩) client _ table

/-- The verdict on an attempt when the counter holds a count. -/
theorem limit_of_storedCount {now : ℤ} {table : Database.Table} {n : ℕ}
    (henabled : config.enabled) (htext : Postgres.isText (rateKey identifier))
    (h : (aliveRow now table (rateKey identifier)).map Row.value = storedCount n)
    (hn : (n : ℤ) + 1 < 2 ^ 63) :
    config.limit now table identifier =
      (decide (config.maxSignInAttempts.toInt < (n : ℤ) + 1), table.set (rateKey identifier)
        ⟨Postgres.bigintText ((n : ℤ) + 1), now + config.lifetime⟩) := by
  rw [RateLimiting.limit, if_pos henabled, Database.increment, incrementBy, if_pos htext,
    incremented_of_storedCount h (by omega), if_pos hn, ← lifetime_add]

theorem hits_serve : hits env identifier (w.serve env config delay client call request).log =
    ((w.record env config delay client call request).hit env identifier).toList ++
      hits env identifier w.log := by
  rw [log_serve, hits, List.filterMap_cons]
  cases (w.record env config delay client call request).hit env identifier with
  | none => rfl
  | some hit => rfl

/-- The row of a counter that was just hit, or cleared, at a later time. -/
theorem value_of_hit {now t : ℤ} {table : Database.Table} {key : String} {n : ℕ}
    {isLimited isAccepted : Bool} {window : ℤ} {earlier : List Hit}
    (hn : streak window now earlier = n) :
    (((if isLimited = false ∧ isAccepted = true then none
        else (table.set key ⟨Postgres.bigintText ((n : ℤ) + 1), now + window⟩).get key :
          Option Row)).filter (·.isAlive t)).map Row.value =
      storedCount (streak window t (⟨now, !isLimited && isAccepted⟩ :: earlier)) := by
  rw [streak]
  by_cases hclears : isLimited = false ∧ isAccepted
  · rw [if_pos hclears, hclears.1, hclears.2]
    rfl
  · have hkept : (!isLimited && isAccepted) = false := by
      simpa using hclears
    have hrow : (Row.mk (Postgres.bigintText ((n : ℤ) + 1)) (now + window)).isAlive t =
        decide (t < now + window) := rfl
    rw [if_neg hclears, GoMap.get_set, if_pos rfl, hkept, hn, Option.filter_some, hrow]
    by_cases halive : t < now + window
    · rw [if_pos (decide_eq_true halive), if_pos ⟨rfl, halive⟩]
      rfl
    · rw [if_neg (by simpa using halive), if_neg fun h => halive h.2]
      rfl

/-- An attempt that fits the counter keeps it in step with the log. -/
theorem Tracks.serve (htracks : Tracks env config identifier w) (henabled : config.enabled)
    (htext : Postgres.isText (rateKey identifier))
    (hfits : (w.record env config delay client call request).Attempts identifier →
      (streak config.lifetime (w.now + delay) (hits env identifier w.log) : ℤ) + 1 <
        2 ^ 63) :
    Tracks env config identifier (w.serve env config delay client call request) := by
  intro t ht
  have hnow : w.now + delay ≤ t := ht
  unfold aliveRow
  by_cases hattempts : (w.record env config delay client call request).Attempts identifier
  · obtain ⟨password, hattempt⟩ := attempts_record.mp hattempts
    have hcount := htracks (w.now + delay) (by omega)
    have hlimit := limit_of_storedCount henabled htext hcount (hfits hattempts)
    rw [hits_serve, Record.hit_of_attempted (attempted_record.trans hattempt),
      isLimited_record hattempt, table_serve hattempt htext, hlimit]
    exact value_of_hit rfl
  · rw [hits_serve, Record.hit_of_not_attempts hattempts, table_serve_of_ne hattempts]
    exact htracks t (by omega)

theorem Tracks.store (htracks : Tracks env config identifier w) {step : Database.Step}
    (hkey : rateKey identifier ∉ step.keys) :
    Tracks env config identifier (w.store delay step) := by
  intro t ht
  have hnow : w.now + delay ≤ t := ht
  have halive : aliveRow t (step.apply (w.now + delay) w.table) (rateKey identifier) =
      aliveRow t w.table (rateKey identifier) := Database.Step.aliveRow_apply hkey hnow _
  show (aliveRow t (step.apply (w.now + delay) w.table) (rateKey identifier)).map _ = _
  rw [halive]
  exact htracks t (by omega)

end tracks

/-! ## Who is limited -/

section fairness

variable (env : Env) (config : RateLimiting) (identifier : String)

/-- No time interval of the length of the window has more attempts than allowed. -/
def Spaced (log : List Record) : Prop :=
  ∀ t, (((hits env identifier log).filter fun hit =>
    t ≤ hit.time && hit.time ≤ t + config.windowDurationSeconds.toInt * 1000000).length : ℤ) ≤
      config.maxSignInAttempts.toInt

/-- Attempts that keep to the limit are not refused. -/
def Fair (log : List Record) : Prop :=
  Spaced env config identifier log →
    ∀ e ∈ log, e.Attempts identifier → e.reply ≠ tooManyAttempts

/-- The counter of the identifier works, and it is past the limit after a streak. -/
structure Exceeds (n : ℕ) : Prop where
  enabled : config.enabled
  isText : Postgres.isText (rateKey identifier)
  exceeds : config.maxSignInAttempts.toInt ≤ n
  fits : (n : ℤ) + 1 < 2 ^ 63

/-- Every attempt comes with a streak behind it that is shorter than the limit, and nobody else
touches the counter. -/
def Unhurried (w : Service) : ServiceEvent → Prop
  | .serve delay _ call request => ∀ password,
    request.signInAttempt call = some (identifier, password) →
      (streak config.lifetime (w.now + delay) (hits env identifier w.log) : ℤ) <
        config.maxSignInAttempts.toInt
  | .store _ step => rateKey identifier ∉ step.keys

variable {env config identifier} {w : Service} {delay : ℕ} {client : Client} {call : Call}
  {request : Request} {password : String}

/-- The reply to an attempt is that of the rate limit when its verdict is. -/
theorem reply_record_iff (h : request.signInAttempt call = some (identifier, password)) :
    (w.record env config delay client call request).reply = tooManyAttempts ↔
      (config.limit (w.now + delay) w.table identifier).1 := by
  have hattempt : request.signInAttempt (w.record env config delay client call request).call =
      some (identifier, password) := attempted_record.trans h
  have hlimited : (w.record env config delay client call request).call.isLimited =
      (config.limit (w.now + delay) w.table identifier).1 := isLimited_record h
  rw [← hlimited]
  cases request with
  | signIn input =>
    show (serve env (w.record env config delay client call (.signIn input)).call (.signIn input)
      _).1 = tooManyAttempts ↔ _
    rw [serve_signIn hattempt]
    exact signInReply_eq_tooManyAttempts_iff
  | _ => cases h

/-- What a run keeps of the counter: as far as it works it is in step with the log, and its count
fits. -/
structure Counts (env : Env) (config : RateLimiting) (identifier : String) (w : Service) :
    Prop where
  tracks : config.enabled → Postgres.isText (rateKey identifier) →
    Tracks env config identifier w
  small : ∀ t, (streak config.lifetime t (hits env identifier w.log) : ℤ) < 2 ^ 63

/-- A row that is not alive at the start does not come to life. -/
theorem Counts.initial {start : State} {table : Database.Table} {now : ℤ}
    (hfresh : aliveRow now table (rateKey identifier) = none) :
    Counts env config identifier ⟨start, table, now, []⟩ where
  tracks _ _ t ht := by
    rw [aliveRow_later ht, hfresh]
    rfl
  small t := by
    show (0 : ℤ) < 2 ^ 63
    decide

theorem Counts.serve (hcounts : Counts env config identifier w)
    (hfits : (w.record env config delay client call request).Attempts identifier →
      (streak config.lifetime (w.now + delay) (hits env identifier w.log) : ℤ) + 1 <
        2 ^ 63) :
    Counts env config identifier (w.serve env config delay client call request) where
  tracks henabled htext := (hcounts.tracks henabled htext).serve henabled htext hfits
  small t := by
    -- the streak after an attempt is longer by one at most
    rw [hits_serve]
    by_cases hattempts : (w.record env config delay client call request).Attempts identifier
    · obtain ⟨password, hattempted⟩ := id hattempts
      have hshort := hfits hattempts
      rw [Record.hit_of_attempted hattempted, Option.toList_some, List.singleton_append,
        streak]
      split_ifs
      · show ((streak _ (w.now + delay) _ + 1 : ℕ) : ℤ) < 2 ^ 63
        push_cast
        omega
      · decide
    · rw [Record.hit_of_not_attempts hattempts]
      exact hcounts.small t

theorem Counts.store (hcounts : Counts env config identifier w) {step : Database.Step}
    (hkey : rateKey identifier ∉ step.keys) :
    Counts env config identifier (w.store delay step) :=
  ⟨fun henabled htext => (hcounts.tracks henabled htext).store hkey, hcounts.small⟩

/-- The limiter refuses by the streak of the log, which its counter follows. -/
theorem Counts.limit_iff (hcounts : Counts env config identifier w) :
    (config.limit (w.now + delay) w.table identifier).1 ↔
      Exceeds config identifier
        (streak config.lifetime (w.now + delay) (hits env identifier w.log)) := by
  by_cases henabled : config.enabled
  swap
  · rw [RateLimiting.limit, if_neg henabled]
    exact iff_of_false Bool.false_ne_true fun h => henabled h.enabled
  by_cases htext : Postgres.isText (rateKey identifier)
  swap
  · rw [RateLimiting.limit, if_pos henabled, Database.increment, incrementBy, if_neg htext]
    exact iff_of_false Bool.false_ne_true fun h => htext h.isText
  have hcount := hcounts.tracks henabled htext (w.now + delay) (by omega)
  by_cases hfits : (streak config.lifetime (w.now + delay) (hits env identifier w.log) : ℤ)
      + 1 < 2 ^ 63
  · rw [limit_of_storedCount henabled htext hcount hfits, decide_eq_true_iff, Int.lt_add_one_iff]
    exact ⟨fun hmax => ⟨henabled, htext, hmax, hfits⟩, fun h => h.exceeds⟩
  · -- the counter cannot be read any more
    rw [RateLimiting.limit, if_pos henabled, Database.increment, incrementBy,
      if_pos htext, incremented_of_storedCount hcount (hcounts.small _), if_neg hfits]
    exact iff_of_false Bool.false_ne_true fun h => hfits h.fits

/-- A streak that is shorter than the limit fits the counter. -/
theorem Unhurried.fits
    (hunhurried : Unhurried env config identifier w (.serve delay client call request))
    (hattempts : (w.record env config delay client call request).Attempts identifier) :
    (streak config.lifetime (w.now + delay) (hits env identifier w.log) : ℤ) + 1 <
      2 ^ 63 := by
  obtain ⟨password, hattempt⟩ := attempts_record.mp hattempts
  have hshort := hunhurried password hattempt
  have hmax := config.maxSignInAttempts.toInt_lt
  omega

/-- What a run keeps in which nobody hurries: nobody was refused. -/
structure Patient (env : Env) (config : RateLimiting) (identifier : String) (w : Service) : Prop
    extends Counts env config identifier w where
  replies : ∀ e ∈ w.log, e.Attempts identifier → e.reply ≠ tooManyAttempts

/-- Whoever waits is not refused. -/
theorem Patient.serve (hpatient : Patient env config identifier w)
    (hunhurried : Unhurried env config identifier w (.serve delay client call request)) :
    Patient env config identifier (w.serve env config delay client call request) where
  toCounts := hpatient.toCounts.serve hunhurried.fits
  replies e he := by
    rcases List.mem_cons.mp he with rfl | he
    · intro hattempts hreply
      obtain ⟨password, hattempt⟩ := attempts_record.mp hattempts
      have hexceeds := hpatient.limit_iff.mp ((reply_record_iff hattempt).mp hreply)
      exact absurd (hunhurried password hattempt) (not_lt.mpr hexceeds.exceeds)
    · exact hpatient.replies e he

/-- In every run in which all attempts under an identifier have a streak behind them that is shorter
than the limit, those who keep to the limit are not refused; and the next attempt is refused exactly
if its streak has reached the limit. -/
theorem fair_and_limited_iff {start : State} {table : Database.Table} {now : ℤ} {w : Service}
    (hfresh : aliveRow now table (rateKey identifier) = none)
    (hrun : Runs.Run (Service.step env config) (Unhurried env config identifier)
      ⟨start, table, now, []⟩ w) :
    Fair env config identifier w.log ∧
    ∀ delay client call request password, request.signInAttempt call = some (identifier, password) →
      ((w.record env config delay client call request).reply = tooManyAttempts ↔
        Exceeds config identifier
          (streak config.lifetime (w.now + delay) (hits env identifier w.log))) := by
  have hpatient : Patient env config identifier w := by
    apply hrun.invariant
    · exact ⟨.initial hfresh, fun _ he => by cases he⟩
    · intro w event w' hinv hallowed hstep
      cases event with
      | serve =>
        cases hstep
        exact hinv.serve hallowed
      | store =>
        cases hstep
        exact ⟨hinv.toCounts.store hallowed, hinv.replies⟩
  refine ⟨fun _ => hpatient.replies, fun delay client call request password hattempt => ?_⟩
  exact (reply_record_iff hattempt).trans hpatient.limit_iff

end fairness

/-! ### Somebody who is refused at a modest pace -/

/-- Five attempts in a quarter of an hour. -/
def sampleLimits : RateLimiting := ⟨true, 5, 900⟩

def sampleClient : Client := ⟨"1.2.3.4", "", none⟩

/-- A service that has counted nothing yet. -/
def sampleService : Service := ⟨sampleWorld.state, [], 0, []⟩

/-- A sign-in with a wrong password. -/
def wrongSignIn : Request := .signIn (some ⟨"v@x", "", "x"⟩)

/-- A wrong password every two hundred seconds. -/
def tried : ℕ → Service
  | 0 => sampleService
  | n + 1 =>
    (tried n).serve sampleEnv sampleLimits 200000000 sampleClient (sampleCall "1") wrongSignIn

theorem run_tried {allowed : Service → ServiceEvent → Prop} {n : ℕ}
    (h : ∀ k < n, allowed (tried k)
      (.serve 200000000 sampleClient (sampleCall "1") wrongSignIn)) :
    Runs.Run (Service.step sampleEnv sampleLimits) allowed ⟨sampleWorld.state, [], 0, []⟩
      (tried n) := by
  induction n with
  | zero => exact .refl
  | succ n ih => exact (ih fun k hk => h k (hk.trans n.lt_succ_self)).step (h n n.lt_succ_self) rfl

theorem attempt_wrongSignIn (draw : String) :
    wrongSignIn.signInAttempt (sampleCall draw) = some ("v@x", "x") := by
  have hattempt : signInAttempt (sampleCall "") (some ⟨"v@x", "", "x"⟩) = some ("v@x", "x") := by
    decide +kernel
  exact hattempt

/-- The fifth attempt is not refused, and the sixth one is. -/
theorem fair_and_limited_iff_tried :
    Fair sampleEnv sampleLimits "v@x" (tried 5).log ∧
    ((tried 5).record sampleEnv sampleLimits 200000000 sampleClient (sampleCall "1")
      wrongSignIn).reply = tooManyAttempts := by
  have hshort : ∀ k < 5, (streak sampleLimits.lifetime ((tried k).now + (200000000 : ℕ))
      (hits sampleEnv "v@x" (tried k).log) : ℤ) < sampleLimits.maxSignInAttempts.toInt := by
    decide +kernel
  have hrun : Runs.Run (Service.step sampleEnv sampleLimits)
      (Unhurried sampleEnv sampleLimits "v@x") ⟨sampleWorld.state, [], 0, []⟩ (tried 5) :=
    run_tried fun k hk _ _ => hshort k hk
  have hfair := fair_and_limited_iff rfl hrun
  have hstreak : streak sampleLimits.lifetime ((tried 5).now + (200000000 : ℕ))
      (hits sampleEnv "v@x" (tried 5).log) = 5 := by decide +kernel
  have hnext := hfair.2 200000000 sampleClient (sampleCall "1") wrongSignIn "x"
    (attempt_wrongSignIn "1")
  rw [hstreak] at hnext
  exact ⟨hfair.1, hnext.mpr ⟨rfl, by decide +kernel, by decide, by decide⟩⟩

theorem hits_tried : hits sampleEnv "v@x" (tried 6).log =
    [⟨1200000000, false⟩, ⟨1000000000, false⟩, ⟨800000000, false⟩, ⟨600000000, false⟩,
      ⟨400000000, false⟩, ⟨200000000, false⟩] := by decide +kernel

/-- The first and the last of the attempts are more than a window apart. -/
theorem spaced_tried : Spaced sampleEnv sampleLimits "v@x" (tried 6).log := by
  intro t
  have hwindow : sampleLimits.windowDurationSeconds.toInt = 900 := by decide
  have hmax : sampleLimits.maxSignInAttempts.toInt = 5 := by decide
  rw [hits_tried, hwindow, hmax]
  refine Int.lt_add_one_iff.mp (Nat.cast_lt.mpr (List.length_filter_lt_length_iff_exists.mpr ?_))
  by_cases ht : t ≤ 200000000
  · refine ⟨⟨1200000000, false⟩, by decide, ?_⟩
    simp only [Bool.and_eq_true, decide_eq_true_eq]
    omega
  · refine ⟨⟨200000000, false⟩, by decide, ?_⟩
    simp only [Bool.and_eq_true, decide_eq_true_eq]
    omega

/-- No quarter of an hour has more than five of the six attempts, and the sixth is refused. -/
theorem refused_at_modest_pace :
    Runs.Run (Service.step sampleEnv sampleLimits) (fun _ _ => True)
      ⟨sampleWorld.state, [], 0, []⟩ (tried 6) ∧
    Spaced sampleEnv sampleLimits "v@x" (tried 6).log ∧
    ((tried 6).log.head?.map Record.reply) = some tooManyAttempts ∧
    ¬Fair sampleEnv sampleLimits "v@x" (tried 6).log := by
  have hreply : ((tried 5).record sampleEnv sampleLimits 200000000 sampleClient (sampleCall "1")
      wrongSignIn).reply = tooManyAttempts := by decide +kernel
  refine ⟨run_tried fun _ _ => trivial, spaced_tried, congrArg some hreply, fun hfair => ?_⟩
  have hattempts : ((tried 5).record sampleEnv sampleLimits 200000000 sampleClient (sampleCall "1")
      wrongSignIn).Attempts "v@x" := ⟨"x", attempted_record.trans (attempt_wrongSignIn "1")⟩
  exact hfair spaced_tried _ List.mem_cons_self hattempts hreply

end Layr.Auth

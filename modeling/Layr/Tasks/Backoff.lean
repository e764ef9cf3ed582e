import Mathlib.Algebra.Order.Ring.Int
import Layr.Go.Result

/-!
# Delays between attempts

`CalculateTaskBackoff` doubles a delay with each attempt, up to a maximum, and adds a jitter of less
than a quarter. The results of its `int64` operations go through a parameter, so that it can be
said that none of them leaves the range.
-/

namespace Layr.Tasks

open Go

/-! ## The configuration -/

structure Config where
  concurrencyLimit : ℤ
  timeoutSeconds : ℤ
  pollIntervalMs : ℤ
  retryInitialDelaySeconds : ℤ
  retryMaxDelaySeconds : ℤ
  retryMaxAttempts : ℤ

/-- `DefaultConfig`. -/
def defaultConfig : Config := ⟨25, 30, 1000, 5, 300, 5⟩

/-- One check of `Validate`. -/
def checkRange (low high value : ℤ) (message : String) : Except String Unit :=
  if value < low ∨ high < value then .error message else .ok ()

/-- `Validate`. -/
def Config.validate (config : Config) : Except String Unit := do
  checkRange 1 1000 config.concurrencyLimit "concurrency_limit must be between 1 and 1000"
  checkRange 1 3600 config.timeoutSeconds "timeout_seconds must be between 1 and 3600"
  checkRange 100 60000 config.pollIntervalMs "poll_interval_ms must be between 100 and 60000"
  checkRange 1 3600 config.retryInitialDelaySeconds
    "retry_initial_delay_seconds must be between 1 and 3600"
  checkRange config.retryInitialDelaySeconds 86400 config.retryMaxDelaySeconds
    ("retry_max_delay_seconds must be greater than or equal to retry_initial_delay_seconds " ++
      "and at most 86400")
  checkRange 1 20 config.retryMaxAttempts "retry_max_attempts must be between 1 and 20"

theorem checkRange_ok {low high value : ℤ} {message : String}
    (h : checkRange low high value message = .ok ()) : low ≤ value ∧ value ≤ high := by
  unfold checkRange at h
  split at h
  · cases h
  · omega

theorem Config.delays_of_validate {config : Config} (h : config.validate = .ok ()) :
    1 ≤ config.retryInitialDelaySeconds ∧
      config.retryInitialDelaySeconds ≤ config.retryMaxDelaySeconds ∧
      config.retryMaxDelaySeconds ≤ 86400 := by
  unfold validate at h
  obtain ⟨-, -, h⟩ := Result.bind_eq_ok.mp h
  obtain ⟨-, -, h⟩ := Result.bind_eq_ok.mp h
  obtain ⟨-, -, h⟩ := Result.bind_eq_ok.mp h
  obtain ⟨⟨⟩, hinitial, h⟩ := Result.bind_eq_ok.mp h
  obtain ⟨⟨⟩, hmax, -⟩ := Result.bind_eq_ok.mp h
  exact ⟨(checkRange_ok hinitial).1, checkRange_ok hmax⟩

/-! ## The delay -/

/-- `rand.Int`, which draws a number below a bound, or fails. -/
structure RandomSource where
  int : ℤ → Option ℤ
  int_range : ∀ bound n, int bound = some n → 0 ≤ n ∧ n < bound

def maxBackoffExponentShift : ℕ := 30

/-- An `int64` keeps the low 64 bits of a result. -/
def int64 (n : ℤ) : ℤ := n.bmod (2 ^ 64)

/-- The delay of `CalculateTaskBackoff` without the jitter, in seconds. -/
def delaySeconds (int : ℤ → ℤ) (attempt : ℕ) (initialDelaySeconds maxDelaySeconds : ℤ) : ℤ :=
  let initial := if initialDelaySeconds ≤ 0 then 1 else initialDelaySeconds
  let max := if maxDelaySeconds < initial then initial else maxDelaySeconds
  let shift := if maxBackoffExponentShift < attempt then maxBackoffExponentShift else attempt
  let delay := int (initial * int (2 ^ shift))
  if max < delay then max else delay

/-- `CalculateTaskBackoff`, in nanoseconds. -/
def RandomSource.calculateTaskBackoff (source : RandomSource) (int : ℤ → ℤ) (attempt : ℕ)
    (initialDelaySeconds maxDelaySeconds : ℤ) : ℤ :=
  let delay := delaySeconds int attempt initialDelaySeconds maxDelaySeconds
  let maxJitterMs := (int (delay * 1000)).tdiv 4
  let jitterMs := if 0 < maxJitterMs then (source.int maxJitterMs).getD 0 else 0
  int (int (delay * 1000000000) + int (jitterMs * 1000000))

/-- The least delay before an attempt, in seconds. -/
def leastDelay (initialDelaySeconds maxDelaySeconds : ℤ) (attempt : ℕ) : ℤ :=
  min (initialDelaySeconds * 2 ^ attempt) maxDelaySeconds

/-- Results in the range of `int64` are kept, and nothing is said of others. -/
def KeepsInt64 (int : ℤ → ℤ) : Prop := ∀ n, -2 ^ 63 ≤ n → n < 2 ^ 63 → int n = n

theorem keepsInt64_int64 : KeepsInt64 int64 :=
  fun _ hlow hhigh => Int.bmod_eq_of_le (by omega) (by omega)

section

variable {initial max : ℤ} (h : 1 ≤ initial ∧ initial ≤ max ∧ max ≤ 86400)

include h

theorem leastDelay_mono {attempt later : ℕ} (hle : attempt ≤ later) :
    leastDelay initial max attempt ≤ leastDelay initial max later := by
  have hpow : (2 : ℤ) ^ attempt ≤ 2 ^ later := pow_le_pow_right₀ (by decide) hle
  exact min_le_min_right _ (mul_le_mul_of_nonneg_left hpow (by omega))

theorem leastDelay_range (attempt : ℕ) :
    1 ≤ leastDelay initial max attempt ∧ leastDelay initial max attempt ≤ max := by
  have hfirst : leastDelay initial max 0 ≤ _ := leastDelay_mono h attempt.zero_le
  unfold leastDelay at hfirst ⊢
  omega

theorem delaySeconds_eq {int : ℤ → ℤ} (hint : KeepsInt64 int) (attempt : ℕ) :
    delaySeconds int attempt initial max = leastDelay initial max attempt := by
  have hdelay : ∀ shift ≤ 30, int (initial * int (2 ^ shift)) = initial * 2 ^ shift := by
    intro shift hshift
    have hone : (1 : ℤ) ≤ 2 ^ shift := one_le_pow₀ (by decide)
    have hpow : (2 : ℤ) ^ shift ≤ 2 ^ 30 := pow_le_pow_right₀ (by decide) hshift
    have hlow := one_le_mul_of_one_le_of_one_le h.1 hone
    have hhigh := mul_le_mul (h.2.1.trans h.2.2) hpow (by omega) (by decide)
    rw [hint (2 ^ shift) (by omega) (by omega), hint _ (by omega) (by omega)]
  unfold delaySeconds leastDelay maxBackoffExponentShift
  simp only [if_neg (show ¬initial ≤ 0 by omega), if_neg (not_lt.mpr h.2.1)]
  by_cases hattempt : 30 < attempt
  · -- the maximum is reached before the shift is
    have hpow : (2 : ℤ) ^ 30 ≤ 2 ^ attempt := pow_le_pow_right₀ (by decide) hattempt.le
    have hreached : (2 : ℤ) ^ attempt ≤ initial * 2 ^ attempt :=
      le_mul_of_one_le_left (by omega) h.1
    rw [if_pos hattempt, hdelay 30 le_rfl, if_pos (by omega), min_eq_right (by omega)]
  · rw [if_neg hattempt, hdelay attempt (not_lt.mp hattempt), min_comm, min_def_lt]

end

/-- The least delay never decreases. The delay is at least that and less than a quarter above the
maximum, whatever is made of results outside of `int64`, so there are none. -/
theorem calculateTaskBackoff_bounds {config : Config} (h : config.validate = .ok ())
    (source : RandomSource) :
    (∀ attempt later, attempt ≤ later →
      leastDelay config.retryInitialDelaySeconds config.retryMaxDelaySeconds attempt ≤
        leastDelay config.retryInitialDelaySeconds config.retryMaxDelaySeconds later) ∧
    ∀ attempt, ∃ delay,
      leastDelay config.retryInitialDelaySeconds config.retryMaxDelaySeconds attempt * 1000000000 ≤
        delay ∧
      delay * 4 < config.retryMaxDelaySeconds * 1000000000 * 5 ∧
      ∀ int, KeepsInt64 int → source.calculateTaskBackoff int attempt
        config.retryInitialDelaySeconds config.retryMaxDelaySeconds = delay := by
  have hdelays := Config.delays_of_validate h
  refine ⟨fun _ _ => leastDelay_mono hdelays, fun attempt => ?_⟩
  have hseconds := fun int (hint : KeepsInt64 int) => delaySeconds_eq hdelays hint attempt
  have hrange := leastDelay_range hdelays attempt
  generalize leastDelay _ _ attempt = delay at hseconds hrange
  have hjitter : 0 ≤ (source.int (delay * 250)).getD 0 ∧
      (source.int (delay * 250)).getD 0 < delay * 250 := by
    rcases hdrawn : source.int (delay * 250) with _ | drawn
    · exact ⟨le_rfl, by simp; omega⟩
    · exact source.int_range _ _ hdrawn
  have hquarter : (delay * 1000).tdiv 4 = delay * 250 := by
    rw [Int.tdiv_eq_ediv_of_nonneg (by omega)]
    omega
  refine ⟨delay * 1000000000 + (source.int (delay * 250)).getD 0 * 1000000, by omega, by omega,
    fun int hint => ?_⟩
  simp only [RandomSource.calculateTaskBackoff, hseconds int hint]
  rw [hint (_ * 1000) (by omega) (by omega), hquarter, if_pos (by omega),
    hint (_ * 1000000000) (by omega) (by omega), hint (_ * 1000000) (by omega) (by omega),
    hint _ (by omega) (by omega)]

def failingSource : RandomSource :=
  ⟨fun _ => none, fun _ _ h => absurd h (Option.some_ne_none _).symm⟩

theorem calculateTaskBackoff_default : defaultConfig.validate = .ok () ∧
    ∃ delay, 40 * 1000000000 ≤ delay ∧
      failingSource.calculateTaskBackoff int64 3 5 300 = delay := by
  have hbounds := @calculateTaskBackoff_bounds defaultConfig rfl failingSource
  obtain ⟨delay, hlow, -, heq⟩ := hbounds.2 3
  exact ⟨rfl, delay, hlow, heq int64 keepsInt64_int64⟩

end Layr.Tasks

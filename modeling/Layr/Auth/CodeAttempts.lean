import Layr.Auth.CodeRows

/-!
# Wrong codes

After five wrong codes a row is not to be accepted any more, whatever requests they came with. Each
wrong code is counted on the row, so the log of a run never has more of them than the row says. The
sign-in with a code and its hosted form do not read the counter before they compare: with them a
code is accepted after any number of wrong ones.
-/

namespace Layr.Auth

variable {call : Call} {request : Request} {s : State} {id : String}

section counts

variable (env : Env)

/-- The request submitted a wrong code against the row. -/
def Served.isWrong (served : Served) (id : String) : Bool :=
  (served.attempt env).any fun made => made.id = id && !made.isAccepted env

/-- The wrong codes that were submitted against a row since it was stored. The log is read backwards
to the request that stored the row. -/
def wrongCodes (id : String) : List Served → ℕ
  | [] => 0
  | served :: earlier =>
    if (served.before.otps.get id).isNone then 0
    else wrongCodes id earlier + if served.isWrong env id then 1 else 0

/-- No code is accepted after five wrong ones. -/
def AttemptsBounded : List Served → Prop :=
  AcceptedOnly env fun earlier made => wrongCodes env made.id earlier < maxOtpAttempts

/-- The sign-in with a code and its hosted form find no row that has had five wrong codes. -/
def Checked (w : World) : Event → Prop
  | .serve call request => request.checksAttempts ∨
    ∀ made ∈ attempt env call w.state request, made.otp.attempts < maxOtpAttempts
  | .tick _ => True

instance (w : World) : (event : Event) → Decidable (Checked env w event)
  | .serve call request => inferInstanceAs (Decidable (request.checksAttempts ∨
    ∀ made ∈ attempt env call w.state request, made.otp.attempts < maxOtpAttempts))
  | .tick _ => .isTrue trivial

/-- The rows have counted the wrong codes. -/
def Counted (w : World) : Prop :=
  ∀ id otp, w.state.otps.get id = some otp → wrongCodes env id w.log ≤ otp.attempts

variable {env}

/-- A row after a request is new, or it was there and its counter has moved with the wrong code. -/
theorem CodeEffect.attempts_get {r : Reply} {otps : Table String Otp} {otp : Otp}
    (heffect : CodeEffect env call s request r otps) (hget : otps.get id = some otp) :
    s.otps.get id = none ∨ ∃ old, s.otps.get id = some old ∧
      otp.attempts = old.attempts +
        if (⟨s, call, request, r⟩ : Served).isWrong env id then 1 else 0 := by
  have hwrong : (⟨s, call, request, r⟩ : Served).isWrong env id =
      (attempt env call s request).any fun made => made.id = id && !made.isAccepted env := rfl
  rw [hwrong]
  cases heffect with
  | untouched hattempt _ hotps =>
    exact .inr ⟨otp, hotps ▸ hget, by simp [hattempt]⟩
  | exhausted hattempt _ _ hotps | dropped hattempt _ hotps =>
    exact .inr ⟨otp, get_of_deleteWhere (hotps ▸ hget), by simp [hattempt]⟩
  | @wrong made hattempt hwrong _ hotps =>
    subst hotps
    have hget : (s.otps.update made.id fun otp =>
      { otp with attempts := otp.attempts + 1 }).get id = some otp := hget
    rw [Table.get_update] at hget
    by_cases hid : id = made.id
    · rw [if_pos hid, Option.map_eq_some_iff] at hget
      obtain ⟨old, hold, rfl⟩ := hget
      exact .inr ⟨old, hold, by simp [hattempt, hwrong, hid]⟩
    · rw [if_neg hid] at hget
      exact .inr ⟨otp, hget, by simp [hattempt, Ne.symm hid]⟩
  | used hattempt haccepted hotps | usedAll hattempt haccepted hotps =>
    exact .inr ⟨otp, get_of_deleteWhere (hotps ▸ hget), by simp [hattempt, haccepted]⟩
  | sent hattempt _ hotps =>
    subst hotps
    rcases Table.get_of_insert_getD hget with hold | hnew
    · exact .inr ⟨otp, hold, by simp [hattempt]⟩
    · exact .inl hnew.1

/-- A request counts the wrong code that it submits. -/
theorem Counted.serve {w : World} (hcounted : Counted env w) (call : Call) (request : Request) :
    Counted env (w.serve env call request) := by
  intro id otp hget
  rw [World.serve, wrongCodes]
  rcases (serve_codes env call w.state request).attempts_get hget with hnew | ⟨old, hold, hattempts⟩
  · rw [hnew]
    exact Nat.zero_le _
  · rw [hold, hattempts]
    exact Nat.add_le_add_right (hcounted id old hold) _

/-- With the counter read by every request, none is accepted after five wrong codes. -/
theorem AttemptsBounded.serve {w : World} (hcounted : Counted env w)
    (hchecked : Checked env w (.serve call request)) (hbounded : AttemptsBounded env w.log) :
    AttemptsBounded env (w.serve env call request).log := by
  refine AcceptedOnly.serve hbounded fun made hattempt _ => ?_
  have hattempts : made.otp.attempts < maxOtpAttempts := by
    rcases hchecked with hchecks | hfew
    · exact (attempt_spec hattempt).2 hchecks
    · exact hfew made hattempt
  exact (hcounted made.id made.otp (attempt_spec hattempt).1.get).trans_lt hattempts

/-- In every run from any state, in which the sign-in with a code and its hosted form find no row
that has had five wrong codes, no request is accepted with the code of such a row. -/
theorem attempts_bounded {start : State} {w : World}
    (hrun : Runs.Run (World.step env) (Checked env) ⟨start, []⟩ w) :
    AttemptsBounded env w.log := by
  have hinv : Counted env w ∧ AttemptsBounded env w.log := by
    apply World.invariant env hrun
    · -- nothing has been served, so nothing has been counted
      exact ⟨fun _ _ _ => Nat.zero_le _, .nil⟩
    · intro w call request hinv hchecked
      exact ⟨hinv.1.serve call request, hinv.2.serve hinv.1 hchecked⟩
    · exact fun _ _ hinv => hinv
  exact hinv.2

end counts

/-! ## The sixth code -/

/-- A sign-in with a code. -/
def signInWith (code : String) : Request := .verifyOTP (some ⟨"w@x", code, ""⟩)

/-- A code is sent to an address, and somebody signs in there with a number of wrong codes. -/
def guessed : ℕ → World
  | 0 => sampleWorld.serve sampleEnv (sampleCall "0") (.sendOTP (some ⟨"w@x", ""⟩))
  | n + 1 => (guessed n).serve sampleEnv (sampleCall "1") (signInWith "x")

theorem run_guessed {allowed : World → Event → Prop}
    (hsend : allowed sampleWorld (.serve (sampleCall "0") (.sendOTP (some ⟨"w@x", ""⟩)))) {n : ℕ}
    (hguess : ∀ k < n, allowed (guessed k) (.serve (sampleCall "1") (signInWith "x"))) :
    Runs.Run (World.step sampleEnv) allowed ⟨sampleWorld.state, []⟩ (guessed n) := by
  induction n with
  | zero => exact World.run_serve sampleEnv .refl hsend
  | succ n ih =>
    have hrun := ih fun k hk => hguess k (hk.trans n.lt_succ_self)
    exact World.run_serve sampleEnv hrun (hguess n n.lt_succ_self)

/-- After four wrong codes the right one is accepted, as it should be. -/
theorem attempts_bounded_four :
    (serve sampleEnv (sampleCall "2") (signInWith "c0") (guessed 4).state).1.grantee = some "u2" ∧
    AttemptsBounded sampleEnv
      ((guessed 4).serve sampleEnv (sampleCall "2") (signInWith "c0")).log := by
  have hrun : Runs.Run (World.step sampleEnv) (Checked sampleEnv) ⟨sampleWorld.state, []⟩
      (guessed 4) := run_guessed (by decide +kernel) (by decide +kernel)
  exact ⟨by decide +kernel,
    attempts_bounded (World.run_serve sampleEnv hrun (by decide +kernel))⟩

/-- After five wrong codes the right one is accepted all the same, and its sender gets tokens. -/
theorem code_accepted_after_five_wrong :
    Runs.Run (World.step sampleEnv) (fun _ _ => True) ⟨sampleWorld.state, []⟩
      ((guessed 5).serve sampleEnv (sampleCall "2") (signInWith "c0")) ∧
    (serve sampleEnv (sampleCall "2") (signInWith "c0") (guessed 5).state).1.grantee = some "u2" ∧
    wrongCodes sampleEnv "o0" (guessed 5).log = 5 ∧
    ¬AttemptsBounded sampleEnv
      ((guessed 5).serve sampleEnv (sampleCall "2") (signInWith "c0")).log := by
  have hwrong : wrongCodes sampleEnv "o0" (guessed 5).log = 5 := by decide +kernel
  have hattempt : attempt sampleEnv (sampleCall "2") (guessed 5).state (signInWith "c0") =
      some ⟨"o0", ⟨"w@x", sampleEnv.hashCode "c0", "sign_in", 5, 600⟩, "c0"⟩ := by decide +kernel
  refine ⟨World.run_serve sampleEnv (run_guessed trivial fun _ _ => trivial) trivial,
    by decide +kernel, hwrong, fun hbounded => ?_⟩
  have hfew : wrongCodes sampleEnv "o0" (guessed 5).log < maxOtpAttempts :=
    (hbounded _ _ (List.suffix_refl _)).2 _ ⟨hattempt, by decide +kernel⟩
  rw [hwrong] at hfew
  exact absurd hfew (by decide)

end Layr.Auth

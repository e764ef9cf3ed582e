import Layr.Auth.PendingFrames

/-!
# What requests do to one-time codes

Five requests compare a text with the code of a row: the sign-in with a code, its hosted form, the
reset of a password and the verification of an email address and of a phone number. `attempt` says
which row a request compares with which text, and `CodeEffect` what becomes of the rows: they are
counted on, deleted, added to or left alone.
-/

namespace Layr.Auth

open Go Prog

variable {rest : Handler} {otp : Otp} {r : Reply} {request : Request}
  {recipient purpose id text : String} {row : String × Otp}

/-! ## Comparisons -/

/-- A text that is compared with the code of a row. -/
structure Attempt where
  id : String
  otp : Otp
  text : String
  deriving DecidableEq, Repr

/-- The text is accepted as the code. -/
def Attempt.isAccepted (env : Env) (attempt : Attempt) : Bool :=
  env.verifyCode attempt.text attempt.otp.codeHash

/-- The comparison with a row that was found. -/
def Attempt.ofRow (text : String) (row : String × Otp) : Attempt := ⟨row.1, row.2, text⟩

/-- The five requests that consume codes. -/
def Request.consumesCode : Request → Bool
  | verifyOTP _ | confirmPasswordReset _ | confirmEmailVerification _
  | confirmPhoneVerification _ => true
  | submitOIDCAuthorize form => Strings.trimSpace form.action = "verify_otp"
  | _ => false

/-- The requests that read the counter before they compare. -/
def Request.checksAttempts : Request → Bool
  | confirmPasswordReset _ | confirmEmailVerification _ | confirmPhoneVerification _ => true
  | _ => false

/-- The requests that delete the row of the code they accept and no other one. -/
def Request.consumesOneRow : Request → Bool
  | verifyOTP _ | submitOIDCAuthorize _ | confirmPasswordReset _ => true
  | _ => false

/-- The requests that ask for a code. -/
def Request.asksForCode : Request → Bool
  | requestPasswordReset _ | sendOTP _ | requestEmailVerification _
  | requestPhoneVerification _ => true
  | _ => false

/-- The reply refuses the request. -/
def Reply.isFailure : Reply → Bool
  | error _ _ | oauthError _ _ _ | redirectError _ _ => true
  | page _ text _ => text ≠ ""
  | _ => false

section attempts

variable (env : Env) (call : Call) (s : State)

/-- The comparison of `handleVerifyOTP`. -/
def verifyOTPAttempt (input : VerifyOTPInput) : Option Attempt :=
  if (env.config.emailOTPEnabled || env.config.smsOTPEnabled) ∧ input.recipient ≠ "" ∧
      input.code ≠ "" ∧ call.captcha = none ∧
      env.isOTPEnabled (normalizeEmail input.recipient) = true then
    (normalizeRecipient (normalizeEmail input.recipient)).bind fun recipient =>
      (s.selectLiveOTP recipient (otpPurpose input.purpose)).map (.ofRow input.code)
  else none

/-- The comparison of the action `verify_otp`. -/
def hostedAttempt (form : OIDCForm) : Option Attempt :=
  if env.config.oidcEnabled ∧ form.state ≠ "" ∧ (s.findOIDCState form.state).isSome ∧
      Strings.trimSpace form.action = "verify_otp" ∧ Strings.trimSpace form.recipient ≠ "" ∧
      Strings.trimSpace form.otpCode ≠ "" then
    (s.selectLiveOTP (hostedRecipient (Strings.trimSpace form.recipient)) "sign_in").map
      (.ofRow (Strings.trimSpace form.otpCode))
  else none

/-- The comparison of `handleConfirmPasswordReset`, which comes after that of the attempts. -/
def resetAttempt (input : ConfirmPasswordResetInput) : Option Attempt :=
  if env.config.passwordEnabled ∧ resetRecipient input.email input.phone ≠ "" ∧
      input.code ≠ "" ∧ input.password ≠ "" ∧
      env.config.passwordMinLength ≤ input.password.utf8ByteSize ∧ call.breach = none then
    (normalizeRecipient (resetRecipient input.email input.phone)).bind fun recipient =>
      ((s.selectLiveOTP recipient "password_reset").filter fun row =>
        row.2.attempts < maxPasswordResetAttempts).map (.ofRow input.code)
  else none

/-- The comparison of `confirmVerification`, which comes after that of the attempts. -/
def verificationAttempt (email : Bool) (recipient code : String) : Option Attempt :=
  ((s.selectOTP recipient (verificationPurpose email)).filter fun row =>
    s.now ≤ row.2.expiresAt && row.2.attempts < maxOtpAttempts).map (.ofRow code)

/-- The comparison that a request makes, if it makes one. -/
def attempt : Request → Option Attempt
  | .verifyOTP input => input.bind (verifyOTPAttempt env call s)
  | .submitOIDCAuthorize form => hostedAttempt env s form
  | .confirmPasswordReset input => input.bind (resetAttempt env call s)
  | .confirmEmailVerification input => input.bind fun input =>
    let recipient := verificationRecipient call true input.recipient
    if recipient ≠ "" ∧ Strings.trimSpace input.code ≠ "" then
      verificationAttempt s true recipient (Strings.trimSpace input.code)
    else none
  | .confirmPhoneVerification input => input.bind fun input =>
    let recipient := verificationRecipient call false input.recipient
    if recipient ≠ "" ∧ Strings.trimSpace input.code ≠ "" then
      (normalizePhone recipient).bind fun recipient =>
        verificationAttempt s false recipient (Strings.trimSpace input.code)
    else none
  | _ => none

/-- A row is found as the latest for its recipient and purpose, or as the latest that has not
expired. -/
def State.Selects (s : State) (row : String × Otp) : Prop :=
  s.selectOTP row.2.recipient row.2.purpose = some row ∨
    s.selectLiveOTP row.2.recipient row.2.purpose = some row

/-- What becomes of the rows. A request that consumes codes fails unless it accepts one. -/
inductive CodeEffect (request : Request) (reply : Reply) (otps : Table String Otp) : Prop
  | untouched (hattempt : attempt env call s request = none)
      (hreply : request.consumesCode → reply.isFailure) (hotps : otps = s.otps)
  /-- A row with too many attempts is deleted without a comparison. -/
  | exhausted {row : String × Otp} (hattempt : attempt env call s request = none)
      (hselect : s.Selects row)
      (hreply : reply = .error 400 "Maximum attempts exceeded")
      (hotps : otps = s.otps.delete row.1) (hchecks : request.checksAttempts)
      (hlimit : maxOtpAttempts ≤ row.2.attempts)
  /-- A wrong code is counted. -/
  | wrong {made : Attempt} (hattempt : attempt env call s request = some made)
      (hwrong : made.isAccepted env = false) (hreply : reply.isFailure)
      (hotps : otps = (s.countAttempt made.id).otps)
  /-- A code that was accepted is deleted. -/
  | used {made : Attempt} (hattempt : attempt env call s request = some made)
      (haccepted : made.isAccepted env) (hotps : otps = s.otps.delete made.id)
      (hone : request.consumesOneRow)
  /-- The verification of an address deletes all codes for it. -/
  | usedAll {made : Attempt} (hattempt : attempt env call s request = some made)
      (haccepted : made.isAccepted env)
      (hotps : otps = s.otps.deleteWhere fun _ otp =>
        otp.recipient = made.otp.recipient && otp.purpose = made.otp.purpose)
  | sent {recipient purpose : String} {ttl : ℤ} (hattempt : attempt env call s request = none)
      (hconsumes : request.consumesCode = false)
      (hotps : otps = (s.insertOTP call.newOTPID
        ⟨recipient, env.hashCode call.newCode, purpose, 0, s.now + ttl⟩).otps)
  /-- The codes of a user go with it. -/
  | dropped {p : String → Bool} (hattempt : attempt env call s request = none)
      (hconsumes : request.consumesCode = false)
      (hotps : otps = s.otps.deleteWhere fun _ otp => p otp.recipient)

end attempts

section effects

variable {env : Env} {call : Call} {s : State} {Q : Empty → State → Prop}

/-- The reply and the rows of a state, as an effect of the request. -/
abbrev EffectOf (env : Env) (call : Call) (s : State) (request : Request) (r : Reply)
    (s' : State) : Prop := CodeEffect env call s request r s'.otps

/-- A refusal before the comparison leaves the rows as they were. -/
theorem CodeEffect.refused (hattempt : attempt env call s request = none)
    (hreply : r.isFailure) :
    EffectOf env call s request r s := .untouched hattempt (fun _ => hreply) rfl

theorem CodeEffect.uninvolved {s' : State} (hattempt : attempt env call s request = none)
    (hconsumes : request.consumesCode = false) (hotps : s'.otps = s.otps) :
    EffectOf env call s request r s' :=
  .untouched hattempt (fun hconsumes' => absurd hconsumes' (by rw [hconsumes]; decide)) hotps

theorem recipient_of_selectLiveOTP (h : s.selectLiveOTP recipient purpose = some row) :
    row.2.recipient = recipient ∧ row.2.purpose = purpose := by
  have hrow := List.find?_some h
  simp only [Bool.and_eq_true, decide_eq_true_eq] at hrow
  exact hrow.1

theorem recipient_of_selectOTP (h : s.selectOTP recipient purpose = some row) :
    row.2.recipient = recipient ∧ row.2.purpose = purpose := by
  have hrow := List.find?_some h
  simpa only [Bool.and_eq_true, decide_eq_true_eq] using hrow

theorem State.Selects.get (h : s.Selects row) : s.otps.get row.1 = some row.2 := by
  rcases h with h | h <;> exact Table.get_eq_some_iff.mpr (List.mem_of_find?_eq_some h)

theorem selects_of_selectLiveOTP (h : s.selectLiveOTP recipient purpose = some row) :
    s.Selects row := by
  obtain ⟨rfl, rfl⟩ := recipient_of_selectLiveOTP h
  exact .inr h

theorem selects_of_selectOTP (h : s.selectOTP recipient purpose = some row) : s.Selects row := by
  obtain ⟨rfl, rfl⟩ := recipient_of_selectOTP h
  exact .inl h

/-- What is compared with is a row that was selected, and one that has had fewer than five wrong
codes where the request reads the counter. -/
theorem attempt_spec {made : Attempt} (h : attempt env call s request = some made) :
    s.Selects (made.id, made.otp) ∧
      (request.checksAttempts → made.otp.attempts < maxOtpAttempts) := by
  have hverification : ∀ {email : Bool} {recipient code : String},
      verificationAttempt s email recipient code = some made →
      s.Selects (made.id, made.otp) ∧ (request.checksAttempts →
        made.otp.attempts < maxOtpAttempts) := by
    intro email recipient code h
    obtain ⟨row, hrow, rfl⟩ := Option.map_eq_some_iff.mp h
    obtain ⟨hselect, hchecked⟩ := Option.filter_eq_some_iff.mp hrow
    simp only [Bool.and_eq_true, decide_eq_true_eq] at hchecked
    exact ⟨selects_of_selectOTP hselect, fun _ => hchecked.2⟩
  cases request with
  | verifyOTP input =>
    simp only [attempt, verifyOTPAttempt, Option.bind_eq_some_iff, Option.ite_none_right_eq_some,
      Option.map_eq_some_iff] at h
    obtain ⟨given, -, -, recipient, -, row, hrow, rfl⟩ := h
    exact ⟨selects_of_selectLiveOTP hrow, fun hchecks => by cases hchecks⟩
  | submitOIDCAuthorize form =>
    obtain ⟨-, h⟩ := Option.ite_none_right_eq_some.mp h
    obtain ⟨row, hrow, rfl⟩ := Option.map_eq_some_iff.mp h
    exact ⟨selects_of_selectLiveOTP hrow, fun hchecks => by cases hchecks⟩
  | confirmPasswordReset input =>
    simp only [attempt, resetAttempt, Option.bind_eq_some_iff, Option.ite_none_right_eq_some,
      Option.map_eq_some_iff, Option.filter_eq_some_iff] at h
    obtain ⟨given, -, -, recipient, -, row, ⟨hselect, hchecked⟩, rfl⟩ := h
    exact ⟨selects_of_selectLiveOTP hselect, fun _ => of_decide_eq_true hchecked⟩
  | confirmEmailVerification input =>
    obtain ⟨given, -, h⟩ := Option.bind_eq_some_iff.mp h
    exact hverification (Option.ite_none_right_eq_some.mp h).2
  | confirmPhoneVerification input =>
    simp only [attempt, Option.bind_eq_some_iff, Option.ite_none_right_eq_some] at h
    obtain ⟨given, -, -, recipient, -, h⟩ := h
    exact hverification h
  | _ => cases h

/-- A request that consumes codes and does not fail has accepted one. -/
theorem CodeEffect.accepts {otps : Table String Otp}
    (heffect : CodeEffect env call s request r otps) (hconsumes : request.consumesCode)
    (hreply : r.isFailure = false) :
    ∃ made, attempt env call s request = some made ∧ made.isAccepted env := by
  cases heffect with
  | untouched _ hfails =>
    rw [hfails hconsumes] at hreply
    cases hreply
  | exhausted _ _ hfails =>
    subst hfails
    cases hreply
  | wrong _ _ hfails =>
    rw [hfails] at hreply
    cases hreply
  | used hattempt haccepted | usedAll hattempt haccepted => exact ⟨_, hattempt, haccepted⟩
  | sent _ hother | dropped _ hother =>
    rw [hother] at hconsumes
    cases hconsumes

-- what follows the use of a code leaves the rows alone
attribute [local simp] Prog.bind_assoc State.insertUser State.updateUser State.updateUsersWhere
  State.upsertUser State.insertSession State.setCached State.setTicket State.setCode
  State.setOIDCMFA State.deleteOIDCMFA State.deleteOIDCState resolveAnonymousCaller ensureUnlocked
  checkMFACode issueSessionResponse completeSignInFlow issueOIDCAuthorizationCode
  completeOIDCAuthorization completeHosted askForMFA upsertRecipient convertByOTP hostedVerifyMFA
  hostedSignUp hostedSignIn

/-- A handler has an effect of the request, if this is what the request compares. -/
abbrev Compares (env : Env) (call : Call) (s : State) (Q : Empty → State → Prop)
    (request : Request) (made : Option Attempt) (p : Handler) : Prop :=
  attempt env call s request = made → p.wp Q (EffectOf env call s request) s

/-- The comparison: a wrong code is counted, and the handler goes on with one that is accepted. -/
theorem wp_compare {α : Type} {next : α → Handler} (hreply : r.isFailure)
    (hrest : env.verifyCode text otp.codeHash →
      Compares env call s Q request (some ⟨id, otp, text⟩) rest) :
    Compares env call s Q request (some ⟨id, otp, text⟩)
      (if env.verifyCode text otp.codeHash = false then
        (change fun s => s.countAttempt id) >>= fun _ => reply r >>= next
      else rest) := by
  intro hattempt
  refine (wp_ite _ _ _).mpr ⟨fun hwrong => ?_, fun haccepted => ?_⟩
  · rw [wp_bind, wp_change, wp_bind, wp_reply]
    exact .wrong hattempt hwrong hreply rfl
  · rw [Bool.not_eq_false] at haccepted
    exact hrest haccepted hattempt

/-- The row of an accepted code is deleted, and then the rows are left alone. -/
theorem wp_use (hone : request.consumesOneRow) (haccepted : env.verifyCode text otp.codeHash)
    (hrest : rest.Keeps State.otps) :
    Compares env call s Q request (some ⟨id, otp, text⟩)
      ((change fun s => s.deleteOTP id) >>= fun _ => rest) := by
  intro hattempt
  rw [wp_bind, wp_change]
  exact hrest.wp fun _ _ hotps => .used hattempt haccepted hotps hone

/-- A check whose failure ends the request without a comparison. -/
theorem wp_check {c : Prop} [Decidable c] {o : Option Attempt} {next : Unit → Handler}
    (hreply : r.isFailure) (hrest : c → Compares env call s Q request o (next ())) :
    Compares env call s Q request (if c then o else none) (ensure c r >>= next) := fun h =>
  wp_ensure_bind.mpr ⟨fun hc => hrest hc (h.trans (if_pos hc)),
    fun hc => .refused (h.trans (if_neg hc)) hreply⟩

/-- The check of a captcha or a password, made elsewhere. -/
theorem wp_passed {failure : Option (ℕ × String)} {o : Option Attempt} {next : Unit → Handler}
    (hrest : Compares env call s Q request o (next ())) :
    Compares env call s Q request (if failure = none then o else none)
      ((failure.elim (pure ()) fun failed => reply (.error failed.1 failed.2) : Act Unit)
        >>= next) := by
  intro h
  rw [wp_bind, wp_elim]
  refine ⟨fun hnone => (wp_pure ()).mpr (hrest (h.trans (if_pos hnone))), fun failed hfailed => ?_⟩
  rw [wp_reply]
  exact .refused (h.trans (if_neg (by simp [hfailed]))) rfl

/-- What the comparison needs is looked for. -/
theorem wp_find {α : Type} {found : Option α} {o : α → Option Attempt} {next : α → Handler}
    (hreply : r.isFailure)
    (hrest : ∀ a, found = some a → Compares env call s Q request (o a) (next a)) :
    Compares env call s Q request (found.bind o) (require found r >>= next) := by
  intro h
  refine wp_require_bind.mpr ⟨fun hnone => .refused ?_ hreply, fun a ha => hrest a ha ?_⟩
  · rw [h, hnone, Option.bind_none]
  · rw [h, ha, Option.bind_some]

/-- The attempts are checked: a row that has had too many is deleted. -/
theorem wp_limit {α : Type} {limit : ℕ} {next : α → Handler} (hchecks : request.checksAttempts)
    (hmax : maxOtpAttempts ≤ limit) (hselect : s.Selects row)
    (hrest : Compares env call s Q request (some (.ofRow text row)) rest) :
    Compares env call s Q request
      (if row.2.attempts < limit then some (.ofRow text row) else none)
      (if limit ≤ row.2.attempts then
        (change fun s => s.deleteOTP row.1) >>= fun _ =>
          reply (.error 400 "Maximum attempts exceeded") >>= next
      else rest) := by
  intro h
  refine (wp_ite _ _ _).mpr ⟨fun hlimit => ?_, fun hlimit => ?_⟩
  · rw [wp_bind, wp_change, wp_bind, wp_reply]
    exact .exhausted (h.trans (if_neg (not_lt.mpr hlimit))) hselect rfl rfl hchecks
      (hmax.trans hlimit)
  · exact hrest (h.trans (if_pos (not_le.mp hlimit)))

theorem handleVerifyOTP_codes (input : Option VerifyOTPInput) :
    (handleVerifyOTP env call input).wp Q (EffectOf env call s (.verifyOTP input)) s := by
  -- the comparison with its conditions in the order of the handler
  have hattempt : attempt env call s (.verifyOTP input) =
      if (env.config.emailOTPEnabled || env.config.smsOTPEnabled) = true then
        (input.filter fun input => input.recipient ≠ "" && input.code ≠ "").bind fun input =>
          if call.captcha = none then
            if env.isOTPEnabled (normalizeEmail input.recipient) = true then
              (normalizeRecipient (normalizeEmail input.recipient)).bind fun recipient =>
                (s.selectLiveOTP recipient (otpPurpose input.purpose)).bind fun row =>
                  some (.ofRow input.code row)
            else none
          else none
      else none := by
    cases input with
    | none => simp [attempt]
    | some input =>
      by_cases hrecipient : input.recipient = "" <;> by_cases hcode : input.code = "" <;>
        simp [attempt, verifyOTPAttempt, ite_and, Option.filter_some, Option.map_eq_bind,
          hrecipient, hcode]
  refine wp_check rfl (fun _ => wp_find rfl fun input _ => wp_passed <| wp_check rfl fun _ =>
    wp_find rfl fun recipient _ hattempt => wp_query_bind.mpr ?_) hattempt
  exact wp_find rfl (fun row _ => wp_compare rfl fun haccepted =>
    wp_use rfl haccepted (by simp)) hattempt

theorem handleConfirmPasswordReset_codes (input : Option ConfirmPasswordResetInput) :
    (handleConfirmPasswordReset env call input).wp Q
      (EffectOf env call s (.confirmPasswordReset input)) s := by
  have hattempt : attempt env call s (.confirmPasswordReset input) =
      if env.config.passwordEnabled = true then input.bind fun input =>
        if resetRecipient input.email input.phone ≠ "" ∧ input.code ≠ "" ∧ input.password ≠ "" then
          (normalizeRecipient (resetRecipient input.email input.phone)).bind fun recipient =>
            if env.config.passwordMinLength ≤ input.password.utf8ByteSize then
              if call.breach = none then
                (s.selectLiveOTP recipient "password_reset").bind fun row =>
                  if row.2.attempts < maxPasswordResetAttempts then some (.ofRow input.code row)
                  else none
              else none
            else none
        else none
      else none := by
    cases input with
    | none => simp [attempt]
    | some input =>
      cases hrecipient : normalizeRecipient (resetRecipient input.email input.phone) with
      | none => simp [attempt, resetAttempt, hrecipient]
      | some recipient =>
        simp only [attempt, resetAttempt, hrecipient, ite_and, Option.bind_some]
        cases s.selectLiveOTP recipient "password_reset" with
        | none => simp
        | some row => simp [Option.filter_some, apply_ite (Option.map (Attempt.ofRow input.code))]
  refine wp_check rfl (fun _ => wp_find rfl fun input _ => wp_check rfl fun _ =>
    wp_find rfl fun recipient _ => wp_check rfl fun _ => wp_passed fun hattempt =>
    wp_query_bind.mpr ?_) hattempt
  exact wp_find rfl (fun row hrow => wp_limit rfl le_rfl (selects_of_selectLiveOTP hrow) <|
    wp_compare rfl fun haccepted => wp_use rfl haccepted (by simp)) hattempt

/-- The latest row is compared unless it has expired or had five wrong codes. -/
theorem confirmVerification_codes {email : Bool} {code : String}
    (hchecks : request.checksAttempts) :
    Compares env call s Q request (verificationAttempt s email recipient code)
      (confirmVerification env call email recipient code) := by
  have hverification : verificationAttempt s email recipient code =
      (s.selectOTP recipient (verificationPurpose email)).bind fun row =>
        if s.now ≤ row.2.expiresAt then
          if row.2.attempts < maxOtpAttempts then some (.ofRow code row) else none
        else none := by
    rw [verificationAttempt]
    cases s.selectOTP recipient (verificationPurpose email) with
    | none => rfl
    | some row => simp [Option.filter_some, ite_and, apply_ite (Option.map (Attempt.ofRow code))]
  rw [hverification]
  refine fun hattempt => wp_query_bind.mpr <| wp_find rfl (fun row hrow hattempt =>
    wp_query_bind.mpr <| wp_check rfl (fun _ => wp_limit hchecks le_rfl (selects_of_selectOTP hrow)
      ?_) hattempt) hattempt
  obtain ⟨rfl, hpurpose⟩ := recipient_of_selectOTP hrow
  refine wp_compare rfl fun haccepted hattempt => ?_
  rw [← hpurpose, wp_bind, wp_change]
  exact Keeps.wp (by simp) fun _ _ hotps => .usedAll hattempt haccepted hotps

theorem handleConfirmEmailVerification_codes (input : Option ConfirmVerificationInput) :
    (handleConfirmEmailVerification env call input).wp Q
      (EffectOf env call s (.confirmEmailVerification input)) s :=
  wp_find rfl (fun _ _ => wp_check rfl fun _ => confirmVerification_codes rfl) rfl

theorem handleConfirmPhoneVerification_codes (input : Option ConfirmVerificationInput) :
    (handleConfirmPhoneVerification env call input).wp Q
      (EffectOf env call s (.confirmPhoneVerification input)) s :=
  wp_find rfl (fun _ _ => wp_check rfl fun _ => wp_find rfl fun _ _ =>
    confirmVerification_codes rfl) rfl

/-! ### Codes that are sent -/

/-- A request that compares nothing may be refused, or store a code and send it. -/
theorem CodeEffect.kept_and_sent (h : attempt env call s request = none ∧
      request.consumesCode = false) :
    (∀ r, EffectOf env call s request r s) ∧ ∀ r recipient purpose ttl,
      EffectOf env call s request r (s.dispatched env call recipient purpose ttl) :=
  ⟨fun _ => .uninvolved h.1 h.2 rfl, fun _ _ _ _ => .sent h.1 h.2 rfl⟩

/-- The requests for a code are refused, or a code is sent. -/
theorem requests_codes (h : request.asksForCode) :
    (request.handler env call).wp Q (EffectOf env call s request) s := by
  have hnone : attempt env call s request = none ∧ request.consumesCode = false := by
    cases request <;> first | (cases h; done) | exact ⟨rfl, rfl⟩
  obtain ⟨hkept, hsent⟩ := CodeEffect.kept_and_sent hnone
  cases request with
  | requestPasswordReset => simp [Request.handler, handleRequestPasswordReset, hkept, hsent]
  | sendOTP => simp [Request.handler, handleSendOTP, hkept, hsent]
  | requestEmailVerification =>
    simp [Request.handler, handleRequestEmailVerification, requestVerification, hkept, hsent]
  | requestPhoneVerification =>
    simp [Request.handler, handleRequestPhoneVerification, requestVerification, hkept, hsent]
  | _ => cases h

/-! ### The hosted form -/

theorem hostedVerifyOTP_codes {form : OIDCForm} {payload : OIDCAuthorizationStatePayload} :
    Compares env call s Q (.submitOIDCAuthorize form)
      (if Strings.trimSpace form.recipient ≠ "" ∧ Strings.trimSpace form.otpCode ≠ "" then
        (s.selectLiveOTP (hostedRecipient (Strings.trimSpace form.recipient)) "sign_in").bind
          fun row => some (.ofRow (Strings.trimSpace form.otpCode) row)
      else none) (hostedVerifyOTP env call form payload) :=
  wp_check rfl fun _ hattempt => wp_query_bind.mpr <|
    wp_find rfl (fun row _ => wp_compare rfl fun haccepted => wp_use rfl haccepted (by simp))
      hattempt

theorem handleSubmitOIDCAuthorize_codes (form : OIDCForm) :
    (handleSubmitOIDCAuthorize env call form).wp Q
      (EffectOf env call s (.submitOIDCAuthorize form)) s := by
  have hattempt : attempt env call s (.submitOIDCAuthorize form) =
      if env.config.oidcEnabled = true then
        if form.state ≠ "" then
          (s.findOIDCState form.state).bind fun _ =>
            if Strings.trimSpace form.action = "verify_otp" then
              if Strings.trimSpace form.recipient ≠ "" ∧ Strings.trimSpace form.otpCode ≠ "" then
                (s.selectLiveOTP (hostedRecipient (Strings.trimSpace form.recipient))
                  "sign_in").bind fun row => some (.ofRow (Strings.trimSpace form.otpCode) row)
              else none
            else none
        else none
      else none := by
    cases hstate : s.findOIDCState form.state <;>
      simp [attempt, hostedAttempt, ite_and, hstate, Option.map_eq_bind]
  unfold handleSubmitOIDCAuthorize
  refine wp_check rfl (fun _ => wp_check rfl fun _ hattempt => wp_query_bind.mpr <|
    wp_find rfl (fun payload _ hattempt => ?_) hattempt) hattempt
  -- only one of the actions compares a code
  have hother : Strings.trimSpace form.action ≠ "verify_otp" →
      attempt env call s (.submitOIDCAuthorize form) = none ∧
        (Request.submitOIDCAuthorize form).consumesCode = false := fun haction =>
    ⟨hattempt.trans (if_neg haction), decide_eq_false haction⟩
  have hkeeps : ∀ {p : Handler}, p.Keeps State.otps →
      Strings.trimSpace form.action ≠ "verify_otp" →
      p.wp Q (EffectOf env call s (.submitOIDCAuthorize form)) s :=
    fun hp haction => hp.wp fun _ _ hotps => .uninvolved (hother haction).1 (hother haction).2 hotps
  dsimp only
  refine (wp_ite _ _ _).mpr ⟨fun haction => ?_, fun _ => (wp_ite _ _ _).mpr
    ⟨fun haction => ?_, fun _ => (wp_ite _ _ _).mpr ⟨fun haction => ?_, fun hverify =>
      (wp_ite _ _ _).mpr ⟨fun _ => ?_, fun _ => ?_⟩⟩⟩⟩
  · exact hkeeps (by simp) (by rw [haction]; decide)
  · obtain ⟨hkept, hsent⟩ := CodeEffect.kept_and_sent (hother (by rw [haction]; decide))
    simp [hostedSendOTP, hkept, hsent]
  · exact hostedVerifyOTP_codes (hattempt.trans (if_pos haction))
  · exact hkeeps (by simp) hverify
  · exact hkeeps (by simp) hverify

theorem handleDeleteOwnUser_codes :
    (handleDeleteOwnUser call).wp Q (EffectOf env call s .deleteOwnUser) s := by
  unfold handleDeleteOwnUser
  refine wp_ensure_bind.mpr ⟨fun _ => ?_, fun _ => .uninvolved rfl rfl rfl⟩
  simp only [wp_bind, wp_query, wp_change, wp_stmt, wp_reply]
  exact .dropped (p := fun recipient => (s.selectUser call.caller.userID).any fun user =>
    (user.email.any fun email => email ≠ "" && recipient = email) ||
      user.phone.any fun phone => phone ≠ "" && recipient = phone) rfl rfl rfl

/-- The other requests neither compare nor consume a code. -/
theorem attempt_of_handlesCodes (h : request.handlesCodes = false) :
    attempt env call s request = none ∧ request.consumesCode = false := by
  cases request with
  | requestPasswordReset | confirmPasswordReset | sendOTP | verifyOTP | requestEmailVerification
  | requestPhoneVerification | confirmEmailVerification | confirmPhoneVerification
  | submitOIDCAuthorize | deleteOwnUser => cases h
  | _ => exact ⟨rfl, rfl⟩

/-- Every request has one of the effects on the rows. -/
theorem serve_codes (env : Env) (call : Call) (s : State) (request : Request) :
    CodeEffect env call s request (serve env call request s).1
      (serve env call request s).2.otps := by
  have hwp : (request.handler env call).wp (fun _ _ => True) (EffectOf env call s request) s := by
    cases hcodes : request.handlesCodes with
    | false =>
      obtain ⟨hattempt, hconsumes⟩ := attempt_of_handlesCodes hcodes
      exact (keepsCodes_handler hcodes).wp fun _ _ hotps => .uninvolved hattempt hconsumes hotps
    | true =>
      cases request with
      | requestPasswordReset | sendOTP | requestEmailVerification | requestPhoneVerification =>
        exact requests_codes rfl
      | confirmPasswordReset input => exact handleConfirmPasswordReset_codes input
      | verifyOTP input => exact handleVerifyOTP_codes input
      | confirmEmailVerification input => exact handleConfirmEmailVerification_codes input
      | confirmPhoneVerification input => exact handleConfirmPhoneVerification_codes input
      | submitOIDCAuthorize form => exact handleSubmitOIDCAuthorize_codes form
      | deleteOwnUser => exact handleDeleteOwnUser_codes
      | _ => cases hcodes
  exact wp_iff_answer.mp hwp

end effects

/-! ## Runs -/

section runs

variable (env : Env)

/-- The comparison that a served request made. -/
def Served.attempt (served : Served) : Option Attempt :=
  Layr.Auth.attempt env served.call served.before served.request

/-- The request was accepted with the code of a row. -/
def Served.Accepts (served : Served) (made : Attempt) : Prop :=
  served.attempt env = some made ∧ made.isAccepted env

/-- Requests that consume codes succeed with accepted codes only, and each of these meets a
condition on what was served before. -/
def AcceptedOnly (P : List Served → Attempt → Prop) (log : List Served) : Prop :=
  ∀ served earlier, served :: earlier <:+ log →
    (served.request.consumesCode → served.reply.isFailure = false →
      ∃ made, served.Accepts env made) ∧
    ∀ made, served.Accepts env made → P earlier made

variable {env} {P : List Served → Attempt → Prop}

theorem AcceptedOnly.nil : AcceptedOnly env P [] :=
  fun _ _ hsuffix => by cases List.suffix_nil.mp hsuffix

theorem AcceptedOnly.serve {w : World} {call : Call} (hlog : AcceptedOnly env P w.log)
    (hP : ∀ made, attempt env call w.state request = some made → made.isAccepted env →
      P w.log made) : AcceptedOnly env P (w.serve env call request).log := by
  intro served earlier hsuffix
  rcases List.suffix_cons_iff.mp hsuffix with heq | hsuffix
  · obtain ⟨rfl, rfl⟩ := List.cons.inj heq
    exact ⟨(serve_codes env call w.state request).accepts, fun made haccepts =>
      hP made haccepts.1 haccepts.2⟩
  · exact hlog served earlier hsuffix

end runs

end Layr.Auth

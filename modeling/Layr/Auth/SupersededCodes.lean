import Layr.Auth.CodeRows

/-!
# Codes that a newer one replaces

As long as the rows of a recipient and a purpose only go all together, the latest row that is left
is the one that was issued last, and an older code stays dead. The sign-in with a code and the reset
of a password delete the row they used and nothing else, and pass over a row that has expired: then
an older row comes to light, and its code is accepted.
-/

namespace Layr.Auth

section latest

variable (env : Env)

/-- The request stored a new code for the recipient and the purpose. -/
def Served.issues (served : Served) (recipient purpose : String) : Bool :=
  (served.before.otps.get served.call.newOTPID).isNone &&
    ((serve env served.call served.request served.before).2.otps.get served.call.newOTPID).any
      fun otp => otp.recipient = recipient && otp.purpose = purpose

/-- The row of the code that was issued last for a recipient and a purpose. Before anything is
served it is the latest row. -/
def latestIssued (start : State) (recipient purpose : String) : List Served → Option String
  | [] => (start.selectOTP recipient purpose).map Prod.fst
  | served :: earlier =>
    if served.issues env recipient purpose then some served.call.newOTPID
    else latestIssued start recipient purpose earlier

/-- Each code that is accepted is the one that was issued last for its recipient and purpose. -/
def LatestAccepted (start : State) : List Served → Prop :=
  AcceptedOnly env fun earlier made =>
    latestIssued env start made.otp.recipient made.otp.purpose earlier = some made.id

/-- No other row is for the recipient and the purpose of the row. -/
def Sole (s : State) (row : String × Otp) : Prop :=
  ∀ other ∈ s.otps.rows, other.2.recipient = row.2.recipient → other.2.purpose = row.2.purpose →
    other.1 = row.1

/-- On the state before the request: what it compares with is the latest row, expired or not, and
the only one for its recipient and purpose where the request deletes that row alone; and where the
request reads the counter, a row that has had five wrong codes is the only one too. -/
def Retires (w : World) : Event → Prop
  | .serve call request =>
    (∀ made ∈ attempt env call w.state request,
      w.state.selectOTP made.otp.recipient made.otp.purpose = some (made.id, made.otp) ∧
      (request.consumesOneRow → Sole w.state (made.id, made.otp))) ∧
    (request.checksAttempts → ∀ row ∈ w.state.otps.rows,
      maxOtpAttempts ≤ row.2.attempts → Sole w.state row)
  | .tick _ => True

instance (s : State) (row : String × Otp) : Decidable (Sole s row) :=
  inferInstanceAs (Decidable (∀ other ∈ s.otps.rows, _))

instance (w : World) : (event : Event) → Decidable (Retires env w event)
  | .serve call request => inferInstanceAs (Decidable ((∀ made ∈ attempt env call w.state request,
      w.state.selectOTP made.otp.recipient made.otp.purpose = some (made.id, made.otp) ∧
      (request.consumesOneRow → Sole w.state (made.id, made.otp))) ∧
    (request.checksAttempts → ∀ row ∈ w.state.otps.rows,
      maxOtpAttempts ≤ row.2.attempts → Sole w.state row)))
  | .tick _ => .isTrue trivial

/-- The latest row for a recipient and a purpose is the one that was issued last. -/
def Latest (start : State) (w : World) : Prop :=
  ∀ recipient purpose row, w.state.selectOTP recipient purpose = some row →
    latestIssued env start recipient purpose w.log = some row.1

variable {env}

/-! ## What is left of the rows -/

/-- The row is for the recipient and the purpose. -/
def Otp.isFor (recipient purpose : String) (otp : Otp) : Bool :=
  otp.recipient = recipient && otp.purpose = purpose

theorem selectOTP_eq (s : State) (recipient purpose : String) :
    s.selectOTP recipient purpose =
      s.otps.rows.find? fun row => row.2.isFor recipient purpose := rfl

/-- Rows were deleted, and of the others nothing but the counters has changed. -/
def Pruned (rows rows' : List (String × Otp)) : Prop :=
  ∃ (keep : String × Otp → Bool) (f : String × Otp → String × Otp),
    (∀ row, (f row).1 = row.1 ∧ (f row).2.recipient = row.2.recipient ∧
      (f row).2.purpose = row.2.purpose) ∧ rows' = (rows.filter keep).map f

theorem Pruned.refl (rows : List (String × Otp)) : Pruned rows rows := by
  refine ⟨fun _ => true, id, fun _ => ⟨rfl, rfl, rfl⟩, ?_⟩
  rw [List.filter_true, List.map_id]

theorem Pruned.deleteWhere (otps : Table String Otp) (p : String → Otp → Bool) :
    Pruned otps.rows (otps.deleteWhere p).rows := by
  refine ⟨fun row => !p row.1 row.2, id, fun _ => ⟨rfl, rfl, rfl⟩, ?_⟩
  rw [List.map_id]
  rfl

theorem Pruned.countAttempt (s : State) (id : String) :
    Pruned s.otps.rows (s.countAttempt id).otps.rows := by
  refine ⟨fun _ => true, fun row => (row.1, if decide (row.1 = id) = true then
    { row.2 with attempts := row.2.attempts + 1 } else row.2), fun row => ⟨rfl, ?_⟩, ?_⟩
  · dsimp only
    split_ifs
    · exact ⟨rfl, rfl⟩
    · exact ⟨rfl, rfl⟩
  · rw [List.filter_true]
    rfl

/-- A request stores a new row, or it prunes the rows. -/
theorem CodeEffect.inserts_or_pruned {call : Call} {s : State} {request : Request} {r : Reply}
    {otps : Table String Otp} (heffect : CodeEffect env call s request r otps) :
    (∃ otp, s.otps.insert call.newOTPID otp = some otps) ∨ Pruned s.otps.rows otps.rows := by
  cases heffect with
  | untouched _ _ hotps =>
    rw [hotps]
    exact .inr (.refl _)
  | @wrong made _ _ _ hotps =>
    rw [hotps]
    exact .inr (.countAttempt s made.id)
  | @sent recipient purpose ttl _ _ hotps =>
    rcases hinsert : s.otps.insert call.newOTPID
        ⟨recipient, env.hashCode call.newCode, purpose, 0, s.now + ttl⟩ with _ | otps'
    · rw [State.insertOTP, hinsert] at hotps
      rw [hotps]
      exact .inr (.refl _)
    · rw [State.insertOTP, hinsert] at hotps
      subst hotps
      exact .inl ⟨_, hinsert⟩
  | exhausted _ _ _ hotps | used _ _ hotps | usedAll _ _ hotps | dropped _ _ hotps =>
    rw [hotps]
    exact .inr (.deleteWhere _ _)

theorem Pruned.get_eq_none {otps otps' : Table String Otp} (h : Pruned otps.rows otps'.rows)
    {id : String} (hnone : otps.get id = none) : otps'.get id = none := by
  obtain ⟨keep, f, hf, hrows⟩ := h
  rw [Table.get_eq_none_iff] at hnone ⊢
  intro hmem
  rw [hrows, List.map_map] at hmem
  obtain ⟨row, hrow, hid⟩ := List.mem_map.mp hmem
  refine hnone (List.mem_map.mpr ⟨row, List.mem_of_mem_filter hrow, ?_⟩)
  rw [← hid]
  exact (hf row).1.symm

/-- Where rows only go all together, the latest row was the latest row before. -/
theorem Pruned.selectOTP {s s' : State} (h : Pruned s.otps.rows s'.otps.rows)
    {recipient purpose : String} {row' : String × Otp}
    (hselect : s'.selectOTP recipient purpose = some row')
    (hgone : ∀ row ∈ s.otps.rows, s'.otps.get row.1 = none →
      s'.selectOTP row.2.recipient row.2.purpose = none) :
    ∃ row, s.selectOTP recipient purpose = some row ∧ row.1 = row'.1 := by
  obtain ⟨keep, f, hf, hrows⟩ := h
  have hselect' : ((s.otps.rows.filter keep).find? fun row =>
      row.2.isFor recipient purpose).map f = some row' := by
    rw [← hselect, selectOTP_eq, hrows, List.find?_map]
    congr 2
    funext row
    rw [Function.comp_apply, Otp.isFor, Otp.isFor, (hf row).2.1, (hf row).2.2]
  obtain ⟨kept, hkept, rfl⟩ := Option.map_eq_some_iff.mp hselect'
  have hmatch := List.find?_some hkept
  have hsome : (s.selectOTP recipient purpose).isSome := by
    rw [selectOTP_eq, List.find?_isSome]
    exact ⟨kept, List.mem_of_mem_filter (List.mem_of_find?_eq_some hkept), hmatch⟩
  obtain ⟨row, hrow⟩ := Option.isSome_iff_exists.mp hsome
  have hmem : row ∈ s.otps.rows := List.mem_of_find?_eq_some hrow
  -- the latest row of all is still there, for otherwise none would be left
  have hstored : s'.otps.get row.1 ≠ none := by
    intro hnone
    have hleft := hgone row hmem hnone
    rw [(recipient_of_selectOTP hrow).1, (recipient_of_selectOTP hrow).2, hselect] at hleft
    cases hleft
  have hkeep : keep row := by
    rw [Ne, Table.get_eq_none_iff, not_not, hrows, List.map_map] at hstored
    obtain ⟨other, hother, hid⟩ := List.mem_map.mp hstored
    obtain ⟨hother, hkeep⟩ := List.mem_filter.mp hother
    have hid : other.1 = row.1 := (hf other).1.symm.trans hid
    have hget : s.otps.get row.1 = some other.2 := hid ▸ Table.get_eq_some_iff.mpr hother
    rw [Table.get_eq_some_iff.mpr hmem] at hget
    rwa [← Prod.ext hid (Option.some.inj hget).symm]
  have hfirst : (s.otps.rows.filter keep).find? (fun row =>
      row.2.isFor recipient purpose) = some row :=
    Table.find?_filter_of_find? hrow hkeep
  rw [hkept] at hfirst
  refine ⟨row, hrow, ?_⟩
  rw [(hf kept).1, Option.some.inj hfirst]

/-- Where a deletion takes the rows of a recipient and a purpose all together, nothing is left for
those of a row that is gone. -/
theorem selectOTP_eq_none_of_deleteWhere {s s' : State} {p : String → Otp → Bool}
    (hotps : s'.otps = s.otps.deleteWhere p) {row : String × Otp} (hrow : row ∈ s.otps.rows)
    (hnone : s'.otps.get row.1 = none)
    (hall : p row.1 row.2 → ∀ other ∈ s.otps.rows, other.2.recipient = row.2.recipient →
      other.2.purpose = row.2.purpose → p other.1 other.2) :
    s'.selectOTP row.2.recipient row.2.purpose = none := by
  have hdeleted : p row.1 row.2 := by
    rw [hotps, Table.get_deleteWhere, Table.get_eq_some_iff.mpr hrow] at hnone
    simpa using hnone
  rw [selectOTP_eq, hotps, List.find?_eq_none]
  intro other hother hfor
  obtain ⟨hother, hkept⟩ := List.mem_filter.mp hother
  simp only [Otp.isFor, Bool.and_eq_true, decide_eq_true_eq] at hfor
  rw [hall hdeleted other hother hfor.1 hfor.2] at hkept
  cases hkept

theorem Sole.selectOTP_eq_none {s s' : State} {gone row : String × Otp} (hsole : Sole s gone)
    (hgone : s.otps.get gone.1 = some gone.2) (hotps : s'.otps = s.otps.delete gone.1)
    (hrow : row ∈ s.otps.rows) (hnone : s'.otps.get row.1 = none) :
    s'.selectOTP row.2.recipient row.2.purpose = none := by
  refine selectOTP_eq_none_of_deleteWhere hotps hrow hnone fun hdeleted other hother hto hfor => ?_
  have hid : row.1 = gone.1 := of_decide_eq_true hdeleted
  have hsame : row.2 = gone.2 := by
    rw [← hid, Table.get_eq_some_iff.mpr hrow] at hgone
    exact Option.some.inj hgone
  rw [hsame] at hto hfor
  exact decide_eq_true (hsole other hother hto hfor)

/-- On a state where the request retires what it deletes, a row only goes with all others for its
recipient and purpose. -/
theorem Retires.selectOTP_eq_none {w : World} {call : Call} {request : Request}
    (hretires : Retires env w (.serve call request)) {row : String × Otp}
    (hrow : row ∈ w.state.otps.rows)
    (hnone : (serve env call request w.state).2.otps.get row.1 = none) :
    (serve env call request w.state).2.selectOTP row.2.recipient row.2.purpose = none := by
  have hstored : w.state.otps.get row.1 = some row.2 := Table.get_eq_some_iff.mpr hrow
  cases serve_codes env call w.state request with
  | untouched _ _ hotps =>
    rw [hotps, hstored] at hnone
    cases hnone
  | exhausted _ hselect _ hotps hchecks hlimit =>
    have hother := Table.get_eq_some_iff.mp hselect.get
    exact (hretires.2 hchecks _ hother hlimit).selectOTP_eq_none hselect.get hotps hrow hnone
  | wrong _ _ _ hotps =>
    rw [hotps, State.countAttempt, Table.get_update] at hnone
    split_ifs at hnone <;> simp [hstored] at hnone
  | @used made hattempt _ hotps hone =>
    exact ((hretires.1 made hattempt).2 hone).selectOTP_eq_none (attempt_spec hattempt).1.get
      hotps hrow hnone
  | usedAll _ _ hotps =>
    refine selectOTP_eq_none_of_deleteWhere hotps hrow hnone fun hdeleted _ _ hto hfor => ?_
    rw [hto, hfor]
    exact hdeleted
  | @sent recipient purpose ttl _ _ hotps =>
    cases hinsert : w.state.otps.insert call.newOTPID
        ⟨recipient, env.hashCode call.newCode, purpose, 0, w.state.now + ttl⟩ with
    | none =>
      rw [hotps, State.insertOTP, hinsert, Option.getD_none, hstored] at hnone
      cases hnone
    | some otps =>
      rw [hotps, State.insertOTP, hinsert, Option.getD_some,
        Table.get_insert_of_get hinsert hstored] at hnone
      cases hnone
  | dropped _ _ hotps =>
    refine selectOTP_eq_none_of_deleteWhere hotps hrow hnone fun hdeleted _ _ hto _ => ?_
    rw [hto]
    exact hdeleted

/-! ## Runs -/

section serve

variable {start : State} {call : Call} {s : State} {request : Request} {r : Reply}
  {recipient purpose : String}

theorem issues_of_insert {otp : Otp}
    (hinsert : s.otps.insert call.newOTPID otp = some (serve env call request s).2.otps) :
    (⟨s, call, request, r⟩ : Served).issues env recipient purpose =
      otp.isFor recipient purpose := by
  unfold Served.issues
  rw [Table.get_eq_none_of_insert hinsert, Table.get_insert hinsert, if_pos rfl]
  rfl

theorem issues_of_pruned (hpruned : Pruned s.otps.rows (serve env call request s).2.otps.rows) :
    (⟨s, call, request, r⟩ : Served).issues env recipient purpose = false := by
  unfold Served.issues
  cases hget : s.otps.get call.newOTPID with
  | none =>
    rw [hpruned.get_eq_none hget, Option.any_none, Bool.and_false]
  | some otp => rfl

theorem latestIssued_cons {served : Served} (h : served.issues env recipient purpose = false)
    (earlier : List Served) :
    latestIssued env start recipient purpose (served :: earlier) =
      latestIssued env start recipient purpose earlier :=
  if_neg (Bool.eq_false_iff.mp h)

/-- The row that is selected stays the one issued last. -/
theorem Latest.serve {w : World} (hlatest : Latest env start w)
    (hretires : Retires env w (.serve call request)) :
    Latest env start (w.serve env call request) := by
  intro recipient purpose row hselect
  rcases (serve_codes env call w.state request).inserts_or_pruned with ⟨otp, hinsert⟩ | hpruned
  · have hselect : ((call.newOTPID, otp) :: w.state.otps.rows).find? (fun row =>
        row.2.isFor recipient purpose) = some row := by
      rw [← Table.rows_insert hinsert]
      exact hselect
    by_cases hsame : otp.isFor recipient purpose
    · -- the new row is the latest, and it was issued last
      rw [List.find?_cons_of_pos (by exact hsame)] at hselect
      cases hselect
      exact if_pos ((issues_of_insert hinsert).trans hsame)
    · rw [List.find?_cons_of_neg (by exact hsame)] at hselect
      rw [Bool.not_eq_true] at hsame
      exact (latestIssued_cons ((issues_of_insert hinsert).trans hsame) w.log).trans
        (hlatest recipient purpose row hselect)
  · obtain ⟨old, hold, hid⟩ := hpruned.selectOTP hselect fun _ => hretires.selectOTP_eq_none
    rw [← hid]
    exact (latestIssued_cons (issues_of_pruned hpruned) w.log).trans
      (hlatest recipient purpose old hold)

/-- An accepted code belongs to the selected row. -/
theorem LatestAccepted.serve {w : World} (hlatest : Latest env start w)
    (hretires : Retires env w (.serve call request))
    (haccepted : LatestAccepted env start w.log) :
    LatestAccepted env start (w.serve env call request).log :=
  AcceptedOnly.serve haccepted fun made hattempt _ =>
    hlatest _ _ _ (hretires.1 made hattempt).1

end serve

end latest

/-! ## An old code that comes back -/

/-- Two codes for the same thing, the second a minute after the first. -/
def sentTwice (request : Request) : World :=
  ((sampleWorld.serve sampleEnv (sampleCall "0") request).later 61).serve sampleEnv
    (sampleCall "1") request

theorem run_sentTwice {allowed : World → Event → Prop} {request : Request}
    (hfirst : allowed sampleWorld (.serve (sampleCall "0") request))
    (htick : allowed (sampleWorld.serve sampleEnv (sampleCall "0") request) (.tick 61))
    (hsecond : allowed ((sampleWorld.serve sampleEnv (sampleCall "0") request).later 61)
      (.serve (sampleCall "1") request)) :
    Runs.Run (World.step sampleEnv) allowed ⟨sampleWorld.state, []⟩ (sentTwice request) :=
  World.run_serve sampleEnv ((World.run_serve sampleEnv .refl hfirst).step htick rfl) hsecond

/-- The verification of an address with the newer of two codes, which takes the older one along. -/
def verified : World :=
  (sentTwice (.requestEmailVerification "v@x")).serve sampleEnv (sampleCall "2")
    (.confirmEmailVerification (some ⟨"v@x", "c1"⟩))

/-- A sign-in with the newer of two codes, which leaves the older one. -/
def newerUsed : World :=
  (sentTwice (.sendOTP (some ⟨"w@x", ""⟩))).serve sampleEnv (sampleCall "2")
    (.verifyOTP (some ⟨"w@x", "c1", ""⟩))

end Layr.Auth

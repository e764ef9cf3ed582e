import Mathlib.Logic.Basic

/-!
# Programs of atomic statements

A program works on a state that it shares with others. It takes one statement after the other,
each of them in one step, and ends with a value or with a reply that stops it early. Run alone, it
is described by its weakest precondition. Some statements carry a tag for those who watch it run.
-/

namespace Layr

inductive Prog (σ τ ρ α : Type)
  | ret (a : α)
  | reply (r : ρ)
  | step (tag : Option τ) (update : σ → σ) (next : σ → Prog σ τ ρ α)

namespace Prog

variable {σ τ ρ α β : Type}

protected def bind : Prog σ τ ρ α → (α → Prog σ τ ρ β) → Prog σ τ ρ β
  | ret a, f => f a
  | reply r, _ => reply r
  | step tag update next, f => step tag update fun s => (next s).bind f

instance : Monad (Prog σ τ ρ) where
  pure := ret
  bind := Prog.bind

/-! ## Statements -/

/-- A statement that reads and changes the state. -/
def stmt (f : σ → β × σ) : Prog σ τ ρ β := step none (fun s => (f s).2) fun s => ret (f s).1

/-- A statement that reads. -/
def query (f : σ → β) : Prog σ τ ρ β := step none id fun s => ret (f s)

/-- A statement that reads, with a tag. -/
def look (tag : τ) (f : σ → β) : Prog σ τ ρ β := step (some tag) id fun s => ret (f s)

/-- A statement whose result nobody reads. -/
def change (f : σ → σ) : Prog σ τ ρ Unit := step none f fun _ => ret ()

/-- Stops with the reply unless the condition holds. -/
def ensure (c : Prop) [Decidable c] (r : ρ) : Prog σ τ ρ Unit := if c then ret () else reply r

/-- Stops with the reply unless there is a value. -/
def require (o : Option β) (r : ρ) : Prog σ τ ρ β := o.elim (reply r) ret

/-! ## A program that runs alone -/

/-- The reply of a program that ends with one, and the state it leaves. -/
def answer : Prog σ τ ρ Empty → σ → ρ × σ
  | reply r, s => (r, s)
  | step _ update next, s => (next s).answer (update s)

/-- The reply of a program that has ended with one. -/
def replied : Prog σ τ ρ α → Option ρ
  | reply r => some r
  | _ => none

theorem eq_reply_of_replied {p : Prog σ τ ρ α} {r : ρ} (h : p.replied = some r) : p = reply r := by
  cases p with
  | reply r' => rw [Option.some.inj h]
  | ret | step => cases h

/-- The states from which the program, run alone, ends with a value that meets `Q` or with a
reply that meets `E`. -/
def wp (Q : α → σ → Prop) (E : ρ → σ → Prop) : Prog σ τ ρ α → σ → Prop
  | ret a, s => Q a s
  | reply r, s => E r s
  | step _ update next, s => (next s).wp Q E (update s)

section rules

variable {Q : α → σ → Prop} {E E' : ρ → σ → Prop} {s : σ}

@[simp] theorem wp_pure (a : α) : (pure a : Prog σ τ ρ α).wp Q E s ↔ Q a s := Iff.rfl

@[simp] theorem wp_reply (r : ρ) : (reply r : Prog σ τ ρ α).wp Q E s ↔ E r s := Iff.rfl

@[simp] theorem wp_bind {Q : β → σ → Prop} (p : Prog σ τ ρ α) (f : α → Prog σ τ ρ β) :
    (p >>= f).wp Q E s ↔ p.wp (fun a s' => (f a).wp Q E s') E s := by
  induction p generalizing s with
  | ret a | reply r => exact Iff.rfl
  | step tag update next ih => exact ih s

@[simp] theorem wp_stmt (f : σ → α × σ) :
    (stmt f : Prog σ τ ρ α).wp Q E s ↔ Q (f s).1 (f s).2 := Iff.rfl

@[simp] theorem wp_query (f : σ → α) : (query f : Prog σ τ ρ α).wp Q E s ↔ Q (f s) s := Iff.rfl

@[simp] theorem wp_look (tag : τ) (f : σ → α) :
    (look tag f : Prog σ τ ρ α).wp Q E s ↔ Q (f s) s := Iff.rfl

@[simp] theorem wp_change {Q : Unit → σ → Prop} (f : σ → σ) :
    (change f : Prog σ τ ρ Unit).wp Q E s ↔ Q () (f s) := Iff.rfl

@[simp] theorem wp_ite (c : Prop) [Decidable c] (p q : Prog σ τ ρ α) :
    (if c then p else q).wp Q E s ↔ (c → p.wp Q E s) ∧ (¬c → q.wp Q E s) := by
  by_cases h : c <;> simp [h]

@[simp] theorem wp_ensure {Q : Unit → σ → Prop} (c : Prop) [Decidable c] (r : ρ) :
    (ensure c r : Prog σ τ ρ Unit).wp Q E s ↔ (c → Q () s) ∧ (¬c → E r s) :=
  wp_ite c (ret ()) (reply r)

@[simp] theorem wp_elim (o : Option β) (p : Prog σ τ ρ α) (f : β → Prog σ τ ρ α) :
    (o.elim p f).wp Q E s ↔ (o = none → p.wp Q E s) ∧ ∀ b, o = some b → (f b).wp Q E s := by
  cases o <;> simp

@[simp] theorem wp_require (o : Option α) (r : ρ) :
    (require o r : Prog σ τ ρ α).wp Q E s ↔ (o = none → E r s) ∧ ∀ a, o = some a → Q a s :=
  wp_elim o (reply r) ret

theorem wp_ensure_bind {Q : β → σ → Prop} {c : Prop} [Decidable c] {r : ρ}
    {f : Unit → Prog σ τ ρ β} :
    (ensure c r >>= f).wp Q E s ↔ (c → (f ()).wp Q E s) ∧ (¬c → E r s) := by
  rw [wp_bind, wp_ensure]

theorem wp_require_bind {Q : β → σ → Prop} {o : Option α} {r : ρ} {f : α → Prog σ τ ρ β} :
    (require o r >>= f).wp Q E s ↔
      (o = none → E r s) ∧ ∀ a, o = some a → (f a).wp Q E s := by
  rw [wp_bind, wp_require]

theorem wp_query_bind {Q : β → σ → Prop} {f : σ → α} {g : α → Prog σ τ ρ β} :
    (query f >>= g).wp Q E s ↔ (g (f s)).wp Q E s := by
  rw [wp_bind, wp_query]

/-- The weakest precondition of a program that ends with a reply. -/
theorem wp_iff_answer {p : Prog σ τ ρ Empty} {Q : Empty → σ → Prop} :
    p.wp Q E s ↔ E (p.answer s).1 (p.answer s).2 := by
  induction p generalizing s with
  | ret a => exact a.elim
  | reply r => exact Iff.rfl
  | step tag update next ih => exact ih s

/-- A program is evaluated by its weakest preconditions. -/
theorem answer_eq_of_wp {p : Prog σ τ ρ Empty} {Q : Empty → σ → Prop} {x : ρ × σ}
    (h : p.wp Q (fun r s' => (r, s') = x) s) : p.answer s = x := wp_iff_answer.mp h

end rules

/-! ## Programs that leave a part of the state alone -/

/-- No statement of the program changes what `view` shows of the state. -/
def Keeps {κ : Type} (view : σ → κ) : Prog σ τ ρ α → Prop
  | ret _ => True
  | reply _ => True
  | step _ update next => (∀ s, view (update s) = view s) ∧ ∀ s, (next s).Keeps view

section

variable {κ γ : Type} {view : σ → κ} (f : α → Prog σ τ ρ β)

theorem bind_assoc (p : Prog σ τ ρ γ) (g : γ → Prog σ τ ρ α) :
    p >>= g >>= f = p >>= fun c => g c >>= f := by
  induction p with
  | ret c => rfl
  | reply r => rfl
  | step tag update next ih => exact congrArg (step tag update) (funext ih)

theorem keeps_step {tag : Option τ} {update : σ → σ} {next : σ → Prog σ τ ρ α} :
    (step tag update next).Keeps view ↔
      (∀ s, view (update s) = view s) ∧ ∀ s, (next s).Keeps view := Iff.rfl

@[simp] theorem keeps_reply (r : ρ) : (reply r : Prog σ τ ρ α).Keeps view := trivial

@[simp] theorem keeps_reply_bind (r : ρ) : (reply r >>= f).Keeps view := trivial

@[simp] theorem keeps_pure_bind (a : α) : (pure a >>= f).Keeps view ↔ (f a).Keeps view := Iff.rfl

@[simp] theorem keeps_stmt (g : σ → α × σ) : (stmt g >>= f).Keeps view ↔
    (∀ s, view (g s).2 = view s) ∧ ∀ s, (f (g s).1).Keeps view := Iff.rfl

@[simp] theorem keeps_query (g : σ → α) :
    (query g >>= f).Keeps view ↔ ∀ s, (f (g s)).Keeps view :=
  and_iff_right fun _ => rfl

@[simp] theorem keeps_look (tag : τ) (g : σ → α) :
    (look tag g >>= f).Keeps view ↔ ∀ s, (f (g s)).Keeps view :=
  and_iff_right fun _ => rfl

@[simp] theorem keeps_change (f : Unit → Prog σ τ ρ β) (g : σ → σ) :
    (change g >>= f).Keeps view ↔ (∀ s, view (g s) = view s) ∧ ∀ _ : σ, (f ()).Keeps view := Iff.rfl

@[simp] theorem keeps_ite (c : Prop) [Decidable c] (p q : Prog σ τ ρ α) :
    (if c then p else q).Keeps view ↔ (c → p.Keeps view) ∧ (¬c → q.Keeps view) := by
  by_cases h : c <;> simp [h]

@[simp] theorem keeps_elim (o : Option γ) (p : Prog σ τ ρ α) (g : γ → Prog σ τ ρ α) :
    (o.elim p g).Keeps view ↔ (o = none → p.Keeps view) ∧ ∀ c, o = some c → (g c).Keeps view := by
  cases o <;> simp

@[simp] theorem keeps_elim_bind (o : Option γ) (p : Prog σ τ ρ α) (g : γ → Prog σ τ ρ α) :
    (o.elim p g >>= f).Keeps view ↔
      (o = none → (p >>= f).Keeps view) ∧ ∀ c, o = some c → (g c >>= f).Keeps view := by
  cases o <;> simp

@[simp] theorem keeps_ensure (f : Unit → Prog σ τ ρ β) (c : Prop) [Decidable c] (r : ρ) :
    (ensure c r >>= f).Keeps view ↔ (c → (f ()).Keeps view) := by
  unfold ensure
  by_cases h : c
  · rw [if_pos h, forall_prop_of_true h]
    rfl
  · simp [h]

@[simp] theorem keeps_require (o : Option α) (r : ρ) :
    (require o r >>= f).Keeps view ↔ ∀ a, o = some a → (f a).Keeps view := by
  cases o with
  | none => simp [require]
  | some a => exact ⟨fun h b heq => Option.some.inj heq ▸ h, fun h => h a rfl⟩

end

section

variable {κ : Type} {view : σ → κ}

/-- Such a program ends with the view that it began with. -/
theorem Keeps.wp {p : Prog σ τ ρ Empty} {Q : Empty → σ → Prop} {E : ρ → σ → Prop} {s : σ}
    (hp : p.Keeps view) (hE : ∀ r s', view s' = view s → E r s') : p.wp Q E s := by
  induction p generalizing s with
  | ret a => exact a.elim
  | reply r => exact hE r s rfl
  | step tag update next ih =>
    exact ih s (hp.2 s) fun r s' hview => hE r s' (hview.trans (hp.1 s))

theorem Keeps.answer {p : Prog σ τ ρ Empty} (hp : p.Keeps view) (s : σ) :
    view (p.answer s).2 = view s :=
  have hwp : p.wp (fun _ _ => True) (fun _ s' => view s' = view s) s := hp.wp fun _ _ h => h
  wp_iff_answer.mp hwp

end

-- programs are taken apart by the rules only
attribute [irreducible] wp Keeps

end Prog

end Layr

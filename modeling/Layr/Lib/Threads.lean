import Layr.Lib.Programs
import Layr.Lib.Runs

/-!
# Things that are to be used once

Programs that run at the same time share a store, and their statements interleave in any order.
Some of them use up a thing in the store: a statement of theirs finds it, later ones take it out,
and the reply says whether the program went on with it. As long as no program finds the thing
while another one that has found it is still at work, at most one program goes on with it.
-/

namespace Layr

/-- A thing in a store that programs are to use once: which tagged statements find it, which
states are without it for good, which replies are those of a program that went on with it, and
the condition that the tagged statements are taken under. States only move on by `later`. -/
structure OneShot (σ τ ρ : Type) where
  finds : τ → σ → Bool
  gone : σ → Prop
  passes : ρ → Prop
  may : τ → σ → Prop
  later : σ → σ → Prop
  later_refl : ∀ s, later s s
  later_trans : ∀ {s s' s''}, later s s' → later s' s'' → later s s''
  gone_later : ∀ {s s'}, gone s → later s s' → gone s'
  not_finds : ∀ {tag s}, gone s → finds tag s = false

namespace OneShot

variable {σ τ ρ α β : Type} (a : OneShot σ τ ρ)

/-! ## What one program does -/

/-- A program that goes on with the thing has found it and has taken it out. -/
def Uses (found : Bool) (r : ρ) (s : σ) : Prop := a.passes r → found ∧ a.gone s

/-- A request that may use the thing: when others move the state on between its statements, it
moves it on itself, and ends with a reply that goes on with the thing only if it has found it and
taken it out; `found` says whether it has found it. -/
def SafeRequest : Prog σ τ ρ Empty → Bool → σ → Prop
  | .ret x, _, _ => x.elim
  | .reply r, found, s => a.Uses found r s
  | .step tag update next, found, s =>
    ∀ s', a.later s s' → (∀ t, tag = some t → a.may t s') →
      a.later s' (update s') ∧
        SafeRequest (next s') (found || tag.any fun t => a.finds t s') (update s')

namespace SafeRequest

variable {a} {f : α → Prog σ τ ρ Empty} {found : Bool} {s : σ}

theorem ensure {c : Prop} [Decidable c] {r : ρ} {f : Unit → Prog σ τ ρ Empty}
    (hr : ¬a.passes r) (h : c → a.SafeRequest (f ()) found s) :
    a.SafeRequest (Prog.ensure c r >>= f) found s := by
  unfold Prog.ensure
  split
  · next hc => exact h hc
  · exact fun hpasses => absurd hpasses hr

theorem require {o : Option α} {r : ρ} (hr : ¬a.passes r)
    (h : ∀ x, o = some x → a.SafeRequest (f x) found s) :
    a.SafeRequest (Prog.require o r >>= f) found s := by
  cases o with
  | none => exact fun hpasses => absurd hpasses hr
  | some x => exact h x rfl

theorem query {g : σ → α} (h : ∀ s', a.later s s' → a.SafeRequest (f (g s')) found s') :
    a.SafeRequest (Prog.query g >>= f) found s := by
  intro s' hlater _
  rw [Option.any_none, Bool.or_false]
  exact ⟨a.later_refl s', h s' hlater⟩

theorem look {tag : τ} {g : σ → α}
    (h : ∀ s', a.later s s' → a.may tag s' →
      a.SafeRequest (f (g s')) (found || a.finds tag s') s') :
    a.SafeRequest (Prog.look tag g >>= f) found s :=
  fun s' hlater hmay => ⟨a.later_refl s', h s' hlater (hmay tag rfl)⟩

theorem stmt {g : σ → α × σ} (hmoves : ∀ s', a.later s' (g s').2)
    (h : ∀ s', a.later s s' → a.SafeRequest (f (g s').1) found (g s').2) :
    a.SafeRequest (Prog.stmt g >>= f) found s := by
  intro s' hlater _
  rw [Option.any_none, Bool.or_false]
  exact ⟨hmoves s', h s' hlater⟩

theorem change {g : σ → σ} {f : Unit → Prog σ τ ρ Empty} (hmoves : ∀ s', a.later s' (g s'))
    (h : ∀ s', a.later s s' → a.SafeRequest (f ()) found (g s')) :
    a.SafeRequest (Prog.change g >>= f) found s := by
  intro s' hlater _
  rw [Option.any_none, Bool.or_false]
  exact ⟨hmoves s', h s' hlater⟩

theorem reply {r : ρ} (hr : ¬a.passes r) : a.SafeRequest (.reply r) found s :=
  fun hpasses => absurd hpasses hr

theorem stop {r : ρ} (hr : ¬a.passes r) :
    a.SafeRequest ((.reply r : Prog σ τ ρ α) >>= f) found s :=
  fun hpasses => absurd hpasses hr

theorem ite {c : Prop} [Decidable c] {p q : Prog σ τ ρ Empty}
    (hp : c → a.SafeRequest p found s) (hq : ¬c → a.SafeRequest q found s) :
    a.SafeRequest (if c then p else q) found s := by
  split
  · next h => exact hp h
  · next h => exact hq h

end SafeRequest

/-! ## Programs that are past the thing -/

/-- All statements of the program move the state on. -/
def Moves : Prog σ τ ρ α → Prop
  | .ret _ => True
  | .reply _ => True
  | .step _ update next => (∀ s, a.later s (update s)) ∧ ∀ s, Moves (next s)

namespace Moves

variable {a}

theorem bind {p : Prog σ τ ρ α} {f : α → Prog σ τ ρ β} (hp : a.Moves p) (hf : ∀ x, a.Moves (f x)) :
    a.Moves (p >>= f) := by
  induction p with
  | ret x => exact hf x
  | reply r => trivial
  | step tag update next ih => exact ⟨hp.1, fun s => ih s (hp.2 s)⟩

theorem stmt {f : σ → α × σ} (h : ∀ s, a.later s (f s).2) :
    a.Moves (Prog.stmt f : Prog σ τ ρ α) := ⟨h, fun _ => trivial⟩

theorem query (f : σ → α) : a.Moves (Prog.query f : Prog σ τ ρ α) :=
  ⟨a.later_refl, fun _ => trivial⟩

theorem change {f : σ → σ} (h : ∀ s, a.later s (f s)) :
    a.Moves (Prog.change f : Prog σ τ ρ Unit) := ⟨h, fun _ => trivial⟩

theorem reply (r : ρ) : a.Moves (.reply r : Prog σ τ ρ α) := trivial

theorem ite {c : Prop} [Decidable c] {p q : Prog σ τ ρ α} (hp : a.Moves p) (hq : a.Moves q) :
    a.Moves (if c then p else q) := by
  split
  · exact hp
  · exact hq

theorem ensure (c : Prop) [Decidable c] (r : ρ) :
    a.Moves (Prog.ensure c r : Prog σ τ ρ Unit) := ite trivial trivial

/-- A program moves the state on where it leaves alone what `later` speaks of. -/
theorem of_keeps {κ : Type} {view : σ → κ} {p : Prog σ τ ρ α} (hp : p.Keeps view)
    (hview : ∀ s s', view s' = view s → a.later s s') : a.Moves p := by
  induction p with
  | ret | reply => trivial
  | step tag update next ih =>
    obtain ⟨hupdate, hnext⟩ := Prog.keeps_step.mp hp
    exact ⟨fun s => hview s _ (hupdate s), fun s => ih s (hnext s)⟩

/-- A program that has found the thing and taken it out may do what it likes with the rest. -/
theorem safe {p : Prog σ τ ρ Empty} {s : σ} (hp : a.Moves p) (hgone : a.gone s) :
    a.SafeRequest p true s := by
  induction p generalizing s with
  | ret x => exact x.elim
  | reply r => exact fun _ => ⟨rfl, hgone⟩
  | step tag update next ih =>
    intro s' hlater _
    exact ⟨hp.1 s', ih s' (hp.2 s') (a.gone_later (a.gone_later hgone hlater) (hp.1 s'))⟩

end Moves

/-! ## Programs side by side -/

/-- The programs that were started, each with the statements it has still to take, and those of
them that have found the thing. -/
structure Pool (σ τ ρ : Type) where
  store : σ
  threads : List (Prog σ τ ρ Empty)
  found : List ℕ

/-- A program starts, or one of them takes its next statement. -/
inductive Move (σ τ ρ : Type)
  | start (p : Prog σ τ ρ Empty)
  | advance (thread : ℕ)

/-- The pool after a statement of a thread. -/
def Pool.after (pool : Pool σ τ ρ) (i : ℕ) (tag : Option τ) (update : σ → σ)
    (next : σ → Prog σ τ ρ Empty) : Pool σ τ ρ where
  store := update pool.store
  threads := pool.threads.set i (next pool.store)
  found := if tag.any fun t => a.finds t pool.store then i :: pool.found else pool.found

def Pool.step (pool : Pool σ τ ρ) : Move σ τ ρ → Option (Pool σ τ ρ)
  | .start p => some { pool with threads := pool.threads ++ [p] }
  | .advance i =>
    match pool.threads[i]? with
    | some (.step tag update next) => some (pool.after a i tag update next)
    | _ => none

/-- The thread has ended. -/
def Pool.ended (pool : Pool σ τ ρ) (i : ℕ) : Prop :=
  match pool.threads[i]? with
  | some (.reply _) => True
  | _ => False

/-- The condition on a statement of a thread: a thread finds the thing only when every other
thread that has found it has ended, and tagged statements meet their own condition. -/
def Pool.mayAdvance (pool : Pool σ τ ρ) (i : ℕ) : Prop :=
  match pool.threads[i]? with
  | some (.step (some tag) _ _) =>
    a.may tag pool.store ∧
      (a.finds tag pool.store → ∀ j ∈ pool.found, j = i ∨ pool.ended j)
  | _ => True

/-- What the moves of a run meet. -/
def Pool.allowed (requests : Prog σ τ ρ Empty → Prop) (pool : Pool σ τ ρ) :
    Move σ τ ρ → Prop
  | .start p => requests p
  | .advance i => pool.mayAdvance a i

/-- Where no program has started yet. -/
def Pool.initial (s : σ) : Pool σ τ ρ := ⟨s, [], []⟩

/-- The thread has ended and did not go on with the thing. -/
def Pool.Spent (pool : Pool σ τ ρ) (i : ℕ) : Prop :=
  ∃ r, pool.threads[i]? = some (.reply r) ∧ ¬a.passes r

structure Pool.Inv (start : σ) (pool : Pool σ τ ρ) : Prop where
  later : a.later start pool.store
  safe : ∀ i p, pool.threads[i]? = some p →
    ∃ s, a.later s pool.store ∧ a.SafeRequest p (decide (i ∈ pool.found)) s
  found_lt : ∀ i ∈ pool.found, i < pool.threads.length
  apart : ∀ i ∈ pool.found, ∀ j ∈ pool.found, i ≠ j → pool.Spent a i ∨ pool.Spent a j

variable {a} {start : σ} {pool pool' : Pool σ τ ρ} {requests : Prog σ τ ρ Empty → Prop}

/-- Where a thread has gone on with the thing, it is gone. -/
theorem Pool.Inv.gone_of_passes (hinv : pool.Inv a start) {i : ℕ} {r : ρ}
    (hthread : pool.threads[i]? = some (.reply r)) (hpasses : a.passes r) :
    i ∈ pool.found ∧ a.gone pool.store := by
  obtain ⟨s, hlater, hsafe⟩ := hinv.safe i _ hthread
  have huses : decide (i ∈ pool.found) ∧ a.gone s := hsafe hpasses
  exact ⟨of_decide_eq_true huses.1, a.gone_later huses.2 hlater⟩

/-- A request that starts has found nothing yet. -/
theorem Pool.Inv.start_step (hinv : pool.Inv a start) {p : Prog σ τ ρ Empty}
    (hsafe : ∀ s, a.later start s → a.SafeRequest p false s) :
    Pool.Inv a start { pool with threads := pool.threads ++ [p] } where
  later := hinv.later
  safe i q hq := by
    rcases Nat.lt_or_ge i pool.threads.length with hlt | hge
    · rw [List.getElem?_append_left hlt] at hq
      exact hinv.safe i q hq
    · -- the new thread has found nothing
      have hnot : i ∉ pool.found := fun hmem => absurd (hinv.found_lt i hmem) (by omega)
      rw [List.getElem?_append_right hge, List.getElem?_eq_some_iff] at hq
      obtain ⟨hlt, hq⟩ := hq
      rw [List.getElem_singleton] at hq
      refine ⟨pool.store, a.later_refl _, ?_⟩
      rw [← hq, show decide (i ∈ pool.found) = false from decide_eq_false hnot]
      exact hsafe _ hinv.later
  found_lt i hi := by
    have := hinv.found_lt i hi
    rw [List.length_append]
    omega
  apart i hi j hj hne := by
    have hkeep : ∀ k ∈ pool.found, pool.Spent a k →
        Pool.Spent a { pool with threads := pool.threads ++ [p] } k := by
      rintro k hk ⟨r, hr, hnot⟩
      exact ⟨r, by rw [List.getElem?_append_left (hinv.found_lt k hk)]; exact hr, hnot⟩
    exact (hinv.apart i hi j hj hne).imp (hkeep i hi) (hkeep j hj)

section advance

variable {i : ℕ} {tag : Option τ} {update : σ → σ} {next : σ → Prog σ τ ρ Empty}

theorem Pool.mem_found_after {j : ℕ} (hne : j ≠ i) :
    j ∈ (pool.after a i tag update next).found ↔ j ∈ pool.found := by
  unfold Pool.after
  dsimp only
  split <;> simp [hne]

theorem Pool.mem_found_after_self :
    i ∈ (pool.after a i tag update next).found ↔
      i ∈ pool.found ∨ (tag.any fun t => a.finds t pool.store) := by
  unfold Pool.after
  dsimp only
  split
  · next hfinds => simp [hfinds]
  · next hfinds => simp [hfinds]

/-- A statement of one thread leaves another that has ended as it is. -/
theorem Pool.Spent.after {j : ℕ} (hne : j ≠ i) (h : pool.Spent a j) :
    (pool.after a i tag update next).Spent a j := by
  obtain ⟨r, hr, hnot⟩ := h
  exact ⟨r, (List.getElem?_set_ne hne.symm).trans hr, hnot⟩

/-- Of two threads that have found the thing, the one that does not move has given it up. -/
theorem Pool.Inv.spent_of_found (hinv : pool.Inv a start)
    (hthread : pool.threads[i]? = some (.step tag update next))
    (halone : (tag.any fun t => a.finds t pool.store) →
      ∀ j ∈ pool.found, j = i ∨ pool.ended j)
    {j : ℕ} (hne : j ≠ i) (hi : i ∈ (pool.after a i tag update next).found)
    (hj : j ∈ pool.found) : pool.Spent a j := by
  rcases Pool.mem_found_after_self.mp hi with hfound | hfinds
  · -- the thread that moves is not at its end
    refine (hinv.apart i hfound j hj hne.symm).resolve_left ?_
    rintro ⟨r, hr, -⟩
    rw [hthread] at hr
    cases hr
  · have hended := (halone hfinds j hj).resolve_left hne
    unfold Pool.ended at hended
    split at hended
    · next r hr =>
      refine ⟨r, hr, fun hpasses => ?_⟩
      -- had it gone on with the thing, there would be nothing left to find
      have hgone := (hinv.gone_of_passes hr hpasses).2
      cases tag with
      | none => cases hfinds
      | some t =>
        rw [Option.any_some, a.not_finds hgone] at hfinds
        cases hfinds
    · exact hended.elim

/-- One statement of one thread, between those of the others. -/
theorem Pool.Inv.advance_step (hinv : pool.Inv a start)
    (hthread : pool.threads[i]? = some (.step tag update next))
    (hmay : ∀ t, tag = some t → a.may t pool.store)
    (halone : (tag.any fun t => a.finds t pool.store) →
      ∀ j ∈ pool.found, j = i ∨ pool.ended j) :
    (pool.after a i tag update next).Inv a start := by
  have hlt : i < pool.threads.length := (List.getElem?_eq_some_iff.mp hthread).1
  obtain ⟨s, hlater, hsafe⟩ := hinv.safe i _ hthread
  obtain ⟨hmoves, hnext⟩ := hsafe pool.store hlater hmay
  refine ⟨a.later_trans hinv.later hmoves, ?_, ?_, ?_⟩
  · intro j p hp
    by_cases hj : j = i
    · subst hj
      obtain rfl : next pool.store = p :=
        Option.some.inj ((List.getElem?_set_self hlt).symm.trans hp)
      refine ⟨_, a.later_refl _, ?_⟩
      rw [decide_eq_decide.mpr Pool.mem_found_after_self, Bool.decide_or, Bool.decide_eq_true]
      exact hnext
    · obtain ⟨s', hlater', hsafe'⟩ :=
        hinv.safe j p ((List.getElem?_set_ne (Ne.symm hj)).symm.trans hp)
      refine ⟨s', a.later_trans hlater' hmoves, ?_⟩
      rwa [decide_eq_decide.mpr (Pool.mem_found_after hj)]
  · intro j hj
    rw [show (pool.after a i tag update next).threads.length = pool.threads.length from
      List.length_set]
    by_cases heq : j = i
    · exact heq ▸ hlt
    · exact hinv.found_lt j ((Pool.mem_found_after heq).mp hj)
  · intro j hj k hk hne
    by_cases hji : j = i
    · subst hji
      have hkfound := (Pool.mem_found_after hne.symm).mp hk
      exact .inr (.after hne.symm (hinv.spent_of_found hthread halone hne.symm hj hkfound))
    · have hjfound := (Pool.mem_found_after hji).mp hj
      by_cases hki : k = i
      · subst hki
        exact .inl (.after hji (hinv.spent_of_found hthread halone hji hk hjfound))
      · have hkfound := (Pool.mem_found_after hki).mp hk
        exact (hinv.apart j hjfound k hkfound hne).imp (.after hji) (.after hki)

end advance

theorem Pool.Inv.step (hinv : pool.Inv a start)
    (hsafe : ∀ p, requests p → ∀ s, a.later start s → a.SafeRequest p false s) {move : Move σ τ ρ}
    (hallowed : pool.allowed a requests move) (hstep : pool.step a move = some pool') : pool'.Inv a
    start := by
  cases move with
  | start p =>
    cases hstep
    exact hinv.start_step (hsafe p hallowed)
  | advance i =>
    simp only [Pool.step] at hstep
    split at hstep
    · next tag update next hthread =>
      cases hstep
      simp only [Pool.allowed, Pool.mayAdvance, hthread] at hallowed
      apply hinv.advance_step hthread
      · rintro t rfl
        exact hallowed.1
      · intro hfinds
        cases tag with
        | none => simp at hfinds
        | some t => exact hallowed.2 (by simpa using hfinds)
    · cases hstep

/-- As long as no program finds the thing while another that has found it is at work, at most one
program goes on with it. -/
theorem passes_unique (hsafe : ∀ p, requests p → ∀ s, a.later start s → a.SafeRequest p false s)
    (hrun : Runs.Run (Pool.step a) (Pool.allowed a requests) (.initial start) pool) {i j : ℕ}
    {r r' : ρ} (hi : pool.threads[i]? = some (.reply r)) (hpasses : a.passes r)
    (hj : pool.threads[j]? = some (.reply r')) (hpasses' : a.passes r') : i = j := by
  have hstart : (Pool.initial start).Inv a start :=
    ⟨a.later_refl _, by simp [Pool.initial], by simp [Pool.initial], by simp [Pool.initial]⟩
  have hinv : pool.Inv a start := hrun.invariant hstart
    fun _ _ _ hinv hallowed hstep => hinv.step hsafe hallowed hstep
  by_contra hne
  rcases hinv.apart i (hinv.gone_of_passes hi hpasses).1 j (hinv.gone_of_passes hj hpasses').1 hne
    with ⟨q, hq, hnot⟩ | ⟨q, hq, hnot⟩
  · obtain rfl : r = q := by
      rw [hi] at hq
      exact (Prog.reply.inj (Option.some.inj hq))
    exact hnot hpasses
  · obtain rfl : r' = q := by
      rw [hj] at hq
      exact (Prog.reply.inj (Option.some.inj hq))
    exact hnot hpasses'

/-- Behind programs that have all ended, a program that runs on its own comes to its answer. -/
theorem Pool.run_rest (hmay : ∀ tag s, a.may tag s) {replies : List ρ} {p : Prog σ τ ρ Empty}
    {s : σ} {found : List ℕ} (hfound : ∀ j ∈ found, j ≤ replies.length)
    (hrun : Runs.Run (Pool.step a) (Pool.allowed a requests) (.initial start)
      ⟨s, replies.map .reply ++ [p], found⟩) :
    ∃ found', (∀ j ∈ found', j ≤ replies.length) ∧
      Runs.Run (Pool.step a) (Pool.allowed a requests) (.initial start)
        ⟨(p.answer s).2, replies.map .reply ++ [.reply (p.answer s).1], found'⟩ := by
  induction p generalizing s found with
  | ret x => exact x.elim
  | reply r => exact ⟨found, hfound, hrun⟩
  | step tag update next ih =>
    have hthread : (replies.map Prog.reply ++ [Prog.step tag update next])[replies.length]? =
        some (.step tag update next) := by simp
    have hended : ∀ j ∈ found, j = replies.length ∨
        Pool.ended ⟨s, replies.map .reply ++ [.step tag update next], found⟩ j := by
      intro j hj
      rcases Nat.eq_or_lt_of_le (hfound j hj) with heq | hlt
      · exact .inl heq
      · exact .inr (by simp [Pool.ended, List.getElem?_append_left, hlt])
    have hallowed : Pool.allowed a requests
        ⟨s, replies.map .reply ++ [.step tag update next], found⟩ (.advance replies.length) := by
      simp only [Pool.allowed, Pool.mayAdvance, hthread]
      cases tag with
      | none => trivial
      | some t => exact ⟨hmay t s, fun _ => hended⟩
    refine ih s (fun j hj => ?_) (hrun.step hallowed (by simp [Pool.step, Pool.after]; rfl))
    split at hj
    · exact (List.mem_cons.mp hj).elim Nat.le_of_eq (hfound j)
    · exact hfound j hj

/-- When all programs have ended, the next one may start and run to its answer. -/
theorem Pool.run_next (hmay : ∀ tag s, a.may tag s) {replies : List ρ} {p : Prog σ τ ρ Empty}
    (hp : requests p) {s : σ} {found : List ℕ} (hfound : ∀ j ∈ found, j < replies.length)
    (hrun : Runs.Run (Pool.step a) (Pool.allowed a requests) (.initial start)
      ⟨s, replies.map .reply, found⟩) :
    ∃ found', (∀ j ∈ found', j < (replies ++ [(p.answer s).1]).length) ∧
      Runs.Run (Pool.step a) (Pool.allowed a requests) (.initial start)
        ⟨(p.answer s).2, (replies ++ [(p.answer s).1]).map .reply, found'⟩ := by
  have hallowed : Pool.allowed a requests ⟨s, replies.map .reply, found⟩ (.start p) := hp
  obtain ⟨found', hfound', hrun'⟩ := Pool.run_rest hmay (p := p)
    (fun j hj => Nat.le_of_lt (hfound j hj)) (hrun.step hallowed rfl)
  refine ⟨found', fun j hj => ?_, by simpa using hrun'⟩
  rw [List.length_append, List.length_singleton]
  exact Nat.lt_succ_of_le (hfound' j hj)

-- programs are taken apart by the rules only
attribute [irreducible] SafeRequest Moves

end OneShot

end Layr

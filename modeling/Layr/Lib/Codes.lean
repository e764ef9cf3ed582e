import Mathlib.Data.List.Basic

/-!
# Codes that can be read from the front

A word can be told from what follows it when that starts with a stop symbol the word does not
hold, or when its letters are written by a prefix code and closed by a symbol that starts none.
Texts built from such words are injective, one word after the other.
-/

namespace Layr.Codes

variable {α σ : Type}

variable {xs ys : List α} {w r s : List σ} {code : α → List σ} {sep : σ} {stop : σ → Prop}

/-- Empty, or starting with a stop symbol. -/
def Stops (stop : σ → Prop) (rest : List σ) : Prop := ∀ c, rest.head? = some c → stop c

theorem stops_nil (stop : σ → Prop) : Stops stop [] := by
  intro c hc
  cases hc

theorem stops_cons {c : σ} (h : stop c) (rest : List σ) : Stops stop (c :: rest) := by
  intro c' hc'
  cases hc'
  exact h

theorem not_stops_append (hne : w ≠ []) (hw : ∀ c ∈ w, ¬stop c) (r : List σ) :
    ¬Stops stop (w ++ r) := by
  intro h
  cases w with
  | nil => exact hne rfl
  | cons c w => exact hw c (by simp) (h c rfl)

/-- Words without stop symbols end where the first stop symbol stands. -/
theorem append_inj_of_stops {v : List σ} (hv : ∀ c ∈ v, ¬stop c) (hw : ∀ c ∈ w, ¬stop c)
    (hr : Stops stop r) (hs : Stops stop s) (h : v ++ r = w ++ s) : v = w ∧ r = s := by
  induction v generalizing w with
  | nil =>
    cases w with
    | nil => exact ⟨rfl, h⟩
    | cons c w =>
      have hstop : stop c := hr c (by rw [List.nil_append] at h; simp [h])
      exact absurd hstop (hw c (by simp))
  | cons c v ih =>
    cases w with
    | nil =>
      have hstop : stop c := hs c (by rw [List.nil_append] at h; simp [← h])
      exact absurd hstop (hv c (by simp))
    | cons d w =>
      rw [List.cons_append, List.cons_append, List.cons.injEq] at h
      have htail := ih (fun x hx => hv x (by simp [hx])) (fun x hx => hw x (by simp [hx])) h.2
      exact ⟨by rw [h.1, htail.1], htail.2⟩

/-- Words that do not hold the separator behind them. -/
theorem append_cons_inj {v : List σ} (hv : sep ∉ v) (hw : sep ∉ w)
    (h : v ++ sep :: r = w ++ sep :: s) : v = w ∧ r = s := by
  have hstops : ∀ rest : List σ, Stops (fun c => c = sep) (sep :: rest) := by
    intro rest
    apply stops_cons
    rfl
  have hword : ∀ {u : List σ}, sep ∉ u → ∀ c ∈ u, ¬c = sep := by
    rintro u hu c hc rfl
    exact hu hc
  have hparts := append_inj_of_stops (hword hv) (hword hw) (hstops r) (hstops s) h
  exact ⟨hparts.1, (List.cons.inj hparts.2).2⟩

/-- A text whose letters are written by a prefix code and which is closed by a symbol that starts
no letter. -/
theorem flatMap_append_cons_inj {close : σ}
    (hcode : ∀ a b r s, code a ++ r = code b ++ s → a = b ∧ r = s)
    (hclose : ∀ a r s, code a ++ r ≠ close :: s)
    (h : xs.flatMap code ++ close :: r = ys.flatMap code ++ close :: s) : xs = ys ∧ r = s := by
  induction xs generalizing ys with
  | nil =>
    cases ys with
    | nil =>
      simp only [List.flatMap_nil, List.nil_append, List.cons.injEq, true_and] at h
      exact ⟨rfl, h⟩
    | cons y ys =>
      rw [List.flatMap_cons, List.append_assoc] at h
      exact absurd h.symm (hclose y _ _)
  | cons x xs ih =>
    cases ys with
    | nil =>
      rw [List.flatMap_cons, List.append_assoc] at h
      exact absurd h (hclose x _ _)
    | cons y ys =>
      rw [List.flatMap_cons, List.flatMap_cons, List.append_assoc, List.append_assoc] at h
      obtain ⟨hhead, hrest⟩ := hcode x y _ _ h
      obtain ⟨htail, hend⟩ := ih hrest
      exact ⟨by rw [hhead, htail], hend⟩

/-- The words of a list, with a separator between them. -/
def joined (sep : σ) (code : α → List σ) : List α → List σ
  | [] => []
  | [a] => code a
  | a :: b :: as => code a ++ sep :: joined sep code (b :: as)

/-- What follows the first word of a list. -/
def behind (sep : σ) (code : α → List σ) (as : List α) (r : List σ) : List σ :=
  if as.isEmpty then r else sep :: joined sep code as ++ r

theorem joined_cons_append (sep : σ) (code : α → List σ) (a : α) (as : List α) (r : List σ) :
    joined sep code (a :: as) ++ r = code a ++ behind sep code as r := by
  cases as with
  | nil => rfl
  | cons b as => simp [joined, behind]

theorem joined_map {β : Type} (sep : σ) (code : β → List σ) (f : α → β) (as : List α) :
    joined sep code (as.map f) = joined sep (fun a => code (f a)) as := by
  induction as with
  | nil => rfl
  | cons a as ih =>
    cases as with
    | nil => rfl
    | cons b as =>
      rw [List.map_cons, List.map_cons, joined, joined, ← List.map_cons, ih]

theorem mem_joined {as : List α} {c : σ} (h : c ∈ joined sep code as) :
    c = sep ∨ ∃ a ∈ as, c ∈ code a := by
  induction as with
  | nil => cases h
  | cons a as ih =>
    cases as with
    | nil => exact .inr ⟨a, by simp, h⟩
    | cons b as =>
      rw [joined, List.mem_append, List.mem_cons] at h
      rcases h with h | h | h
      · exact .inr ⟨a, by simp, h⟩
      · exact .inl h
      · rcases ih h with h | ⟨x, hx, h⟩
        · exact .inl h
        · exact .inr ⟨x, List.mem_cons_of_mem _ hx, h⟩

/-- A list of words that can each be told from what follows a separator or the end. -/
theorem joined_append_inj (hsep : stop sep)
    (hword : ∀ x ∈ xs, ∀ y ∈ ys, ∀ r s, Stops stop r → Stops stop s →
      code x ++ r = code y ++ s → x = y ∧ r = s) (hxs : ∀ x ∈ xs, ∀ r, ¬Stops stop (code x ++ r))
    (hys : ∀ y ∈ ys, ∀ s, ¬Stops stop (code y ++ s)) (hr : Stops stop r) (hs : Stops stop s)
    (hrsep : ∀ t, r ≠ sep :: t) (hssep : ∀ t, s ≠ sep :: t)
    (h : joined sep code xs ++ r = joined sep code ys ++ s) : xs = ys ∧ r = s := by
  have hbehind : ∀ {as : List α} {r : List σ}, Stops stop r →
      Stops stop (behind sep code as r) := by
    intro as r hr
    unfold behind
    split
    · exact hr
    · exact stops_cons hsep _
  induction xs generalizing ys with
  | nil =>
    cases ys with
    | nil => exact ⟨rfl, h⟩
    | cons y ys =>
      rw [joined_cons_append, joined, List.nil_append] at h
      exact absurd (h ▸ hr) (hys y (by simp) _)
  | cons x xs ih =>
    cases ys with
    | nil =>
      rw [joined_cons_append, joined, List.nil_append] at h
      exact absurd (h ▸ hs) (hxs x (by simp) _)
    | cons y ys =>
      rw [joined_cons_append, joined_cons_append] at h
      obtain ⟨rfl, hrest⟩ := hword x (by simp) y (by simp) _ _ (hbehind hr) (hbehind hs) h
      -- behind a word comes the separator or the end, and the end is no separator
      cases xs with
      | nil =>
        cases ys with
        | nil => exact ⟨rfl, hrest⟩
        | cons y' ys => exact absurd hrest (hrsep _)
      | cons x' xs =>
        cases ys with
        | nil => exact absurd hrest.symm (hssep _)
        | cons y' ys =>
          have htail := ih
            (fun a ha b hb => hword a (List.mem_cons_of_mem _ ha) b (List.mem_cons_of_mem _ hb))
            (fun a ha => hxs a (List.mem_cons_of_mem _ ha))
            (fun b hb => hys b (List.mem_cons_of_mem _ hb)) (List.cons.inj hrest).2
          exact ⟨by rw [htail.1], htail.2⟩

/-- A list of words without stop symbols. -/
theorem joined_append_inj_of_words (hcode : ∀ x ∈ xs, ∀ y ∈ ys, code x = code y → x = y)
    (hsep : stop sep)
    (hxs : ∀ x ∈ xs, code x ≠ [] ∧ ∀ c ∈ code x, ¬stop c)
    (hys : ∀ y ∈ ys, code y ≠ [] ∧ ∀ c ∈ code y, ¬stop c) (hr : Stops stop r) (hs : Stops stop s)
    (hrsep : ∀ t, r ≠ sep :: t) (hssep : ∀ t, s ≠ sep :: t)
    (h : joined sep code xs ++ r = joined sep code ys ++ s) : xs = ys ∧ r = s := by
  refine joined_append_inj hsep ?_ ?_ ?_ hr hs hrsep hssep h
  · intro x hx y hy r s hr hs heq
    have hparts := append_inj_of_stops (hxs x hx).2 (hys y hy).2 hr hs heq
    exact ⟨hcode x hx y hy hparts.1, hparts.2⟩
  · intro x hx
    exact not_stops_append (hxs x hx).1 (hxs x hx).2
  · intro y hy
    exact not_stops_append (hys y hy).1 (hys y hy).2

end Layr.Codes

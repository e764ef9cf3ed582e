import Mathlib.Data.List.Nodup
import Mathlib.Data.List.Sort

/-!
# Tables with a primary key

Rows by their keys, no key twice, with the statements that change them: an insert that refuses a
key which is taken, and updates and deletes of the rows that meet a condition. Every statement is
described by the lookups behind it.
-/

namespace Layr

structure Table (κ ρ : Type) where
  rows : List (κ × ρ)
  nodup : (rows.map Prod.fst).Nodup

namespace Table

variable {κ ρ : Type} [DecidableEq κ]

def empty : Table κ ρ := ⟨[], List.nodup_nil⟩

/-- The row of a key. -/
def get (t : Table κ ρ) (k : κ) : Option ρ := (t.rows.find? fun e => e.1 = k).map Prod.snd

/-- `INSERT`, which fails when the key is taken. -/
def insert (t : Table κ ρ) (k : κ) (r : ρ) : Option (Table κ ρ) :=
  if h : k ∈ t.rows.map Prod.fst then none
  else some ⟨(k, r) :: t.rows, by
    rw [List.map_cons]
    exact List.nodup_cons.mpr ⟨h, t.nodup⟩⟩

/-- `UPDATE ... SET f WHERE p`. -/
def updateWhere (t : Table κ ρ) (p : κ → ρ → Bool) (f : ρ → ρ) : Table κ ρ where
  rows := t.rows.map fun e => (e.1, if p e.1 e.2 then f e.2 else e.2)
  nodup := by
    rw [List.map_map]
    exact t.nodup

/-- `DELETE ... WHERE p`. -/
def deleteWhere (t : Table κ ρ) (p : κ → ρ → Bool) : Table κ ρ where
  rows := t.rows.filter fun e => !p e.1 e.2
  nodup := t.nodup.sublist (List.filter_sublist.map Prod.fst)

/-- The update of the row of a key. -/
def update (t : Table κ ρ) (k : κ) (f : ρ → ρ) : Table κ ρ := t.updateWhere (fun k' _ => k' = k) f

/-- The row of a key removed. -/
def delete (t : Table κ ρ) (k : κ) : Table κ ρ := t.deleteWhere fun k' _ => k' = k

/-- `INSERT ... ON CONFLICT DO UPDATE SET f`. -/
def upsert (t : Table κ ρ) (k : κ) (r : ρ) (f : ρ → ρ) : Table κ ρ :=
  (t.insert k r).getD (t.update k f)

omit [DecidableEq κ] in
/-- What is found first is found first among fewer. -/
theorem find?_filter_of_find? {rows : List (κ × ρ)} {p keep : κ × ρ → Bool} {e : κ × ρ}
    (h : rows.find? p = some e) (hkeep : keep e) : (rows.filter keep).find? p = some e := by
  obtain ⟨hp, before, after, rfl, hbefore⟩ := List.find?_eq_some_iff_append.mp h
  rw [List.filter_append, List.filter_cons_of_pos hkeep]
  refine List.find?_eq_some_iff_append.mpr ⟨hp, _, _, rfl, fun e he => ?_⟩
  exact hbefore e (List.mem_of_mem_filter he)

variable {t t' : Table κ ρ} {k k' : κ} {r r' : ρ}

theorem get_eq_some_iff : t.get k = some r ↔ (k, r) ∈ t.rows := by
  obtain ⟨rows, hnodup⟩ := t
  induction rows with
  | nil => simp [get]
  | cons e rows ih =>
    have hcons := List.nodup_cons.mp (List.map_cons ▸ hnodup)
    specialize ih hcons.2
    unfold get at ih ⊢
    by_cases heq : e.1 = k
    · rw [List.find?_cons_of_pos (by simpa using heq), Option.map_some, Option.some.injEq,
        List.mem_cons]
      constructor
      · rintro rfl
        exact .inl (by rw [← heq])
      · rintro (rfl | hmem)
        · rfl
        · -- the key is not among the other rows
          exact absurd (heq ▸ List.mem_map_of_mem hmem) hcons.1
    · rw [List.find?_cons_of_neg (by simpa using heq), ih, List.mem_cons]
      refine ⟨.inr, ?_⟩
      rintro (rfl | hmem)
      · exact absurd rfl heq
      · exact hmem

theorem get_eq_none_iff : t.get k = none ↔ k ∉ t.rows.map Prod.fst := by
  rw [get, Option.map_eq_none_iff, List.find?_eq_none, List.mem_map]
  constructor
  · rintro h ⟨e, he, rfl⟩
    exact h e he (by simp)
  · intro h e he heq
    exact h ⟨e, he, by simpa using heq⟩

@[simp] theorem get_empty (k : κ) : (empty : Table κ ρ).get k = none := rfl

/-- Two tables with the same lookup. -/
theorem get_eq_of_iff {o : Option ρ} (h : ∀ r, (k, r) ∈ t.rows ↔ o = some r) : t.get k = o := by
  apply Option.ext
  intro r
  rw [get_eq_some_iff, h]

/-- An insert that succeeds adds its row and changes no other. -/
theorem get_insert (h : t.insert k r = some t') (k' : κ) :
    t'.get k' = if k' = k then some r else t.get k' := by
  unfold insert at h
  split at h
  · cases h
  · rw [← Option.some.inj h, get]
    by_cases heq : k' = k
    · rw [if_pos heq, List.find?_cons_of_pos (by simpa using heq.symm)]
      rfl
    · rw [if_neg heq, List.find?_cons_of_neg (by simpa using fun h => heq h.symm)]
      rfl

theorem rows_insert (h : t.insert k r = some t') : t'.rows = (k, r) :: t.rows := by
  unfold insert at h
  split at h
  · cases h
  · rw [← Option.some.inj h]

/-- An insert succeeds for a fresh key only. -/
theorem get_eq_none_of_insert (h : t.insert k r = some t') : t.get k = none := by
  unfold insert at h
  split at h
  · cases h
  · rwa [get_eq_none_iff]

theorem exists_insert (h : t.get k = none) (r : ρ) : ∃ t', t.insert k r = some t' := by
  unfold insert
  rw [dif_neg (get_eq_none_iff.mp h)]
  exact ⟨_, rfl⟩

theorem insert_eq_none (h : t.get k = some r) (r' : ρ) : t.insert k r' = none := by
  unfold insert
  exact dif_pos (List.mem_map_of_mem (get_eq_some_iff.mp h))

/-- An insert leaves the rows as they are. -/
theorem get_insert_of_get (h : t.insert k r = some t') (hget : t.get k' = some r') :
    t'.get k' = some r' := by
  have hne : k' ≠ k := by
    rintro rfl
    cases (get_eq_none_of_insert h).symm.trans hget
  rw [get_insert h, if_neg hne, hget]

/-- The rows when a failed insert is passed over. -/
theorem get_of_insert_getD (h : ((t.insert k r).getD t).get k' = some r') :
    t.get k' = some r' ∨ t.get k' = none ∧ k' = k ∧ r' = r := by
  rcases hinsert : t.insert k r with _ | t'
  · rw [hinsert] at h
    exact .inl h
  · rw [hinsert, Option.getD_some, get_insert hinsert] at h
    by_cases heq : k' = k
    · rw [if_pos heq] at h
      subst heq
      exact .inr ⟨get_eq_none_of_insert hinsert, rfl, (Option.some.inj h).symm⟩
    · rw [if_neg heq] at h
      exact .inl h

theorem get_updateWhere (t : Table κ ρ) (p : κ → ρ → Bool) (f : ρ → ρ) (k : κ) :
    (t.updateWhere p f).get k = (t.get k).map fun r => if p k r then f r else r := by
  apply get_eq_of_iff
  intro r
  rw [updateWhere, List.mem_map, Option.map_eq_some_iff]
  constructor
  · rintro ⟨e, he, heq⟩
    obtain ⟨rfl, rfl⟩ := Prod.mk.inj heq
    exact ⟨e.2, get_eq_some_iff.mpr he, rfl⟩
  · rintro ⟨r', hr', rfl⟩
    exact ⟨(k, r'), get_eq_some_iff.mp hr', rfl⟩

theorem get_deleteWhere (t : Table κ ρ) (p : κ → ρ → Bool) (k : κ) :
    (t.deleteWhere p).get k = (t.get k).filter fun r => !p k r := by
  apply get_eq_of_iff
  intro r
  rw [deleteWhere, List.mem_filter, Option.filter_eq_some_iff, get_eq_some_iff]

omit [DecidableEq κ] in
theorem deleteWhere_eq_self {p : κ → ρ → Bool} (h : ∀ e ∈ t.rows, p e.1 e.2 = false) : t.deleteWhere
    p = t := by
  obtain ⟨rows, hnodup⟩ := t
  simp only [deleteWhere, mk.injEq]
  exact List.filter_eq_self.mpr fun e he => by rw [h e he]; rfl

theorem get_update (t : Table κ ρ) (k : κ) (f : ρ → ρ) (k' : κ) :
    (t.update k f).get k' = if k' = k then (t.get k').map f else t.get k' := by
  rw [update, get_updateWhere]
  by_cases heq : k' = k
  · simp [heq]
  · simp [heq]

theorem get_update_self (h : t.get k = some r) (f : ρ → ρ) : (t.update k f).get k = some (f r) := by
  rw [get_update, if_pos rfl, h, Option.map_some]

theorem get_upsert (t : Table κ ρ) (k : κ) (r : ρ) (f : ρ → ρ) (k' : κ) :
    (t.upsert k r f).get k' = if k' = k then some ((t.get k).elim r f) else t.get k' := by
  unfold upsert
  rcases hget : t.get k with _ | old
  · obtain ⟨t', hinsert⟩ := exists_insert hget r
    rw [hinsert, Option.getD_some, get_insert hinsert]
    rfl
  · rw [insert_eq_none hget, Option.getD_none, get_update]
    by_cases heq : k' = k
    · rw [if_pos heq, if_pos heq, heq, hget]
      rfl
    · rw [if_neg heq, if_neg heq]

/-- A row that is written whether or not there is one. -/
theorem get_upsert_const (t : Table κ ρ) (k : κ) (r : ρ) (k' : κ) :
    (t.upsert k r fun _ => r).get k' = if k' = k then some r else t.get k' := by
  rw [get_upsert]
  cases t.get k <;> rfl

theorem get_delete (t : Table κ ρ) (k k' : κ) :
    (t.delete k).get k' = if k' = k then none else t.get k' := by
  rw [delete, get_deleteWhere]
  by_cases heq : k' = k
  · cases t.get k' <;> simp [heq]
  · cases t.get k' <;> simp [heq]

theorem get_of_delete (h : (t.delete k).get k' = some r) : k' ≠ k ∧ t.get k' = some r := by
  rw [get_delete] at h
  split at h
  · cases h
  next hne => exact ⟨hne, h⟩

/-! ## Ordered selections -/

/-- `SELECT ... WHERE k ORDER BY n` on a table whose key is the pair of both. -/
def ordered (t : Table (κ × ℕ) ρ) (k : κ) : List (ℕ × ρ) :=
  ((t.rows.filter fun e => e.1.1 = k).map fun e => (e.1.2, e.2)).insertionSort
    fun a b => a.1 ≤ b.1

theorem mem_ordered {t : Table (κ × ℕ) ρ} {k : κ} {n : ℕ} {r : ρ} :
    (n, r) ∈ t.ordered k ↔ t.get (k, n) = some r := by
  rw [ordered, List.mem_insertionSort, List.mem_map, get_eq_some_iff]
  constructor
  · rintro ⟨e, he, heq⟩
    obtain ⟨hmem, hk⟩ := List.mem_filter.mp he
    obtain ⟨rfl, rfl⟩ := Prod.mk.inj heq
    rw [← of_decide_eq_true hk]
    exact hmem
  · intro hmem
    exact ⟨((k, n), r), List.mem_filter.mpr ⟨hmem, by simp⟩, rfl⟩

/-- The rows of one key come in the order of their numbers. -/
theorem pairwise_ordered (t : Table (κ × ℕ) ρ) (k : κ) :
    (t.ordered k).Pairwise fun a b => a.1 < b.1 := by
  -- the numbers of one key are different
  have hdistinct : ((t.rows.filter fun e => e.1.1 = k).map fun e => (e.1.2, e.2)).Pairwise
      fun a b => a.1 ≠ b.1 := by
    rw [List.pairwise_map]
    have hkeys := List.pairwise_map.mp t.nodup
    refine (hkeys.filter _).imp_of_mem ?_
    intro a b ha hb hne heq
    have hak := of_decide_eq_true (List.mem_filter.mp ha).2
    have hbk := of_decide_eq_true (List.mem_filter.mp hb).2
    exact hne (Prod.ext (hak.trans hbk.symm) heq)
  have hne : (t.ordered k).Pairwise fun a b => a.1 ≠ b.1 :=
    (List.perm_insertionSort _ _).symm.pairwise hdistinct fun h => h.symm
  have hle : (t.ordered k).Pairwise fun a b => a.1 ≤ b.1 :=
    List.pairwise_insertionSort (fun a b : ℕ × ρ => a.1 ≤ b.1) _
  exact (hle.and hne).imp fun h => lt_of_le_of_ne h.1 h.2

end Table

end Layr

import Mathlib.Data.List.Nodup
import Layr.Go.Strings

/-!
# Go maps with string keys

A `map[string]V` is an association list. Its order is the order in which one `range` over the
map visits the entries, so a statement about every list is a statement about every order Go
may choose. The first entry of a key is the one the map holds; `entries` drops the others, and
`set` is the assignment `m[k] = v`.
-/

namespace Layr.Go

/-- A Go `map[string]V`. -/
abbrev GoMap (V : Type) := List (String × V)

namespace GoMap

variable {V W : Type}

/-- `m[key]` with the comma-ok form. -/
def get (key : String) : GoMap V → Option V
  | [] => none
  | (k, v) :: m => if k = key then some v else get key m

/-- The entries a `range` visits, one for each key. -/
def entries : GoMap V → List (String × V)
  | [] => []
  | (k, v) :: m => (k, v) :: (entries m).filter fun e => e.1 ≠ k

/-- `m[key] = value`: in place when the key is there, a new entry otherwise. -/
def set (key : String) (value : V) : GoMap V → GoMap V
  | [] => [(key, value)]
  | (k, v) :: m => if k = key then (k, value) :: m else (k, v) :: set key value m

/-- The keys a `range` visits. -/
def keys (m : GoMap V) : List String := (entries m).map Prod.fst

@[simp] theorem get_nil (key : String) : get key ([] : GoMap V) = none := rfl

@[simp] theorem entries_nil : entries ([] : GoMap V) = [] := rfl

theorem entries_sublist (m : GoMap V) : (entries m).Sublist m := by
  induction m with
  | nil => simp
  | cons e m ih => exact (List.filter_sublist.trans ih).cons_cons e

/-- A range visits each key once. -/
theorem nodup_keys (m : GoMap V) : (keys m).Nodup := by
  unfold keys
  induction m with
  | nil => simp
  | cons e m ih =>
    simp only [entries, List.map_cons, List.nodup_cons, List.mem_map, List.mem_filter]
    refine ⟨?_, ih.sublist (List.filter_sublist.map _)⟩
    rintro ⟨x, ⟨-, hne⟩, heq⟩
    simp [heq] at hne

variable {m : GoMap V}

/-- A list whose keys are distinct already is its own list of entries. -/
theorem entries_eq_self (h : (m.map Prod.fst).Nodup) : entries m = m := by
  induction m with
  | nil => rfl
  | cons e m ih =>
    rw [List.map_cons, List.nodup_cons] at h
    rw [entries, ih h.2]
    congr 1
    refine List.filter_eq_self.mpr fun x hx => ?_
    have hne : x.1 ≠ e.1 := fun heq => h.1 (heq ▸ List.mem_map_of_mem hx)
    simpa using hne

/-- What a range visits is what a lookup finds. -/
theorem mem_entries_iff {k : String} {v : V} : (k, v) ∈ entries m ↔ get k m = some v := by
  induction m with
  | nil => simp
  | cons e m ih =>
    obtain ⟨k', v'⟩ := e
    by_cases hk : k' = k
    · subst hk
      simp [entries, get, eq_comm]
    · have hk' : k ≠ k' := fun h => hk h.symm
      simp [entries, get, hk, hk', ih]

theorem mem_keys_iff {k : String} : k ∈ keys m ↔ (get k m).isSome := by
  rw [Option.isSome_iff_exists]
  constructor
  · intro h
    obtain ⟨e, he, rfl⟩ := List.mem_map.mp h
    exact ⟨e.2, mem_entries_iff.mp he⟩
  · rintro ⟨v, hv⟩
    exact List.mem_map.mpr ⟨(k, v), mem_entries_iff.mpr hv, rfl⟩

/-- Assigning a key the map does not hold adds the entry at the end of the visiting order. -/
theorem set_of_not_mem {k : String} {v : V} (h : k ∉ m.map Prod.fst) :
    set k v m = m ++ [(k, v)] := by
  induction m with
  | nil => rfl
  | cons e m ih =>
    rw [List.map_cons, List.mem_cons, not_or] at h
    rw [set, if_neg (fun heq => h.1 heq.symm), ih h.2, List.cons_append]

/-- What an assignment changes. -/
theorem get_set (key key' : String) (value : V) (m : GoMap V) :
    get key' (set key value m) = if key' = key then some value else get key' m := by
  induction m with
  | nil => simp [set, get, eq_comm]
  | cons e m ih =>
    obtain ⟨k, v⟩ := e
    by_cases hk : k = key
    · subst hk
      by_cases hkey : key' = k
      · simp [set, get, hkey]
      · simp [set, get, hkey, Ne.symm hkey]
    · rw [set, if_neg hk, get, ih, get]
      by_cases hkey : key' = key
      · subst hkey
        simp [hk]
      · simp [hkey]

/-- A lookup behind a filter. -/
theorem get_filter_entries (key : String) (m : GoMap V) (p : String → V → Bool) :
    get key ((entries m).filter fun e => p e.1 e.2) = (get key m).filter (p key) := by
  have hnodup : (((entries m).filter fun e => p e.1 e.2).map Prod.fst).Nodup :=
    (nodup_keys m).sublist (List.filter_sublist.map _)
  ext v
  rw [← mem_entries_iff, entries_eq_self hnodup, List.mem_filter, mem_entries_iff,
    Option.filter_eq_some_iff]

theorem get_entries (key : String) (m : GoMap V) : get key (entries m) = get key m := by
  ext v
  rw [← mem_entries_iff, entries_eq_self (nodup_keys m), mem_entries_iff]

theorem get_eq_none {key : String} (h : key ∉ m.map Prod.fst) : get key m = none := by
  by_contra hsome
  obtain ⟨v, hv⟩ := Option.ne_none_iff_exists'.mp hsome
  exact h (List.mem_map.mpr ⟨(key, v), (entries_sublist m).subset (mem_entries_iff.mpr hv), rfl⟩)

/-- A lookup behind the removal of a key. -/
theorem get_filter_ne (key key' : String) (m : GoMap V) :
    get key (m.filter fun e => e.1 ≠ key') = if key = key' then none else get key m := by
  induction m with
  | nil => simp
  | cons e m ih =>
    obtain ⟨k, v⟩ := e
    by_cases hk : k = key'
    · subst hk
      rw [List.filter_cons_of_neg (by simp), ih]
      by_cases hkey : key = k
      · rw [if_pos hkey, if_pos hkey]
      · rw [if_neg hkey, if_neg hkey, get, if_neg (Ne.symm hkey)]
    · rw [List.filter_cons_of_pos (by simpa using hk), get, get, ih]
      by_cases hkey : k = key
      · subst hkey
        simp [hk]
      · simp [hkey]

/-- Looking the columns up in a map gives the sorted map exactly when the columns are the sorted
keys of the map. -/
theorem zip_get_eq_sorted_iff (columns : List String) (m : GoMap V) (default : V) :
    columns.zip (columns.map fun column => (get column m).getD default) =
        Strings.sortBy Prod.fst (entries m) ↔
      Strings.sort (keys m) = columns := by
  have hkeys : (Strings.sortBy Prod.fst (entries m)).map Prod.fst = Strings.sort (keys m) :=
    Strings.map_sortBy Prod.fst (entries m)
  constructor
  · intro h
    rw [← hkeys, ← h]
    simp [List.map_fst_zip]
  · intro h
    rw [← h, ← hkeys, List.map_map, List.zip_map']
    conv_rhs => rw [← List.map_id (Strings.sortBy Prod.fst (entries m))]
    refine List.map_congr_left fun e he => ?_
    have hget := mem_entries_iff.mp (Strings.mem_sortBy.mp he)
    simp [hget]

/-! ## Values mapped, keys sorted -/

/-- The map with `f` applied to its values. -/
def mapValues (f : V → W) (m : GoMap V) : GoMap W := m.map fun e => (e.1, f e.2)

/-- The entries in the order of their keys. -/
def sorted (m : GoMap V) : GoMap V := Strings.sortBy Prod.fst (entries m)

theorem get_mapValues (f : V → W) (key : String) (m : GoMap V) :
    get key (mapValues f m) = (get key m).map f := by
  induction m with
  | nil => rfl
  | cons e m ih =>
    obtain ⟨k, v⟩ := e
    by_cases hk : k = key
    · simp [mapValues, get, hk]
    · simp only [mapValues, List.map_cons, get, if_neg hk] at ih ⊢
      exact ih

theorem entries_mapValues (f : V → W) (m : GoMap V) :
    entries (mapValues f m) = mapValues f (entries m) := by
  induction m with
  | nil => rfl
  | cons e m ih =>
    simp only [mapValues, List.map_cons, entries] at ih ⊢
    rw [ih, List.filter_map]
    rfl

theorem sorted_mapValues (f : V → W) (m : GoMap V) :
    sorted (mapValues f m) = mapValues f (sorted m) := by
  unfold sorted Strings.sortBy
  rw [entries_mapValues]
  symm
  apply List.map_insertionSort
  intro a _ b _
  exact Iff.rfl

/-- Maps with the same lookups have the same sorted entries. -/
theorem sorted_eq_of_get_eq {m' : GoMap V} (h : ∀ key, get key m = get key m') :
    sorted m = sorted m' := by
  have hmem : ∀ e, e ∈ entries m ↔ e ∈ entries m' := by
    rintro ⟨key, value⟩
    rw [mem_entries_iff, mem_entries_iff, h]
  have hperm : (entries m).Perm (entries m') :=
    (List.perm_ext_iff_of_nodup (nodup_keys m).of_map (nodup_keys m').of_map).mpr hmem
  have hsorted : (sorted m).Perm (sorted m') :=
    (Strings.sortBy_perm _ _).trans (hperm.trans (Strings.sortBy_perm _ _).symm)
  refine hsorted.eq_of_pairwise ?_ (List.pairwise_insertionSort _ _)
    (List.pairwise_insertionSort _ _)
  -- entries of one map with the same key are the same entry
  intro a b ha hb hab hba
  have hkey : a.1 = b.1 := le_antisymm hab hba
  have hvalue := mem_entries_iff.mp (Strings.mem_sortBy.mp ha)
  have hvalue' := mem_entries_iff.mp ((hmem b).mpr (Strings.mem_sortBy.mp hb))
  rw [hkey, hvalue'] at hvalue
  exact Prod.ext hkey (Option.some.inj hvalue).symm

end GoMap
end Layr.Go

import Mathlib.Data.List.Sort
import Mathlib.Data.String.Basic
import Layr.Go.Unicode

/-!
# Go's `strings`, `sort` and `strconv` on Lean strings

A Go string that holds valid UTF-8 is a Lean `String`; `range` over it visits the runes of
`toList` and `len` counts the bytes of `utf8ByteSize`. Every function is written over the rune
list, which keeps it structurally recursive and lets the proofs stay on lists.
-/

namespace Layr.Go
namespace Strings

/-- `strings.HasPrefix`. -/
def hasPrefix (s pre : String) : Bool := pre.toList.isPrefixOf s.toList

/-- `strings.HasSuffix`. -/
def hasSuffix (s suf : String) : Bool := suf.toList.isSuffixOf s.toList

/-- `strings.TrimPrefix`. -/
def trimPrefix (s pre : String) : String :=
  if hasPrefix s pre then String.ofList (s.toList.drop pre.toList.length) else s

/-- `strings.TrimSuffix`. -/
def trimSuffix (s suf : String) : String :=
  if hasSuffix s suf then String.ofList (s.toList.take (s.toList.length - suf.toList.length)) else s

/-- `strings.Join`. -/
def join (sep : String) : List String → String
  | [] => ""
  | [part] => part
  | part :: next :: parts => part ++ sep ++ join sep (next :: parts)

/-- `strings.ToUpper`. -/
def toUpper (s : String) : String := String.ofList (s.toList.map Unicode.toUpper)

/-- `strings.ToLower`. -/
def toLower (s : String) : String := String.ofList (s.toList.map Unicode.toLower)

/-- `strings.TrimSpace`. -/
def trimSpace (s : String) : String :=
  String.ofList ((s.toList.dropWhile Unicode.isSpace).reverse.dropWhile Unicode.isSpace).reverse

/-- `sort.Strings`: byte order on UTF-8 is code point order, which is Lean's order on strings. -/
def sort (parts : List String) : List String := parts.insertionSort (· ≤ ·)

/-- `sort.Strings` on items that are only ever printed: the order is that of the printed texts. -/
def sortBy {α : Type} (text : α → String) (items : List α) : List α :=
  items.insertionSort fun a b => text a ≤ text b

/-- The cuts `(s[:i], s[i+1:])` of `s` at the indices `i ≥ 1` that hold the rune `at`. `pre` is
what the scan has passed already. -/
def cutsAt (at_ : Char) (pre : List Char) : List Char → List (String × String)
  | [] => []
  | c :: rest =>
    if c = at_ ∧ pre ≠ [] then
      (String.ofList pre, String.ofList rest) :: cutsAt at_ (pre ++ [c]) rest
    else cutsAt at_ (pre ++ [c]) rest

/-- `strings.Contains` for a single rune. -/
def containsRune (s : String) (c : Char) : Bool := s.toList.contains c

/-- The parts between the separators. -/
def splitRunes (sep : Char) : List Char → List (List Char)
  | [] => [[]]
  | c :: rest =>
    if c = sep then [] :: splitRunes sep rest
    else
      match splitRunes sep rest with
      | [] => [[c]]
      | part :: parts => (c :: part) :: parts

/-- `strings.Split` for a separator of one rune. -/
def split (sep : Char) (s : String) : List String := (splitRunes sep s.toList).map String.ofList

/-- The runs of runes that are not blank. -/
def fieldRunes : List Char → List (List Char)
  | [] => []
  | c :: rest =>
    if Unicode.isSpace c then fieldRunes rest
    else
      match rest, fieldRunes rest with
      | d :: _, field :: fields =>
        if Unicode.isSpace d then [c] :: field :: fields else (c :: field) :: fields
      | _, fields => [c] :: fields

/-- `strings.Fields`. -/
def fields (s : String) : List String := (fieldRunes s.toList).map String.ofList

/-- The text before and behind the first separator, as cut out with `strings.Index`. -/
def cut (sep : Char) (s : String) : Option (String × String) :=
  match s.toList.dropWhile (· ≠ sep) with
  | [] => none
  | _ :: rest => some (String.ofList (s.toList.takeWhile (· ≠ sep)), String.ofList rest)

/-- The runes before and behind the first occurrence of a text. -/
def cutRunes (sep : List Char) : List Char → Option (List Char × List Char)
  | [] => if sep = [] then some ([], []) else none
  | c :: rest =>
    if sep.isPrefixOf (c :: rest) then some ([], (c :: rest).drop sep.length)
    else (cutRunes sep rest).map fun parts => (c :: parts.1, parts.2)

/-- `strings.Cut`. -/
def cutText (sep s : String) : Option (String × String) :=
  (cutRunes sep.toList s.toList).map fun parts => (String.ofList parts.1, String.ofList parts.2)

/-- `strings.Contains`. -/
def contains (s sub : String) : Bool := (cutText sub s).isSome

/-- The text before and behind the last separator, as cut out with `strings.LastIndex`. -/
def cutLast (sep : Char) (s : String) : Option (String × String) :=
  match s.toList.reverse.dropWhile (· ≠ sep) with
  | [] => none
  | _ :: before => some (String.ofList before.reverse,
      String.ofList (s.toList.reverse.takeWhile (· ≠ sep)).reverse)

/-- `strings.ReplaceAll` of one rune by another. -/
def replaceRune (old new : Char) (s : String) : String :=
  String.ofList (s.toList.map fun c => if c = old then new else c)

/-! ## Small facts about the functions above -/

@[simp] theorem join_singleton (sep part : String) : join sep [part] = part := rfl

theorem join_cons_cons (sep part next : String) (parts : List String) :
    join sep (part :: next :: parts) = part ++ sep ++ join sep (next :: parts) := rfl

/-- A prefix and what `TrimPrefix` leaves. -/
theorem append_trimPrefix {s pre : String} (h : hasPrefix s pre) :
    pre ++ trimPrefix s pre = s := by
  obtain ⟨rest, hrest⟩ := List.isPrefixOf_iff_prefix.mp h
  rw [trimPrefix, if_pos h, ← String.toList_inj]
  simp [← hrest]

theorem hasPrefix_append (s t : String) : hasPrefix (s ++ t) s := by
  rw [hasPrefix, List.isPrefixOf_iff_prefix, String.toList_append]
  exact List.prefix_append _ _

/-- What `TrimSuffix` leaves, and the suffix. -/
theorem eq_append_of_hasSuffix {s suf : String} (h : hasSuffix s suf) :
    s = trimSuffix s suf ++ suf := by
  obtain ⟨rest, hrest⟩ := List.isSuffixOf_iff_suffix.mp h
  rw [trimSuffix, if_pos h, ← String.toList_inj]
  simp [← hrest]

@[simp]
theorem hasSuffix_append (s t : String) : hasSuffix (s ++ t) t := by
  rw [hasSuffix, List.isSuffixOf_iff_suffix, String.toList_append]
  exact List.suffix_append _ _

@[simp]
theorem trimSuffix_append (s t : String) : trimSuffix (s ++ t) t = s := by
  rw [trimSuffix, if_pos (hasSuffix_append s t), String.toList_append, List.length_append,
    Nat.add_sub_cancel, List.take_left, String.ofList_toList]

theorem trimPrefix_append (s t : String) : trimPrefix (s ++ t) s = t := by
  rw [trimPrefix, if_pos (hasPrefix_append s t), String.toList_append, List.drop_left,
    String.ofList_toList]

/-- Two ways to cut one string: one of the first parts continues the other. -/
theorem append_eq_append {a b c d : String} (h : a ++ b = c ++ d) :
    (∃ r, c = a ++ r ∧ b = r ++ d) ∨ ∃ r, a = c ++ r ∧ d = r ++ b := by
  have hlist : a.toList ++ b.toList = c.toList ++ d.toList := by
    rw [← String.toList_append, ← String.toList_append, h]
  rcases List.append_eq_append_iff.mp hlist with ⟨r, hc, hb⟩ | ⟨r, ha, hd⟩
  · refine .inl ⟨String.ofList r, ?_, ?_⟩
    · rw [← String.toList_inj, String.toList_append, String.toList_ofList, hc]
    · rw [← String.toList_inj, String.toList_append, String.toList_ofList, hb]
  · refine .inr ⟨String.ofList r, ?_, ?_⟩
    · rw [← String.toList_inj, String.toList_append, String.toList_ofList, ha]
    · rw [← String.toList_inj, String.toList_append, String.toList_ofList, hd]

/-- Texts with different beginnings of one length are different. -/
theorem append_ne_append {p q : String} (hlength : p.toList.length = q.toList.length)
    (hne : p ≠ q) (a b : String) : p ++ a ≠ q ++ b := by
  intro h
  have hlist : p.toList ++ a.toList = q.toList ++ b.toList := by
    rw [← String.toList_append, ← String.toList_append, h]
  exact hne (String.toList_inj.mp (List.append_inj_left hlist hlength))

theorem sort_perm (parts : List String) : (sort parts).Perm parts :=
  List.perm_insertionSort _ _

theorem sortBy_perm {α : Type} (text : α → String) (items : List α) :
    (sortBy text items).Perm items :=
  List.perm_insertionSort _ _

@[simp] theorem mem_sort {parts : List String} {s : String} : s ∈ sort parts ↔ s ∈ parts :=
  (sort_perm parts).mem_iff

@[simp] theorem mem_sortBy {α : Type} {text : α → String} {items : List α} {a : α} :
    a ∈ sortBy text items ↔ a ∈ items :=
  (sortBy_perm text items).mem_iff

/-- Sorting forgets the order it was given. -/
theorem sort_eq_of_perm {xs ys : List String} (h : xs.Perm ys) : sort xs = sort ys := by
  have hperm : (sort xs).Perm (sort ys) := (sort_perm xs).trans (h.trans (sort_perm ys).symm)
  refine hperm.eq_of_pairwise (fun a b _ _ hab hba => le_antisymm hab hba) ?_ ?_
  · exact List.pairwise_insertionSort _ _
  · exact List.pairwise_insertionSort _ _

/-- The texts of sorted items are the sorted texts. -/
theorem map_sortBy {α : Type} (text : α → String) (items : List α) :
    (sortBy text items).map text = sort (items.map text) :=
  List.map_insertionSort _ _ text items fun _ _ _ _ => Iff.rfl

/-- Both halves of a cut put together again are the string that was cut. -/
theorem cutsAt_spec {at_ : Char} {rest pre : List Char} {s t : String}
    (h : (s, t) ∈ cutsAt at_ pre rest) :
    s ≠ "" ∧ pre ++ rest = s.toList ++ at_ :: t.toList := by
  induction rest generalizing pre with
  | nil => simp [cutsAt] at h
  | cons c rest ih =>
    have hstep : (s, t) ∈ cutsAt at_ (pre ++ [c]) rest →
        s ≠ "" ∧ pre ++ c :: rest = s.toList ++ at_ :: t.toList := by
      intro hmem
      have := ih hmem
      simpa using this
    rw [cutsAt] at h
    split at h
    · rename_i hc
      rcases List.mem_cons.mp h with heq | hmem
      · obtain ⟨rfl, rfl⟩ := Prod.mk.inj heq
        refine ⟨?_, by simp [hc.1]⟩
        intro hnil
        exact hc.2 (by simpa using congrArg String.toList hnil)
      · exact hstep hmem
    · exact hstep h

end Strings
end Layr.Go

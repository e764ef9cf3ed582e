import Layr.Go.Words

/-!
# JavaScript's string methods

`trim`, `split(/\s+/)`, `indexOf` of one character and `slice`, on texts where a character is one
code unit. JavaScript has its own set of blanks. On ASCII texts it is that of Go.
-/

namespace Layr.Js

open Go

/-- What `\s` matches and `trim` removes. -/
def isWhiteSpace (c : Char) : Bool :=
  Unicode.inRanges [(0x09, 0x0d), (0x20, 0x20), (0xa0, 0xa0), (0x1680, 0x1680), (0x2000, 0x200a),
    (0x2028, 0x2029), (0x202f, 0x202f), (0x205f, 0x205f), (0x3000, 0x3000), (0xfeff, 0xfeff)]
    c.toNat

/-- `s.trim()`. -/
def trim (s : String) : String :=
  String.ofList ((s.toList.dropWhile isWhiteSpace).reverse.dropWhile isWhiteSpace).reverse

/-- The parts between the runs of blanks. -/
def splitRuns : List Char → List (List Char)
  | [] => [[]]
  | c :: rest =>
    if isWhiteSpace c then
      match rest with
      -- the run goes on
      | d :: _ => if isWhiteSpace d then splitRuns rest else [] :: splitRuns rest
      | [] => [[], []]
    else
      match splitRuns rest with
      | [] => [[c]]
      | part :: parts => (c :: part) :: parts

/-- `s.split(/\s+/)`. The empty text has one part. -/
def splitWhiteSpace (s : String) : List String := (splitRuns s.toList).map String.ofList

/-- `s.indexOf(c)`. -/
def indexOf (s : String) (c : Char) : ℤ :=
  if c ∈ s.toList then s.toList.idxOf c else -1

/-- `s.slice(start)`. -/
def sliceFrom (s : String) (start : ℤ) : String := String.ofList (s.toList.drop start.toNat)

/-- `s.slice(0, stop)`. -/
def sliceTo (s : String) (stop : ℤ) : String := String.ofList (s.toList.take stop.toNat)

/-! ## ASCII texts -/

def IsAscii (s : String) : Prop := ∀ c ∈ s.toList, c.toNat < 0x80

theorem isWhiteSpace_eq {c : Char} (h : c.toNat < 0x80) : isWhiteSpace c = Unicode.isSpace c := by
  have hlatin : c.toNat ≤ 0xff := by omega
  unfold isWhiteSpace Unicode.isSpace Unicode.inRanges
  rw [if_pos hlatin, Bool.eq_iff_iff]
  simp only [List.any_cons, List.any_nil, Bool.or_false, Bool.or_eq_true, Bool.and_eq_true,
    decide_eq_true_eq]
  omega

theorem dropWhile_congr {l : List Char} {p q : Char → Bool} (h : ∀ c ∈ l, p c = q c) :
    l.dropWhile p = l.dropWhile q := by
  induction l with
  | nil => rfl
  | cons c l ih =>
    rw [List.dropWhile_cons, List.dropWhile_cons, h c List.mem_cons_self,
      ih fun d hd => h d (List.mem_cons_of_mem _ hd)]

theorem trim_eq_trimSpace {s : String} (h : IsAscii s) : trim s = Strings.trimSpace s := by
  have hleft : s.toList.dropWhile isWhiteSpace = s.toList.dropWhile Unicode.isSpace :=
    dropWhile_congr fun c hc => isWhiteSpace_eq (h c hc)
  have hright : (s.toList.dropWhile Unicode.isSpace).reverse.dropWhile isWhiteSpace =
      (s.toList.dropWhile Unicode.isSpace).reverse.dropWhile Unicode.isSpace := by
    refine dropWhile_congr fun c hc => isWhiteSpace_eq (h c ?_)
    exact (List.dropWhile_sublist _).subset (List.mem_reverse.mp hc)
  unfold trim Strings.trimSpace
  rw [hleft, hright]

/-- The parts of a text that does not end in a blank are its fields, behind an empty part if it
starts with one. -/
theorem splitRuns_eq {l : List Char} (hascii : ∀ c ∈ l, c.toNat < 0x80) (hne : l ≠ [])
    (hlast : isWhiteSpace (l.getLast hne) = false) :
    splitRuns l =
      if isWhiteSpace (l.head hne) then [] :: Strings.fieldRunes l else Strings.fieldRunes l := by
  induction l with
  | nil => exact absurd rfl hne
  | cons c rest ih =>
    have hspace := isWhiteSpace_eq (hascii c List.mem_cons_self)
    rw [List.head_cons]
    cases rest with
    | nil =>
      rw [List.getLast_singleton] at hlast
      rw [if_neg (by simp [hlast])]
      unfold splitRuns Strings.fieldRunes
      rw [← hspace, hlast]
      rfl
    | cons d rest =>
      have hne' : d :: rest ≠ [] := List.cons_ne_nil _ _
      rw [List.getLast_cons hne'] at hlast
      have htail := ih (fun e he => hascii e (List.mem_cons_of_mem _ he)) hne' hlast
      have hspace' := isWhiteSpace_eq (hascii d (List.mem_cons_of_mem _ List.mem_cons_self))
      rw [List.head_cons] at htail
      conv_lhs => unfold splitRuns
      rw [htail]
      -- a leading run gives an empty part first, which `Fields` does not
      by_cases hblank : isWhiteSpace c
      · have hfields : Strings.fieldRunes (c :: d :: rest) = Strings.fieldRunes (d :: rest) := by
          conv_lhs => unfold Strings.fieldRunes
          rw [← hspace, if_pos hblank]
        rw [if_pos hblank, if_pos hblank, hfields]
        by_cases hblank' : isWhiteSpace d
        · simp [hblank']
        · simp [hblank']
      · rw [if_neg hblank, if_neg hblank]
        conv_rhs => unfold Strings.fieldRunes
        rw [← hspace, if_neg hblank]
        by_cases hblank' : isWhiteSpace d
        · rw [if_pos hblank']
          cases Strings.fieldRunes (d :: rest) <;> simp [← hspace', hblank']
        · rw [if_neg hblank']
          cases Strings.fieldRunes (d :: rest) <;> simp [← hspace', hblank']

/-- On a text with something in it, `trim` and `split` together are `Fields`. -/
theorem splitWhiteSpace_trim {s : String} (h : IsAscii s) (hne : Strings.trimSpace s ≠ "") :
    splitWhiteSpace (trim s) = Strings.fields s := by
  have hruns : (Strings.trimSpace s).toList ≠ [] := fun heq => hne (String.toList_inj.mp heq)
  have hascii : ∀ c ∈ (Strings.trimSpace s).toList, c.toNat < 0x80 := by
    obtain ⟨before, behind, -, -, hs⟩ := Strings.toList_eq_trimSpace s
    intro c hc
    apply h
    rw [hs]
    exact List.mem_append_right _ (List.mem_append_left _ hc)
  have htrimmed : (Strings.trimSpace s).toList =
      ((s.toList.dropWhile Unicode.isSpace).reverse.dropWhile Unicode.isSpace).reverse :=
    String.toList_ofList
  obtain ⟨hhead, hlast⟩ := Strings.ends_of_trimmed htrimmed hruns
  rw [← isWhiteSpace_eq (hascii _ (List.head_mem hruns))] at hhead
  rw [← isWhiteSpace_eq (hascii _ (List.getLast_mem hruns))] at hlast
  have hnot : ¬isWhiteSpace ((Strings.trimSpace s).toList.head hruns) := by simp [hhead]
  rw [trim_eq_trimSpace h, splitWhiteSpace, splitRuns_eq hascii hruns hlast, if_neg hnot]
  exact Strings.fields_trimSpace s

/-- `indexOf` and `slice` cut as `Cut` does. -/
theorem cut_eq_slices (s : String) (c : Char) :
    Strings.cut c s =
      if indexOf s c = -1 then none
      else some (sliceTo s (indexOf s c), sliceFrom s (indexOf s c + 1)) := by
  by_cases hmem : c ∈ s.toList
  · obtain ⟨before, behind, hs, hnot⟩ := List.eq_append_cons_of_mem hmem
    have hindex : indexOf s c = before.length := by
      rw [indexOf, if_pos hmem, hs, List.idxOf_append, if_neg hnot, List.idxOf_cons_self, zero_add]
    have hne : indexOf s c ≠ -1 := by omega
    have hcut : Strings.cut c s = some (String.ofList before, String.ofList behind) := by
      have hjoin : s = String.ofList before ++ String.singleton c ++ String.ofList behind := by
        apply String.toList_inj.mp
        rw [hs]
        simp [String.toList_append, String.toList_ofList]
      rw [hjoin]
      exact Strings.cut_append (by rwa [String.toList_ofList]) _
    have hdrop : ((before.length : ℤ) + 1).toNat = before.length + 1 := by omega
    rw [hcut, if_neg hne, hindex, sliceTo, sliceFrom, Int.toNat_natCast, hdrop, hs]
    simp
  · have hindex : indexOf s c = -1 := if_neg hmem
    rw [Strings.cut_of_not_mem hmem, if_pos hindex]

end Layr.Js

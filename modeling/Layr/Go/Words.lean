import Mathlib.Data.List.TakeWhile
import Layr.Go.Strings

/-!
# Splitting texts

What `Split`, `Cut`, `Fields` and `TrimSpace` make of a text that was put together from parts,
and what their parts are made of.
-/

namespace Layr.Go

open Unicode

variable {sep : Char} {p : Char → Bool} {l : List Char} {s : String}

/-! ## Blanks -/

theorem Unicode.isSpace_eq_false {c : Char} (hlow : 0x20 < c.toNat) (hhigh : c.toNat < 0x7f) :
    isSpace c = false := by
  have hlatin : c.toNat ≤ 0xff := by omega
  unfold isSpace inRanges
  rw [if_pos hlatin]
  simp only [List.any_cons, List.any_nil, Bool.or_false, Bool.or_eq_false_iff,
    Bool.and_eq_false_iff, decide_eq_false_iff_not]
  omega

namespace Strings

/-- A text without blanks. -/
def Unblank (s : String) : Prop := ∀ c ∈ s.toList, isSpace c = false

theorem dropWhile_of_head (h : ∀ hne : l ≠ [], p (l.head hne) = false) : l.dropWhile p = l := by
  cases l with
  | nil => rfl
  | cons c l => rw [List.dropWhile_cons_of_neg (by simp [show p c = false from h (by simp)])]

theorem dropWhile_eq_self (h : ∀ c ∈ l, p c = false) :
    l.dropWhile p = l := dropWhile_of_head fun hne => h _ (List.head_mem hne)

theorem trimSpace_eq_self (h : Unblank s) : trimSpace s = s := by
  have hreverse : ∀ c ∈ s.toList.reverse, isSpace c = false :=
    fun c hc => h c (List.mem_reverse.mp hc)
  unfold trimSpace
  rw [dropWhile_eq_self h, dropWhile_eq_self hreverse, List.reverse_reverse, String.ofList_toList]

/-- What is left between the runs at both ends neither starts nor ends as they do. -/
theorem ends_of_trimmed {t : List Char} (ht : t = ((l.dropWhile p).reverse.dropWhile p).reverse)
    (hne : t ≠ []) : p (t.head hne) = false ∧ p (t.getLast hne) = false := by
  subst ht
  have hne' : (l.dropWhile p).reverse.dropWhile p ≠ [] := fun heq => hne (by rw [heq]; rfl)
  constructor
  · -- it starts as the list behind the first run does
    have hstart : ((l.dropWhile p).reverse.dropWhile p).reverse <+: l.dropWhile p := by
      refine ⟨((l.dropWhile p).reverse.takeWhile p).reverse, ?_⟩
      rw [← List.reverse_append, List.takeWhile_append_dropWhile, List.reverse_reverse]
    rw [hstart.head hne]
    exact List.head_dropWhile_not p (hstart.ne_nil hne)
  · rw [List.getLast_reverse]
    exact List.head_dropWhile_not p hne'

theorem unblank_singleton {c : Char} (h : isSpace c = false) :
    Unblank (String.singleton c) := by
  intro d hd
  rw [String.toList_singleton, List.mem_singleton] at hd
  rwa [hd]

theorem append_singleton_ne {c : Char} (h : c ∉ s.toList) (a b : String) :
    a ++ String.singleton c ++ b ≠ s := by
  rintro rfl
  simp at h

theorem Unblank.append {t : String} (hs : Unblank s) (ht : Unblank t) : Unblank (s ++ t) := by
  intro c hc
  rw [String.toList_append, List.mem_append] at hc
  exact hc.elim (hs c) (ht c)

/-! ## Fields -/

/-- A field is not empty, and its runes are runes of the text that are not blank. -/
theorem mem_fieldRunes {field : List Char} (h : field ∈ fieldRunes l) :
    field ≠ [] ∧ ∀ c ∈ field, c ∈ l ∧ isSpace c = false := by
  induction l generalizing field with
  | nil => cases h
  | cons c rest ih =>
    have hrest : field ∈ fieldRunes rest →
        field ≠ [] ∧ ∀ d ∈ field, d ∈ c :: rest ∧ isSpace d = false := by
      intro hmem
      obtain ⟨hne, hrunes⟩ := ih hmem
      exact ⟨hne, fun d hd => ⟨List.mem_cons_of_mem c (hrunes d hd).1, (hrunes d hd).2⟩⟩
    unfold fieldRunes at h
    split at h
    · exact hrest h
    rename_i hspace
    have hfirst : ∀ d ∈ [c], d ∈ c :: rest ∧ isSpace d = false := by
      intro d hd
      obtain rfl := List.mem_singleton.mp hd
      exact ⟨List.mem_cons_self, Bool.eq_false_iff.mpr hspace⟩
    split at h
    · rename_i d tail field' fields hfields
      have hhead := ih (hfields ▸ List.mem_cons_self)
      split at h
      · rcases List.mem_cons.mp h with rfl | hmem
        · exact ⟨List.cons_ne_nil _ _, hfirst⟩
        · exact hrest (hfields ▸ hmem)
      · rcases List.mem_cons.mp h with rfl | hmem
        · refine ⟨List.cons_ne_nil _ _, fun e he => ?_⟩
          rcases List.mem_cons.mp he with rfl | he
          · exact hfirst _ List.mem_cons_self
          · exact ⟨List.mem_cons_of_mem c (hhead.2 e he).1, (hhead.2 e he).2⟩
        · exact hrest (hfields ▸ List.mem_cons_of_mem _ hmem)
    · rcases List.mem_cons.mp h with rfl | hmem
      · exact ⟨List.cons_ne_nil _ _, hfirst⟩
      · exact hrest hmem

theorem unblank_of_mem_fields {field : String} (h : field ∈ fields s) :
    field ≠ "" ∧ Unblank field := by
  obtain ⟨runes, hmem, rfl⟩ := List.mem_map.mp h
  obtain ⟨hne, hrunes⟩ := mem_fieldRunes hmem
  refine ⟨?_, fun c hc => ?_⟩
  · intro heq
    apply hne
    rw [← String.toList_ofList (l := runes), heq]
    rfl
  · rw [String.toList_ofList] at hc
    exact (hrunes c hc).2

/-- A word before a blank. -/
theorem fieldRunes_append {word : List Char} (hne : word ≠ [])
    (hword : ∀ c ∈ word, isSpace c = false) {blank : Char}
    (hblank : isSpace blank) (rest : List Char) :
    fieldRunes (word ++ blank :: rest) = word :: fieldRunes rest := by
  have hskip : fieldRunes (blank :: rest) = fieldRunes rest := by
    conv_lhs => unfold fieldRunes
    rw [if_pos hblank]
  induction word with
  | nil => exact absurd rfl hne
  | cons c word ih =>
    have hfirst : ¬isSpace c := by simp [hword c List.mem_cons_self]
    cases word with
    | nil =>
      rw [List.singleton_append]
      conv_lhs => unfold fieldRunes
      rw [if_neg hfirst, hskip]
      cases fieldRunes rest with
      | nil => rfl
      | cons => simp [hblank]
    | cons d word =>
      have htail := ih (List.cons_ne_nil _ _) fun e he => hword e (List.mem_cons_of_mem _ he)
      have hsecond : ¬isSpace d := by
        simp [hword d (List.mem_cons_of_mem _ List.mem_cons_self)]
      rw [List.cons_append]
      conv_lhs => unfold fieldRunes
      rw [if_neg hfirst, htail]
      simp [hsecond]

theorem fieldRunes_blanks_append {blanks : List Char}
    (h : ∀ c ∈ blanks, isSpace c) (l : List Char) :
    fieldRunes (blanks ++ l) = fieldRunes l := by
  induction blanks with
  | nil => rfl
  | cons c blanks ih =>
    rw [List.cons_append]
    conv_lhs => unfold fieldRunes
    rw [if_pos (h c List.mem_cons_self), ih fun d hd => h d (List.mem_cons_of_mem _ hd)]

theorem fieldRunes_append_blanks {blanks : List Char}
    (h : ∀ c ∈ blanks, isSpace c) (l : List Char) :
    fieldRunes (l ++ blanks) = fieldRunes l := by
  have hnil : fieldRunes blanks = [] := by
    rw [← List.append_nil blanks, fieldRunes_blanks_append h]
    rfl
  induction l with
  | nil => exact hnil
  | cons c rest ih =>
    cases rest with
    | nil =>
      rw [List.singleton_append]
      unfold fieldRunes
      split
      · exact hnil
      · rw [hnil]
        cases blanks <;> rfl
    | cons d rest =>
      rw [List.cons_append] at ih
      rw [List.cons_append, List.cons_append]
      conv_lhs => unfold fieldRunes
      conv_rhs => unfold fieldRunes
      rw [ih]
      cases fieldRunes (d :: rest) <;> rfl

/-- A word alone. -/
theorem fieldRunes_word {word : List Char} (hne : word ≠ [])
    (hword : ∀ c ∈ word, isSpace c = false) : fieldRunes word = [word] := by
  have hblank : isSpace ' ' := by decide
  rw [← fieldRunes_append_blanks (List.forall_mem_singleton.mpr hblank),
    fieldRunes_append hne hword hblank]
  rfl

/-- `Fields` takes apart what `Join` has put together with blanks. -/
theorem fields_join {words : List String} (h : ∀ word ∈ words, word ≠ "" ∧ Unblank word) :
    fields (join " " words) = words := by
  have hblank : " ".toList = [' '] := rfl
  have hruns : ∀ word ∈ words, word.toList ≠ [] := by
    intro word hmem heq
    exact (h word hmem).1 (String.toList_inj.mp heq)
  induction words with
  | nil => rfl
  | cons word words ih =>
    have hhead := h word List.mem_cons_self
    have hne := hruns word List.mem_cons_self
    cases words with
    | nil =>
      rw [join_singleton, fields, fieldRunes_word hne hhead.2, List.map_singleton,
        String.ofList_toList]
    | cons =>
      have htail := ih (fun w hw => h w (List.mem_cons_of_mem _ hw))
        (fun w hw => hruns w (List.mem_cons_of_mem _ hw))
      unfold fields at htail ⊢
      rw [join_cons_cons, String.toList_append, String.toList_append, hblank, List.append_assoc,
        List.singleton_append, fieldRunes_append hne hhead.2 (by decide), List.map_cons, htail,
        String.ofList_toList]

/-- A text is what `TrimSpace` leaves of it, between blanks. -/
theorem toList_eq_trimSpace (s : String) :
    ∃ before behind, (∀ c ∈ before, isSpace c) ∧
      (∀ c ∈ behind, isSpace c) ∧
      s.toList = before ++ ((trimSpace s).toList ++ behind) := by
  have hblank : ∀ runes : List Char, ∀ c ∈ runes.takeWhile isSpace,
      isSpace c :=
    fun runes => List.all_eq_true.mp (List.all_takeWhile)
  set runes := s.toList.dropWhile isSpace with hrunes
  refine ⟨s.toList.takeWhile isSpace, (runes.reverse.takeWhile isSpace).reverse,
    hblank _, ?_, ?_⟩
  · intro c hc
    exact hblank _ c (List.mem_reverse.mp hc)
  · rw [trimSpace, String.toList_ofList, ← List.reverse_append, List.takeWhile_append_dropWhile,
      List.reverse_reverse, hrunes, List.takeWhile_append_dropWhile]

@[simp] theorem fields_trimSpace (s : String) : fields (trimSpace s) = fields s := by
  obtain ⟨before, behind, hbefore, hbehind, hs⟩ := toList_eq_trimSpace s
  unfold fields
  rw [hs, fieldRunes_blanks_append hbefore, fieldRunes_append_blanks hbehind]

/-! ## Cuts -/

theorem cut_of_not_mem (h : sep ∉ s.toList) : cut sep s = none := by
  have hdrop : s.toList.dropWhile (· ≠ sep) = [] := by
    rw [List.dropWhile_eq_nil_iff]
    intro c hc
    exact decide_eq_true fun heq => h (heq ▸ hc)
  unfold cut
  rw [hdrop]

theorem cut_append (h : sep ∉ s.toList) (t : String) :
    cut sep (s ++ String.singleton sep ++ t) = some (s, t) := by
  have hrunes : ∀ c ∈ s.toList, decide (c ≠ sep) :=
    fun c hc => decide_eq_true fun heq => h (heq ▸ hc)
  unfold cut
  simp only [String.toList_append, String.toList_singleton, List.append_assoc,
    List.singleton_append]
  rw [List.dropWhile_append_of_pos hrunes, List.takeWhile_append_of_pos hrunes]
  simp

theorem cut_of_mem (h : sep ∈ s.toList) :
    ∃ a b, cut sep s = some (a, b) ∧ s = a ++ String.singleton sep ++ b ∧ sep ∉ a.toList := by
  obtain ⟨a, b, hs, ha⟩ := List.eq_append_cons_of_mem h
  have ha : sep ∉ (String.ofList a).toList := by rwa [String.toList_ofList]
  have hs : s = String.ofList a ++ String.singleton sep ++ String.ofList b := by
    rw [← String.toList_inj, hs]
    simp
  exact ⟨_, _, hs ▸ cut_append ha _, hs, ha⟩

theorem cut_eq_none (h : cut sep s = none) : sep ∉ s.toList := by
  intro hmem
  obtain ⟨a, b, hcut, -⟩ := cut_of_mem hmem
  rw [h] at hcut
  cases hcut

theorem cut_eq_some {a b : String} (h : cut sep s = some (a, b)) :
    s = a ++ String.singleton sep ++ b ∧ sep ∉ a.toList := by
  by_cases hmem : sep ∈ s.toList
  · obtain ⟨a', b', hcut, hs⟩ := cut_of_mem hmem
    cases hcut.symm.trans h
    exact hs
  · cases (cut_of_not_mem hmem).symm.trans h

theorem cutLast_eq_cut (sep : Char) (s : String) :
    cutLast sep s = (cut sep (String.ofList s.toList.reverse)).map fun parts =>
      (String.ofList parts.2.toList.reverse, String.ofList parts.1.toList.reverse) := by
  unfold cutLast cut
  rw [String.toList_ofList]
  split <;> simp

theorem cutLast_of_not_mem (h : sep ∉ s.toList) : cutLast sep s = none := by
  rw [cutLast_eq_cut, cut_of_not_mem (by simpa using h), Option.map_none]

theorem cutLast_append {b : String} (h : sep ∉ b.toList) (a : String) :
    cutLast sep (a ++ String.singleton sep ++ b) = some (a, b) := by
  have hreverse : String.ofList (a ++ String.singleton sep ++ b).toList.reverse =
      String.ofList b.toList.reverse ++ String.singleton sep ++ String.ofList a.toList.reverse := by
    simp [← String.toList_inj]
  rw [cutLast_eq_cut, hreverse, cut_append (by simpa using h)]
  simp

theorem cutLast_of_mem (h : sep ∈ s.toList) : ∃ a b, cutLast sep s = some (a, b) ∧ a ≠ s := by
  obtain ⟨b, a, hcut, hs, -⟩ := cut_of_mem (s := String.ofList s.toList.reverse) (by simpa using h)
  refine ⟨_, _, by rw [cutLast_eq_cut, hcut, Option.map_some], fun heq => ?_⟩
  have hlength := congrArg (fun s : String => s.toList.length) hs
  simp [← heq] at hlength
  omega

theorem cutRunes_eq_some {sep l a b : List Char} (h : cutRunes sep l = some (a, b)) :
    l = a ++ sep ++ b := by
  induction l generalizing a with
  | nil =>
    obtain ⟨rfl, h⟩ := Option.ite_none_right_eq_some.mp h
    cases h
    rfl
  | cons c l ih =>
    rw [cutRunes] at h
    split at h
    · rename_i hstart
      cases h
      exact (List.prefix_iff_eq_append.mp (List.isPrefixOf_iff_prefix.mp hstart)).symm
    · obtain ⟨parts, hparts, h⟩ := Option.map_eq_some_iff.mp h
      cases h
      rw [ih hparts]
      rfl

/-! ## Splits -/

theorem splitRunes_eq_splitOn (sep : Char) (l : List Char) :
    splitRunes sep l = l.splitOn sep := by
  induction l with
  | nil => rfl
  | cons c rest ih =>
    rw [splitRunes, List.splitOn_cons_eq_if_modifyHead, ih]
    cases hparts : rest.splitOn sep with
    | nil => exact absurd hparts (List.splitOn_ne_nil sep rest)
    | cons => simp only [beq_iff_eq, List.modifyHead_cons]

theorem not_mem_of_mem_splitRunes (sep : Char) (l : List Char) :
    ∀ part ∈ splitRunes sep l, sep ∉ part := by
  induction l with
  | nil => simp [splitRunes]
  | cons c rest ih =>
    rw [splitRunes]
    split
    · simpa using ih
    · rename_i hne
      cases hrest : splitRunes sep rest with
      | nil => simpa using Ne.symm hne
      | cons => simpa [hrest, Ne.symm hne] using ih

theorem split_append (s t : String) :
    split sep (s ++ String.singleton sep ++ t) = split sep s ++ split sep t := by
  simp only [split, splitRunes_eq_splitOn, String.toList_append, String.toList_singleton,
    List.append_assoc, List.singleton_append, List.splitOn_append_cons_self, List.map_append]

theorem split_of_not_mem (h : sep ∉ s.toList) : split sep s = [s] := by
  unfold split
  rw [splitRunes_eq_splitOn, List.splitOn_eq_singleton h, List.map_singleton, String.ofList_toList]

theorem split_ne_nil (sep : Char) (s : String) : split sep s ≠ [] := by
  simp [split, splitRunes_eq_splitOn]

theorem split_join {parts : List String} (h : ∀ part ∈ parts, sep ∉ part.toList)
    (hne : parts ≠ []) : split sep (join (String.singleton sep) parts) = parts := by
  induction parts with
  | nil => exact absurd rfl hne
  | cons part parts ih =>
    rw [List.forall_mem_cons] at h
    cases parts with
    | nil => exact split_of_not_mem h.1
    | cons =>
      rw [join_cons_cons, split_append, split_of_not_mem h.1, ih h.2 (by simp)]
      rfl

/-- A text of three parts. -/
theorem split_eq_three {a b c : String} (h : split sep s = [a, b, c]) :
    s = a ++ String.singleton sep ++ b ++ String.singleton sep ++ c ∧ sep ∉ a.toList ∧
      sep ∉ b.toList := by
  have hruns : splitRunes sep s.toList = [a.toList, b.toList, c.toList] := by
    have hmap := congrArg (List.map String.toList) h
    unfold split at hmap
    rw [List.map_map] at hmap
    simpa [Function.comp_def, String.toList_ofList] using hmap
  have hparts := not_mem_of_mem_splitRunes sep s.toList
  rw [hruns, List.forall_mem_cons, List.forall_mem_cons] at hparts
  have hjoin : [sep].intercalate (s.toList.splitOn sep) = s.toList := List.intercalate_splitOn sep
  rw [← splitRunes_eq_splitOn, hruns, List.intercalate_cons_cons, List.intercalate_cons_cons,
    List.intercalate_singleton] at hjoin
  refine ⟨String.toList_inj.mp ?_, hparts.1, hparts.2.1⟩
  simp only [String.toList_append, String.toList_singleton, ← hjoin, List.append_assoc]

end Strings

end Layr.Go

import Layr.Go.Strings

/-!
# `data/common/identifier.go`

Every name that reaches the text of a statement goes through `isValidIdentifier`: a letter or
an underscore, then letters, digits and underscores, at most 63 bytes.
-/

namespace Layr

open Go

/-- The runes an identifier may continue with. -/
def isIdentifierRune (c : Char) : Bool := Unicode.isLetter c || Unicode.isDigit c || c = '_'

/-- The runes an identifier may start with. -/
def isIdentifierStart (c : Char) : Bool := Unicode.isLetter c || c = '_'

/-- `IsValidIdentifier`. -/
def isValidIdentifier (identifier : String) : Bool :=
  if identifier.utf8ByteSize > 63 then false
  else
    match identifier.toList with
    | [] => false
    | first :: rest => isIdentifierStart first && rest.all isIdentifierRune

/-- Only letters, digits and underscores, at any length. -/
def isIdentifierText (s : String) : Bool := s.toList.all isIdentifierRune

theorem isIdentifierRune_of_start {c : Char} (h : isIdentifierStart c) :
    isIdentifierRune c := by
  unfold isIdentifierStart at h
  unfold isIdentifierRune
  rcases Bool.or_eq_true _ _ |>.mp h with h | h <;> simp [h]

theorem isIdentifierText_of_valid {s : String} (h : isValidIdentifier s) :
    isIdentifierText s := by
  unfold isValidIdentifier at h
  split at h
  · cases h
  · unfold isIdentifierText
    split at h
    · cases h
    · rename_i first rest heq
      rw [Bool.and_eq_true] at h
      rw [heq, List.all_cons, isIdentifierRune_of_start h.1, h.2]
      rfl

theorem notMem_of_isValidIdentifier {s : String} {c : Char} (h : isValidIdentifier s)
    (hc : isIdentifierRune c = false) : c ∉ s.toList := by
  intro hmem
  have hrune := List.all_eq_true.mp (isIdentifierText_of_valid h) c hmem
  rw [hc] at hrune
  cases hrune

theorem ne_nil_of_isValidIdentifier {s : String} (h : isValidIdentifier s) :
    s.toList ≠ [] := by
  intro hnil
  simp [isValidIdentifier, hnil] at h

/-! ## Closure of identifier text -/

theorem isIdentifierText_append {s t : String} :
    isIdentifierText (s ++ t) ↔ isIdentifierText s ∧ isIdentifierText t := by
  simp [isIdentifierText, List.all_append]

/-- A decimal number is identifier text. -/
theorem isIdentifierText_toString (n : ℕ) : isIdentifierText (toString n) := by
  unfold isIdentifierText
  rw [List.all_eq_true]
  intro c hc
  have hdigit : c.isDigit :=
    Nat.isDigit_of_mem_toDigits (b := 10) (by decide) (by decide) (by simpa using hc)
  have hrange : 0x30 ≤ c.toNat ∧ c.toNat ≤ 0x39 := by
    simp only [Char.isDigit, Bool.and_eq_true, decide_eq_true_eq, UInt32.le_iff_toNat_le] at hdigit
    exact hdigit
  have : Unicode.isDigit c := by
    unfold Unicode.isDigit
    rw [if_pos (by omega)]
    simp [Unicode.inRanges, hrange]
  simp [isIdentifierRune, this]

/-- Part of an identifier's text. -/
theorem isIdentifierText_of_subset {s t : String} (h : isIdentifierText s)
    (hsub : ∀ c ∈ t.toList, c ∈ s.toList) : isIdentifierText t := by
  unfold isIdentifierText at h ⊢
  rw [List.all_eq_true] at h ⊢
  exact fun c hc => h c (hsub c hc)

theorem isIdentifierText_trimSuffix {s : String} (suf : String) (h : isIdentifierText s) :
    isIdentifierText (Strings.trimSuffix s suf) := by
  refine isIdentifierText_of_subset h fun c hc => ?_
  unfold Strings.trimSuffix at hc
  split at hc
  · exact List.mem_of_mem_take (by simpa using hc)
  · exact hc

end Layr

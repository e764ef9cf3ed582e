import Mathlib.Data.List.Basic
import Layr.Go.Float

/-!
# `strconv`

Numbers as decimal texts. Every text `formatInt` writes is read back by `parseInt`, as long as
the number fits into 64 bits.
-/

namespace Layr.Go
namespace Strconv

/-- The value of a run of decimal digits, nothing for an empty run or another rune. -/
def decimalValue (digits : List Char) : Option ℕ :=
  if digits ≠ [] ∧ digits.all Char.isDigit then some (Nat.ofDigitChars 10 digits 0) else none

/-- A number without its sign, and whether it had a minus sign. -/
def splitSign : List Char → Bool × List Char
  | '-' :: digits => (true, digits)
  | '+' :: digits => (false, digits)
  | digits => (false, digits)

/-- `strconv.ParseInt` in base 10 and 64 bits. -/
def parseInt (text : List Char) : Option ℤ :=
  let (negative, digits) := splitSign text
  (decimalValue digits).bind fun magnitude =>
    let value : ℤ := if negative then -magnitude else magnitude
    if -2 ^ 63 ≤ value ∧ value < 2 ^ 63 then some value else none

/-- `strconv.ParseFloat`, on texts of signs, digits and points: digits on at least one side of a
single point. -/
def parseFloat (text : List Char) : Option Float64 :=
  let (negative, digits) := splitSign text
  let whole := digits.takeWhile (· ≠ '.')
  let fraction := (digits.dropWhile (· ≠ '.')).tail
  (decimalValue (whole ++ fraction)).bind fun value =>
    Float64.ofDecimal negative value fraction.length

/-- `strconv.FormatInt` in base 10. -/
def formatInt (i : ℤ) : List Char :=
  if i < 0 then '-' :: Nat.toDigits 10 i.natAbs else Nat.toDigits 10 i.natAbs

/-- The value of printed digits. -/
theorem decimalValue_toDigits (n : ℕ) : decimalValue (Nat.toDigits 10 n) = some n := by
  have hdigits : (Nat.toDigits 10 n).all Char.isDigit := by
    rw [List.all_eq_true]
    intro c hc
    exact Nat.isDigit_of_mem_toDigits (by decide) (by decide) hc
  have hne : Nat.toDigits 10 n ≠ [] := Nat.toDigits_ne_nil
  rw [decimalValue, if_pos ⟨hne, hdigits⟩, Nat.ofDigitChars_toDigits (by decide) (by decide)]

/-- The first rune of a number without a sign. -/
theorem toDigits_cases (n : ℕ) :
    ∃ first digits, Nat.toDigits 10 n = first :: digits ∧ first.isDigit ∧
      ∀ c ∈ Nat.toDigits 10 n, c.isDigit := by
  have hdigits : ∀ c ∈ Nat.toDigits 10 n, c.isDigit := by
    intro c hc
    exact Nat.isDigit_of_mem_toDigits (by decide) (by decide) hc
  cases hlist : Nat.toDigits 10 n with
  | nil => exact absurd hlist Nat.toDigits_ne_nil
  | cons first digits =>
    rw [hlist] at hdigits
    exact ⟨first, digits, rfl, hdigits first (by simp), hdigits⟩

theorem ne_of_isDigit {c x : Char} (h : c.isDigit) (hx : x.isDigit = false) : c ≠ x := by
  rintro rfl
  rw [hx] at h
  cases h

/-- The runes of a printed number, and what its first rune is. -/
theorem formatInt_cases (i : ℤ) :
    ∃ first runes, formatInt i = first :: runes ∧ (first.isDigit ∨ first = '-') ∧
      ∀ c ∈ formatInt i, c.isDigit ∨ c = '-' := by
  obtain ⟨first, digits, hlist, hfirst, hdigits⟩ := toDigits_cases i.natAbs
  unfold formatInt
  split
  · refine ⟨'-', Nat.toDigits 10 i.natAbs, rfl, .inr rfl, ?_⟩
    intro c hc
    rcases List.mem_cons.mp hc with rfl | hc
    · exact .inr rfl
    · exact .inl (hdigits c hc)
  · exact ⟨first, digits, hlist, .inl hfirst, fun c hc => .inl (hdigits c hc)⟩

theorem not_mem_formatInt {c : Char} (hc : c.isDigit = false ∧ c ≠ '-') (i : ℤ) :
    c ∉ formatInt i := by
  intro hmem
  obtain ⟨-, -, -, -, hrunes⟩ := formatInt_cases i
  rcases hrunes c hmem with hdigit | hminus
  · exact ne_of_isDigit hdigit hc.1 rfl
  · exact hc.2 hminus

/-- The sign and the digits of a printed number. -/
theorem splitSign_formatInt (i : ℤ) :
    splitSign (formatInt i) = (decide (i < 0), Nat.toDigits 10 i.natAbs) := by
  unfold formatInt
  split
  · rename_i hneg
    simp [splitSign, hneg]
  · rename_i hneg
    obtain ⟨first, digits, hlist, hfirst, -⟩ := toDigits_cases i.natAbs
    have hminus : first ≠ '-' := ne_of_isDigit hfirst (by decide)
    have hplus : first ≠ '+' := ne_of_isDigit hfirst (by decide)
    rw [hlist]
    simp [splitSign, hminus, hplus, hneg]

theorem parseInt_formatInt {i : ℤ} (h : -2 ^ 63 ≤ i ∧ i < 2 ^ 63) :
    parseInt (formatInt i) = some i := by
  have hvalue : (if decide (i < 0) = true then -(i.natAbs : ℤ) else i.natAbs) = i := by
    by_cases hneg : i < 0
    · rw [if_pos (decide_eq_true hneg)]
      omega
    · rw [if_neg (by simpa using hneg)]
      omega
  unfold parseInt
  simp only [splitSign_formatInt, decimalValue_toDigits, Option.bind_some, hvalue]
  exact if_pos h

theorem formatInt_injective : Function.Injective formatInt := by
  intro i j h
  have hsplit := congrArg splitSign h
  rw [splitSign_formatInt, splitSign_formatInt, Prod.mk.injEq] at hsplit
  have hmagnitude := congrArg decimalValue hsplit.2
  rw [decimalValue_toDigits, decimalValue_toDigits, Option.some.injEq] at hmagnitude
  have hsign : i < 0 ↔ j < 0 := by simpa using hsplit.1
  omega

end Strconv
end Layr.Go

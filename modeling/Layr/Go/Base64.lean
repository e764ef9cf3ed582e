import Layr.Go.Io

/-!
# `base64.RawURLEncoding`

Unpadded base64 in the alphabet for URLs. Three bytes are four digits of six bits each, and one or
two bytes at the end are two or three digits. The decoder skips line ends and ignores the bits
that are left over in the last digit.
-/

namespace Layr.Go.Base64

open Io

/-- A digit of six bits. -/
def encodeDigit (n : ℕ) : Char :=
  if n < 26 then Char.ofNat ('A'.toNat + n)
  else if n < 52 then Char.ofNat ('a'.toNat + (n - 26))
  else if n < 62 then Char.ofNat ('0'.toNat + (n - 52))
  else if n = 62 then '-'
  else '_'

/-- The value of a digit. -/
def decodeDigit (c : Char) : Option ℕ :=
  if 'A' ≤ c ∧ c ≤ 'Z' then some (c.toNat - 'A'.toNat)
  else if 'a' ≤ c ∧ c ≤ 'z' then some (c.toNat - 'a'.toNat + 26)
  else if '0' ≤ c ∧ c ≤ '9' then some (c.toNat - '0'.toNat + 52)
  else if c = '-' then some 62
  else if c = '_' then some 63
  else none

/-- The values of the digits of some bytes. -/
def digits : List Byte → List ℕ
  | [] => []
  | [a] => [a.toNat / 4, a.toNat % 4 * 16]
  | [a, b] => [a.toNat / 4, a.toNat % 4 * 16 + b.toNat / 16, b.toNat % 16 * 4]
  | a :: b :: c :: rest =>
    a.toNat / 4 :: (a.toNat % 4 * 16 + b.toNat / 16) :: (b.toNat % 16 * 4 + c.toNat / 64) ::
      c.toNat % 64 :: digits rest

/-- The bytes of digits, of which the last group must not be a single one. -/
def bytes : List ℕ → Option (List Byte)
  | [] => some []
  | [_] => none
  | [i, j] => some [.ofNat (i * 4 + j / 16)]
  | [i, j, k] => some [.ofNat (i * 4 + j / 16), .ofNat (j % 16 * 16 + k / 4)]
  | i :: j :: k :: l :: rest =>
    (bytes rest).map fun tail =>
      .ofNat (i * 4 + j / 16) :: .ofNat (j % 16 * 16 + k / 4) :: .ofNat (k % 4 * 64 + l) :: tail

/-- `EncodeToString`. -/
def encodeToString (src : List Byte) : String := String.ofList ((digits src).map encodeDigit)

/-- `DecodeString`. -/
def decodeString (s : String) : Option (List Byte) :=
  ((s.toList.filter fun c => c ≠ '\r' && c ≠ '\n').mapM decodeDigit).bind bytes

/-! ## The round trip -/

theorem digits_lt (src : List Byte) : ∀ n ∈ digits src, n < 64 := by
  fun_induction digits src with
  | case1 => simp
  | case2 a =>
    have ha := a.toNat_lt
    simp only [List.forall_mem_cons, List.not_mem_nil, false_implies, implies_true, and_true]
    omega
  | case3 a b =>
    have ha := a.toNat_lt
    have hb := b.toNat_lt
    simp only [List.forall_mem_cons, List.not_mem_nil, false_implies, implies_true, and_true]
    omega
  | case4 a b c rest ih =>
    have ha := a.toNat_lt
    have hb := b.toNat_lt
    have hc := c.toNat_lt
    simp only [List.forall_mem_cons]
    exact ⟨by omega, by omega, by omega, by omega, ih⟩

theorem bytes_digits (src : List Byte) : bytes (digits src) = some src := by
  have hbyte : ∀ (byte : Byte) (n : ℕ), n = byte.toNat → UInt8.ofNat n = byte := by
    rintro byte _ rfl
    exact UInt8.ofNat_toNat
  fun_induction digits src with
  | case1 => rfl
  | case2 a =>
    have ha := a.toNat_lt
    rw [bytes, hbyte a _ (by omega)]
  | case3 a b =>
    have hb := b.toNat_lt
    rw [bytes, hbyte a _ (by omega), hbyte b _ (by omega)]
  | case4 a b c rest ih =>
    have hb := b.toNat_lt
    have hc := c.toNat_lt
    rw [bytes, ih, Option.map_some, hbyte a _ (by omega), hbyte b _ (by omega),
      hbyte c _ (by omega)]

theorem decodeDigit_encodeDigit {n : ℕ} (h : n < 64) : decodeDigit (encodeDigit n) = some n := by
  have hall : ∀ n : Fin 64, decodeDigit (encodeDigit n) = some n.val := by decide
  exact hall ⟨n, h⟩

/-- No rune that separates something elsewhere is a digit. -/
theorem encodeDigit_ne {n : ℕ} (h : n < 64) :
    encodeDigit n ∉ ['/', '@', '.', '\r', '\n'] := by
  have hall : ∀ n : Fin 64, encodeDigit n ∉ ['/', '@', '.', '\r', '\n'] := by decide
  exact hall ⟨n, h⟩

theorem not_mem_encodeToString (src : List Byte) {c : Char}
    (hc : c ∈ ['/', '@', '.', '\r', '\n']) : c ∉ (encodeToString src).toList := by
  rw [encodeToString, String.toList_ofList, List.mem_map]
  rintro ⟨n, hn, rfl⟩
  exact encodeDigit_ne (digits_lt src n hn) hc

theorem encodeToString_eq_empty_iff (src : List Byte) : encodeToString src = "" ↔ src = [] := by
  rw [← String.toList_inj, encodeToString, String.toList_ofList, String.toList_empty,
    List.map_eq_nil_iff]
  cases src with
  | nil => simp [digits]
  | cons a rest =>
    rcases rest with _ | ⟨b, _ | ⟨c, rest⟩⟩ <;> simp [digits]

theorem mapM_decodeDigit {values : List ℕ} (h : ∀ n ∈ values, n < 64) :
    (values.map encodeDigit).mapM decodeDigit = some values := by
  induction values with
  | nil => rfl
  | cons n rest ih =>
    rw [List.forall_mem_cons] at h
    rw [List.map_cons, List.mapM_cons, decodeDigit_encodeDigit h.1, ih h.2]
    rfl

/-- What was encoded is decoded again. -/
theorem decodeString_encodeToString (src : List Byte) :
    decodeString (encodeToString src) = some src := by
  have hkept : (encodeToString src).toList.filter (fun c => c ≠ '\r' && c ≠ '\n') =
      (digits src).map encodeDigit := by
    rw [List.filter_eq_self.mpr, encodeToString, String.toList_ofList]
    intro c hc
    have hreturn : c ≠ '\r' := fun heq => not_mem_encodeToString src (by simp) (heq ▸ hc)
    have hline : c ≠ '\n' := fun heq => not_mem_encodeToString src (by simp) (heq ▸ hc)
    simp [hreturn, hline]
  rw [decodeString, hkept, mapM_decodeDigit (digits_lt src), Option.bind_some, bytes_digits]

end Layr.Go.Base64

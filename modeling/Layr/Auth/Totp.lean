import Mathlib.Algebra.Order.Ring.Int
import Layr.Go.Result
import Layr.Go.Strings

/-!
# Codes of authenticator apps

A code of the second factor is accepted if it is the code of one of the time steps around the
moment. The decoder of secrets and HMAC-SHA-1 are given.
-/

namespace Layr.Auth.Totp

open Go

/-! ## The manager -/

/-- `base32` without padding, and HMAC-SHA-1 with its values of 20 bytes. -/
structure Crypto where
  decodeString : String → Except String (List UInt8)
  hmac : List UInt8 → List UInt8 → List UInt8
  length_hmac : ∀ key message, (hmac key message).length = 20

/-- What the codes of a manager depend on. -/
structure Manager where
  periodSeconds : ℤ
  digits : ℕ

def newManager : Manager := ⟨30, 6⟩

/-- `binary.BigEndian.PutUint64`. -/
def putUint64 (n : UInt64) : List UInt8 :=
  (List.range 8).reverse.map fun i => UInt8.ofNat (n.toNat / 256 ^ i)

/-- `binary.BigEndian.Uint32`. -/
def uint32 (bytes : List UInt8) : ℕ :=
  let byte i := (bytes.getD i 0).toNat
  byte 0 * 2 ^ 24 + byte 1 * 2 ^ 16 + byte 2 * 2 ^ 8 + byte 3

/-- `fmt.Sprintf("%06d", n)` of a number below a million. -/
def formatCode (n : ℕ) : String :=
  String.ofList ((List.range 6).reverse.map fun i => Nat.digitChar (n / 10 ^ i % 10))

/-- The value of a code in a hash; none for an index or a slice out of range, at which the program
panics. -/
def codeValue (hash : List UInt8) : Option ℕ := do
  let last ← hash[hash.length - 1]?
  let offset := (last &&& 0x0f).toNat
  if offset + 4 ≤ hash.length then
    some ((uint32 ((hash.drop offset).take 4) &&& 0x7fffffff) % 1000000)
  else none

variable (crypto : Crypto)

/-- `GenerateCode`, with nothing in the place of the code when it panics. -/
def Manager.generateCode (manager : Manager) (secretBase32 : String) (atTime : ℤ) :
    Except String (Option String) := do
  let secretKey ← (crypto.decodeString (Strings.toUpper (Strings.trimSpace secretBase32))).mapError
    ("invalid base32 secret: " ++ ·)
  let counter := UInt64.ofInt (atTime.tdiv manager.periodSeconds)
  return (codeValue (crypto.hmac secretKey (putUint64 counter))).map formatCode

/-- The loop of `ValidateCode` over the steps that are left. A secret that cannot be decoded ends
it. -/
def Manager.tryCodes (manager : Manager) (secretBase32 code : String) : List ℤ → Option Bool
  | step :: steps =>
    match manager.generateCode crypto secretBase32 (step * manager.periodSeconds) with
    | .error _ => some false
    | .ok none => none
    | .ok (some expectedCode) =>
      if code = expectedCode then some true else manager.tryCodes secretBase32 code steps
  | [] => some false

def Manager.validateCode (manager : Manager) (secretBase32 code : String)
    (atTime skewSteps : ℤ) : Option Bool :=
  let code := Strings.trimSpace code
  if code.utf8ByteSize ≠ manager.digits then some false
  else
    let skewSteps := if skewSteps < 0 then 1 else skewSteps
    let currentStep := atTime.tdiv manager.periodSeconds
    manager.tryCodes crypto secretBase32 code
      ((List.range (2 * skewSteps + 1).toNat).map fun i : ℕ => currentStep + (i - skewSteps))

/-! ## The codes of RFC 6238 -/

/-- A moving factor: the eight bytes of a counter, the highest first. -/
def movingFactor (counter : ℤ) : List UInt8 :=
  [7, 6, 5, 4, 3, 2, 1, 0].map fun place => .ofNat (counter.toNat / 256 ^ place % 256)

/-- Dynamic truncation: the low four bits of the last byte say where the 31 bits stand. -/
def truncated (value : List UInt8) : ℕ :=
  let offset := (value.getD 19 0).toNat % 16
  ((List.range 4).map fun i => (value.getD (offset + i) 0).toNat * 256 ^ (3 - i)).sum % 2 ^ 31

/-- The code of a time step. -/
def stepCode (secretKey : List UInt8) (step : ℤ) : String :=
  formatCode (truncated (crypto.hmac secretKey (movingFactor (step % 2 ^ 64))) % 1000000)

/-! ## Validation -/

theorem utf8ByteSize_formatCode (n : ℕ) : (formatCode n).utf8ByteSize = 6 := by
  have hdigit : ∀ d < 10, (Nat.digitChar d).utf8Size = 1 := by decide
  have hsize : ∀ m, (Nat.digitChar (m % 10)).utf8Size = 1 :=
    fun m => hdigit _ (Nat.mod_lt m (by decide))
  simp [formatCode, List.range, List.range.loop, hsize]

/-- The counter is written as a moving factor. -/
theorem putUint64_ofInt (step : ℤ) : putUint64 (.ofInt step) = movingFactor (step % 2 ^ 64) := by
  have hcounter : (UInt64.ofInt step).toNat = (step % 2 ^ 64).toNat := by
    change (UInt64.ofNat (step % 2 ^ 64).toNat).toNat = _
    rw [UInt64.toNat_ofNat']
    omega
  have hbyte : ∀ n : ℕ, UInt8.ofNat (n % 256) = UInt8.ofNat n := fun n => UInt8.ofNat_mod_size
  unfold putUint64 movingFactor
  simp only [hcounter, hbyte]
  rfl

/-- The four bytes of a number are its digits to the base 256. -/
theorem uint32_drop (value : List UInt8) (offset : ℕ) :
    uint32 (value.drop offset) =
      ((List.range 4).map fun i => (value.getD (offset + i) 0).toNat * 256 ^ (3 - i)).sum := by
  simp [uint32, List.range, List.range.loop]
  omega

/-- The bytes that are read stand in the hash. -/
theorem codeValue_eq {hash : List UInt8} (h : hash.length = 20) :
    codeValue hash = some (truncated hash % 1000000) := by
  have hoffset : ∀ last : UInt8, (last &&& 0x0f).toNat = last.toNat % 16 := fun last => by
    rw [UInt8.toNat_and]
    exact Nat.and_two_pow_sub_one_eq_mod _ 4
  have hbits : ∀ n : ℕ, n &&& 0x7fffffff = n % 2 ^ 31 := fun n =>
    Nat.and_two_pow_sub_one_eq_mod n 31
  have hlast : hash[19]? = some (hash.getD 19 0) := by simp [h]
  have hslice (offset : ℕ) : uint32 ((hash.drop offset).take 4) = uint32 (hash.drop offset) := by
    simp [uint32]
  unfold codeValue truncated
  rw [h, hlast, Option.bind_eq_bind, Option.bind_some, hoffset, if_pos (by omega), hslice, hbits,
    uint32_drop]

section

variable {crypto} {secretBase32 : String} {secretKey : List UInt8}
  (hkey : crypto.decodeString (Strings.toUpper (Strings.trimSpace secretBase32)) = .ok secretKey)

include hkey

/-- The code of a time is that of its 30-second step. -/
theorem generateCode_eq (atTime : ℤ) :
    newManager.generateCode crypto secretBase32 atTime =
      .ok (some (stepCode crypto secretKey (atTime.tdiv 30))) := by
  unfold Manager.generateCode
  rw [hkey]
  simp only [newManager, codeValue_eq (crypto.length_hmac _ _), putUint64_ofInt]
  rfl

/-- The loop accepts exactly the codes of its steps. -/
theorem tryCodes_eq (code : String) (steps : List ℤ) :
    newManager.tryCodes crypto secretBase32 code steps =
      some (decide (∃ step ∈ steps, code = stepCode crypto secretKey step)) := by
  induction steps with
  | nil => simp [Manager.tryCodes]
  | cons step steps ih =>
    have hstep : (step * newManager.periodSeconds).tdiv 30 = step :=
      Int.mul_tdiv_cancel _ (by decide)
    rw [Manager.tryCodes, generateCode_eq hkey, hstep]
    dsimp only
    split
    · rename_i hcode
      simp [hcode]
    · rename_i hcode
      simp [ih, hcode]

/-- No code is read outside of its hash, and those that are accepted are the codes of the time
steps around the moment. -/
theorem validateCode_iff (code : String) {t : ℤ} {k : ℕ} (ht : (k + 1) * 30 ≤ t) :
    (∀ atTime, ∃ code', newManager.generateCode crypto secretBase32 atTime = .ok (some code')) ∧
    (newManager.validateCode crypto secretBase32 code t k = some true ↔
      ∃ step, t / 30 - k ≤ step ∧ step ≤ t / 30 + k ∧
        Strings.trimSpace code = stepCode crypto secretKey step) := by
  refine ⟨fun atTime => ⟨_, generateCode_eq hkey atTime⟩, ?_⟩
  have hstep : t.tdiv newManager.periodSeconds = t / 30 := Int.tdiv_eq_ediv_of_nonneg (by omega)
  have hmem (step : ℤ) : step ∈ (List.range (2 * (k : ℤ) + 1).toNat).map
      (fun i : ℕ => t / 30 + ((i : ℤ) - k)) ↔ t / 30 - k ≤ step ∧ step ≤ t / 30 + k := by
    rw [List.mem_map]
    constructor
    · rintro ⟨i, hi, rfl⟩
      rw [List.mem_range] at hi
      omega
    · intro h
      exact ⟨(step - t / 30 + k).toNat, List.mem_range.mpr (by omega), by omega⟩
  unfold Manager.validateCode
  simp only [hstep, tryCodes_eq hkey, if_neg (Int.not_lt.mpr (Int.natCast_nonneg k))]
  split
  · rename_i hsize
    simp only [Option.some.injEq, false_iff, Bool.false_eq_true]
    rintro ⟨step, -, -, hcode⟩
    rw [hcode] at hsize
    exact hsize (utf8ByteSize_formatCode _)
  · simp only [Option.some.injEq, decide_eq_true_eq, hmem, and_assoc]

end

/-- A decoder that takes the bytes of a text, and a hash that is the message behind zeros. -/
def sampleCrypto : Crypto where
  decodeString text := .ok text.toUTF8.toList
  hmac _ message := ((message.reverse ++ List.replicate 20 0).take 20).reverse
  length_hmac _ _ := by simp

/-- The code of the step 271 is accepted a step later and not another one later. -/
theorem validateCode_iff_sample :
    newManager.validateCode sampleCrypto "A" " 000001 " 8160 1 = some true ∧
      newManager.validateCode sampleCrypto "A" " 000001 " 8190 1 ≠ some true := by
  have hkey : sampleCrypto.decodeString (Strings.toUpper (Strings.trimSpace "A")) =
      .ok "A".toUTF8.toList := rfl
  have hcodes : ∀ {t : ℤ}, (1 + 1) * 30 ≤ t → _ := fun ht => (validateCode_iff (k := 1) hkey
    " 000001 " ht).2
  refine ⟨(hcodes (by decide)).mpr ⟨271, by decide, by decide, by decide +kernel⟩, fun h => ?_⟩
  obtain ⟨step, hfirst, hlast, hcode⟩ := (hcodes (by decide)).mp h
  have hsteps : step = 272 ∨ step = 273 ∨ step = 274 := by omega
  revert hcode
  rcases hsteps with rfl | rfl | rfl <;> decide +kernel

end Layr.Auth.Totp

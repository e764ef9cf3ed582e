import Mathlib.Data.List.Basic
import Mathlib.Order.Monotone.Basic

/-!
# Blocks of a list

A list is cut into blocks of one size, the last of which may be shorter. Consecutive stretches of
a list join to the stretch that spans them, so the blocks that meet an interval, each trimmed to
the interval, join to what the list has there.
-/

namespace Layr.Blocks

variable {α : Type}

/-! ## Stretches -/

theorem drop_extract (l : List α) (a b k : ℕ) : (l.extract a b).drop k = l.extract (a + k) b := by
  rw [List.extract_eq_take_drop, List.extract_eq_take_drop, List.drop_take, List.drop_drop]
  congr 1
  omega

theorem take_extract (l : List α) (a b k : ℕ) :
    (l.extract a b).take k = l.extract a (min b (a + k)) := by
  rw [List.extract_eq_take_drop, List.extract_eq_take_drop, List.take_take]
  congr 1
  omega

theorem length_extract (l : List α) (a b : ℕ) :
    (l.extract a b).length = min (b - a) (l.length - a) := by
  rw [List.extract_eq_take_drop, List.length_take, List.length_drop]

/-- Two adjacent ranges make up the range over both. -/
theorem extract_append_extract (l : List α) {a b c : ℕ} (hab : a ≤ b) (hbc : b ≤ c) :
    l.extract a b ++ l.extract b c = l.extract a c := by
  have hsplit : c - a = (b - a) + (c - b) := by omega
  have hdrop : l.drop b = (l.drop a).drop (b - a) := by
    rw [List.drop_drop, Nat.add_sub_cancel' hab]
  rw [List.extract_eq_take_drop, List.extract_eq_take_drop, List.extract_eq_take_drop, hsplit,
    List.take_add, hdrop]

/-- The stretches between increasing cuts join. -/
theorem flatMap_extract (l : List α) {cut : ℕ → ℕ} (hcut : Monotone cut) (first n : ℕ) :
    ((List.range' first n).flatMap fun i => l.extract (cut i) (cut (i + 1))) =
      l.extract (cut first) (cut (first + n)) := by
  induction n generalizing first with
  | zero => simp
  | succ n ih =>
    have hle : cut first ≤ cut (first + 1) := hcut (by omega)
    have hle' : cut (first + 1) ≤ cut (first + 1 + n) := hcut (by omega)
    rw [List.range'_succ, List.flatMap_cons, ih, extract_append_extract l hle hle']
    congr 2
    omega

/-! ## Blocks -/

/-- Block `i` of the blocks of `size`. -/
def block (size : ℕ) (l : List α) (i : ℕ) : List α := l.extract (i * size) ((i + 1) * size)

/-- Behind whole blocks another one may follow. -/
theorem block_append_of_lt {size i k : ℕ} {l : List α} (l' : List α) (hl : l.length = k * size)
    (hi : i < k) : block size (l ++ l') i = block size l i := by
  have hle : (i + 1) * size ≤ l.length := hl ▸ Nat.mul_le_mul_right size hi
  have hstart : i * size ≤ (i + 1) * size := Nat.mul_le_mul_right size (Nat.le_succ i)
  rw [block, block, List.extract_eq_take_drop, List.extract_eq_take_drop,
    List.drop_append_of_le_length (hstart.trans hle), List.take_append_of_le_length]
  rw [List.length_drop]
  omega

/-- What is appended behind `k` full blocks is block `k`. -/
theorem block_append_self {size k : ℕ} {l l' : List α} (hl : l.length = k * size)
    (hl' : l'.length ≤ size) : block size (l ++ l') k = l' := by
  rw [block, List.extract_eq_take_drop, List.drop_left' hl, ← Nat.sub_mul, Nat.add_sub_cancel_left,
    Nat.one_mul, List.take_of_length_le hl']

/-- Where the blocks are cut when only the positions from `lo` up to `hi` are wanted. -/
def cutAt (size lo hi i : ℕ) : ℕ := max lo (min hi (i * size))

theorem monotone_cutAt (size lo hi : ℕ) : Monotone (cutAt size lo hi) := by
  intro i j hij
  have hmul : i * size ≤ j * size := Nat.mul_le_mul_right size hij
  unfold cutAt
  omega

/-- The blocks that meet an interval, trimmed to it, join to the interval. -/
theorem flatMap_trimmed (l : List α) {size lo last : ℕ} (hsize : 0 < size) (hle : lo ≤ last) :
    ((List.range' (lo / size) (last / size + 1 - lo / size)).flatMap fun i =>
      l.extract (cutAt size lo (last + 1) i) (cutAt size lo (last + 1) (i + 1))) =
      l.extract lo (last + 1) := by
  have hdiv : lo / size ≤ last / size := Nat.div_le_div_right hle
  have hlo : lo / size * size ≤ lo := Nat.div_mul_le_self lo size
  have hlast : last < (last / size + 1) * size := by
    rw [Nat.mul_comm]
    exact Nat.lt_mul_div_succ last hsize
  have hspan : lo / size + (last / size + 1 - lo / size) = last / size + 1 := by omega
  rw [flatMap_extract l (monotone_cutAt size lo (last + 1)), hspan]
  unfold cutAt
  congr 1 <;> omega

end Layr.Blocks

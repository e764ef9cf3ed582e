import Mathlib.Data.List.Basic

/-!
# Readers

What the code uses of package `io`: a reader hands over its content in pieces of its own choice,
and `ReadFull` collects pieces until a buffer is full.
-/

namespace Layr.Go.Io

abbrev Byte := UInt8

inductive ReadError
  | eof
  | unexpectedEOF
  | failed (message : String)
  deriving DecidableEq, Repr

/-- A reader by what its `Read` returns call after call: the pieces of its content, each of them cut
further when the buffer is smaller, and then its final error. A reader may return the final
error already with the last piece. -/
structure Reader where
  pieces : List (List Byte)
  final : ReadError
  early : Bool
  deriving DecidableEq, Repr

def Reader.content (reader : Reader) : List Byte := reader.pieces.flatten

/-- The loop of `ReadAtLeast`: read until `n` bytes are there or `Read` returns an error. -/
def readLoop (final : ReadError) (early : Bool) :
    List (List Byte) → ℕ → List Byte × Option ReadError × List (List Byte)
  | pieces, 0 => ([], none, pieces)
  | [], _ + 1 => ([], some final, [])
  | piece :: pieces, n + 1 =>
    -- the buffer takes a part of the piece, and the rest waits for the next call
    if n + 1 < piece.length then (piece.take (n + 1), none, piece.drop (n + 1) :: pieces)
    else if early && pieces.isEmpty then (piece, some final, [])
    else
      let next := readLoop final early pieces (n + 1 - piece.length)
      (piece ++ next.1, next.2)

/-- `io.ReadFull` into a buffer of `n` bytes. -/
def Reader.readFull (reader : Reader) (n : ℕ) : List Byte × Option ReadError × Reader :=
  let read := readLoop reader.final reader.early reader.pieces n
  let error :=
    if n ≤ read.1.length then none
    else if read.1 ≠ [] ∧ read.2.1 = some .eof then some .unexpectedEOF
    else read.2.1
  (read.1, error, { reader with pieces := read.2.2 })

/-- However the content is cut, a loop takes its first `n` bytes and leaves the others; when there
are fewer it ends with the reader's error. -/
theorem readLoop_spec (final : ReadError) (early : Bool) (pieces : List (List Byte)) (n : ℕ) :
    (readLoop final early pieces n).1 = pieces.flatten.take n ∧
      (readLoop final early pieces n).2.2.flatten = pieces.flatten.drop n ∧
      (pieces.flatten.length < n → (readLoop final early pieces n).2.1 = some final) := by
  fun_induction readLoop final early pieces n with
  | case1 | case2 => simp
  | case3 piece pieces n hpart =>
    have hle := Nat.le_of_lt hpart
    simp only [List.flatten_cons, List.length_append, List.take_append_of_le_length hle,
      List.drop_append_of_le_length hle, true_and]
    omega
  | case4 piece pieces n hpart hearly =>
    obtain rfl : pieces = [] := by simpa using (Bool.and_eq_true_iff.mp hearly).2
    simp [List.take_of_length_le (Nat.not_lt.mp hpart), Nat.not_lt.mp hpart]
  | case5 piece pieces n hpart hearly next ih =>
    have hle := Nat.not_lt.mp hpart
    obtain ⟨hbytes, hrest, herror⟩ := ih
    simp only [List.flatten_cons, List.take_append, List.drop_append, List.take_of_length_le hle,
      List.drop_eq_nil_of_le hle, List.nil_append, List.length_append]
    exact ⟨congrArg (piece ++ ·) hbytes, hrest, fun hlt => herror (by omega)⟩

section ReadFull

variable (reader : Reader) (n : ℕ)

@[simp] theorem readFull_bytes : (reader.readFull n).1 = reader.content.take n :=
  (readLoop_spec reader.final reader.early reader.pieces n).1

@[simp] theorem content_readFull : (reader.readFull n).2.2.content = reader.content.drop n :=
  (readLoop_spec reader.final reader.early reader.pieces n).2.1

@[simp] theorem final_readFull : (reader.readFull n).2.2.final = reader.final := rfl

/-- A full buffer is no error. -/
theorem readFull_error_of_le (h : n ≤ reader.content.length) : (reader.readFull n).2.1 = none := by
  have hbytes := (readLoop_spec reader.final reader.early reader.pieces n).1
  apply if_pos
  rw [hbytes, List.length_take, ← Reader.content]
  omega

/-- A buffer that was not filled comes with the reader's error, which is the unexpected end of data
when the reader just ended after some bytes. -/
theorem readFull_error_of_lt (h : reader.content.length < n) :
    (reader.readFull n).2.1 =
      some (if reader.content ≠ [] ∧ reader.final = .eof then .unexpectedEOF
        else reader.final) := by
  obtain ⟨hbytes, -, herror⟩ := readLoop_spec reader.final reader.early reader.pieces n
  have hall : reader.content.take n = reader.content := List.take_of_length_le (Nat.le_of_lt h)
  have hshort : ¬ n ≤ (reader.content.take n).length := by
    rw [hall]
    omega
  unfold Reader.readFull
  dsimp only
  rw [hbytes, herror h, ← Reader.content, if_neg hshort, hall]
  simp only [Option.some.injEq]
  split <;> rfl

end ReadFull

end Layr.Go.Io

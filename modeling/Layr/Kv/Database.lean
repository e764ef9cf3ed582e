import Layr.Go.Strconv
import Layr.Kv.Driver

/-!
# The database driver (`core/kvstore_database.go`)

`core.kv_store` holds a row for each key, expired rows included until a sweep removes them. Every
statement compares `expires_at` with `clock_timestamp()`, in microseconds. Keys are of the type
`TEXT`, which cannot hold the null character, and counters are cast to `bigint`.
-/

namespace Layr.Kv

open Go

namespace Postgres

/-- `isspace` in the C locale. -/
def isBlank (c : Char) : Bool := c = ' ' || (9 ≤ c.toNat && c.toNat ≤ 13)

/-- The value of a digit in a base. -/
def digitValue (base : ℕ) (c : Char) : Option ℕ :=
  let value :=
    if c.isDigit then c.toNat - 48
    else if 'a' ≤ c ∧ c ≤ 'z' then c.toNat - 87
    else if 'A' ≤ c ∧ c ≤ 'Z' then c.toNat - 55
    else base
  if value < base then some value else none

/-- A run of digits, in which underscores may stand in front of digits, and what follows it. -/
def readDigits (base value : ℕ) : List Char → Option (ℕ × List Char)
  | [] => some (value, [])
  | '_' :: [] => none
  | '_' :: c :: rest => (digitValue base c).bind
      fun digit => readDigits base (value * base + digit) rest
  | c :: rest =>
    match digitValue base c with
    | some digit => readDigits base (value * base + digit) rest
    | none => some (value, c :: rest)

/-- The digits of an integer literal: decimal ones start with a digit, the others follow their
base. -/
def readMagnitude : List Char → Option (ℕ × List Char)
  | '0' :: 'x' :: c :: rest => readDigits 16 0 (c :: rest)
  | '0' :: 'X' :: c :: rest => readDigits 16 0 (c :: rest)
  | '0' :: 'o' :: c :: rest => readDigits 8 0 (c :: rest)
  | '0' :: 'O' :: c :: rest => readDigits 8 0 (c :: rest)
  | '0' :: 'b' :: c :: rest => readDigits 2 0 (c :: rest)
  | '0' :: 'B' :: c :: rest => readDigits 2 0 (c :: rest)
  | c :: rest => if c.isDigit then readDigits 10 0 (c :: rest) else none
  | [] => none

/-- `text::bigint`. -/
def parseBigint (text : String) : Option ℤ :=
  let (negative, digits) := Strconv.splitSign (text.toList.dropWhile isBlank)
  (readMagnitude digits).bind fun (magnitude, rest) =>
    let value : ℤ := if negative then -magnitude else magnitude
    if rest.all isBlank ∧ -2 ^ 63 ≤ value ∧ value < 2 ^ 63 then some value else none

/-- A string that the type `TEXT` can hold. -/
def isText (text : String) : Bool := !text.toList.contains (Char.ofNat 0)

/-- `n::text`. -/
def bigintText (n : ℤ) : String := String.ofList (Strconv.formatInt n)

theorem bigintText_injective : Function.Injective bigintText := by
  intro n m h
  exact Strconv.formatInt_injective (String.ofList_injective h)

/-- Decimal digits are read to their end. -/
theorem readDigits_of_isDigit {digits : List Char} (h : ∀ c ∈ digits, c.isDigit) (value : ℕ) :
    readDigits 10 value digits = some (Nat.ofDigitChars 10 digits value, []) := by
  induction digits generalizing value with
  | nil => rfl
  | cons c digits ih =>
    have hc : c.isDigit := h c (by simp)
    have hunderscore : c ≠ '_' := Strconv.ne_of_isDigit hc (by decide)
    have hlt : c.toNat - 48 < 10 := by
      have hrange : c.toNat ≤ 57 := (Char.isDigit_iff_toNat.mp hc).2
      omega
    have hvalue : digitValue 10 c = some (c.toNat - 48) := by
      simp only [digitValue, hc, if_true, if_pos hlt]
    rw [readDigits, hvalue]
    · show readDigits 10 (value * 10 + (c.toNat - 48)) digits = _
      rw [ih (fun d hd => h d (by simp [hd])), Nat.ofDigitChars_cons, Nat.mul_comm value]
      rfl
    · intro hc'
      exact absurd hc' hunderscore
    · intro d rest hc'
      exact absurd hc' hunderscore

theorem isBlank_of_isDigit {c : Char} (h : c.isDigit) : isBlank c = false := by
  have hrange : 48 ≤ c.toNat := (Char.isDigit_iff_toNat.mp h).1
  have hspace : c ≠ ' ' := Strconv.ne_of_isDigit h (by decide)
  have htab : ¬c.toNat ≤ 13 := by omega
  simp [isBlank, hspace, htab]

/-- The digits of a number hold no letter that names a base. -/
theorem readMagnitude_toDigits (n : ℕ) : readMagnitude (Nat.toDigits 10 n) = some (n, []) := by
  obtain ⟨first, digits, hlist, hfirst, hdigits⟩ := Strconv.toDigits_cases n
  have hread : readDigits 10 0 (Nat.toDigits 10 n) = some (n, []) := by
    rw [readDigits_of_isDigit hdigits, Nat.ofDigitChars_toDigits (by decide) (by decide)]
  rw [hlist] at hread hdigits ⊢
  rw [readMagnitude, if_pos hfirst, hread]
  all_goals
    rintro c rest - rfl
    have hletter := hdigits _ (List.mem_cons_of_mem _ List.mem_cons_self)
    exact absurd hletter (by decide)

/-- A number that fits into 64 bits is read back from its text. -/
theorem parseBigint_bigintText {n : ℤ} (h : -2 ^ 63 ≤ n ∧ n < 2 ^ 63) :
    parseBigint (bigintText n) = some n := by
  obtain ⟨first, runes, hlist, hfirst, -⟩ := Strconv.formatInt_cases n
  have hstart : (Strconv.formatInt n).dropWhile isBlank = Strconv.formatInt n := by
    have hblank : isBlank first = false := by
      rcases hfirst with hdigit | rfl
      · exact isBlank_of_isDigit hdigit
      · decide
    rw [hlist, List.dropWhile_cons_of_neg (by simp [hblank])]
  have hsign : (if decide (n < 0) = true then -(n.natAbs : ℤ) else n.natAbs) = n := by
    by_cases hneg : n < 0
    · rw [if_pos (decide_eq_true hneg)]
      omega
    · rw [if_neg (by simpa using hneg)]
      omega
  unfold parseBigint bigintText
  rw [String.toList_ofList, hstart]
  simp only [Strconv.splitSign_formatInt, readMagnitude_toDigits, Option.bind_some, hsign]
  exact if_pos ⟨rfl, h⟩

end Postgres

namespace Database

open Postgres

/-- A row of `core.kv_store`. -/
structure Row where
  value : String
  expiresAt : ℤ
deriving DecidableEq, Repr

/-- The rows by their keys. -/
abbrev Table := GoMap Row

variable {key : String} {table table' : Table} {now : ℤ}

/-- `defaultKeyExpiry`, 24 hours. -/
def defaultKeyExpiry : ℤ := 86400000000000

/-- `expires_at > clock_timestamp()`. -/
def Row.isAlive (now : ℤ) (row : Row) : Bool := row.expiresAt > now

/-- `clock_timestamp() + interval`, where the interval is the duration in microseconds, or the
default one when the duration is not positive. -/
def expiresAt (now expiry : ℤ) : ℤ :=
  now + (if expiry ≤ 0 then defaultKeyExpiry else expiry).tdiv 1000

/-- The row of a key that is still alive. -/
def aliveRow (now : ℤ) (table : Table) (key : String) : Option Row :=
  (table.get key).filter (·.isAlive now)

/-- `Get`. -/
def get (now : ℤ) (table : Table) (key : String) : Except StoreError String :=
  if isText key then
    match aliveRow now table key with
    | some row => .ok row.value
    | none => .error .keyNotFound
  else .error (.failed ("failed to get kv key '" ++ key ++ "'"))

/-- `MGet`. -/
def mget (now : ℤ) (table : Table) (keys : List String) : Except StoreError (GoMap String) :=
  if keys = [] then .ok []
  else if keys.all isText then
    .ok (GoMap.sorted (GoMap.mapValues Row.value
      (table.entries.filter fun e => keys.contains e.1 && e.2.isAlive now)))
  else .error (.failed "failed to mget kv keys")

/-- `Set`. -/
def set (now : ℤ) (table : Table) (key value : String) (expiry : ℤ) :
    Except StoreError Unit × Table :=
  if isText key then (.ok (), table.set key ⟨value, expiresAt now expiry⟩)
  else (.error (.failed ("failed to set kv key '" ++ key ++ "'")), table)

/-- `MSet`. -/
def mset (now : ℤ) (table : Table) (entries : GoMap String) (expiry : ℤ) :
    Except StoreError Unit × Table :=
  if entries = [] then (.ok (), table)
  else if entries.all fun e => isText e.1 then
    (.ok (), entries.entries.foldl
      (fun table e => table.set e.1 ⟨e.2, expiresAt now expiry⟩) table)
  else (.error (.failed "failed to mset kv pairs"), table)

/-- `SetNX`: the conflicting row is only updated when it has expired. -/
def setNX (now : ℤ) (table : Table) (key value : String) (expiry : ℤ) :
    Except StoreError Bool × Table :=
  if isText key then
    match aliveRow now table key with
    | some _ => (.ok false, table)
    | none => (.ok true, table.set key ⟨value, expiresAt now expiry⟩)
  else (.error (.failed ("failed to setnx kv key '" ++ key ++ "'")), table)

/-- `Delete`. -/
def delete (table : Table) (key : String) : Except StoreError Unit × Table :=
  if isText key then (.ok (), table.filter fun e => e.1 ≠ key)
  else (.error (.failed ("failed to delete kv key '" ++ key ++ "'")), table)

/-- The counter after `IncrementBy`: a row that is alive is added to, any other starts anew. -/
def incremented (now : ℤ) (table : Table) (key : String) (delta : ℤ) : Option ℤ :=
  match aliveRow now table key with
  | some row =>
    (parseBigint row.value).bind fun count =>
      if -2 ^ 63 ≤ count + delta ∧ count + delta < 2 ^ 63 then some (count + delta) else none
  | none => some delta

/-- `IncrementBy`. -/
def incrementBy (now : ℤ) (table : Table) (key : String) (delta expiry : ℤ) :
    Except StoreError ℤ × Table :=
  let failure := StoreError.failed ("failed to increment kv key '" ++ key ++ "'")
  if isText key then
    match incremented now table key delta with
    | some count => (.ok count, table.set key ⟨bigintText count, expiresAt now expiry⟩)
    | none => (.error failure, table)
  else (.error failure, table)

/-- `Increment`. -/
def increment (now : ℤ) (table : Table) (key : String) (expiry : ℤ) :
    Except StoreError ℤ × Table :=
  incrementBy now table key 1 expiry

/-- `Expire`. -/
def expire (now : ℤ) (table : Table) (key : String) (expiry : ℤ) :
    Except StoreError Unit × Table :=
  if isText key then
    match aliveRow now table key with
    | some row => (.ok (), table.set key { row with expiresAt := expiresAt now expiry })
    | none => (.error .keyNotFound, table)
  else (.error (.failed ("failed to expire kv key '" ++ key ++ "'")), table)

/-- `Sweep`. -/
def sweep (now : ℤ) (table : Table) : Table := table.entries.filter fun e => e.2.isAlive now

/-- One call of the driver. -/
def call (now : ℤ) (table : Table) : Operation → Reply × Table
  | .get key => (.value (get now table key), table)
  | .mget keys => (.entries (mget now table keys), table)
  | .set key value expiry => (set now table key value expiry).map .done id
  | .mset entries expiry => (mset now table entries expiry).map .done id
  | .setNX key value expiry => (setNX now table key value expiry).map .created id
  | .delete key => (delete table key).map .done id
  | .increment key expiry => (increment now table key expiry).map .count id
  | .incrementBy key delta expiry => (incrementBy now table key delta expiry).map .count id
  | .expire key expiry => (expire now table key expiry).map .done id

/-! ## What the calls change -/

theorem get_sweep (now : ℤ) (table : Table) (key : String) :
    (sweep now table).get key = aliveRow now table key :=
  GoMap.get_filter_entries key table fun _ row => row.isAlive now

theorem aliveRow_eq_some {row : Row} :
    aliveRow now table key = some row ↔ table.get key = some row ∧ now < row.expiresAt := by
  rw [aliveRow, Option.filter_eq_some_iff]
  simp [Row.isAlive]

/-- Time that passes ends rows and brings none back. -/
theorem aliveRow_later {later : ℤ} (hle : now ≤ later) (table : Table) (key : String) :
    aliveRow later table key =
      (aliveRow now table key).filter (·.isAlive later) := by
  rw [aliveRow, aliveRow, Option.filter_filter]
  congr 1
  funext row
  simp only [Row.isAlive, ← Bool.decide_and]
  congr 1
  apply propext
  omega

/-- A value that is read is that of a row which is alive. -/
theorem aliveRow_of_get {value : String} (h : get now table key = .ok value) :
    ∃ row, aliveRow now table key = some row := by
  unfold get at h
  split at h
  · cases halive : aliveRow now table key with
    | none => rw [halive] at h; cases h
    | some row => exact ⟨row, rfl⟩
  · cases h

theorem get_delete (table : Table) (hkey : isText key) (key' : String) :
    (delete table key).2.get key' = if key' = key then none else table.get key' := by
  rw [delete, if_pos hkey]
  exact GoMap.get_filter_ne key' key table

theorem aliveRow_congr (h : table.get key = table'.get key) :
    aliveRow now table key = aliveRow now table' key := by
  rw [aliveRow, aliveRow, h]

theorem incremented_congr (h : aliveRow now table key = aliveRow now table' key) (delta : ℤ) :
    incremented now table key delta = incremented now table' key delta := by
  rw [incremented, incremented, h]

/-- What `MGet` finds depends on the live rows of its keys only. -/
theorem mget_congr {now : ℤ} {table table' : Table} {keys : List String}
    (h : ∀ key ∈ keys, aliveRow now table key = aliveRow now table' key) :
    mget now table keys = mget now table' keys := by
  have hsorted : GoMap.sorted (GoMap.mapValues Row.value
        (table.entries.filter fun e => keys.contains e.1 && e.2.isAlive now)) =
      GoMap.sorted (GoMap.mapValues Row.value
        (table'.entries.filter fun e => keys.contains e.1 && e.2.isAlive now)) := by
    apply GoMap.sorted_eq_of_get_eq
    intro key
    rw [GoMap.get_mapValues, GoMap.get_mapValues,
      GoMap.get_filter_entries key table fun k row => keys.contains k && row.isAlive now,
      GoMap.get_filter_entries key table' fun k row => keys.contains k && row.isAlive now]
    by_cases hmem : key ∈ keys
    · have hrow := h key hmem
      unfold aliveRow at hrow
      simp only [List.contains_iff_mem.mpr hmem, Bool.true_and]
      rw [hrow]
    · simp [hmem]
  rw [mget, mget, hsorted]

variable {operation : Operation}

/-- A call reads live rows of its keys, and sets and deletes rows of its keys. On tables with the
same live rows there, it returns the same and keeps what such writes keep. -/
theorem call_rel {R : Table → Table → Prop}
    (hset : ∀ {table table'}, ∀ key ∈ operation.keys, ∀ row, R table table' →
      R (table.set key row) (table'.set key row))
    (hdelete : ∀ {table table'}, ∀ key ∈ operation.keys, R table table' →
      R (table.filter fun e => e.1 ≠ key) (table'.filter fun e => e.1 ≠ key))
    (hlive : ∀ key ∈ operation.keys, aliveRow now table key = aliveRow now table' key)
    (h : R table table') :
    (call now table operation).1 = (call now table' operation).1 ∧
      R (call now table operation).2 (call now table' operation).2 := by
  -- every operation reads rows by `aliveRow` only and writes by `hset` and `hdelete`
  cases operation with
  | get key => exact ⟨by simp only [call, get, hlive key List.mem_cons_self], h⟩
  | mget keys => exact ⟨congrArg Reply.entries (mget_congr hlive), h⟩
  | set key =>
    simp only [call, set]
    split
    · exact ⟨rfl, hset key List.mem_cons_self _ h⟩
    · exact ⟨rfl, h⟩
  | mset =>
    simp only [call, mset]
    split
    · exact ⟨rfl, h⟩
    split
    · exact ⟨rfl, List.foldl_rel h fun e he _ _ => hset e.1 (List.mem_map_of_mem he) _⟩
    · exact ⟨rfl, h⟩
  | setNX key =>
    simp only [call, setNX, hlive key List.mem_cons_self]
    split
    · split
      · exact ⟨rfl, h⟩
      · exact ⟨rfl, hset key List.mem_cons_self _ h⟩
    · exact ⟨rfl, h⟩
  | delete key =>
    simp only [call, delete]
    split
    · exact ⟨rfl, hdelete key List.mem_cons_self h⟩
    · exact ⟨rfl, h⟩
  | increment key expiry | incrementBy key delta expiry =>
    simp only [call, increment, incrementBy, incremented_congr (hlive key List.mem_cons_self)]
    split
    · split
      · exact ⟨rfl, hset key List.mem_cons_self _ h⟩
      · exact ⟨rfl, h⟩
    · exact ⟨rfl, h⟩
  | expire key expiry =>
    simp only [call, expire, hlive key List.mem_cons_self]
    split
    · split
      · exact ⟨rfl, hset key List.mem_cons_self _ h⟩
      · exact ⟨rfl, h⟩
    · exact ⟨rfl, h⟩

/-- A call changes no row but those of its keys. -/
theorem get_call_of_notMem (now : ℤ) (table : Table) {key : String} (h : key ∉ operation.keys) :
    (call now table operation).2.get key = table.get key := by
  have hne : ∀ changed ∈ operation.keys, key ≠ changed := by
    rintro changed hchanged rfl
    exact h hchanged
  refine (call_rel (R := fun after _ => after.get key = table.get key) ?_ ?_ (fun _ _ => rfl) rfl).2
  · intro before _ changed hchanged row hbefore
    rw [GoMap.get_set, if_neg (hne changed hchanged), hbefore]
  · intro before _ changed hchanged hbefore
    show GoMap.get key (before.filter _) = _
    rw [GoMap.get_filter_ne, if_neg (hne changed hchanged), hbefore]

theorem get_incrementBy_of_ne (now : ℤ) (table : Table) {key' : String} (hne : key' ≠ key)
    (delta expiry : ℤ) : (incrementBy now table key delta expiry).2.get key' = table.get key' := by
  have hkey : key' ∉ (Operation.incrementBy key delta expiry).keys := by
    simpa [Operation.keys] using hne
  exact get_call_of_notMem now table hkey

/-- What a call returns and leaves under its keys depends on the rows of its keys only. -/
theorem call_congr (now : ℤ) {table table' : Table}
    (h : ∀ key ∈ operation.keys, table.get key = table'.get key) :
    (call now table operation).1 = (call now table' operation).1 ∧
      ∀ key, table.get key = table'.get key →
        (call now table operation).2.get key = (call now table' operation).2.get key := by
  refine call_rel (R := fun after after' => ∀ key, table.get key = table'.get key →
    after.get key = after'.get key) ?_ ?_ (fun key hkey => aliveRow_congr (h key hkey)) fun _ => id
  · intro after after' changed _ row hafter key hkey
    rw [GoMap.get_set, GoMap.get_set, hafter key hkey]
  · intro after after' changed _ hafter key hkey
    show GoMap.get key (after.filter _) = GoMap.get key (after'.filter _)
    rw [GoMap.get_filter_ne, GoMap.get_filter_ne, hafter key hkey]

end Database

end Layr.Kv

import Layr.Kv.Database

/-!
# The Redis driver (`core/kvstore_redis.go`)

The commands that the driver sends, by their documented semantics: a key with a deadline is gone
once the deadline has come, `SET` without an option drops the deadline, `INCRBY` keeps it and
`EXPIRE` with no time left deletes the key. In front of them stands what the client library makes
of a Go duration. The clock is in microseconds.
-/

namespace Layr.Kv

open Go

namespace Redis

/-- A value and its time to live. -/
structure Entry where
  value : String
  deadline : Option ℤ
deriving DecidableEq, Repr

abbrev Keyspace := GoMap Entry

def Entry.isAlive (now : ℤ) (entry : Entry) : Bool :=
  match entry.deadline with
  | some deadline => now < deadline
  | none => true

/-- The entry of a key that exists. -/
def find (now : ℤ) (keyspace : Keyspace) (key : String) : Option Entry :=
  (keyspace.get key).filter (·.isAlive now)

/-! ## Commands -/

/-- The range of the counters. -/
def isInt64 (n : ℤ) : Bool := -2 ^ 63 ≤ n && n < 2 ^ 63

/-- A value that is an integer: the texts that 64-bit integers are printed as, and no others. -/
def readInteger (value : String) : Option ℤ :=
  (Strconv.parseInt value.toList).filter fun n => decide (Postgres.bigintText n = value)

/-- The options of `SET` about the time to live. -/
inductive SetOption
  | discard
  | keepTTL
  | px (milliseconds : ℤ)
  | ex (seconds : ℤ)
deriving DecidableEq, Repr

/-- The deadline that `SET` gives to a key; a time that is not positive is an error. -/
def SetOption.deadline (now : ℤ) (current : Option Entry) : SetOption → Option (Option ℤ)
  | discard => some none
  | keepTTL => some (current.bind Entry.deadline)
  | px milliseconds =>
    if 0 < milliseconds then some (some (now + milliseconds * 1000)) else none
  | ex seconds => if 0 < seconds then some (some (now + seconds * 1000000)) else none

/-- `SET key value option`. -/
def setCommand (now : ℤ) (keyspace : Keyspace) (key value : String) (option : SetOption) :
    Option Keyspace :=
  (option.deadline now (find now keyspace key)).map fun deadline =>
    keyspace.set key ⟨value, deadline⟩

/-- `SET key value option NX`. -/
def setNXCommand (now : ℤ) (keyspace : Keyspace) (key value : String) (option : SetOption) :
    Option (Bool × Keyspace) :=
  (option.deadline now (find now keyspace key)).map fun deadline =>
    match find now keyspace key with
    | some _ => (false, keyspace)
    | none => (true, keyspace.set key ⟨value, deadline⟩)

/-- `INCRBY key delta`. -/
def incrByCommand (now : ℤ) (keyspace : Keyspace) (key : String) (delta : ℤ) :
    Option (ℤ × Keyspace) :=
  let current := find now keyspace key
  (current.elim (some 0) fun entry => readInteger entry.value).bind fun count =>
    if isInt64 (count + delta) then
      some (count + delta,
        keyspace.set key ⟨Postgres.bigintText (count + delta), current.bind Entry.deadline⟩)
    else none

/-- `DEL key`. -/
def delCommand (keyspace : Keyspace) (key : String) : Keyspace :=
  keyspace.filter fun e => e.1 ≠ key

/-- `EXPIRE key seconds`. -/
def expireCommand (now : ℤ) (keyspace : Keyspace) (key : String) (seconds : ℤ) :
    Bool × Keyspace :=
  match find now keyspace key with
  | some entry =>
    if 0 < seconds then
      (true, keyspace.set key { entry with deadline := some (now + seconds * 1000000) })
    else (true, delCommand keyspace key)
  | none => (false, keyspace)

/-! ## Durations of the client library -/

def millisecond : ℤ := 1000000

def second : ℤ := 1000000000

def usePrecise (duration : ℤ) : Bool := duration < second || duration.tmod second ≠ 0

def formatMs (duration : ℤ) : ℤ :=
  if 0 < duration ∧ duration < millisecond then 1 else duration.tdiv millisecond

def formatSec (duration : ℤ) : ℤ :=
  if 0 < duration ∧ duration < second then 1 else duration.tdiv second

/-- The time to live in the unit the client picks. -/
def ttlOption (expiry : ℤ) : SetOption :=
  if usePrecise expiry then .px (formatMs expiry) else .ex (formatSec expiry)

/-- The options of the client's `Set`, where one nanosecond less than zero is `KeepTTL`. -/
def setOption (expiry : ℤ) : SetOption :=
  if 0 < expiry then ttlOption expiry else if expiry = -1 then .keepTTL else .discard

/-- The options of the client's `SetNX`. -/
def setNXOption (expiry : ℤ) : SetOption :=
  if expiry = 0 then .discard else if expiry = -1 then .keepTTL else ttlOption expiry

/-! ## The driver -/

/-- `Get`. -/
def get (now : ℤ) (keyspace : Keyspace) (key : String) : Except StoreError String :=
  match find now keyspace key with
  | some entry => .ok entry.value
  | none => .error .keyNotFound

/-- `MGet`. -/
def mget (now : ℤ) (keyspace : Keyspace) (keys : List String) :
    Except StoreError (GoMap String) :=
  if keys = [] then .ok []
  else
    .ok (GoMap.sorted (keys.foldl (fun result key =>
      match find now keyspace key with
      | some entry => result.set key entry.value
      | none => result) []))

/-- `Set`. -/
def set (now : ℤ) (keyspace : Keyspace) (key value : String) (expiry : ℤ) :
    Except StoreError Unit × Keyspace :=
  match setCommand now keyspace key value (setOption expiry) with
  | some keyspace => (.ok (), keyspace)
  | none => (.error (.failed ("failed to set redis key '" ++ key ++ "'")), keyspace)

/-- The pipeline of `MSet`: every command runs, and one that fails makes the call fail. -/
def setAll (now : ℤ) (option : SetOption) :
    List (String × String) → Bool × Keyspace → Bool × Keyspace
  | [], result => result
  | e :: entries, (failed, keyspace) =>
    match setCommand now keyspace e.1 e.2 option with
    | some keyspace => setAll now option entries (failed, keyspace)
    | none => setAll now option entries (true, keyspace)

/-- `MSet`. -/
def mset (now : ℤ) (keyspace : Keyspace) (entries : GoMap String) (expiry : ℤ) :
    Except StoreError Unit × Keyspace :=
  if entries = [] then (.ok (), keyspace)
  else
    match setAll now (setOption expiry) entries.entries (false, keyspace) with
    | (false, keyspace) => (.ok (), keyspace)
    | (true, keyspace) => (.error (.failed "failed to mset redis pairs"), keyspace)

/-- `SetNX`. -/
def setNX (now : ℤ) (keyspace : Keyspace) (key value : String) (expiry : ℤ) :
    Except StoreError Bool × Keyspace :=
  match setNXCommand now keyspace key value (setNXOption expiry) with
  | some (created, keyspace) => (.ok created, keyspace)
  | none => (.error (.failed ("failed to setnx redis key '" ++ key ++ "'")), keyspace)

/-- `Delete`. -/
def delete (keyspace : Keyspace) (key : String) : Except StoreError Unit × Keyspace :=
  (.ok (), delCommand keyspace key)

/-- `IncrementBy`: the pipeline sends `EXPIRE` also behind an `INCRBY` that fails. -/
def incrementBy (now : ℤ) (keyspace : Keyspace) (key : String) (delta expiry : ℤ) :
    Except StoreError ℤ × Keyspace :=
  let expired := fun keyspace =>
    if 0 < expiry then (expireCommand now keyspace key (formatSec expiry)).2 else keyspace
  match incrByCommand now keyspace key delta with
  | some (count, keyspace) => (.ok count, expired keyspace)
  | none => (.error (.failed ("failed to increment redis key '" ++ key ++ "'")), expired keyspace)

/-- `Increment`. -/
def increment (now : ℤ) (keyspace : Keyspace) (key : String) (expiry : ℤ) :
    Except StoreError ℤ × Keyspace :=
  incrementBy now keyspace key 1 expiry

/-- `Expire`. -/
def expire (now : ℤ) (keyspace : Keyspace) (key : String) (expiry : ℤ) :
    Except StoreError Unit × Keyspace :=
  match expireCommand now keyspace key (formatSec expiry) with
  | (true, keyspace) => (.ok (), keyspace)
  | (false, keyspace) => (.error .keyNotFound, keyspace)

/-- One call of the driver. -/
def call (now : ℤ) (keyspace : Keyspace) : Operation → Reply × Keyspace
  | .get key => (.value (get now keyspace key), keyspace)
  | .mget keys => (.entries (mget now keyspace keys), keyspace)
  | .set key value expiry => (set now keyspace key value expiry).map .done id
  | .mset entries expiry => (mset now keyspace entries expiry).map .done id
  | .setNX key value expiry => (setNX now keyspace key value expiry).map .created id
  | .delete key => (delete keyspace key).map .done id
  | .increment key expiry => (increment now keyspace key expiry).map .count id
  | .incrementBy key delta expiry => (incrementBy now keyspace key delta expiry).map .count id
  | .expire key expiry => (expire now keyspace key expiry).map .done id

/-! ## Values and durations -/

variable {n : ℤ}

theorem readInteger_eq_some {value : String} (h : readInteger value = some n) :
    value = Postgres.bigintText n ∧ -2 ^ 63 ≤ n ∧ n < 2 ^ 63 := by
  obtain ⟨hparse, hprint⟩ := Option.filter_eq_some_iff.mp h
  refine ⟨(of_decide_eq_true hprint).symm, ?_⟩
  obtain ⟨magnitude, -, hvalue⟩ := Option.bind_eq_some_iff.mp hparse
  obtain ⟨hrange, heq⟩ := Option.ite_none_right_eq_some.mp hvalue
  rw [Option.some.inj heq] at hrange
  exact hrange

/-- A positive number of whole seconds is sent as it is. -/
theorem formatSec_mul (h : 0 < n) : formatSec (n * second) = n := by
  have hlarge : ¬(0 < n * second ∧ n * second < second) := by
    unfold second
    omega
  rw [formatSec, if_neg hlarge, Int.mul_tdiv_cancel _ (by decide)]

theorem formatMs_mul (h : 0 < n) : formatMs (n * millisecond) = n := by
  have hlarge : ¬(0 < n * millisecond ∧ n * millisecond < millisecond) := by
    unfold millisecond
    omega
  rw [formatMs, if_neg hlarge, Int.mul_tdiv_cancel _ (by decide)]

/-- A positive number of whole milliseconds reaches the server exactly, in either unit. -/
theorem deadline_ttlOption (h : 0 < n) (now : ℤ) (current : Option Entry) :
    (ttlOption (n * millisecond)).deadline now current = some (some (now + n * 1000)) := by
  unfold ttlOption
  cases hprecise : usePrecise (n * millisecond) with
  | true =>
    rw [if_pos rfl, formatMs_mul h]
    exact if_pos h
  | false =>
    -- the duration is a whole number of seconds, and sent as such
    simp only [usePrecise, Bool.or_eq_false_iff, decide_eq_false_iff_not, not_not] at hprecise
    obtain ⟨m, hm⟩ := Int.dvd_of_tmod_eq_zero hprecise.2
    have hmul : n * millisecond = m * second := by rw [hm, mul_comm]
    have hscale : n = m * 1000 := by
      unfold millisecond second at hmul
      omega
    have hpos : 0 < m := by omega
    rw [if_neg (by simp), hmul, formatSec_mul hpos, hscale, mul_assoc]
    exact if_pos hpos

theorem deadline_setOption (h : 0 < n) (now : ℤ) (current : Option Entry) :
    (setOption (n * millisecond)).deadline now current = some (some (now + n * 1000)) := by
  have hpos : 0 < n * millisecond := Int.mul_pos h (by decide)
  rw [setOption, if_pos hpos, deadline_ttlOption h]

theorem deadline_setNXOption (h : 0 < n) (now : ℤ) (current : Option Entry) :
    (setNXOption (n * millisecond)).deadline now current = some (some (now + n * 1000)) := by
  have hpos : 0 < n * millisecond := Int.mul_pos h (by decide)
  rw [setNXOption, if_neg (by omega), if_neg (by omega), deadline_ttlOption h]

/-! ## Lookups behind the commands -/

/-- What `MGet` collects. -/
theorem get_foldl_find (now : ℤ) (keyspace : Keyspace) (keys : List String)
    (result : GoMap String) (key : String) :
    (keys.foldl (fun result key =>
      match find now keyspace key with
      | some entry => result.set key entry.value
      | none => result) result).get key =
      if key ∈ keys then ((find now keyspace key).map Entry.value).or (result.get key)
      else result.get key := by
  induction keys generalizing result with
  | nil => rfl
  | cons key' keys ih =>
    rw [List.foldl_cons, ih]
    have hstep : GoMap.get key (match find now keyspace key' with
        | some entry => result.set key' entry.value
        | none => result) =
        if key = key' then ((find now keyspace key).map Entry.value).or (result.get key)
        else result.get key := by
      by_cases heq : key = key'
      · rw [if_pos heq, heq]
        cases find now keyspace key' with
        | none => rfl
        | some entry => exact (GoMap.get_set key' key' _ result).trans (if_pos rfl)
      · rw [if_neg heq]
        cases find now keyspace key' with
        | none => rfl
        | some entry => exact (GoMap.get_set key' key _ result).trans (if_neg heq)
    rw [hstep]
    by_cases heq : key = key'
    · rw [if_pos heq, if_pos (List.mem_cons.mpr (.inl heq)), ← Option.or_assoc, Option.or_self,
        ite_self]
    · rw [if_neg heq]
      simp only [List.mem_cons, heq, false_or]

end Redis

end Layr.Kv

import Layr.Go.Maps

/-!
# The key-value driver interface (`core/kvstore.go`)

The operations of `KVDriver` with their arguments, and what they return. Durations are Go's
`time.Duration` in nanoseconds. An error is the sentinel for a missing key, or a failure with the
message the driver puts in front of the error it wraps.
-/

namespace Layr.Kv

open Go

/-- The errors a driver returns. -/
inductive StoreError
  | keyNotFound
  | failed (message : String)
deriving DecidableEq, Repr

/-- The calls of `KVDriver`. -/
inductive Operation
  | get (key : String)
  | mget (keys : List String)
  | set (key value : String) (expiry : ℤ)
  | mset (entries : GoMap String) (expiry : ℤ)
  | setNX (key value : String) (expiry : ℤ)
  | delete (key : String)
  | increment (key : String) (expiry : ℤ)
  | incrementBy (key : String) (delta expiry : ℤ)
  | expire (key : String) (expiry : ℤ)
deriving DecidableEq, Repr

/-- The keys of a call. -/
def Operation.keys : Operation → List String
  | get key => [key]
  | mget keys => keys
  | set key _ _ => [key]
  | mset entries _ => entries.keys
  | setNX key _ _ => [key]
  | delete key => [key]
  | increment key _ => [key]
  | incrementBy key _ _ => [key]
  | expire key _ => [key]

/-- The call with its keys mapped. -/
def Operation.mapKeys (f : String → String) : Operation → Operation
  | get key => get (f key)
  | mget keys => mget (keys.map f)
  | set key value expiry => set (f key) value expiry
  | mset entries expiry => mset (entries.map fun e => (f e.1, e.2)) expiry
  | setNX key value expiry => setNX (f key) value expiry
  | delete key => delete (f key)
  | increment key expiry => increment (f key) expiry
  | incrementBy key delta expiry => incrementBy (f key) delta expiry
  | expire key expiry => expire (f key) expiry

theorem Operation.keys_mapKeys {f : String → String} {operation : Operation} {key : String}
    (h : key ∈ (operation.mapKeys f).keys) : ∃ userKey, key = f userKey := by
  cases operation with
  | mget keys =>
    obtain ⟨userKey, -, rfl⟩ := List.mem_map.mp h
    exact ⟨userKey, rfl⟩
  | mset =>
    obtain ⟨e, he, rfl⟩ := List.mem_map.mp h
    obtain ⟨entry, -, rfl⟩ := List.mem_map.mp ((GoMap.entries_sublist _).mem he)
    exact ⟨entry.1, rfl⟩
  | _ => exact ⟨_, List.mem_singleton.mp h⟩

/-- What a call returns. A returned map is listed in the order of its keys. -/
inductive Reply
  | value (result : Except StoreError String)
  | entries (result : Except StoreError (GoMap String))
  | done (result : Except StoreError Unit)
  | created (result : Except StoreError Bool)
  | count (result : Except StoreError ℤ)
deriving DecidableEq, Repr

/-! ## Runs -/

section

variable {σ : Type}

/-- A sequence of calls at their times, with what they return. -/
def runCalls (call : ℤ → σ → Operation → Reply × σ) (state : σ) :
    List (ℤ × Operation) → List Reply × σ
  | [] => ([], state)
  | (now, operation) :: calls =>
    let (reply, state) := call now state operation
    let (replies, state) := runCalls call state calls
    (reply :: replies, state)

/-- Calls that follow each other after the given delays. -/
def timed (now : ℤ) : List (ℕ × Operation) → List (ℤ × Operation)
  | [] => []
  | (delay, operation) :: calls => (now + delay, operation) :: timed (now + delay) calls

end

end Layr.Kv

import Layr.Kv.Redis

/-!
# The two drivers behind one interface

The database driver keeps rows with `expires_at` and the Redis driver uses native expiry. They
agree on the live keys, their values and their deadlines, as long as every call means the same to
both: durations are positive and whole in the unit that reaches the server, keys are texts that an
index of the database takes, and counters are integers.
-/

namespace Layr.Kv

open Go

variable {key : String} {n : ℤ}

/-! ## Calls with one meaning -/

/-- A positive multiple of a unit. -/
def isWhole (unit expiry : ℤ) : Bool := 0 < expiry && expiry % unit = 0

/-- The length of a key in bytes that is within the limit of the index entries of the database,
which is 2704 bytes with the headers. -/
def maxKeyBytes : ℕ := 2600

/-- A key that both stores take. It is a sequence of runes, so its bytes are valid UTF-8, which the
database asks for as well. -/
def isKey (key : String) : Bool := Postgres.isText key && key.utf8ByteSize ≤ maxKeyBytes

theorem isText_of_isKey (h : isKey key) : Postgres.isText key :=
  (Bool.and_eq_true_iff.mp h).1

theorem all_isText_of_isKey {α : Type} {entries : List α} {key : α → String}
    (h : entries.all fun e => isKey (key e)) :
    (entries.all fun e => Postgres.isText (key e)) := by
  rw [List.all_eq_true] at h ⊢
  exact fun e he => isText_of_isKey (h e he)

/-- A counter that both drivers can add to: the key is absent or holds an integer as it is
printed, and the sum has 64 bits. -/
def isCounter (now : ℤ) (table : Database.Table) (key : String) (delta : ℤ) : Bool :=
  match Database.aliveRow now table key with
  | some row =>
    match Redis.readInteger row.value with
    | some count => Redis.isInt64 (count + delta)
    | none => false
  | none => Redis.isInt64 delta

/-- Calls that mean the same to both drivers. -/
def isPortable (now : ℤ) (table : Database.Table) : Operation → Bool
  | .get key => isKey key
  | .mget keys => keys.all isKey
  | .set key _ expiry => isKey key && isWhole Redis.millisecond expiry
  | .mset entries expiry =>
    (entries.all fun e => isKey e.1) && isWhole Redis.millisecond expiry
  | .setNX key _ expiry => isKey key && isWhole Redis.millisecond expiry
  | .delete key => isKey key
  | .increment key expiry =>
    isKey key && isWhole Redis.second expiry && isCounter now table key 1
  | .incrementBy key delta expiry =>
    isKey key && isWhole Redis.second expiry && isCounter now table key delta
  | .expire key expiry => isKey key && isWhole Redis.second expiry

/-- Every call of a run is portable in the state it meets. -/
def portableRun (table : Database.Table) : List (ℤ × Operation) → Bool
  | [] => true
  | (now, operation) :: calls =>
    isPortable now table operation && portableRun (Database.call now table operation).2 calls

theorem isWhole_iff {unit expiry : ℤ} (hunit : 0 < unit) :
    isWhole unit expiry ↔ ∃ n, 0 < n ∧ expiry = n * unit := by
  simp only [isWhole, Bool.and_eq_true, decide_eq_true_eq]
  constructor
  · rintro ⟨hpos, hmod⟩
    obtain ⟨n, hn⟩ := Int.dvd_of_emod_eq_zero hmod
    rw [hn] at hpos
    exact ⟨n, (mul_pos_iff_of_pos_left hunit).mp hpos, hn.trans (mul_comm _ _)⟩
  · rintro ⟨n, hn, rfl⟩
    exact ⟨Int.mul_pos hn hunit, Int.mul_emod_left _ _⟩

/-! ## Agreement -/

/-- A row as an entry with a deadline. -/
def rowEntry (row : Database.Row) : Redis.Entry := ⟨row.value, some row.expiresAt⟩

/-- The same keys are alive, with the same values and deadlines. -/
def Agree (now : ℤ) (table : Database.Table) (keyspace : Redis.Keyspace) : Prop :=
  ∀ key, (Database.aliveRow now table key).map rowEntry = Redis.find now keyspace key

/-- The same is returned, and the stores agree. -/
abbrev Matches {α : Type} (now : ℤ) (x : α × Database.Table) (y : α × Redis.Keyspace) : Prop :=
  x.1 = y.1 ∧ Agree now x.2 y.2

variable {now : ℤ} {table : Database.Table} {keyspace : Redis.Keyspace}

theorem find_later {later : ℤ} (hle : now ≤ later) (keyspace : Redis.Keyspace) (key : String) :
    Redis.find later keyspace key =
      (Redis.find now keyspace key).filter (·.isAlive later) := by
  rw [Redis.find, Redis.find, Option.filter_filter]
  congr 1
  funext entry
  unfold Redis.Entry.isAlive
  split
  · rw [← Bool.decide_and]
    congr 1
    apply propext
    omega
  · rfl

/-- Time that passes ends the same keys. -/
theorem Agree.later {later : ℤ} (h : Agree now table keyspace) (hle : now ≤ later) :
    Agree later table keyspace := by
  intro key
  rw [Database.aliveRow_later hle, find_later hle, ← h key, Option.filter_map]
  rfl

/-- The same value and deadline under one key, whatever was there before. -/
theorem agree_set
    (h : ∀ key', key' ≠ key →
      (Database.aliveRow now table key').map rowEntry = Redis.find now keyspace key')
    (value : String) (deadline : ℤ) :
    Agree now (table.set key ⟨value, deadline⟩) (keyspace.set key ⟨value, some deadline⟩) := by
  intro key'
  rw [Database.aliveRow, Redis.find, GoMap.get_set, GoMap.get_set]
  by_cases heq : key' = key
  · rw [if_pos heq, if_pos heq, Option.filter_some, Option.filter_some]
    show Option.map rowEntry (if decide (deadline > now) then _ else _) =
      if decide (now < deadline) then _ else _
    by_cases halive : now < deadline
    · rw [if_pos (decide_eq_true halive), if_pos (decide_eq_true halive)]
      rfl
    · rw [if_neg (by simpa using halive), if_neg (by simpa using halive)]
      rfl
  · rw [if_neg heq, if_neg heq]
    exact h key' heq

theorem Agree.set (h : Agree now table keyspace) (key value : String) (deadline : ℤ) :
    Agree now (table.set key ⟨value, deadline⟩) (keyspace.set key ⟨value, some deadline⟩) :=
  agree_set (fun key' _ => h key') value deadline

theorem Agree.delete (h : Agree now table keyspace) (key : String) :
    Agree now (table.filter fun e => e.1 ≠ key) (Redis.delCommand keyspace key) := by
  intro key'
  rw [Database.aliveRow, Redis.find, Redis.delCommand, GoMap.get_filter_ne, GoMap.get_filter_ne]
  by_cases heq : key' = key
  · rw [if_pos heq, if_pos heq]
    rfl
  · rw [if_neg heq, if_neg heq]
    exact h key'

/-- The deadline of a positive duration of whole microseconds. -/
theorem expiresAt_mul (hn : 0 < n) (now : ℤ) :
    Database.expiresAt now (n * Redis.millisecond) = now + n * 1000 := by
  have hpos : ¬n * Redis.millisecond ≤ 0 := by
    unfold Redis.millisecond
    omega
  rw [Database.expiresAt, if_neg hpos]
  have hsplit : n * Redis.millisecond = n * 1000 * 1000 := by
    unfold Redis.millisecond
    omega
  rw [hsplit, Int.mul_tdiv_cancel _ (by decide)]

theorem expiresAt_second (hn : 0 < n) (now : ℤ) :
    Database.expiresAt now (n * Redis.second) = now + n * 1000000 := by
  have hunits : n * Redis.second = n * 1000 * Redis.millisecond := by
    unfold Redis.second Redis.millisecond
    omega
  rw [hunits, expiresAt_mul (by omega)]
  omega

/-! ## One call -/

section

variable (h : Agree now table keyspace)

include h

theorem Agree.get (hkey : Postgres.isText key) :
    Database.get now table key = Redis.get now keyspace key := by
  rw [Database.get, if_pos hkey, Redis.get, ← h key]
  cases Database.aliveRow now table key <;> rfl

theorem Agree.mget {keys : List String} (hkeys : keys.all Postgres.isText) :
    Database.mget now table keys = Redis.mget now keyspace keys := by
  rw [Database.mget, Redis.mget, if_pos hkeys]
  congr 2
  apply GoMap.sorted_eq_of_get_eq
  intro key
  rw [GoMap.get_mapValues,
    GoMap.get_filter_entries key table fun k row => keys.contains k && row.isAlive now,
    Redis.get_foldl_find, ← h key]
  by_cases hmem : key ∈ keys
  · simp only [List.contains_eq_mem, hmem, decide_true, Bool.true_and, if_true]
    show Option.map _ (Database.aliveRow now table key) = _
    cases Database.aliveRow now table key <;> rfl
  · simp only [List.contains_eq_mem, hmem, decide_false, Bool.false_and, if_false]
    cases table.get key <;> rfl

/-- The effect of `Set` on the two stores, for a portable duration. -/
theorem Agree.setCommand (key value : String) (hn : 0 < n) :
    ∃ keyspace', Redis.setCommand now keyspace key value
        (Redis.setOption (n * Redis.millisecond)) = some keyspace' ∧
      Agree now (table.set key ⟨value, Database.expiresAt now (n * Redis.millisecond)⟩)
        keyspace' := by
  rw [Redis.setCommand, Redis.deadline_setOption hn, expiresAt_mul hn]
  exact ⟨_, rfl, h.set key value _⟩

theorem Agree.setAll (entries : List (String × String)) (hn : 0 < n) :
    ∃ keyspace', Redis.setAll now (Redis.setOption (n * Redis.millisecond)) entries
        (false, keyspace) = (false, keyspace') ∧
      Agree now (entries.foldl (fun table e =>
        table.set e.1 ⟨e.2, Database.expiresAt now (n * Redis.millisecond)⟩) table) keyspace' := by
  induction entries generalizing table keyspace with
  | nil => exact ⟨keyspace, rfl, h⟩
  | cons e entries ih =>
    obtain ⟨keyspace₁, hset, hagree⟩ := h.setCommand e.1 e.2 hn
    rw [Redis.setAll, hset]
    exact ih hagree

theorem Agree.setNX (hkey : Postgres.isText key) (value : String) (hn : 0 < n) :
    Matches now (Database.setNX now table key value (n * Redis.millisecond))
      (Redis.setNX now keyspace key value (n * Redis.millisecond)) := by
  rw [Database.setNX, if_pos hkey, Redis.setNX, Redis.setNXCommand, Redis.deadline_setNXOption hn,
    expiresAt_mul hn, ← h key]
  cases Database.aliveRow now table key with
  | some row => exact ⟨rfl, h⟩
  | none => exact ⟨rfl, h.set key value _⟩

theorem Agree.expire (hkey : Postgres.isText key) (hn : 0 < n) :
    Matches now (Database.expire now table key (n * Redis.second))
      (Redis.expire now keyspace key (n * Redis.second)) := by
  rw [Database.expire, if_pos hkey, Redis.expire, Redis.expireCommand, Redis.formatSec_mul hn,
    expiresAt_second hn, ← h key]
  cases Database.aliveRow now table key with
  | some row =>
    simp only [Option.map_some, if_pos hn]
    exact ⟨rfl, h.set key row.value _⟩
  | none => exact ⟨rfl, h⟩

/-- A portable counter has the same next value in both stores, and lives on. -/
theorem Agree.counter {delta : ℤ} (hcounter : isCounter now table key delta) :
    ∃ count deadline, Database.incremented now table key delta = some count ∧
      Redis.incrByCommand now keyspace key delta =
        some (count, keyspace.set key ⟨Postgres.bigintText count, deadline⟩) ∧
      (Redis.Entry.mk (Postgres.bigintText count) deadline).isAlive now := by
  unfold isCounter at hcounter
  rw [Database.incremented, Redis.incrByCommand, ← h key]
  cases halive : Database.aliveRow now table key with
  | none =>
    rw [halive] at hcounter
    refine ⟨delta, none, rfl, ?_, rfl⟩
    simp only [Option.map_none, Option.elim_none, Option.bind_some, zero_add, Option.bind_none]
    exact if_pos hcounter
  | some row =>
    rw [halive] at hcounter
    cases hread : Redis.readInteger row.value with
    | none => simp [hread] at hcounter
    | some count =>
      simp only [hread] at hcounter
      obtain ⟨hvalue, hrange⟩ := Redis.readInteger_eq_some hread
      have hsum : -2 ^ 63 ≤ count + delta ∧ count + delta < 2 ^ 63 := by
        simpa [Redis.isInt64] using hcounter
      refine ⟨count + delta, some row.expiresAt, ?_, ?_, ?_⟩
      · simp only [hvalue, Postgres.parseBigint_bigintText hrange, Option.bind_some]
        exact if_pos hsum
      · simp only [Option.map_some, Option.elim_some, rowEntry, hread, Option.bind_some]
        exact if_pos hcounter
      · exact decide_eq_true (Database.aliveRow_eq_some.mp halive).2

theorem Agree.incrementBy (hkey : Postgres.isText key) {delta : ℤ}
    (hcounter : isCounter now table key delta) (hn : 0 < n) :
    Matches now (Database.incrementBy now table key delta (n * Redis.second))
      (Redis.incrementBy now keyspace key delta (n * Redis.second)) := by
  obtain ⟨count, deadline, hdatabase, hredis, halive⟩ := h.counter hcounter
  have hpos : 0 < n * Redis.second := Int.mul_pos hn (by decide)
  have hfind : Redis.find now (keyspace.set key ⟨Postgres.bigintText count, deadline⟩) key =
      some ⟨Postgres.bigintText count, deadline⟩ := by
    rw [Redis.find, GoMap.get_set, if_pos rfl, Option.filter_some, if_pos halive]
  rw [Database.incrementBy, if_pos hkey, hdatabase, Redis.incrementBy, hredis]
  simp only [if_pos hpos, Redis.expireCommand, hfind, Redis.formatSec_mul hn, if_pos hn,
    expiresAt_second hn]
  -- the entry that `INCRBY` leaves is overwritten by `EXPIRE`
  refine ⟨rfl, agree_set (fun key' hne => ?_) _ _⟩
  rw [Redis.find, GoMap.get_set, if_neg hne]
  exact h key'

/-- A portable call returns the same from both drivers and keeps them in agreement. -/
theorem Agree.call {operation : Operation} (hportable : isPortable now table operation) :
    Matches now (Database.call now table operation) (Redis.call now keyspace operation) := by
  have hms : (0 : ℤ) < Redis.millisecond := by decide
  have hsec : (0 : ℤ) < Redis.second := by decide
  cases operation with
  | get key => exact ⟨congrArg Reply.value (h.get (isText_of_isKey hportable)), h⟩
  | mget keys => exact ⟨congrArg Reply.entries (h.mget (all_isText_of_isKey hportable)), h⟩
  | set key value expiry =>
    obtain ⟨hkey, hwhole⟩ := Bool.and_eq_true_iff.mp hportable
    obtain ⟨n, hn, rfl⟩ := (isWhole_iff hms).mp hwhole
    obtain ⟨keyspace', hset, hagree⟩ := h.setCommand key value hn
    simp only [Database.call, Database.set, if_pos (isText_of_isKey hkey), Redis.call, Redis.set,
      hset]
    exact ⟨rfl, hagree⟩
  | mset entries expiry =>
    obtain ⟨hkeys, hwhole⟩ := Bool.and_eq_true_iff.mp hportable
    obtain ⟨n, hn, rfl⟩ := (isWhole_iff hms).mp hwhole
    obtain ⟨keyspace', hset, hagree⟩ := h.setAll entries.entries hn
    simp only [Database.call, Database.mset, if_pos (all_isText_of_isKey hkeys),
      Redis.call, Redis.mset, hset]
    split
    · exact ⟨rfl, h⟩
    · exact ⟨rfl, hagree⟩
  | setNX key value expiry =>
    obtain ⟨hkey, hwhole⟩ := Bool.and_eq_true_iff.mp hportable
    obtain ⟨n, hn, rfl⟩ := (isWhole_iff hms).mp hwhole
    exact (h.setNX (isText_of_isKey hkey) value hn).imp_left (congrArg Reply.created)
  | delete key =>
    simp only [Database.call, Database.delete, if_pos (isText_of_isKey hportable),
      Redis.call, Redis.delete]
    exact ⟨rfl, h.delete key⟩
  | increment key expiry | incrementBy key delta expiry =>
    obtain ⟨hleft, hcounter⟩ := Bool.and_eq_true_iff.mp hportable
    obtain ⟨hkey, hwhole⟩ := Bool.and_eq_true_iff.mp hleft
    obtain ⟨n, hn, rfl⟩ := (isWhole_iff hsec).mp hwhole
    exact (h.incrementBy (isText_of_isKey hkey) hcounter hn).imp_left (congrArg Reply.count)
  | expire =>
    obtain ⟨hkey, hwhole⟩ := Bool.and_eq_true_iff.mp hportable
    obtain ⟨n, hn, rfl⟩ := (isWhole_iff hsec).mp hwhole
    exact (h.expire (isText_of_isKey hkey) hn).imp_left (congrArg Reply.done)

/-! ## Runs -/

theorem Agree.run {calls : List (ℕ × Operation)}
    (hportable : portableRun table (timed now calls)) :
    (runCalls Database.call table (timed now calls)).1 =
      (runCalls Redis.call keyspace (timed now calls)).1 := by
  induction calls generalizing now table keyspace with
  | nil => rfl
  | cons call calls ih =>
    obtain ⟨hcall, hcalls⟩ := Bool.and_eq_true_iff.mp hportable
    have hlater : Agree (now + call.1) table keyspace := h.later (by omega)
    obtain ⟨hreply, hagree⟩ := hlater.call hcall
    have htail := ih hagree hcalls
    rw [timed, runCalls, runCalls]
    simp only [hreply, htail]

end

/-- Started empty, the two drivers return the same at every step of a run of portable calls, with
any delays between them. -/
theorem drivers_return_same (now : ℤ) (calls : List (ℕ × Operation))
    (hportable : portableRun [] (timed now calls)) :
    (runCalls Database.call [] (timed now calls)).1 =
      (runCalls Redis.call [] (timed now calls)).1 :=
  Agree.run (fun _ => rfl) hportable

/-- A counter, a value that expires, and a key that is created again afterwards. -/
def sampleCalls : List (ℕ × Operation) :=
  [(0, .increment "n" 5000000000), (1000000, .incrementBy "n" (-3) 2000000000),
   (0, .set "k" "v" 2000000), (1999, .get "k"), (1, .get "k"), (0, .setNX "k" "w" 1000000000),
   (0, .mget ["n", "k", "m"]), (2000000, .expire "n" 1000000000)]

theorem sampleCalls_return_same :
    portableRun [] (timed 0 sampleCalls) ∧
      (runCalls Database.call [] (timed 0 sampleCalls)).1 =
        (runCalls Redis.call [] (timed 0 sampleCalls)).1 := by
  have hportable : portableRun [] (timed 0 sampleCalls) := by decide +kernel
  exact ⟨hportable, drivers_return_same 0 sampleCalls hportable⟩

/-- A key stored without an expiry, read 24 hours later: the database driver has given it its
default expiry, Redis keeps it. -/
def lastingCalls : List (ℕ × Operation) :=
  [(0, .set "k" "v" 0), (86400000000, .get "k")]

theorem lastingCalls_return_differently :
    (runCalls Database.call [] (timed 0 lastingCalls)).1 =
        [.done (.ok ()), .value (.error .keyNotFound)] ∧
      (runCalls Redis.call [] (timed 0 lastingCalls)).1 =
        [.done (.ok ()), .value (.ok "v")] := by
  decide +kernel

end Layr.Kv

import Mathlib.Data.Int.Notation
import Layr.Go.Io
import Layr.Lib.Table

/-!
# Buckets, objects and chunks

The tables of the file storage schema. Metadata and times are left out, as is the configuration of
a bucket's upstream store.
-/

namespace Layr.FileStorage

open Go.Io

/-- UUIDs. -/
abbrev ID := ℕ

structure Bucket where
  id : ID
  name : String
  isPublic : Bool
  backend : String
  allowedMIMETypes : List String
  maxFileSizeBytes : ℤ
  deriving DecidableEq, Repr

/-- A row of `file_storage.objects`, which is found by its bucket and key. -/
structure Object where
  id : ID
  contentType : String
  sizeBytes : ℤ
  checksumSHA256 : String
  deriving DecidableEq, Repr

structure ContentRange where
  start : ℤ
  endAt : ℤ
  total : ℤ
  isPartial : Bool
  deriving DecidableEq, Repr

inductive EngineError
  | objectNotFound
  | bucketNotFound
  | invalidRange
  | payloadTooLarge
  | unsupportedBackend
  | engineNotInitialized
  | registerObject
  | insertChunk
  | readStream (message : String)
  | upstreamConfiguration
  | upstreamPut
  /-- No error of the source: an upload that never ends, as with an empty buffer. -/
  | endless
  deriving DecidableEq, Repr

/-! ## Objects

The table has two keys: the bucket with the object key, and the id.
-/

structure Objects where
  rows : Table (ID × String) Object
  unique : ∀ {k k' : ID × String} {object object' : Object},
    rows.get k = some object → rows.get k' = some object' → object.id = object'.id → k = k'

namespace Objects

def empty : Objects where
  rows := .empty
  unique := by simp

/-- Some object has the id. -/
def hasID (objects : Objects) (id : ID) : Bool := objects.rows.rows.any fun e => e.2.id = id

variable {objects : Objects} {k : ID × String} {object : Object}

theorem id_ne_of_hasID_eq_false {id : ID} (h : objects.hasID id = false)
    (hget : objects.rows.get k = some object) : object.id ≠ id := by
  have hnone := List.any_eq_false.mp h (k, object) (Table.get_eq_some_iff.mp hget)
  simpa using hnone

/-- The row that an upload leaves for a key: the new values under the old id, if there is one. -/
def merged (objects : Objects) (k : ID × String) (object : Object) : Object :=
  (objects.rows.get k).elim object fun old => { object with id := old.id }

/-- `INSERT INTO objects ... ON CONFLICT (bucket_id, object_key) DO UPDATE`, which fails when the
new row's id is taken. -/
def upsert (objects : Objects) (k : ID × String) (object : Object) : Option Objects :=
  if h : objects.rows.get k = none ∧ objects.hasID object.id = true then none
  else some
    { rows := objects.rows.upsert k object fun old => { object with id := old.id }
      unique := by
        have hid : ∀ {k' : ID × String} {other : Object}, objects.rows.get k' = some other →
            other.id = (objects.merged k object).id → k' = k := by
          intro k' other hother heq
          unfold merged at heq
          rcases hget : objects.rows.get k with _ | old
          · -- a row of another key has another id than the one inserted
            rw [hget] at heq
            have hfree : objects.hasID object.id = false := by
              simpa using fun htaken => h ⟨hget, htaken⟩
            exact absurd heq (id_ne_of_hasID_eq_false hfree hother)
          · rw [hget] at heq
            exact objects.unique hother hget heq
        intro k₁ k₂ object₁ object₂ h₁ h₂ heq
        rw [Table.get_upsert] at h₁ h₂
        split at h₁ <;> split at h₂
        · next heq₁ heq₂ => rw [heq₁, heq₂]
        · next heq₁ _ =>
          rw [heq₁]
          exact (hid h₂ (by rw [← heq, ← Option.some.inj h₁]; rfl)).symm
        · next _ heq₂ =>
          rw [heq₂]
          exact hid h₁ (by rw [heq, ← Option.some.inj h₂]; rfl)
        · exact objects.unique h₁ h₂ heq }

theorem get_upsert {objects' : Objects} (h : objects.upsert k object = some objects')
    (k' : ID × String) :
    objects'.rows.get k' =
      if k' = k then some (objects.merged k object) else objects.rows.get k' := by
  unfold upsert at h
  split at h
  · cases h
  · cases h
    exact Table.get_upsert objects.rows k object _ k'

theorem hasID_of_upsert_eq_none {object : Object} {k : ID × String}
    (h : objects.upsert k object = none) : objects.hasID object.id := by
  unfold upsert at h
  split at h
  next htaken => exact htaken.2
  · cases h

/-- `UPDATE objects SET size_bytes, checksum_sha256 WHERE id`. -/
def finalize (objects : Objects) (id : ID) (sizeBytes : ℤ) (checksum : String) : Objects where
  rows := objects.rows.updateWhere (fun _ object => object.id = id) fun object =>
    { object with sizeBytes := sizeBytes, checksumSHA256 := checksum }
  unique := by
    intro k k' object object' h h' heq
    rw [Table.get_updateWhere, Option.map_eq_some_iff] at h h'
    obtain ⟨old, hold, rfl⟩ := h
    obtain ⟨old', hold', rfl⟩ := h'
    refine objects.unique hold hold' ?_
    split at heq <;> split at heq <;> exact heq

/-- Only the row with the id is finalized. -/
theorem get_finalize (objects : Objects) (hget : objects.rows.get k = some object) (sizeBytes : ℤ)
    (checksum : String) (k' : ID × String) :
    (objects.finalize object.id sizeBytes checksum).rows.get k' =
      if k' = k then some { object with sizeBytes := sizeBytes, checksumSHA256 := checksum }
      else objects.rows.get k' := by
  unfold finalize
  rw [Table.get_updateWhere]
  by_cases heq : k' = k
  · rw [if_pos heq, heq, hget, Option.map_some, if_pos (by simp)]
  · rw [if_neg heq]
    rcases hother : objects.rows.get k' with _ | other
    · rfl
    · have hne : other.id ≠ object.id := fun hid => heq (objects.unique hother hget hid)
      rw [Option.map_some, if_neg (by simpa using hne)]

end Objects

/-- The rows of `file_storage.chunks`, by object and place. -/
abbrev Chunks := Table (ID × ℕ) (List Byte)

/-- `DELETE FROM chunks WHERE object_id`. -/
def clearChunks (chunks : Chunks) (objectID : ID) : Chunks :=
  chunks.deleteWhere fun k _ => k.1 = objectID

theorem get_clearChunks (chunks : Chunks) (objectID id : ID) (i : ℕ) :
    (clearChunks chunks objectID).get (id, i) =
      if id = objectID then none else chunks.get (id, i) := by
  rw [clearChunks, Table.get_deleteWhere]
  by_cases hid : id = objectID
  · cases chunks.get (id, i) <;> simp [hid]
  · cases chunks.get (id, i) <;> simp [hid]

structure Database where
  objects : Objects
  chunks : Chunks

def Database.empty : Database := ⟨.empty, .empty⟩

end Layr.FileStorage

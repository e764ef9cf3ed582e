import Layr.FileStorage.Model
import Layr.Lib.Blocks

/-!
# The database engine

`DatabaseEngine` keeps an object as rows of chunks, all but the last of one size. `upload` fills
a buffer of that size over and over and inserts what it holds; `download` selects the chunks
that meet the wanted range and trims the first and the last of them.
-/

namespace Layr.FileStorage

open Go.Io

/-- The engine with its chunk size and the SHA-256 of package `crypto`, in hexadecimal. -/
structure DatabaseEngine where
  chunkSizeBytes : ℕ
  positive : 0 < chunkSizeBytes
  sha256 : List Byte → String

/-- A size above the bucket's limit; a limit that is not positive is none. -/
def Bucket.exceeds (bucket : Bucket) (sizeBytes : ℤ) : Bool :=
  0 < bucket.maxFileSizeBytes && bucket.maxFileSizeBytes < sizeBytes

def orOctetStream (contentType : String) : String :=
  if contentType = "" then "application/octet-stream" else contentType

namespace DatabaseEngine

variable (engine : DatabaseEngine)

/-! ## Upload -/

/-- What the loop of `Upload` does with the bytes of one read. -/
def storeChunk (bucket : Bucket) (objectID : ID) (bytes : List Byte) (chunks : Chunks)
    (chunkIndex : ℕ) (totalBytes : ℤ) : Except EngineError (Chunks × ℕ × ℤ) :=
  if bytes = [] then .ok (chunks, chunkIndex, totalBytes)
  else if bucket.exceeds (totalBytes + bytes.length) then .error .payloadTooLarge
  else
    match chunks.insert (objectID, chunkIndex) bytes with
    | none => .error .insertChunk
    | some chunks => .ok (chunks, chunkIndex + 1, totalBytes + bytes.length)

/-- The loop of `Upload`, at most `fuel` times. -/
def uploadLoop (bucket : Bucket) (objectID : ID) :
    ℕ → Reader → Chunks → ℕ → ℤ → Except EngineError (Chunks × ℤ)
  | 0, _, _, _, _ => .error .endless
  | fuel + 1, reader, chunks, chunkIndex, totalBytes =>
    let read := reader.readFull engine.chunkSizeBytes
    match storeChunk bucket objectID read.1 chunks chunkIndex totalBytes with
    | .error error => .error error
    | .ok (chunks, chunkIndex, totalBytes) =>
      match read.2.1 with
      | none => uploadLoop bucket objectID fuel read.2.2 chunks chunkIndex totalBytes
      | some .eof => .ok (chunks, totalBytes)
      | some .unexpectedEOF => .ok (chunks, totalBytes)
      | some (.failed message) => .error (.readStream message)

/-- `Upload`, one transaction that is rolled back on an error. The declared size is not used. -/
def upload (db : Database) (bucket : Bucket) (key : String) (reader : Reader) (_sizeBytes : ℤ)
    (contentType : String) (objectID : ID) : Except EngineError Object × Database :=
  let row : Object := ⟨objectID, orOctetStream contentType, 0, ""⟩
  match db.objects.upsert (bucket.id, key) row with
  | none => (.error .registerObject, db)
  | some objects =>
    let target := (db.objects.merged (bucket.id, key) row).id
    -- the chunks of the version before
    let chunks := clearChunks db.chunks target
    match engine.uploadLoop bucket target (reader.content.length + 1) reader chunks 0 0 with
    | .error error => (.error error, db)
    | .ok (chunks, totalBytes) =>
      let checksum := engine.sha256 reader.content
      (.ok ⟨target, orOctetStream contentType, totalBytes, checksum⟩,
        ⟨objects.finalize target totalBytes checksum, chunks⟩)

/-! ## Head, delete and download -/

def head (db : Database) (bucket : Bucket) (key : String) : Except EngineError Object :=
  match db.objects.rows.get (bucket.id, key) with
  | none => .error .objectNotFound
  | some object => .ok object

/-- The first and the last byte to return. -/
def window (object : Object) (contentRange : Option ContentRange) : Except EngineError (ℤ × ℤ) :=
  match contentRange with
  | none => .ok (0, object.sizeBytes - 1)
  | some range =>
    if range.isPartial then
      if range.start < 0 || range.endAt ≥ object.sizeBytes || range.start > range.endAt then
        .error .invalidRange
      else .ok (range.start, range.endAt)
    else .ok (0, object.sizeBytes - 1)

/-- `SELECT chunk_index, chunk_data ... ORDER BY chunk_index` from `first` to `last`. -/
def selectChunks (chunks : Chunks) (objectID : ID) (first last : ℕ) : List (ℕ × List Byte) :=
  (List.range' first (last + 1 - first)).filterMap fun i =>
    (chunks.get (objectID, i)).map fun data => (i, data)

/-- A selected chunk without the bytes before the first and behind the last wanted one. -/
def sliceChunk (chunkSize startByte endByte chunkIndex : ℕ) (data : List Byte) : List Byte :=
  let startChunkIndex := startByte / chunkSize
  let endChunkIndex := endByte / chunkSize
  let offsetInChunk := startByte % chunkSize
  let chunkSlice :=
    if chunkIndex = startChunkIndex ∧ offsetInChunk < data.length then data.drop offsetInChunk
    else data
  let relativeEnd : ℤ :=
    (endByte % chunkSize : ℕ) + 1 - if chunkIndex = startChunkIndex then (offsetInChunk : ℤ) else 0
  if chunkIndex = endChunkIndex ∧ 0 ≤ relativeEnd ∧ relativeEnd < chunkSlice.length then
    chunkSlice.take relativeEnd.toNat
  else chunkSlice

/-- What the goroutine of `Download` writes. -/
def stream (chunks : Chunks) (objectID : ID) (startByte endByte : ℕ) : List Byte :=
  (selectChunks chunks objectID (startByte / engine.chunkSizeBytes)
    (endByte / engine.chunkSizeBytes)).flatMap fun row =>
      sliceChunk engine.chunkSizeBytes startByte endByte row.1 row.2

/-- `Download` after its query of the object: the bytes and the reported length. -/
def downloadObject (chunks : Chunks) (object : Object) (contentRange : Option ContentRange) :
    Except EngineError (List Byte × ℤ) :=
  match window object contentRange with
  | .error error => .error error
  | .ok (startByte, endByte) =>
    let contentLength := endByte - startByte + 1
    if contentLength ≤ 0 then .ok ([], 0)
    else .ok (engine.stream chunks object.id startByte.toNat endByte.toNat, contentLength)

def download (db : Database) (bucket : Bucket) (key : String)
    (contentRange : Option ContentRange) : Except EngineError (List Byte × ℤ) :=
  match head db bucket key with
  | .error error => .error error
  | .ok object => engine.downloadObject db.chunks object contentRange

end DatabaseEngine

end Layr.FileStorage

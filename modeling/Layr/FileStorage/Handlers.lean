import Mathlib.Algebra.Ring.Int.Defs
import Layr.FileStorage.RoundTrip

/-!
# The handlers that write objects

An object is written by a REST upload, which a presigned URL may authorize, by an S3 `PUT` or by
the completion of an S3 multipart upload, and lands in the database engine or in an upstream S3
store. Inputs are whether a request is authenticated, the ids drawn, the answer of the upstream
store, and the statements whose errors the handlers ignore.
-/

namespace Layr.FileStorage

open Go.Io

/-! ## The service -/

inductive Backend
  | database
  | s3
  deriving DecidableEq, Repr

/-- The service with its buckets, the upstream store that `parseUpstreamConfiguration` finds for a
bucket, and `strings.EqualFold`. -/
structure Service where
  databaseEngine : DatabaseEngine
  buckets : Table String Bucket
  uniqueIDs : ∀ {name name' : String} {bucket bucket' : Bucket},
    buckets.get name = some bucket → buckets.get name' = some bucket' → bucket.id = bucket'.id →
    bucket = bucket'
  upstream : Bucket → Option String
  equalFold : String → String → Bool

structure UpstreamObject where
  contentType : String
  content : List Byte
  deriving DecidableEq, Repr

/-- A row of `file_storage.multipart_uploads`. -/
structure MultipartUpload where
  bucketID : ID
  objectKey : String
  contentType : String
  deriving DecidableEq, Repr

structure State where
  db : Database
  upstream : Table (String × String) UpstreamObject
  uploads : Table ID MultipartUpload
  parts : Table (ID × ℕ) (List Byte)

def State.initial : State := ⟨.empty, .empty, .empty, .empty⟩

/-- What happens outside during an upload: the id drawn for a new object, and whether the upstream
store takes the object and which ETag it answers. -/
structure Outside where
  objectID : ID
  upstreamAccepts : Bool
  etag : String
  deriving DecidableEq, Repr

namespace Service

variable (service : Service)

/-- `resolveEngine`. -/
def resolveEngine (bucket : Bucket) : Option Backend :=
  if bucket.backend = "database" ∨ bucket.backend = "" then some .database
  else if bucket.backend = "s3" then some .s3
  else none

/-- `S3Engine.Upload`. -/
def s3Upload (s : State) (bucket : Bucket) (key : String) (reader : Reader) (sizeBytes : ℤ)
    (contentType : String) (outside : Outside) : Except EngineError Object × State :=
  match service.upstream bucket with
  | none => (.error .upstreamConfiguration, s)
  | some location =>
    -- a body that breaks off is not taken
    if outside.upstreamAccepts ∧ reader.final = .eof then
      let object : UpstreamObject := ⟨orOctetStream contentType, reader.content⟩
      (.ok ⟨outside.objectID, orOctetStream contentType, sizeBytes, outside.etag⟩,
        { s with upstream := s.upstream.upsert (location, key) object fun _ => object })
    else (.error .upstreamPut, s)

/-- `Engine.Upload` of the engine for the backend. -/
def upload (backend : Backend) (s : State) (bucket : Bucket) (key : String) (reader : Reader)
    (sizeBytes : ℤ) (contentType : String) (outside : Outside) :
    Except EngineError Object × State :=
  match backend with
  | .database =>
    let result := service.databaseEngine.upload s.db bucket key reader sizeBytes contentType
      outside.objectID
    (result.1, { s with db := result.2 })
  | .s3 => service.s3Upload s bucket key reader sizeBytes contentType outside

/-- The loop of `handleUploadObject` over the allowed types; an empty list allows every type. -/
def allowsType (bucket : Bucket) (contentType : String) : Bool :=
  bucket.allowedMIMETypes.isEmpty ||
    bucket.allowedMIMETypes.any fun allowedType =>
      service.equalFold allowedType contentType || allowedType = "*/*"

/-! ## Responses -/

structure Failure where
  status : ℕ
  code : String
  message : String
  deriving DecidableEq, Repr

inductive Response
  | success (status : ℕ)
  | failure (failure : Failure)
  deriving DecidableEq, Repr

def Response.isSuccess : Response → Bool
  | .success _ => true
  | .failure _ => false

/-- `core.WriteErrorResponse`. -/
def writeErrorResponse (status : ℕ) (message : String) : Response := .failure ⟨status, "", message⟩

/-- `writeS3ErrorResponse`, which hides the messages of internal errors. -/
def writeS3ErrorResponse (status : ℕ) (code message : String) : Response :=
  .failure ⟨status, code,
    if 500 ≤ status ∨ code = "InternalError" then "Service temporarily unavailable" else message⟩

/-! ## Uploads in one request -/

/-- The body of a request, which holds no more bytes than the declared length; a negative length is
unknown. -/
structure Body where
  reader : Reader
  contentLength : ℤ
  bounded : 0 ≤ contentLength → (reader.content.length : ℤ) ≤ contentLength

/-- The path of a request, whether the file storage is enabled, and the failure with which the
authentication ended the request, if it did. -/
structure Target where
  enabled : Bool
  denied : Option Failure
  bucketName : String
  objectKey : String
  deriving DecidableEq, Repr

/-- `handleUploadObject`. -/
def handleUploadObject (s : State) (target : Target) (contentType : String) (body : Body)
    (outside : Outside) : Response × State :=
  if target.enabled = false then (writeErrorResponse 403 "Access denied", s)
  else if target.bucketName = "" ∨ target.objectKey = "" then
    (writeErrorResponse 400 "Bucket and key parameters are required", s)
  else
    match service.buckets.get target.bucketName with
    | none => (writeErrorResponse 404 "Bucket not found", s)
    | some bucket =>
      match target.denied with
      | some failure => (.failure failure, s)
      | none =>
        if service.allowsType bucket (orOctetStream contentType) = false then
          (writeErrorResponse 400 "Content type not allowed for this bucket", s)
        else if bucket.exceeds body.contentLength then
          (writeErrorResponse 413 "File size exceeds allowed maximum for this bucket", s)
        else
          match resolveEngine bucket with
          | none => (writeErrorResponse 500 "Service temporarily unavailable", s)
          | some backend =>
            match service.upload backend s bucket target.objectKey body.reader body.contentLength
              (orOctetStream contentType) outside with
            | (.error _, s) => (writeErrorResponse 500 "Service temporarily unavailable", s)
            | (.ok _, s) => (.success 201, s)

/-- `handlePutS3Object` without the parameters of a part. -/
def handlePutS3Object (s : State) (target : Target) (contentType : String) (body : Body)
    (outside : Outside) : Response × State :=
  match target.denied with
  | some failure => (.failure failure, s)
  | none =>
    match service.buckets.get target.bucketName with
    | none => (writeS3ErrorResponse 404 "NoSuchBucket" "The specified bucket does not exist.", s)
    | some bucket =>
      match resolveEngine bucket with
      | none => (writeS3ErrorResponse 500 "InternalError" "", s)
      | some backend =>
        match service.upload backend s bucket target.objectKey body.reader body.contentLength
          (orOctetStream contentType) outside with
        | (.error .payloadTooLarge, s) =>
          (writeS3ErrorResponse 400 "EntityTooLarge"
            "Your proposed upload exceeds the maximum allowed object size.", s)
        | (.error _, s) => (writeS3ErrorResponse 500 "InternalError" "", s)
        | (.ok _, s) => (.success 200, s)

/-! ## Multipart uploads -/

/-- `processCreateMultipartUpload`, which answers the id it drew whether the row was inserted or
not. -/
def processCreateMultipartUpload (s : State) (target : Target) (contentType : String)
    (uploadID : ID) (inserted : Bool) : Response × State :=
  match target.denied with
  | some failure => (.failure failure, s)
  | none =>
    match service.buckets.get target.bucketName with
    | none => (writeS3ErrorResponse 404 "NoSuchBucket" "The specified bucket does not exist.", s)
    | some bucket =>
      let upload : MultipartUpload := ⟨bucket.id, target.objectKey, orOctetStream contentType⟩
      (.success 200,
        { s with
          uploads := if inserted then (s.uploads.insert uploadID upload).getD s.uploads
            else s.uploads })

/-- `processUploadPart`: the parsed id and part number are none where they do not parse. The row
needs the row of its upload. -/
def processUploadPart (s : State) (denied : Option Failure) (uploadID : Option ID)
    (partNumber : Option ℤ) (reader : Reader) (inserted : Bool) : Response × State :=
  match denied with
  | some failure => (.failure failure, s)
  | none =>
    match uploadID with
    | none => (writeS3ErrorResponse 400 "InvalidRequest" "Invalid uploadId parameter", s)
    | some uploadID =>
      match partNumber.filter fun n => 1 ≤ n with
      | none => (writeS3ErrorResponse 400 "InvalidRequest" "Invalid partNumber parameter", s)
      | some partNumber =>
        if reader.final ≠ .eof then (writeS3ErrorResponse 500 "InternalError" "", s)
        else if inserted ∧ (s.uploads.get uploadID).isSome then
          (.success 200,
            { s with
              parts := s.parts.upsert (uploadID, partNumber.toNat) reader.content
                fun _ => reader.content })
        else (writeS3ErrorResponse 500 "InternalError" "", s)

/-- `DELETE FROM multipart_uploads WHERE id`, with which the parts go. -/
def deleteUpload (s : State) (uploadID : ID) : State :=
  { s with
    uploads := s.uploads.delete uploadID
    parts := s.parts.deleteWhere fun k _ => k.1 = uploadID }

/-- What the statements of a completion do whose errors are ignored: the rows that the query for the
parts delivers before it breaks off, if it does, and whether the other three succeed. -/
structure Ignored where
  partsBefore : Option ℕ
  readsSize : Bool
  readsType : Bool
  deletes : Bool
  deriving DecidableEq, Repr

/-- The parts that a completion writes to its pipe. -/
def deliveredParts (s : State) (uploadID : ID) (ignored : Ignored) : List (List Byte) :=
  let parts := (s.parts.ordered uploadID).map Prod.snd
  match ignored.partsBefore with
  | none => parts
  | some n => parts.take n

/-- The content type of a completion. -/
def completedType (s : State) (uploadID : ID) (ignored : Ignored) : String :=
  if ignored.readsType then
    ((s.uploads.get uploadID).map MultipartUpload.contentType).getD "application/octet-stream"
  else "application/octet-stream"

/-- `processCompleteMultipartUpload`. -/
def processCompleteMultipartUpload (s : State) (target : Target) (uploadID : Option ID)
    (ignored : Ignored) (outside : Outside) : Response × State :=
  match target.denied with
  | some failure => (.failure failure, s)
  | none =>
    match uploadID with
    | none => (writeS3ErrorResponse 400 "InvalidRequest" "Invalid uploadId parameter", s)
    | some uploadID =>
      match service.buckets.get target.bucketName with
      | none => (writeS3ErrorResponse 404 "NoSuchBucket" "The specified bucket does not exist.", s)
      | some bucket =>
        match resolveEngine bucket with
        | none => (writeS3ErrorResponse 500 "InternalError" "", s)
        | some backend =>
          let totalSizeBytes : ℤ :=
            if ignored.readsSize then
              ((s.parts.ordered uploadID).map fun part => (part.2.length : ℤ)).sum
            else 0
          -- the writer of the pipe closes it without an error in any case
          let reader : Reader := ⟨deliveredParts s uploadID ignored, .eof, false⟩
          match service.upload backend s bucket target.objectKey reader totalSizeBytes
            (completedType s uploadID ignored) outside with
          | (.error _, s) => (writeS3ErrorResponse 500 "InternalError" "", s)
          | (.ok _, s) =>
            (.success 200, if ignored.deletes then deleteUpload s uploadID else s)

/-- `processAbortMultipartUpload`, whose delete may fail unnoticed. -/
def processAbortMultipartUpload (s : State) (target : Target) (uploadID : Option ID)
    (deletes : Bool) : Response × State :=
  match target.denied with
  | some failure => (.failure failure, s)
  | none =>
    match uploadID with
    | none => (writeS3ErrorResponse 400 "InvalidRequest" "Invalid uploadId parameter", s)
    | some uploadID =>
      match service.buckets.get target.bucketName with
      | none => (writeS3ErrorResponse 404 "NoSuchBucket" "The specified bucket does not exist.", s)
      | some _ => (.success 204, if deletes then deleteUpload s uploadID else s)

/-! ## Requests -/

inductive Request
  | rest (target : Target) (contentType : String) (body : Body) (outside : Outside)
  | put (target : Target) (contentType : String) (body : Body) (outside : Outside)
  | create (target : Target) (contentType : String) (uploadID : ID) (inserted : Bool)
  | part (denied : Option Failure) (uploadID : Option ID) (partNumber : Option ℤ)
    (reader : Reader) (inserted : Bool)
  | complete (target : Target) (uploadID : Option ID) (ignored : Ignored) (outside : Outside)
  | abort (target : Target) (uploadID : Option ID) (deletes : Bool)

def handle (s : State) : Request → Response × State
  | .rest target contentType body outside =>
    service.handleUploadObject s target contentType body outside
  | .put target contentType body outside =>
    service.handlePutS3Object s target contentType body outside
  | .create target contentType uploadID inserted =>
    service.processCreateMultipartUpload s target contentType uploadID inserted
  | .part denied uploadID partNumber reader inserted =>
    processUploadPart s denied uploadID partNumber reader inserted
  | .complete target uploadID ignored outside =>
    service.processCompleteMultipartUpload s target uploadID ignored outside
  | .abort target uploadID deletes =>
    service.processAbortMultipartUpload s target uploadID deletes

end Service

end Layr.FileStorage

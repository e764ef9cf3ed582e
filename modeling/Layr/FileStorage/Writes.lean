import Layr.FileStorage.Handlers

/-!
# What the handlers write

An object stands at a place: in the tables under its bucket and key, or in an upstream store. A
request that succeeds writes at most one place, and one that fails changes nothing.
-/

namespace Layr.FileStorage

open Go.Io

/-- The bytes that a download of the whole object returns. -/
def DatabaseEngine.contentOf (engine : DatabaseEngine) (chunks : Chunks) (object : Object) :
    List Byte :=
  match engine.downloadObject chunks object none with
  | .ok (bytes, _) => bytes
  | .error _ => []

variable {engine : DatabaseEngine} {object : Object}

theorem DatabaseEngine.contentOf_of_stores {db : Database} {bucketID : ID} {key : String}
    {content : List Byte} (h : engine.Stores db bucketID key object content) :
    engine.contentOf db.chunks object = content := by
  have hwindow : window object none = .ok (0, object.sizeBytes - 1) := rfl
  rw [contentOf, engine.downloadObject_of_chunksOf h.size h.chunks hwindow]
  rfl

theorem DatabaseEngine.contentOf_congr {chunks chunks' : Chunks}
    (h : ∀ i, chunks'.get (object.id, i) = chunks.get (object.id, i)) :
    engine.contentOf chunks' object = engine.contentOf chunks object := by
  have hselect : ∀ first last,
      selectChunks chunks' object.id first last = selectChunks chunks object.id first last := by
    intro first last
    unfold selectChunks
    simp only [h]
  unfold contentOf downloadObject stream
  simp only [hselect]

/-! ## Places -/

inductive Place
  | database (bucketID : ID) (key : String)
  | upstream (location : String) (key : String)
  deriving DecidableEq, Repr

structure Stored where
  contentType : String
  size : ℤ
  content : List Byte
  deriving DecidableEq, Repr

namespace Service

variable (service : Service)

/-- Where an object of the bucket stands. -/
def place (bucket : Bucket) (key : String) : Option Place :=
  match resolveEngine bucket with
  | none => none
  | some .database => some (.database bucket.id key)
  | some .s3 => (service.upstream bucket).map fun location => .upstream location key

/-- What stands at a place. -/
def stored (s : State) : Place → Option Stored
  | .database bucketID key =>
    (s.db.objects.rows.get (bucketID, key)).map fun object =>
      ⟨object.contentType, object.sizeBytes,
        service.databaseEngine.contentOf s.db.chunks object⟩
  | .upstream location key =>
    (s.upstream.get (location, key)).map fun object =>
      ⟨object.contentType, object.content.length, object.content⟩

/-- The state after an object was written, and nothing else. -/
structure Wrote (s s' : State) (bucket : Bucket) (key contentType : String)
    (content : List Byte) : Prop where
  limited : resolveEngine bucket = some .database → bucket.exceeds content.length = false
  written : ∃ p, service.place bucket key = some p ∧
    service.stored s' p = some ⟨orOctetStream contentType, content.length, content⟩ ∧
    ∀ p', p' ≠ p → service.stored s' p' = service.stored s p'
  uploads : s'.uploads = s.uploads
  parts : s'.parts = s.parts

/-- The bucket has an engine that takes what is read: the tables take a content within the limit
under an id that is not in use, and an upstream store must be configured and accept it. -/
def Takes (s : State) (bucket : Bucket) (reader : Reader) (outside : Outside) : Prop :=
  reader.final = .eof ∧
    match resolveEngine bucket with
    | none => False
    | some .database =>
      bucket.exceeds reader.content.length = false ∧
        s.db.objects.hasID outside.objectID = false
    | some .s3 => (service.upstream bucket).isSome ∧ outside.upstreamAccepts

section Upload

variable {service} {s : State} {bucket : Bucket} {key contentType : String} {reader : Reader}

theorem wrote_of_uploaded {db : Database} (hbackend : resolveEngine bucket = some .database)
    (h : service.databaseEngine.Uploaded s.db db bucket key contentType object reader.content) :
    service.Wrote s { s with db := db } bucket key contentType reader.content := by
  refine ⟨fun _ => h.fits, ⟨.database bucket.id key, by rw [place, hbackend], ?_, ?_⟩, rfl, rfl⟩
  · show (db.objects.rows.get (bucket.id, key)).map _ = _
    rw [h.stores.row, Option.map_some, h.contentType, h.stores.size,
      DatabaseEngine.contentOf_of_stores h.stores]
  · intro p hp
    cases p with
    | upstream => rfl
    | database bucketID key' =>
      have hne : (bucketID, key') ≠ (bucket.id, key) := by
        intro heq
        obtain ⟨rfl, rfl⟩ := Prod.mk.inj heq
        exact hp rfl
      show (db.objects.rows.get (bucketID, key')).map _ = _
      rw [h.otherRows _ hne, stored]
      rcases hother : s.db.objects.rows.get (bucketID, key') with _ | other
      · rfl
      · -- another object has another id, whose chunks stay
        have hid : other.id ≠ object.id := by
          intro hid
          exact hne (db.objects.unique ((h.otherRows _ hne).trans hother) h.stores.row hid)
        rw [Option.map_some, Option.map_some,
          DatabaseEngine.contentOf_congr fun i => h.otherChunks other.id i hid]

theorem wrote_of_upstream {location : String} (hbackend : resolveEngine bucket = some .s3)
    (hlocation : service.upstream bucket = some location) :
    service.Wrote s
      { s with
        upstream := s.upstream.upsert (location, key)
          ⟨orOctetStream contentType, reader.content⟩
          fun _ => ⟨orOctetStream contentType, reader.content⟩ }
      bucket key contentType reader.content := by
  refine ⟨fun h => ?_, ⟨.upstream location key, ?_, ?_, ?_⟩, rfl, rfl⟩
  · rw [hbackend] at h
    cases h
  · rw [place, hbackend, hlocation]
    rfl
  · show (Table.get _ (location, key)).map _ = _
    rw [Table.get_upsert, if_pos rfl]
    cases s.upstream.get (location, key) <;> rfl
  · intro p hp
    cases p with
    | database => rfl
    | upstream location' key' =>
      have hne : (location', key') ≠ (location, key) := by
        intro heq
        obtain ⟨rfl, rfl⟩ := Prod.mk.inj heq
        exact hp rfl
      show (Table.get _ (location', key')).map _ = _
      rw [Table.get_upsert, if_neg hne]
      rfl

/-- An upload writes the content of its reader, or it changes nothing and the engine does not take
the content. -/
theorem upload_cases {backend : Backend} (hbackend : resolveEngine bucket = some backend)
    (sizeBytes : ℤ) (outside : Outside) :
    (∃ error, service.upload backend s bucket key reader sizeBytes contentType outside =
      (.error error, s) ∧ ¬ service.Takes s bucket reader outside) ∨
    ∃ object s', service.upload backend s bucket key reader sizeBytes contentType outside =
        (.ok object, s') ∧
      service.Wrote s s' bucket key contentType reader.content := by
  cases backend with
  | database =>
    rcases service.databaseEngine.upload_cases s.db bucket key reader sizeBytes contentType
      outside.objectID with ⟨error, herror, htaken⟩ | ⟨object, db, hok, huploaded⟩
    · left
      refine ⟨error, by rw [upload, herror], fun htakes => ?_⟩
      rw [Takes, hbackend] at htakes
      obtain ⟨heof, hfits, hfree⟩ := htakes
      exact absurd (hfree.symm.trans (htaken (.inl heof) hfits)) (by decide)
    · right
      refine ⟨object, { s with db := db }, ?_, wrote_of_uploaded hbackend huploaded⟩
      rw [upload, hok]
  | s3 =>
    rw [upload, s3Upload]
    have hneeds : service.Takes s bucket reader outside →
        (service.upstream bucket).isSome ∧
          outside.upstreamAccepts ∧ reader.final = .eof := by
      intro htakes
      rw [Takes, hbackend] at htakes
      exact ⟨htakes.2.1, htakes.2.2, htakes.1⟩
    rcases hlocation : service.upstream bucket with _ | location
    · refine .inl ⟨_, rfl, fun htakes => ?_⟩
      have hsome := (hneeds htakes).1
      rw [hlocation] at hsome
      cases hsome
    · dsimp only
      split_ifs with haccepts
      · exact .inr ⟨_, _, rfl, wrote_of_upstream hbackend hlocation⟩
      · exact .inl ⟨_, rfl, fun htakes => haccepts (hneeds htakes).2⟩

/-- What the engine takes is uploaded. -/
theorem upload_of_takes {outside : Outside} (key : String) (sizeBytes : ℤ) (contentType : String)
    (h : service.Takes s bucket reader outside) :
    ∃ backend object s', resolveEngine bucket = some backend ∧
      service.upload backend s bucket key reader sizeBytes contentType outside =
        (.ok object, s') := by
  cases hbackend : resolveEngine bucket with
  | none =>
    rw [Takes, hbackend] at h
    exact h.2.elim
  | some backend =>
    rcases upload_cases hbackend sizeBytes outside with ⟨-, -, hnot⟩ | ⟨object, s', hok, -⟩
    · exact absurd h hnot
    · exact ⟨backend, object, s', rfl, hok⟩

end Upload

/-! ## Requests -/

/-- What a request does that is answered with success. -/
inductive Effect (s : State) : Request → State → Prop
  /-- A REST upload writes only what the bucket's types and limit admit. -/
  | rest {target : Target} {contentType : String} {body : Body} {outside : Outside}
      {bucket : Bucket} {s' : State}
      (hbucket : service.buckets.get target.bucketName = some bucket)
      (htype : service.allowsType bucket (orOctetStream contentType))
      (hlength : bucket.exceeds body.contentLength = false)
      (hwrote : service.Wrote s s' bucket target.objectKey (orOctetStream contentType)
        body.reader.content) :
      Effect s (.rest target contentType body outside) s'
  /-- An S3 `PUT` writes whatever its type. -/
  | put {target : Target} {contentType : String} {body : Body} {outside : Outside}
      {bucket : Bucket} {s' : State}
      (hbucket : service.buckets.get target.bucketName = some bucket)
      (hwrote : service.Wrote s s' bucket target.objectKey (orOctetStream contentType)
        body.reader.content) :
      Effect s (.put target contentType body outside) s'
  /-- A creation adds at most the row of its id. -/
  | create {target : Target} {contentType : String} {uploadID : ID} {inserted : Bool}
      {bucket : Bucket} {uploads : Table ID MultipartUpload}
      (hbucket : service.buckets.get target.bucketName = some bucket)
      (huploads : ∀ id, id ≠ uploadID → uploads.get id = s.uploads.get id) :
      Effect s (.create target contentType uploadID inserted) { s with uploads := uploads }
  /-- A part needs the row of its upload and replaces the part of its number. -/
  | part {denied : Option Failure} {uploadID : ID} {partNumber : ℤ} {reader : Reader}
      {inserted : Bool} {upload : MultipartUpload}
      (hupload : s.uploads.get uploadID = some upload) :
      Effect s (.part denied (some uploadID) (some partNumber) reader inserted)
        { s with
          parts := s.parts.upsert (uploadID, partNumber.toNat) reader.content
            fun _ => reader.content }
  /-- A completion writes the parts it was delivered, whatever upload the id stands for. -/
  | complete {target : Target} {uploadID : ID} {ignored : Ignored} {outside : Outside}
      {bucket : Bucket} {s₁ : State}
      (hbucket : service.buckets.get target.bucketName = some bucket)
      (hwrote : service.Wrote s s₁ bucket target.objectKey (completedType s uploadID ignored)
        (deliveredParts s uploadID ignored).flatten) :
      Effect s (.complete target (some uploadID) ignored outside)
        (if ignored.deletes then deleteUpload s₁ uploadID else s₁)
  | abort {target : Target} {uploadID : ID} {deletes : Bool} :
      Effect s (.abort target (some uploadID) deletes)
        (if deletes then deleteUpload s uploadID else s)

/-- The two ways a request ends. -/
def Ends (s : State) (request : Request) (response : Response) (s' : State) : Prop :=
  (response.isSuccess = false ∧ s' = s) ∨
    (response.isSuccess ∧ service.Effect s request s')

/-- No object goes with an upload. -/
@[simp] theorem stored_deleteUpload (s : State) (uploadID : ID) (p : Place) :
    service.stored (deleteUpload s uploadID) p = service.stored s p := by
  cases p <;> rfl

section Requests

variable {service} {s s' : State} {target : Target} {contentType : String} {body : Body}
  {outside : Outside} {response : Response} {uploadID : Option ID} {ignored : Ignored}
  {request : Request}

theorem ends_of_failure {failure : Failure}
    (h : (Response.failure failure, s) = (response, s')) : service.Ends s request response s' := by
  cases h
  exact .inl ⟨rfl, rfl⟩

theorem ends_of_success {status : ℕ} {s₁ : State} (heffect : service.Effect s request s₁)
    (h : (Response.success status, s₁) = (response, s')) : service.Ends s request response s' := by
  cases h
  exact .inr ⟨rfl, heffect⟩

theorem ends_rest (h : service.handleUploadObject s target contentType body outside =
      (response, s')) :
    service.Ends s (.rest target contentType body outside) response s' := by
  unfold handleUploadObject at h
  split_ifs at h with henabled hempty
  · exact ends_of_failure h
  · exact ends_of_failure h
  split at h
  · exact ends_of_failure h
  · next bucket hbucket =>
    split at h
    · exact ends_of_failure h
    · split_ifs at h with htype hexceeds
      · exact ends_of_failure h
      · exact ends_of_failure h
      · split at h
        · exact ends_of_failure h
        · next backend hbackend =>
          rcases upload_cases hbackend body.contentLength outside with
            ⟨error, herror, -⟩ | ⟨object, s₁, hok, hwrote⟩
          · rw [herror] at h
            exact ends_of_failure h
          · rw [hok] at h
            exact ends_of_success
              (.rest hbucket (by simpa using htype) (by simpa using hexceeds) hwrote) h

theorem ends_put (h : service.handlePutS3Object s target contentType body outside =
      (response, s')) :
    service.Ends s (.put target contentType body outside) response s' := by
  unfold handlePutS3Object at h
  split at h
  · exact ends_of_failure h
  split at h
  · exact ends_of_failure h
  · next bucket hbucket =>
    split at h
    · exact ends_of_failure h
    · next backend hbackend =>
      rcases upload_cases hbackend body.contentLength outside with
        ⟨error, herror, -⟩ | ⟨object, s₁, hok, hwrote⟩
      · rw [herror] at h
        cases error <;> exact ends_of_failure h
      · rw [hok] at h
        exact ends_of_success (.put hbucket hwrote) h

theorem ends_create {id : ID} {inserted : Bool}
    (h : service.processCreateMultipartUpload s target contentType id inserted = (response, s')) :
    service.Ends s (.create target contentType id inserted) response s' := by
  unfold processCreateMultipartUpload at h
  split at h
  · exact ends_of_failure h
  split at h
  · exact ends_of_failure h
  · next bucket hbucket =>
    refine ends_of_success (.create hbucket fun id' hid => ?_) h
    split_ifs
    · rcases hinsert : s.uploads.insert id
        ⟨bucket.id, target.objectKey, orOctetStream contentType⟩ with _ | uploads
      · rfl
      · rw [Option.getD_some, Table.get_insert hinsert, if_neg hid]
    · rfl

theorem ends_part {denied : Option Failure} {partNumber : Option ℤ} {reader : Reader}
    {inserted : Bool}
    (h : processUploadPart s denied uploadID partNumber reader inserted = (response, s')) :
    service.Ends s (.part denied uploadID partNumber reader inserted) response s' := by
  unfold processUploadPart at h
  split at h
  · exact ends_of_failure h
  split at h
  · exact ends_of_failure h
  split at h
  · exact ends_of_failure h
  · next id _ n hnumber =>
    split_ifs at h with hread hinserted
    · exact ends_of_failure h
    · obtain ⟨upload, hupload⟩ := Option.isSome_iff_exists.mp hinserted.2
      rw [(Option.filter_eq_some_iff.mp hnumber).1]
      exact ends_of_success (.part hupload) h
    · exact ends_of_failure h

theorem ends_complete
    (h : service.processCompleteMultipartUpload s target uploadID ignored outside =
      (response, s')) :
    service.Ends s (.complete target uploadID ignored outside) response s' := by
  unfold processCompleteMultipartUpload at h
  split at h
  · exact ends_of_failure h
  split at h
  · exact ends_of_failure h
  split at h
  · exact ends_of_failure h
  · next bucket hbucket =>
    split at h
    · exact ends_of_failure h
    · next backend hbackend =>
      dsimp only at h
      rcases upload_cases hbackend _ outside with ⟨error, herror, -⟩ | ⟨object, s₁, hok, hwrote⟩
      · rw [herror] at h
        exact ends_of_failure h
      · rw [hok] at h
        exact ends_of_success (.complete hbucket hwrote) h

theorem ends_abort {deletes : Bool}
    (h : service.processAbortMultipartUpload s target uploadID deletes = (response, s')) :
    service.Ends s (.abort target uploadID deletes) response s' := by
  unfold processAbortMultipartUpload at h
  split at h
  · exact ends_of_failure h
  split at h
  · exact ends_of_failure h
  split at h
  · exact ends_of_failure h
  · exact ends_of_success .abort h

/-- A request fails and changes nothing, or has its effect. -/
theorem ends_of_handle (h : service.handle s request = (response, s')) :
    service.Ends s request response s' := by
  cases request with
  | rest => exact ends_rest h
  | put => exact ends_put h
  | create => exact ends_create h
  | part => exact ends_part h
  | complete => exact ends_complete h
  | abort => exact ends_abort h

end Requests

/-! ## Requests that are accepted -/

/-- What a write of S3 needs besides its authentication, on the request and the state before it. -/
def Accepts (s : State) : Request → Prop
  | .put target _ body outside =>
    ∃ bucket, service.buckets.get target.bucketName = some bucket ∧
      service.Takes s bucket body.reader outside
  | .part _ uploadID partNumber reader inserted =>
    ∃ id n, uploadID = some id ∧ partNumber = some n ∧ 1 ≤ n ∧ reader.final = .eof ∧
      inserted ∧ (s.uploads.get id).isSome
  | .complete target uploadID ignored outside =>
    ∃ id bucket, uploadID = some id ∧ service.buckets.get target.bucketName = some bucket ∧
      service.Takes s bucket ⟨deliveredParts s id ignored, .eof, false⟩ outside
  | _ => False

variable {service} {s : State} {target : Target} {contentType : String} {body : Body}
  {outside : Outside}

theorem put_succeeds (hdenied : target.denied = none)
    (h : service.Accepts s (.put target contentType body outside)) :
    (service.handlePutS3Object s target contentType body outside).1.isSuccess := by
  obtain ⟨bucket, hbucket, htakes⟩ := h
  obtain ⟨backend, object, s', hbackend, hok⟩ := upload_of_takes target.objectKey
    body.contentLength (orOctetStream contentType) htakes
  simp only [handlePutS3Object, hdenied, hbucket, hbackend, hok, Response.isSuccess]

theorem part_succeeds {uploadID : Option ID} {partNumber : Option ℤ} {reader : Reader}
    {inserted : Bool}
    (h : service.Accepts s (.part none uploadID partNumber reader inserted)) :
    (processUploadPart s none uploadID partNumber reader inserted).1.isSuccess := by
  obtain ⟨id, n, rfl, rfl, hpositive, heof, hinserted, hupload⟩ := h
  simp [processUploadPart, Option.filter_some, hpositive, heof, hinserted, hupload,
    Response.isSuccess]

theorem complete_succeeds {uploadID : Option ID} {ignored : Ignored}
    (hdenied : target.denied = none)
    (h : service.Accepts s (.complete target uploadID ignored outside)) :
    (service.processCompleteMultipartUpload s target uploadID ignored outside).1.isSuccess =
      true := by
  obtain ⟨id, bucket, rfl, hbucket, htakes⟩ := h
  simp only [processCompleteMultipartUpload, hdenied, hbucket]
  obtain ⟨backend, object, s', hbackend, hok⟩ := upload_of_takes target.objectKey
    (if ignored.readsSize then ((s.parts.ordered id).map fun part => (part.2.length : ℤ)).sum
      else 0)
    (completedType s id ignored) htakes
  simp only [hbackend, hok, Response.isSuccess]

end Service

end Layr.FileStorage

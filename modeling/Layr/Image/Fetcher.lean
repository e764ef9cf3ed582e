import Layr.FileStorage.Model
import Layr.Image.Path

/-!
# Sources of images

`Fetch` loads the source of an image from the file storage or from a remote server. An object of a
bucket that is not public is loaded only for a caller with a presigned token, a service account
key, or a context that the middleware has authenticated.
-/

namespace Layr.Image

open Go Go.Io Layr.Core

inductive FetchError
  | storageAccessDenied
  | storageNotFound
  | ssrfBlocked
  | domainNotAllowed
  | other
  deriving DecidableEq, Repr

/-- A request for an image. -/
structure Request where
  base : Core.Request
  signature : String
  rawPath : String
  rawQuery : String

/-- What a request finds: the tables, the configuration, the presets as they show in the parser of
the options, the remote servers and the clock. -/
structure World (ω : Type) where
  server : Core.Server
  accounts : Accounts
  buckets : String → Option FileStorage.Bucket
  db : FileStorage.Database
  signingKey : List Byte
  signingSalt : List Byte
  allowInsecure : Bool
  cacheTTLSeconds : ℤ
  parseProcessingOptions : String → Option ω
  fetchRemoteHTTP : String → Except FetchError (List Byte)
  unixTime : ℤ

/-- The parts of the service that do not change: the standard library, with the values of a query
by their names and the query of a URL, SHA-256, the signature of presigned payloads, and of the
options and the engine what the handler uses. -/
structure Service (ω : Type) where
  codecs : Codecs
  queryValue : String → String → String
  queryOfURL : String → Option String
  digest : Kv.Digest
  sha256 : List Byte → String
  presign : String → String
  optionsPayload : ω → String
  fallbackImageURL : ω → String
  withFormat : ω → String → ω
  transform : List Byte → ω → Option (List Byte × String)

def scopeFileStorageObjectRead : String := "storage:object.read"

namespace Service

variable {ω : Type} (service : Service ω) (world : World ω) (request : Request)

/-! ## Access to objects -/

/-- The query that holds the presigned token: that of the request, or that of the storage path. -/
def tokenQuery (storagePath : String) : String :=
  if service.queryValue request.rawQuery "token" = "" ∧ Strings.contains storagePath "?" then
    (service.queryOfURL storagePath).getD request.rawQuery
  else request.rawQuery

/-- The presigned token is that of the object, for reading, and has not expired. -/
def hasPresignedToken (bucketName objectKey storagePath : String) : Bool :=
  let query := service.tokenQuery request storagePath
  let token := service.queryValue query "token"
  let expires := service.queryValue query "expires"
  let operation := service.queryValue query "op"
  token ≠ "" && expires ≠ "" && (operation = "read" || operation = "") &&
    match Strconv.parseInt expires.toList with
    | none => false
    | some expiresUnix =>
      world.unixTime ≤ expiresUnix &&
        token = service.presign (bucketName ++ ":" ++ objectKey ++ ":read:" ++
          String.ofList (Strconv.formatInt expiresUnix))

def mayRead (scopes : List String) : Bool :=
  hasScope scopes scopeFileStorageObjectRead || hasScope scopes "*"

/-- The service account key of the request is that of an account that may read objects. -/
def hasReadingKey : Bool :=
  request.base.serviceAccountKey ≠ "" &&
    match world.server.authenticate world.accounts request.base.serviceAccountKey
      request.base.clientIP with
    | .error _ => false
    | .ok (_, account) => mayRead account.scopes

/-- `authorizeStorageAccess`. Every authenticated user may read every object. -/
def authorizeStorageAccess (bucketName objectKey storagePath : String) : Bool :=
  let context := world.server.middleware world.accounts request.base
  service.hasPresignedToken world request bucketName objectKey storagePath ||
    hasReadingKey world request ||
    if context.isServiceAccount then mayRead context.jwt.scopes else context.isAuthenticated

/-! ## Fetch -/

/-- The bucket and the key in a storage path. -/
def splitStoragePath (storagePath : String) : Option (String × String) :=
  let clean := ((Strings.cut '?' storagePath).map Prod.fst).getD storagePath
  match Strings.cut '/' clean with
  | none => none
  | some (bucketName, objectKey) =>
    if bucketName = "" ∨ objectKey = "" then none else some (bucketName, objectKey)

/-- A source with what it is loaded from, as in `CachedImage`. -/
structure Source where
  data : List Byte
  origin : Option (String × String)
  deriving DecidableEq, Repr

/-- `fetchLocalStorage`. -/
def fetchLocalStorage (storagePath : String) : Except FetchError Source :=
  match splitStoragePath storagePath with
  | none => .error .other
  | some (bucketName, objectKey) =>
    match world.buckets bucketName with
    | none => .error .storageNotFound
    | some bucket =>
      if bucket.isPublic = false ∧
          service.authorizeStorageAccess world request bucketName objectKey storagePath = false then
        .error .storageAccessDenied
      else
        match world.db.objects.rows.get (bucket.id, objectKey) with
        | none => .error .storageNotFound
        | some object =>
          .ok ⟨(world.db.chunks.ordered object.id).flatMap Prod.snd, some (bucketName, objectKey)⟩

/-- `Fetch`. -/
def fetch (sourceURL : String) : Except FetchError Source :=
  let trimmed := Strings.trimSpace sourceURL
  if trimmed = "" then .error .other
  else if Strings.contains trimmed "://" then
    if Strings.hasPrefix trimmed "http://" || Strings.hasPrefix trimmed "https://" then
      (world.fetchRemoteHTTP trimmed).map fun data => ⟨data, none⟩
    else .error .other
  else service.fetchLocalStorage world request trimmed

/-! ## The object of a source -/

/-- The bucket and key of the object that a source names, if it names one. -/
def objectOf (sourceURL : String) : Option (String × String) :=
  let trimmed := Strings.trimSpace sourceURL
  if Strings.contains trimmed "://" then none else splitStoragePath trimmed

/-- The object is public, or the caller may read it by the source that the request names. -/
def Readable (sourceURL : String) (object : String × String) : Prop :=
  (∃ bucket, world.buckets object.1 = some bucket ∧ bucket.isPublic) ∨
    service.authorizeStorageAccess world request object.1 object.2
      (Strings.trimSpace sourceURL)

instance (sourceURL : String) (object : String × String) :
    Decidable (service.Readable world request sourceURL object) :=
  haveI : Decidable (∃ bucket, world.buckets object.1 = some bucket ∧ bucket.isPublic) :=
    decidable_of_iff ((world.buckets object.1).any fun bucket => bucket.isPublic)
      (by simp [Option.any_eq_true])
  inferInstanceAs (Decidable (_ ∨ _))

variable {service world request}

theorem fetchLocalStorage_spec {storagePath : String} {source : Source}
    (h : service.fetchLocalStorage world request storagePath = .ok source) :
    ∃ object, splitStoragePath storagePath = some object ∧ source.origin = some object ∧
      ((∃ bucket, world.buckets object.1 = some bucket ∧ bucket.isPublic) ∨
        service.authorizeStorageAccess world request object.1 object.2 storagePath) := by
  unfold fetchLocalStorage at h
  split at h
  · cases h
  rename_i bucketName objectKey hsplit
  split at h
  · cases h
  rename_i bucket hbucket
  split at h
  · cases h
  rename_i haccess
  split at h
  · cases h
  cases h
  refine ⟨(bucketName, objectKey), hsplit, rfl, ?_⟩
  by_cases hpublic : bucket.isPublic
  · exact .inl ⟨bucket, hbucket, hpublic⟩
  · have hprivate : bucket.isPublic = false := by simpa using hpublic
    refine .inr ?_
    by_contra hdenied
    exact haccess ⟨hprivate, by simpa using hdenied⟩

/-- What is fetched is the object that the source names, if it names one, and the caller may read
it. -/
theorem fetch_spec {sourceURL : String} {source : Source}
    (h : service.fetch world request sourceURL = .ok source) :
    source.origin = objectOf sourceURL ∧
      ∀ object, source.origin = some object →
        service.Readable world request sourceURL object := by
  unfold fetch at h
  unfold objectOf
  dsimp only at h ⊢
  split at h
  · cases h
  split at h
  · rename_i hremote
    rw [if_pos hremote]
    split at h
    · cases hdata : world.fetchRemoteHTTP (Strings.trimSpace sourceURL) with
      | error e => simp [hdata, Except.map] at h
      | ok data =>
        rw [hdata] at h
        cases h
        simp
    · cases h
  · rename_i hlocal
    rw [if_neg hlocal]
    obtain ⟨object, hsplit, horigin, hreadable⟩ := fetchLocalStorage_spec h
    refine ⟨horigin.trans hsplit.symm, ?_⟩
    intro object' horigin'
    have heq : object = object' := Option.some.inj (horigin.symm.trans horigin')
    rw [← heq]
    exact hreadable

end Service

end Layr.Image

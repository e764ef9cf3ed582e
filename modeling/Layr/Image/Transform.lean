import Layr.Image.Cache
import Layr.Image.Fetcher

/-!
# The handler of transformed images

`handleTransform` verifies the signature of the path, looks the image up in the cache, and
otherwise fetches its source, or a fallback, transforms it and keeps the result. The bodies of
its answers carry the origin of their data; events, logs and the length header are left out.
-/

namespace Layr.Image

open Go Go.Io

/-- An answer of the handler. -/
inductive Response
  | failure (status : ℕ) (detail : String)
  | notModified
  | image (contentType eTag cacheControl : String) (data : List Byte)
      (origin : Option (String × String))
  deriving DecidableEq, Repr

/-- The object that the body of an answer is derived from. -/
def Response.origin : Response → Option (String × String)
  | .image _ _ _ _ origin => origin
  | _ => none

/-- The answer to a source that cannot be fetched. -/
def FetchError.response : FetchError → Response
  | .storageNotFound => .failure 404 "Image asset not found"
  | .storageAccessDenied | .ssrfBlocked | .domainNotAllowed => .failure 403 "Access denied"
  | .other => .failure 502 "Bad gateway"

namespace Service

variable {ω : Type} (service : Service ω) (world : World ω) (request : Request)

/-- The path that the signature is for. -/
def fullPath : String :=
  let path := "/" ++ Strings.trimPrefix request.rawPath "/"
  if request.rawQuery = "" then path else path ++ "?" ++ request.rawQuery

/-- The first two steps: the source and the processing options of a signed path. -/
def prepare : Except Response (String × ω) :=
  if request.signature = "" ∨ request.rawPath = "" then
    .error (.failure 400 "Signature and image path are required")
  else if service.codecs.verifySignature world.signingKey world.signingSalt request.signature
      (fullPath request) world.allowInsecure = false then
    .error (.failure 403 "Invalid URL signature")
  else
    match service.codecs.parseURLPath (fullPath request) with
    | none => .error (.failure 400 "Invalid image request path")
    | some path =>
      match world.parseProcessingOptions path.optionsString with
      | none => .error (.failure 400 "Invalid image processing options")
      | some options =>
        .ok (path.sourceURL, if path.extensionOverride = "" then options
          else service.withFormat options path.extensionOverride)

/-- `Cache-Control`. -/
def cacheControl : String :=
  "public, max-age=" ++ String.ofList (Strconv.formatInt world.cacheTTLSeconds)

/-- The answer with an image. -/
def sendImage (image : CachedImage) : Response :=
  .image image.contentType image.eTag (cacheControl world) image.data image.origin

/-- The answer with an image of the cache. -/
def sendCached (image : CachedImage) : Response :=
  let clientETag := request.base.header "If-None-Match"
  if clientETag ≠ "" ∧ clientETag = image.eTag then .notModified else sendImage world image

/-- The source, or the fallback of the options if the source cannot be fetched. The error is that
of the source. -/
def fetchOrFallback (sourceURL : String) (options : ω) : Except FetchError Source :=
  match service.fetch world request sourceURL with
  | .ok source => .ok source
  | .error e =>
    if service.fallbackImageURL options = "" then .error e
    else
      match service.fetch world request (service.fallbackImageURL options) with
      | .ok source => .ok source
      | .error _ => .error e

/-- The image that `Set` keeps, with its ETag. -/
def newImage (contentType : String) (data : List Byte) (origin : Option (String × String)) :
    CachedImage :=
  ⟨contentType, "\"" ++ String.ofList ((service.sha256 data).toList.take 32) ++ "\"", data, origin⟩

def cacheKeyOf (sourceURL : String) (options : ω) : String :=
  computeCacheKey service.digest sourceURL (service.optionsPayload options)

/-- The steps of `handleTransform` behind the cache. -/
def transformSource (cache : CacheManager) (sourceURL : String) (options : ω) :
    Response × CacheManager :=
  match service.fetchOrFallback world request sourceURL options with
  | .error e => (e.response, cache)
  | .ok source =>
    match service.transform source.data options with
    | none => (.failure 422 "Unable to process image", cache)
    | some (data, contentType) =>
      let image := service.newImage contentType data source.origin
      (sendImage world image, cache.set (service.cacheKeyOf sourceURL options) image)

/-- `handleTransform`. -/
def handleTransform (cache : CacheManager) : Response × CacheManager :=
  match service.prepare world request with
  | .error response => (response, cache)
  | .ok (sourceURL, options) =>
    match cache.get (service.cacheKeyOf sourceURL options) with
    | some (image, cache) => (sendCached world request image, cache)
    | none => service.transformSource world request cache sourceURL options

end Service

end Layr.Image

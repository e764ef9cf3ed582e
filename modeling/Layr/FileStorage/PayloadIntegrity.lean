import Layr.FileStorage.Policy
import Layr.FileStorage.SigV4

/-!
# Signed payloads (`filestorage/base_handler_s3.go`)

A `PUT` of an object or of a part is authenticated by `authenticateS3` and then stored. The
signature covers the digest that the caller declares, and nothing compares it with the bytes that
are stored. So a payload is what was signed only if the request is sent as its signer made it.
-/

namespace Layr.FileStorage.PayloadIntegrity

open Go Go.Io SigV4

/-- The handler with what it was built from. -/
structure BaseHandler where
  service : Service
  validator : Validator
  enabled : Bool
  parseUUID : String → Option ID

/-- A `PUT` under `/v1/file-storage/s3/{bucket}/{key...}`, with the context that the middleware has
left and what happens outside: the outcome of an upload, and whether the row of a part is
inserted. -/
structure PutRequest where
  http : HttpRequest
  context : Core.AuthContext
  bucket : String
  key : String
  outside : Outside
  inserted : Bool

/-- The failure that `writeS3ErrorResponse` answers. -/
def s3Failure (status : ℕ) (code message : String) : Service.Failure :=
  ⟨status, code,
    if 500 ≤ status ∨ code = "InternalError" then "Service temporarily unavailable" else message⟩

/-- The answer to an error of the validator. A malformed credential and an account that does not
exist are no cases of the switch. -/
def refusal : SigError → Service.Failure
  | .missingAuthHeader => s3Failure 401 "AccessDenied" "Missing or invalid authorization header"
  | .invalidAlgorithm => s3Failure 400 "InvalidRequest" "Unsupported signature algorithm"
  | .invalidAccessKeyID =>
    s3Failure 403 "InvalidAccessKeyId"
      "The AWS Access Key Id you provided does not exist in our records."
  | .signatureDoesNotMatch =>
    s3Failure 403 "SignatureDoesNotMatch"
      "The request signature we calculated does not match the signature you provided."
  | .requestExpired =>
    s3Failure 403 "RequestTimeTooSkewed"
      "The difference between the request time and the server's time is too large."
  | .account .disabled => s3Failure 403 "AccessDenied" "Service account is disabled"
  | .account .expired => s3Failure 403 "AccessDenied" "Service account has expired"
  | .account .ipBlocked => s3Failure 403 "AccessDenied" "Client IP address not allowed"
  | .invalidTimestamp =>
    s3Failure 403 "AccessDenied"
      "AWS authentication requires a valid Date or x-amz-date header"
  | _ => s3Failure 500 "InternalError" "Service temporarily unavailable"

def scopeFileStorageObjectWrite : String := "storage:object.write"

namespace BaseHandler

variable (handler : BaseHandler)

/-- `authenticateS3`, with the body that is left for the handler. -/
def authenticateS3 (request : PutRequest) (requiredScope : String) :
    Except Service.Failure Service.Body :=
  let insufficient :=
    s3Failure 403 "AccessDenied" "Insufficient scope permissions for this operation"
  if handler.enabled = false then .error (s3Failure 403 "AccessDenied" "Access denied")
  else if request.context.isServiceAccount then
    if request.context.hasScope requiredScope = false then .error insufficient
    else .ok request.http.body
  else
    match handler.validator.validate request.http with
    | .error error => .error (refusal error)
    | .ok (account, body) =>
      if Core.hasScope account.scopes requiredScope = false then .error insufficient else .ok body

/-- The failure of an authentication. -/
def denied (request : PutRequest) : Option Service.Failure :=
  match handler.authenticateS3 request scopeFileStorageObjectWrite with
  | .error failure => some failure
  | .ok _ => none

/-- The body that a handler reads. -/
def bodyLeft (request : PutRequest) : Service.Body :=
  match handler.authenticateS3 request scopeFileStorageObjectWrite with
  | .error _ => request.http.body
  | .ok body => body

/-- The request names a part of an upload. -/
def isPart (request : PutRequest) : Bool :=
  (GoMap.get "partNumber" request.http.query).isSome &&
    (GoMap.get "uploadId" request.http.query).isSome

/-- What `handlePutS3Object` makes of the request: a part or an object. -/
def dispatch (request : PutRequest) : Service.Request :=
  if isPart request then
    .part (handler.denied request) (handler.parseUUID (request.http.queryValue "uploadId"))
      (Strconv.parseInt (request.http.queryValue "partNumber").toList)
      (handler.bodyLeft request).reader request.inserted
  else
    .put ⟨handler.enabled, handler.denied request, request.bucket, request.key⟩
      (request.http.headerValue "Content-Type") (handler.bodyLeft request) request.outside

/-- `handlePutS3Object`. -/
def handlePutS3Object (s : State) (request : PutRequest) : Service.Response × State :=
  handler.service.handle s (handler.dispatch request)

/-- The bytes that stand where a request writes: the object under its key, or the part. -/
def written (s : State) : Service.Request → Option (List Byte)
  | .put target _ _ _ => do
    let bucket ← handler.service.buckets.get target.bucketName
    let place ← handler.service.place bucket target.objectKey
    let stored ← handler.service.stored s place
    some stored.content
  | .part _ (some uploadID) (some partNumber) _ _ => s.parts.get (uploadID, partNumber.toNat)
  | _ => none

end BaseHandler

def isHexDigit (c : Char) : Bool :=
  ('0' ≤ c && c ≤ '9') || ('a' ≤ c && c ≤ 'f') || ('A' ≤ c && c ≤ 'F')

/-- A SHA-256 in hexadecimal digits. -/
structure IsHexDigest (text : String) : Prop where
  length : text.toList.length = 64
  digits : text.toList.all isHexDigit

theorem IsHexDigest.ne_empty {text : String} (h : IsHexDigest text) : text ≠ "" := by
  intro hempty
  have hlength := h.length
  rw [hempty, String.toList_empty] at hlength
  cases hlength

/-- The declared digest of a request. -/
def declaredDigest (request : PutRequest) : String :=
  request.http.headerValue "X-Amz-Content-Sha256"

section Integrity

variable (handler : BaseHandler) (s : State) (request : PutRequest)

/-- The bytes have the declared digest, whose digits may be of either case. -/
def HasDigest (bytes : List Byte) : Prop :=
  handler.validator.sha256Hex bytes = Strings.toLower (declaredDigest request)

/-- What is stored has the declared digest, and a body with another one is rejected and leaves
everything as it was. -/
structure Integral : Prop where
  stored : (handler.handlePutS3Object s request).1.isSuccess →
    ∃ bytes, handler.written (handler.handlePutS3Object s request).2
      (handler.dispatch request) = some bytes ∧ HasDigest handler request bytes
  rejected : ¬ HasDigest handler request request.http.body.reader.content →
    (handler.handlePutS3Object s request).1.isSuccess = false ∧
      (handler.handlePutS3Object s request).2 = s

theorem ends_handlePutS3Object :
    handler.service.Ends s (handler.dispatch request) (handler.handlePutS3Object s request).1
      (handler.handlePutS3Object s request).2 :=
  Service.ends_of_handle rfl

variable {handler s request}

/-- An authenticated body has the content that was sent. -/
theorem content_bodyLeft {account : Core.ServiceAccount} {left : Service.Body}
    (hdigest : IsHexDigest (declaredDigest request))
    (haccepted : handler.validator.validate request.http = .ok (account, left)) :
    handler.bodyLeft request = request.http.body := by
  have hleft : left = request.http.body := by
    have hsame := handler.validator.validate_body hdigest.ne_empty haccepted request.http.body
    exact (Prod.mk.inj (Except.ok.inj (haccepted.symm.trans hsame))).2
  unfold BaseHandler.bodyLeft BaseHandler.authenticateS3
  rw [haccepted, hleft]
  dsimp only
  split_ifs <;> rfl

/-- A request that succeeds stores the body it was left, whole. -/
theorem written_of_isSuccess
    (hsuccess : (handler.handlePutS3Object s request).1.isSuccess) :
    handler.written (handler.handlePutS3Object s request).2 (handler.dispatch request) =
      some (handler.bodyLeft request).reader.content := by
  rcases ends_handlePutS3Object handler s request with ⟨hfails, -⟩ | ⟨-, heffect⟩
  · exact absurd (hsuccess.symm.trans hfails) (by decide)
  generalize (handler.handlePutS3Object s request).2 = s' at heffect
  unfold BaseHandler.dispatch at heffect ⊢
  split_ifs at heffect ⊢ with hpart
  · -- a part replaces the row of its number
    generalize handler.parseUUID (request.http.queryValue "uploadId") = uploadID at heffect ⊢
    generalize Strconv.parseInt (request.http.queryValue "partNumber").toList = partNumber
      at heffect ⊢
    cases heffect with
    | part hupload =>
      rw [BaseHandler.written, Table.get_upsert, if_pos rfl]
      cases s.parts.get _ <;> rfl
  · cases heffect with
    | put hbucket hwrote =>
      obtain ⟨place, hplace, hstored, -⟩ := hwrote.written
      simp only [BaseHandler.written, hbucket, hplace, hstored, Option.bind_eq_bind,
        Option.bind_some]

/-- The other reasons for which a request may be refused do not apply: the file storage is enabled,
the middleware's service account or that of the signature may write, and the service accepts the
write in the state before. -/
structure Admitted (handler : BaseHandler) (s : State) (request : PutRequest)
    (account : Core.ServiceAccount) : Prop where
  enabled : handler.enabled
  scope : (if request.context.isServiceAccount then
    request.context.hasScope scopeFileStorageObjectWrite
    else Core.hasScope account.scopes scopeFileStorageObjectWrite) = true
  accepts : handler.service.Accepts s (handler.dispatch request)

theorem denied_of_admitted {account : Core.ServiceAccount} {left : Service.Body}
    (haccepted : handler.validator.validate request.http = .ok (account, left))
    (h : Admitted handler s request account) : handler.denied request = none := by
  have hscope := h.scope
  unfold BaseHandler.denied BaseHandler.authenticateS3
  simp only [h.enabled, haccepted, Bool.true_eq_false, if_false]
  split_ifs at hscope ⊢ <;> simp_all

theorem isSuccess_of_admitted {account : Core.ServiceAccount} {left : Service.Body}
    (haccepted : handler.validator.validate request.http = .ok (account, left))
    (h : Admitted handler s request account) :
    (handler.handlePutS3Object s request).1.isSuccess := by
  have hdenied := denied_of_admitted haccepted h
  have haccepts := h.accepts
  unfold BaseHandler.handlePutS3Object
  unfold BaseHandler.dispatch at haccepts ⊢
  rw [hdenied] at haccepts ⊢
  split_ifs at haccepts ⊢
  · exact Service.part_succeeds haccepts
  · exact Service.put_succeeds rfl haccepts

end Integrity

/-- A request with a declared digest that the validator accepts keeps its integrity if its body has
the digest, and only then where it is not refused for another reason; and the validator accepts it
with every other body just the same. -/
theorem integral_iff_hasDigest (handler : BaseHandler) (s : State) (request : PutRequest)
    (account : Core.ServiceAccount) (left : Service.Body)
    (hdigest : IsHexDigest (declaredDigest request))
    (haccepted : handler.validator.validate request.http = .ok (account, left)) :
    (HasDigest handler request request.http.body.reader.content → Integral handler s request) ∧
    (Admitted handler s request account → Integral handler s request →
      HasDigest handler request request.http.body.reader.content) ∧
    ∀ body, handler.validator.validate { request.http with body } = .ok (account, body) := by
  refine ⟨fun hhas => ⟨fun hsuccess => ?_, fun hother => absurd hhas hother⟩,
    fun hadmitted hintegral => ?_, handler.validator.validate_body hdigest.ne_empty haccepted⟩
  · refine ⟨_, written_of_isSuccess hsuccess, ?_⟩
    rw [content_bodyLeft hdigest haccepted]
    exact hhas
  · by_contra hother
    have hfails := (hintegral.rejected hother).1
    exact absurd (hfails.symm.trans (isSuccess_of_admitted haccepted hadmitted)) (by decide)

/-! ## An upload that is altered on its way -/

/-- The sum of the bytes, which stands for both hashes below. -/
def checksum (bytes : List Byte) : Byte := bytes.foldl (· + ·) 0

def sampleAccount : Core.ServiceAccount :=
  ⟨none, "uploader", none, "", "", ["storage:object.write"], true, [], none⟩

def sampleValidator : Validator where
  sha256 := fun bytes => List.replicate 31 0 ++ [checksum bytes]
  hmacSHA256 := fun key data => [checksum (key ++ data)]
  queryEscape := id
  parseAmzDate := fun _ => some 0
  parseRFC1123 := fun _ => none
  decryptField := some
  isIPAllowed := fun _ _ => true
  now := 0
  credentials := ⟨[("AK", ⟨"a", "secret"⟩)], by simp⟩
  credentialQueryFails := false
  accounts := ⟨[("a", sampleAccount)], by simp⟩
  accountQueryFails := false

def sampleHandler : BaseHandler where
  service := Policy.sampleService
  validator := sampleValidator
  enabled := true
  parseUUID := fun _ => none

/-- The digest of the bytes 1 and 2. -/
def sampleDigest : String := String.ofList (List.replicate 63 '0' ++ ['3'])

/-- The headers that the signer of the bytes 1 and 2 has sent, with some body. -/
def signedRequest (content : List Byte) : PutRequest where
  http :=
    { method := "PUT"
      escapedPath := "/v1/file-storage/s3/small/key"
      host := "h"
      urlHost := ""
      clientIP := "::1"
      query := []
      header :=
        [("authorization", ["AWS4-HMAC-SHA256 Credential=AK/d/r/s3/aws4_request, " ++
            "SignedHeaders=host, Signature=c9"]),
          ("x-amz-date", ["t"]),
          ("x-amz-content-sha256", [sampleDigest])]
      body := Policy.bodyOf content }
  context := .empty
  bucket := "small"
  key := "key"
  outside := ⟨6, true, ""⟩
  inserted := true

/-- The account that the validator finds. -/
def acceptedAccount (request : PutRequest) : Option Core.ServiceAccount :=
  match sampleValidator.validate request.http with
  | .ok (account, _) => some account
  | .error _ => none

theorem accepted_of_acceptedAccount {request : PutRequest} {account : Core.ServiceAccount}
    (h : acceptedAccount request = some account) :
    ∃ left, sampleValidator.validate request.http = .ok (account, left) := by
  unfold acceptedAccount at h
  rcases hvalid : sampleValidator.validate request.http with error | ⟨account', left⟩
  · rw [hvalid] at h
    cases h
  · rw [hvalid] at h
    cases h
    exact ⟨left, rfl⟩

theorem isHexDigest_signedRequest (content : List Byte) :
    IsHexDigest (declaredDigest (signedRequest content)) := by
  have hdigest : declaredDigest (signedRequest content) = sampleDigest := by
    have hname : Strings.toLower "X-Amz-Content-Sha256" = "x-amz-content-sha256" := by
      decide +kernel
    unfold declaredDigest HttpRequest.headerValue HttpRequest.headerValues
    rw [hname]
    rfl
  have hdigits : sampleDigest.toList = List.replicate 63 '0' ++ ['3'] := String.toList_ofList
  rw [hdigest]
  constructor
  · rw [hdigits]
    rfl
  · rw [hdigits]
    decide

theorem acceptedAccount_signedRequest :
    acceptedAccount (signedRequest [1, 2]) = some sampleAccount := by decide +kernel

/-- The validator accepts the headers with the body that was signed, so with every body. -/
theorem validate_signedRequest (content : List Byte) :
    sampleHandler.validator.validate (signedRequest content).http =
      .ok (sampleAccount, Policy.bodyOf content) := by
  obtain ⟨left, hvalid⟩ := accepted_of_acceptedAccount acceptedAccount_signedRequest
  have hbody := sampleValidator.validate_body (isHexDigest_signedRequest [1, 2]).ne_empty hvalid
    (Policy.bodyOf content)
  exact hbody

/-- What is left of the request is a `PUT` of its body. -/
theorem dispatch_signedRequest (content : List Byte) :
    sampleHandler.dispatch (signedRequest content) =
      .put ⟨true, none, "small", "key"⟩ "" (Policy.bodyOf content) ⟨6, true, ""⟩ := by
  have hscope : Core.hasScope sampleAccount.scopes scopeFileStorageObjectWrite := by
    decide +kernel
  have hcontext : (signedRequest content).context.isServiceAccount = false := by
    change Core.AuthContext.empty.isServiceAccount = false
    decide +kernel
  have htype : (signedRequest content).http.headerValue "Content-Type" = "" := by
    have hname : Strings.toLower "Content-Type" = "content-type" := by decide +kernel
    unfold HttpRequest.headerValue HttpRequest.headerValues
    rw [hname]
    rfl
  have hauthenticated : sampleHandler.authenticateS3 (signedRequest content)
      scopeFileStorageObjectWrite = .ok (Policy.bodyOf content) := by
    have henabled : sampleHandler.enabled := rfl
    unfold BaseHandler.authenticateS3
    simp only [henabled, hcontext, validate_signedRequest content, hscope, Bool.true_eq_false,
      if_false, Bool.false_eq_true]
  unfold BaseHandler.dispatch BaseHandler.denied BaseHandler.bodyLeft
  rw [hauthenticated, htype]
  exact if_neg Bool.false_ne_true

theorem signedRequest_integral :
    (sampleHandler.handlePutS3Object .initial (signedRequest [1, 2])).1 = .success 200 ∧
      Integral sampleHandler .initial (signedRequest [1, 2]) := by
  have hhas : HasDigest sampleHandler (signedRequest [1, 2])
      (signedRequest [1, 2]).http.body.reader.content := by
    unfold HasDigest
    decide +kernel
  have h := integral_iff_hasDigest sampleHandler .initial (signedRequest [1, 2]) sampleAccount
    (Policy.bodyOf [1, 2]) (isHexDigest_signedRequest _) (validate_signedRequest _)
  refine ⟨?_, h.1 hhas⟩
  unfold BaseHandler.handlePutS3Object
  rw [dispatch_signedRequest]
  decide +kernel

/-- With two other bytes for a body the same headers are accepted, and the other bytes stored. -/
theorem altered_body_stored :
    sampleHandler.validator.validate (signedRequest [3, 4]).http =
        .ok (sampleAccount, Policy.bodyOf [3, 4]) ∧
      IsHexDigest (declaredDigest (signedRequest [3, 4])) ∧
      (sampleHandler.handlePutS3Object .initial (signedRequest [3, 4])).1 = .success 200 ∧
      sampleHandler.written (sampleHandler.handlePutS3Object .initial (signedRequest [3, 4])).2
        (sampleHandler.dispatch (signedRequest [3, 4])) = some [3, 4] ∧
      ¬ HasDigest sampleHandler (signedRequest [3, 4]) [3, 4] ∧
      ¬ Integral sampleHandler .initial (signedRequest [3, 4]) := by
  have hresponse : (sampleHandler.handlePutS3Object .initial (signedRequest [3, 4])).1 =
      .success 200 := by
    unfold BaseHandler.handlePutS3Object
    rw [dispatch_signedRequest]
    decide +kernel
  have hwritten : sampleHandler.written
      (sampleHandler.handlePutS3Object .initial (signedRequest [3, 4])).2
      (sampleHandler.dispatch (signedRequest [3, 4])) = some [3, 4] := by
    unfold BaseHandler.handlePutS3Object
    rw [dispatch_signedRequest]
    decide +kernel
  have hother : ¬ HasDigest sampleHandler (signedRequest [3, 4]) [3, 4] := by
    unfold HasDigest
    decide +kernel
  refine ⟨validate_signedRequest _, isHexDigest_signedRequest _, hresponse, hwritten, hother,
    fun hintegral => ?_⟩
  have hfails := (hintegral.rejected hother).1
  rw [hresponse] at hfails
  cases hfails

end Layr.FileStorage.PayloadIntegrity

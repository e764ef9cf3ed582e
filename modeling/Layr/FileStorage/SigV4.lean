import Layr.Core.Session
import Layr.FileStorage.Handlers
import Layr.Go.Result
import Layr.Go.Time

/-!
# Signatures of S3 requests (`filestorage/s3sigv4/sigv4.go`)

`Validate` rebuilds the canonical request that the caller has signed and compares the signatures.
The payload takes part in it by a digest only, which the header `X-Amz-Content-Sha256` declares or
else is that of the body. Then the service account behind the access key is checked.

SHA-256, HMAC, the formats of times, the escapes of URLs and the encryption of fields are
parameters, as is whether the two queries fail. Headers are kept under their lower-case names.
-/

namespace Layr.FileStorage.SigV4

open Go Go.Io

/-- An HTTP request, as far as the validator and the S3 handlers read it. -/
structure HttpRequest where
  method : String
  escapedPath : String
  host : String
  urlHost : String
  clientIP : String
  query : GoMap (List String)
  header : GoMap (List String)
  body : Service.Body

namespace HttpRequest

variable (request : HttpRequest)

/-- `Header.Values`. -/
def headerValues (name : String) : List String :=
  (request.header.get (Strings.toLower name)).getD []

/-- `Header.Get`. -/
def headerValue (name : String) : String := (request.headerValues name).headD ""

/-- `URL.Query().Get`. -/
def queryValue (name : String) : String := ((request.query.get name).getD []).headD ""

end HttpRequest

/-- A row of `file_storage.s3_credentials`. -/
structure S3Credential where
  serviceAccountID : String
  encryptedSecretKey : String
  deriving DecidableEq, Repr

/-- What the validator uses. The times are in nanoseconds. -/
structure Validator where
  sha256 : List Byte → List Byte
  hmacSHA256 : List Byte → List Byte → List Byte
  queryEscape : String → String
  parseAmzDate : String → Option ℤ
  parseRFC1123 : String → Option ℤ
  decryptField : String → Option String
  isIPAllowed : String → List String → Bool
  now : ℤ
  credentials : Table String S3Credential
  credentialQueryFails : Bool
  accounts : Core.Accounts
  accountQueryFails : Bool

inductive SigError
  | missingAuthHeader
  | invalidAlgorithm
  | malformedCredential
  | invalidTimestamp
  | requestExpired
  | invalidAccessKeyID
  | queryFailed
  | decryptFailed
  | readFailed
  | signatureDoesNotMatch
  | account (error : Core.ServiceAccountError)
  deriving DecidableEq, Repr

/-- `authCredentials`. -/
structure AuthCredentials where
  accessKeyID : String := ""
  date : String := ""
  region : String := ""
  service : String := ""
  signedHeaders : String := ""
  signature : String := ""
  requestTimestamp : String := ""
  credentialScope : String := ""
  deriving DecidableEq, Repr

/-! ## Credentials of a request -/

/-- The five parts of a credential. -/
def AuthCredentials.withCredential (credentials : AuthCredentials) (value : String) :
    Except SigError AuthCredentials :=
  match Strings.split '/' value with
  | [accessKeyID, date, region, service, terminator] =>
    if terminator = "aws4_request" then
      .ok { credentials with
        accessKeyID, date, region, service
        credentialScope := Strings.join "/" [date, region, service, terminator] }
    else .error .malformedCredential
  | _ => .error .malformedCredential

/-- One part of the `Authorization` header. -/
def applyPart (credentials : AuthCredentials) (part : String) : Except SigError AuthCredentials :=
  match Strings.cut '=' (Strings.trimSpace part) with
  | none => .ok credentials
  | some (key, value) =>
    let key := Strings.trimSpace key
    let value := Strings.trimSpace value
    if key = "Credential" then credentials.withCredential value
    else if key = "SignedHeaders" then .ok { credentials with signedHeaders := value }
    else if key = "Signature" then .ok { credentials with signature := value }
    else .ok credentials

/-- `parseAuthorizationHeader`. -/
def parseAuthorizationHeader (header : String) : Except SigError AuthCredentials :=
  if !Strings.hasPrefix header "AWS4-HMAC-SHA256 " then .error .invalidAlgorithm
  else do
    let parts := Strings.split ',' (Strings.trimPrefix header "AWS4-HMAC-SHA256 ")
    let credentials ← parts.foldlM applyPart {}
    if credentials.accessKeyID = "" ∨ credentials.signature = "" ∨
        credentials.signedHeaders = "" then
      .error .missingAuthHeader
    else .ok credentials

/-- `parseQueryParams`. -/
def parseQueryParams (request : HttpRequest) : Except SigError AuthCredentials :=
  if request.queryValue "X-Amz-Algorithm" ≠ "AWS4-HMAC-SHA256" then .error .invalidAlgorithm
  else do
    let credentials ← AuthCredentials.withCredential {} (request.queryValue "X-Amz-Credential")
    let date := request.queryValue "X-Amz-Date"
    let signedHeaders := request.queryValue "X-Amz-SignedHeaders"
    let signature := request.queryValue "X-Amz-Signature"
    if date = "" ∨ signedHeaders = "" ∨ signature = "" then .error .missingAuthHeader
    else .ok { credentials with signedHeaders, signature, requestTimestamp := date }

/-- The credentials, and whether they stand in the query. -/
def parseCredentials (request : HttpRequest) : Except SigError (AuthCredentials × Bool) :=
  if request.headerValue "Authorization" ≠ "" then do
    let credentials ← parseAuthorizationHeader (request.headerValue "Authorization")
    let date := request.headerValue "X-Amz-Date"
    .ok ({ credentials with
      requestTimestamp := if date = "" then request.headerValue "Date" else date }, false)
  else if request.queryValue "X-Amz-Algorithm" ≠ "" then do
    let credentials ← parseQueryParams request
    .ok (credentials, true)
  else .error .missingAuthHeader

/-! ## The canonical request -/

/-- The line of a signed header. -/
def canonicalHeader (request : HttpRequest) (headerName : String) : String :=
  let headerNameLower := Strings.toLower (Strings.trimSpace headerName)
  let value :=
    if headerNameLower = "host" then if request.host = "" then request.urlHost else request.host
    else
      let headerValues := request.headerValues headerNameLower
      let headerValues := if headerValues = [] then request.headerValues headerName
        else headerValues
      Strings.join "," (headerValues.map Strings.trimSpace)
  headerNameLower ++ ":" ++ value ++ "\n"

/-- `buildCanonicalHeaders`. -/
def buildCanonicalHeaders (request : HttpRequest) (signedHeaders : String) : String :=
  String.join ((Strings.split ';' signedHeaders).map (canonicalHeader request))

/-- `hex.EncodeToString`. -/
def hexEncode (bytes : List Byte) : String :=
  String.ofList (bytes.flatMap fun byte =>
    [Nat.digitChar (byte.toNat / 16), Nat.digitChar (byte.toNat % 16)])

/-- A body whose content was read and stands in a `bytes.Reader` now. -/
def readBody (body : Service.Body) : Service.Body where
  reader := ⟨[body.reader.content], .eof, false⟩
  contentLength := body.contentLength
  bounded := by simpa [Reader.content] using body.bounded

namespace Validator

variable (validator : Validator)

/-- `sha256Hex`. -/
def sha256Hex (data : List Byte) : String := hexEncode (validator.sha256 data)

/-- `buildCanonicalQueryString`. -/
def buildCanonicalQueryString (values : GoMap (List String)) (isQueryAuth : Bool) : String :=
  let keys := Strings.sort
    (values.keys.filter fun key => !(isQueryAuth && key = "X-Amz-Signature"))
  Strings.join "&" (keys.flatMap fun key =>
    (Strings.sort ((values.get key).getD [])).map fun paramValue =>
      validator.queryEscape key ++ "=" ++ validator.queryEscape paramValue)

/-- `hashedPayload`, and the body that is left for the handler: one that was read is put back. -/
def hashedPayload (request : HttpRequest) (isQueryAuth : Bool) :
    Except SigError (String × Service.Body) :=
  let declared := request.headerValue "X-Amz-Content-Sha256"
  if declared ≠ "" then .ok (declared, request.body)
  else if isQueryAuth then .ok ("UNSIGNED-PAYLOAD", request.body)
  else if request.body.reader.final = .eof then
    .ok (validator.sha256Hex request.body.reader.content, readBody request.body)
  else .error .readFailed

/-- `kSigning`. -/
def signingKey (credentials : AuthCredentials) (secretAccessKey : String) : List Byte :=
  let kDate := validator.hmacSHA256 (Core.bytesOf ("AWS4" ++ secretAccessKey))
    (Core.bytesOf credentials.date)
  let kRegion := validator.hmacSHA256 kDate (Core.bytesOf credentials.region)
  let kService := validator.hmacSHA256 kRegion (Core.bytesOf credentials.service)
  validator.hmacSHA256 kService (Core.bytesOf "aws4_request")

/-- `stringToSign`. -/
def stringToSign (request : HttpRequest) (credentials : AuthCredentials) (isQueryAuth : Bool)
    (hashedPayload : String) : String :=
  let canonicalURI := if request.escapedPath = "" then "/" else request.escapedPath
  let canonicalRequest := Strings.join "\n"
    [request.method, canonicalURI,
      validator.buildCanonicalQueryString request.query isQueryAuth,
      buildCanonicalHeaders request credentials.signedHeaders, credentials.signedHeaders,
      hashedPayload]
  Strings.join "\n"
    ["AWS4-HMAC-SHA256", credentials.requestTimestamp, credentials.credentialScope,
      validator.sha256Hex (Core.bytesOf canonicalRequest)]

/-! ## Validation -/

/-- The window of 15 minutes around the present. A difference that stopped at the least duration
stays negative and passes. -/
def checkTimestamp (credentials : AuthCredentials) : Except SigError Unit :=
  match (validator.parseAmzDate credentials.requestTimestamp).or
    (validator.parseRFC1123 credentials.requestTimestamp) with
  | none => .error .invalidTimestamp
  | some requestTime =>
    let diff := Time.sub validator.now requestTime
    let diff := if diff < 0 then Time.neg diff else diff
    if diff > 15 * Time.minute then .error .requestExpired else .ok ()

/-- The checks of the service account. -/
def checkAccount (request : HttpRequest) (serviceAccountID : String) :
    Except SigError Core.ServiceAccount :=
  if validator.accountQueryFails then .error .queryFailed
  else
    match validator.accounts.get serviceAccountID with
    | none => .error (.account .notFound)
    | some account =>
      if !account.isEnabled then .error (.account .disabled)
      else if account.expiresAt.any fun expiresAt => validator.now > expiresAt then
        .error (.account .expired)
      else if account.allowedIPs ≠ [] ∧
          validator.isIPAllowed request.clientIP account.allowedIPs = false then
        .error (.account .ipBlocked)
      else .ok account

/-- The row of the access key. -/
def selectCredential (accessKeyID : String) : Except SigError S3Credential :=
  if validator.credentialQueryFails then .error .queryFailed
  else
    match validator.credentials.get accessKeyID with
    | none => .error .invalidAccessKeyID
    | some credential => .ok credential

/-- `DecryptField` of the secret key. -/
def decryptSecretKey (credential : S3Credential) : Except SigError String :=
  match validator.decryptField credential.encryptedSecretKey with
  | none => .error .decryptFailed
  | some secretAccessKey => .ok secretAccessKey

/-- `Validate`, with the body that it leaves in the request. -/
def validate (request : HttpRequest) : Except SigError (Core.ServiceAccount × Service.Body) := do
  let (credentials, isQueryAuth) ← parseCredentials request
  validator.checkTimestamp credentials
  let credential ← validator.selectCredential credentials.accessKeyID
  let secretAccessKey ← validator.decryptSecretKey credential
  let (hashedPayload, body) ← validator.hashedPayload request isQueryAuth
  let calculatedSignature := hexEncode
    (validator.hmacSHA256 (validator.signingKey credentials secretAccessKey)
      (Core.bytesOf (validator.stringToSign request credentials isQueryAuth hashedPayload)))
  if calculatedSignature ≠ credentials.signature then .error .signatureDoesNotMatch
  else do
    let account ← validator.checkAccount request credential.serviceAccountID
    .ok (account, body)

/-- A declared digest stands for the body: the verdict is the same whatever the body is. -/
theorem validate_body {request : HttpRequest} {account : Core.ServiceAccount} {left : Service.Body}
    (hdeclared : request.headerValue "X-Amz-Content-Sha256" ≠ "")
    (h : validator.validate request = .ok (account, left)) (body : Service.Body) :
    validator.validate { request with body } = .ok (account, body) := by
  have hpayload : ∀ (body : Service.Body) (isQueryAuth : Bool),
      validator.hashedPayload { request with body } isQueryAuth =
        .ok (request.headerValue "X-Amz-Content-Sha256", body) :=
    fun _ _ => if_pos hdeclared
  obtain ⟨⟨credentials, isQueryAuth⟩, hcredentials, h⟩ := Result.bind_eq_ok.mp h
  obtain ⟨_, htimestamp, h⟩ := Result.bind_eq_ok.mp h
  obtain ⟨credential, hcredential, h⟩ := Result.bind_eq_ok.mp h
  obtain ⟨secretAccessKey, hsecret, h⟩ := Result.bind_eq_ok.mp h
  obtain ⟨⟨digest, _⟩, hdigest, h⟩ := Result.bind_eq_ok.mp h
  have hdeclaredDigest : request.headerValue "X-Amz-Content-Sha256" = digest :=
    (Prod.mk.inj (Except.ok.inj ((hpayload request.body isQueryAuth).symm.trans hdigest))).1
  dsimp only at h
  split_ifs at h with hsignature
  obtain ⟨account', haccount, h⟩ := Result.bind_eq_ok.mp h
  obtain rfl : account' = account := (Prod.mk.inj (Except.ok.inj h)).1
  -- no other step reads the body, so each of them ends as it did
  refine Result.bind_eq_ok.mpr ⟨_, hcredentials, Result.bind_eq_ok.mpr ⟨_, htimestamp,
    Result.bind_eq_ok.mpr ⟨_, hcredential, Result.bind_eq_ok.mpr ⟨_, hsecret,
      Result.bind_eq_ok.mpr ⟨_, hpayload body isQueryAuth, ?_⟩⟩⟩⟩⟩
  rw [hdeclaredDigest]
  exact (if_neg hsignature).trans (Result.bind_eq_ok.mpr ⟨_, haccount, rfl⟩)

end Validator

end Layr.FileStorage.SigV4

import Layr.Core.Session
import Layr.Go.Words

/-!
# Signed tokens

`JWTSigner` signs tokens of four kinds with one Ed25519 key: access tokens and ID tokens of users,
tokens of service accounts (M2M tokens) and sign-out tokens. A token is `header.claims.signature`,
each part in the URL alphabet of base64. `VerifyAccessToken` takes any of them that the key has
signed and that is in its time. JSON, base64 and Ed25519 are parameters with laws. Of the `events`
claim the names are kept; the `claims` claim is left out.
-/

namespace Layr.Core

open Go

/-! ## Tokens -/

/-- All claims of a token, over those that the authorization reads. -/
structure TokenClaims extends JWTClaims where
  sessionID : String := ""
  email : String := ""
  emailVerified : Bool := false
  phone : String := ""
  phoneVerified : Bool := false
  isAnonymous : Bool := false
  issuer : String := ""
  expiresAt : ℤ := 0
  issuedAt : ℤ := 0
  notBefore : ℤ := 0
  authTime : ℤ := 0
  nonce : String := ""
  jwtID : String := ""
  events : List String := []
  deriving DecidableEq, Repr

structure TokenHeader where
  alg : String
  typ : String
  kid : String
  deriving DecidableEq, Repr

/-- The alphabet of `base64.RawURLEncoding`. -/
def isBase64Rune (c : Char) : Bool :=
  Unicode.inRanges [(0x2d, 0x2d), (0x30, 0x39), (0x41, 0x5a), (0x5f, 0x5f), (0x61, 0x7a)] c.toNat

/-- `base64.RawURLEncoding`. -/
structure Base64 where
  encode : List UInt8 → String
  decode : String → Option (List UInt8)
  decode_encode : ∀ bytes, decode (encode bytes) = some bytes
  isBase64Rune_of_mem : ∀ bytes, ∀ c ∈ (encode bytes).toList, isBase64Rune c

/-- `encoding/json` on headers and claims. -/
structure TokenJson where
  marshalHeader : TokenHeader → List UInt8
  marshalClaims : TokenClaims → List UInt8
  unmarshalClaims : List UInt8 → Option TokenClaims
  unmarshal_marshal : ∀ claims, unmarshalClaims (marshalClaims claims) = some claims

/-- An Ed25519 key pair. -/
structure Ed25519 where
  sign : String → List UInt8
  verify : String → List UInt8 → Bool
  verify_sign : ∀ message, verify message (sign message)

/-- The signer, with the slug of the project's name and the base URL of the server. -/
structure JWTSigner where
  base64 : Base64
  json : TokenJson
  keys : Ed25519
  keyID : String
  slug : String
  serverBaseURL : String

inductive TokenError
  | segments
  | signatureEncoding
  | signature
  | claimsEncoding
  | claimsJson
  | expired
  | notYetValid
  deriving DecidableEq, Repr

/-- The texts of the errors, without the reasons that the decoders give. -/
def TokenError.message : TokenError → String
  | .segments => "invalid token format: must contain 3 segments"
  | .signatureEncoding => "invalid signature encoding"
  | .signature => "jwt signature verification failed"
  | .claimsEncoding => "invalid claims base64"
  | .claimsJson => "invalid claims json"
  | .expired => "jwt token expired"
  | .notYetValid => "jwt token not valid yet"

namespace JWTSigner

variable (signer : JWTSigner)

/-- The project's name in the tokens of users. -/
def userHandle : String := if signer.slug = "" then "layr-app" else signer.slug

/-- The audience of access tokens. -/
def userAudience : String := signer.userHandle ++ ":user"

/-- The project's name in the tokens of service accounts. -/
def serviceHandle : String := if signer.slug = "" then "layr" else signer.slug

/-- The audience of the project's service accounts. -/
def layrAudience : String := signer.serviceHandle ++ ":service_account"

/-- What is signed. -/
def signingInput (header : TokenHeader) (claims : TokenClaims) : String :=
  signer.base64.encode (signer.json.marshalHeader header) ++ "." ++
    signer.base64.encode (signer.json.marshalClaims claims)

/-- The token of a header and claims. -/
def signedToken (header : TokenHeader) (claims : TokenClaims) : String :=
  signer.signingInput header claims ++ "." ++
    signer.base64.encode (signer.keys.sign (signer.signingInput header claims))

/-- The key id, with the default that some kinds of token use. -/
def keyIDOrDefault : String := if signer.keyID = "" then "layr-ed25519-v1" else signer.keyID

/-! ## The four kinds -/

section

variable (now : ℤ) (jwtID : String)

/-- The first number of the arguments, if there is one that fits. -/
def expiryOr (fits : ℤ → Bool) (expirySeconds : Option ℤ) (seconds : ℤ) : ℤ :=
  (expirySeconds.filter fits).getD seconds

/-- The claims that `GenerateAccessToken` signs, at a time and with the id that it draws. -/
def accessClaims (claims : TokenClaims) (expirySeconds : Option ℤ) : TokenClaims :=
  { claims with
    role := if claims.role = "" then "authenticated" else claims.role
    issuer := if claims.issuer = "" then signer.userHandle else claims.issuer
    audience := if claims.audience = "" then signer.userAudience else claims.audience
    issuedAt := if claims.issuedAt = 0 then now else claims.issuedAt
    notBefore := if claims.notBefore = 0 then now else claims.notBefore
    expiresAt :=
      if claims.expiresAt = 0 then now + expiryOr (0 < ·) expirySeconds 900 else claims.expiresAt
    jwtID := if claims.jwtID = "" then jwtID else claims.jwtID }

/-- The claims that `GenerateIDToken` signs. -/
def idClaims (claims : TokenClaims) (expirySeconds : Option ℤ) : TokenClaims :=
  { claims with
    role := if claims.role = "" then "authenticated" else claims.role
    issuer := if claims.issuer = "" then signer.userHandle else claims.issuer
    issuedAt := if claims.issuedAt = 0 then now else claims.issuedAt
    authTime := if claims.authTime = 0 then now else claims.authTime
    expiresAt :=
      if claims.expiresAt = 0 then now + expiryOr (· ≠ 0) expirySeconds 3600
      else claims.expiresAt }

/-- The claims that `GenerateM2MToken` signs. -/
def m2mClaims (serviceAccountID : String) (scopes : List String) (expirySeconds : ℤ)
    (audience : String) : TokenClaims where
  subject := serviceAccountID
  role := "service_role"
  issuer := signer.serviceHandle
  audience := audience
  scope := Strings.join " " scopes
  expiresAt := now + if expirySeconds ≤ 0 then 3600 else expirySeconds
  issuedAt := now
  jwtID := jwtID

def signOutTokenEventURI : String := "http://schemas.openid.net/event/backchannel-logout"

/-- The claims that `GenerateSignOutToken` signs. -/
def signOutClaims (subject sessionID clientID : String) (expirySeconds : Option ℤ) :
    TokenClaims where
  subject := subject
  role := ""
  audience := clientID
  scope := ""
  sessionID := sessionID
  issuer := signer.serverBaseURL
  issuedAt := now
  expiresAt := now + expiryOr (0 < ·) expirySeconds 120
  jwtID := jwtID
  events := [signOutTokenEventURI]

def generateAccessToken (claims : TokenClaims) (expirySeconds : Option ℤ) : String :=
  signer.signedToken ⟨"EdDSA", "JWT", signer.keyIDOrDefault⟩
    (signer.accessClaims now jwtID claims expirySeconds)

def generateIDToken (claims : TokenClaims) (expirySeconds : Option ℤ) : String :=
  signer.signedToken ⟨"EdDSA", "JWT", signer.keyID⟩ (signer.idClaims now claims expirySeconds)

def generateM2MToken (serviceAccountID : String) (scopes : List String) (expirySeconds : ℤ)
    (audience : String) : Except String String :=
  if serviceAccountID = "" then .error "service account ID is required"
  else .ok (signer.signedToken ⟨"EdDSA", "JWT", signer.keyIDOrDefault⟩
    (signer.m2mClaims now jwtID serviceAccountID scopes expirySeconds audience))

def generateSignOutToken (subject sessionID clientID : String) (expirySeconds : Option ℤ) :
    Except String String :=
  if subject = "" ∧ sessionID = "" then
    .error "sign-out token requires at least subject or sessionID"
  else if clientID = "" then .error "sign-out token requires clientID audience"
  else .ok (signer.signedToken ⟨"EdDSA", "logout+jwt", signer.keyID⟩
    (signer.signOutClaims now jwtID subject sessionID clientID expirySeconds))

/-- `VerifyAccessToken`. Neither the type in the header nor the audience is looked at. -/
def verifyAccessToken (token : String) : Except TokenError TokenClaims :=
  match Strings.split '.' token with
  | [header, claims, signature] =>
    match signer.base64.decode signature with
    | none => .error .signatureEncoding
    | some signature =>
      if signer.keys.verify (header ++ "." ++ claims) signature = false then .error .signature
      else
        match signer.base64.decode claims with
        | none => .error .claimsEncoding
        | some bytes =>
          match signer.json.unmarshalClaims bytes with
          | none => .error .claimsJson
          | some claims =>
            if claims.expiresAt < now then .error .expired
            else if now < claims.notBefore then .error .notYetValid
            else .ok claims
  | _ => .error .segments

end

/-! ## What a verifier sees of a signed token -/

theorem ne_dot_of_isBase64Rune {c : Char} (h : isBase64Rune c) : c ≠ '.' := by
  rintro rfl
  exact absurd h (by decide)

theorem isSpace_of_isBase64Rune {c : Char} (h : isBase64Rune c) :
    Unicode.isSpace c = false := by
  simp only [isBase64Rune, Unicode.inRanges, List.any_cons, List.any_nil, Bool.or_false,
    Bool.or_eq_true, Bool.and_eq_true, decide_eq_true_eq] at h
  exact Unicode.isSpace_eq_false (by omega) (by omega)

/-- The parts of a token have no dots. -/
theorem dot_not_mem_encode (bytes : List UInt8) : '.' ∉ (signer.base64.encode bytes).toList :=
  fun h => ne_dot_of_isBase64Rune (signer.base64.isBase64Rune_of_mem bytes _ h) rfl

theorem unblank_encode (bytes : List UInt8) : Strings.Unblank (signer.base64.encode bytes) :=
  fun c hc => isSpace_of_isBase64Rune (signer.base64.isBase64Rune_of_mem bytes c hc)

theorem unblank_signedToken (header : TokenHeader) (claims : TokenClaims) :
    Strings.Unblank (signer.signedToken header claims) := by
  have hdot : Strings.Unblank "." := by
    intro c hc
    rw [show ".".toList = ['.'] from rfl, List.mem_singleton] at hc
    rw [hc]
    decide
  unfold signedToken signingInput
  exact (((signer.unblank_encode _).append hdot).append (signer.unblank_encode _)).append
    hdot |>.append (signer.unblank_encode _)

/-- What `VerifyAccessToken` has found when it accepts a token. -/
structure Verified (now : ℤ) (token : String) (claims : TokenClaims)
    (header text signature : String)
    (bytes raw : List UInt8) : Prop where
  split : Strings.split '.' token = [header, text, signature]
  decodeSignature : signer.base64.decode signature = some bytes
  verify : signer.keys.verify (header ++ "." ++ text) bytes
  decodeClaims : signer.base64.decode text = some raw
  unmarshal : signer.json.unmarshalClaims raw = some claims
  notExpired : now ≤ claims.expiresAt
  valid : claims.notBefore ≤ now

variable {signer}
variable {token : String} {claims : TokenClaims}

theorem verifyAccessToken_eq_ok {now : ℤ} (h : signer.verifyAccessToken now token = .ok claims) :
    ∃ header text signature bytes raw,
      signer.Verified now token claims header text signature bytes raw := by
  unfold verifyAccessToken at h
  split at h
  · rename_i header text signature hsplit
    split at h
    · cases h
    rename_i bytes hsignature
    split at h
    · cases h
    rename_i hverify
    split at h
    · cases h
    rename_i raw htext
    split at h
    · cases h
    rename_i claims' hclaims
    split at h
    · cases h
    rename_i hexpired
    split at h
    · cases h
    rename_i hvalid
    cases h
    exact ⟨header, text, signature, bytes, raw, hsplit, hsignature, by simpa using hverify, htext,
      hclaims, by omega, by omega⟩
  · cases h

theorem Verified.verifyAccessToken {now : ℤ} {header text signature : String}
    {bytes raw : List UInt8}
    (h : signer.Verified now token claims header text signature bytes raw) :
    signer.verifyAccessToken now token = .ok claims := by
  have hexpired : ¬claims.expiresAt < now := not_lt.mpr h.notExpired
  have hvalid : ¬now < claims.notBefore := not_lt.mpr h.valid
  simp only [JWTSigner.verifyAccessToken, h.split, h.decodeSignature, h.verify, h.decodeClaims,
    h.unmarshal, hexpired, hvalid, if_false, Bool.true_eq_false]

/-- A token that carries a signing input of the signer, under whatever signature. -/
theorem split_of_signingInput (header : TokenHeader) (claims : TokenClaims) (signature : String) :
    Strings.split '.' (signer.signingInput header claims ++ "." ++ signature) =
      signer.base64.encode (signer.json.marshalHeader header) ::
        signer.base64.encode (signer.json.marshalClaims claims) ::
          Strings.split '.' signature := by
  have hdot : "." = String.singleton '.' := rfl
  unfold signingInput
  rw [hdot, Strings.split_append, Strings.split_append,
    Strings.split_of_not_mem (signer.dot_not_mem_encode _),
    Strings.split_of_not_mem (signer.dot_not_mem_encode _)]
  rfl

/-- The claims that a verifier finds in a token are those that were signed. -/
theorem claims_of_signingInput {now : ℤ} {signature : String} {header : TokenHeader}
    {claims' : TokenClaims} (htoken : token = signer.signingInput header claims ++ "." ++ signature)
    (h : signer.verifyAccessToken now token = .ok claims') : claims' = claims := by
  obtain ⟨header', text, signature', bytes, raw, hverified⟩ := verifyAccessToken_eq_ok h
  have hsplit := hverified.split
  rw [htoken, split_of_signingInput] at hsplit
  obtain ⟨-, htail⟩ := List.cons.inj hsplit
  obtain ⟨htext, -⟩ := List.cons.inj htail
  have hraw := hverified.decodeClaims
  rw [← htext, signer.base64.decode_encode] at hraw
  have hclaims := hverified.unmarshal
  rw [← Option.some.inj hraw, signer.json.unmarshal_marshal] at hclaims
  exact (Option.some.inj hclaims).symm

/-- Every token that is signed is accepted in its time. -/
theorem verifyAccessToken_signedToken {now : ℤ} {header : TokenHeader}
    (hexpired : now ≤ claims.expiresAt) (hvalid : claims.notBefore ≤ now) :
    signer.verifyAccessToken now (signer.signedToken header claims) = .ok claims := by
  have hsplit : Strings.split '.' (signer.signedToken header claims) =
      [signer.base64.encode (signer.json.marshalHeader header),
        signer.base64.encode (signer.json.marshalClaims claims),
        signer.base64.encode (signer.keys.sign (signer.signingInput header claims))] := by
    unfold signedToken
    rw [split_of_signingInput, Strings.split_of_not_mem (signer.dot_not_mem_encode _)]
  exact Verified.verifyAccessToken ⟨hsplit, signer.base64.decode_encode _,
    signer.keys.verify_sign _, signer.base64.decode_encode _, signer.json.unmarshal_marshal _,
    hexpired, hvalid⟩

end JWTSigner

end Layr.Core

import Mathlib.Logic.Encodable.Basic
import Mathlib.Logic.Equiv.List
import Layr.Core.Authorization
import Layr.Core.JwtSigner

/-!
# The kinds of tokens and the middleware

Access tokens of users and tokens of the project's service accounts are meant to authenticate a
request, ID tokens and sign-out tokens are not. All are signed with one key, and the middleware
looks at neither the type nor the audience of a user's token. So the kinds are kept apart only as
far as tokens of the other kinds are not accepted for another reason.
-/

namespace Layr.Core

open Go

namespace JWTSigner

/-- A call of the signer, with its arguments. -/
inductive TokenCall
  | access (claims : TokenClaims) (expirySeconds : Option ℤ)
  | id (claims : TokenClaims) (expirySeconds : Option ℤ)
  | m2m (serviceAccountID : String) (scopes : List String) (expirySeconds : ℤ) (audience : String)
  | signOut (subject sessionID clientID : String) (expirySeconds : Option ℤ)
  deriving DecidableEq, Repr

/-- A call at a time, with the token id that is drawn. -/
structure Issue where
  call : TokenCall
  now : ℤ
  jwtID : String
  deriving DecidableEq, Repr

variable (signer : JWTSigner)

/-- The token that a call gives. -/
def issue (i : Issue) : Except String String :=
  match i.call with
  | .access claims expirySeconds =>
    .ok (signer.generateAccessToken i.now i.jwtID claims expirySeconds)
  | .id claims expirySeconds => .ok (signer.generateIDToken i.now claims expirySeconds)
  | .m2m serviceAccountID scopes expirySeconds audience =>
    signer.generateM2MToken i.now i.jwtID serviceAccountID scopes expirySeconds audience
  | .signOut subject sessionID clientID expirySeconds =>
    signer.generateSignOutToken i.now i.jwtID subject sessionID clientID expirySeconds

def issueHeader (i : Issue) : TokenHeader :=
  match i.call with
  | .access _ _ | .m2m _ _ _ _ => ⟨"EdDSA", "JWT", signer.keyIDOrDefault⟩
  | .id _ _ => ⟨"EdDSA", "JWT", signer.keyID⟩
  | .signOut _ _ _ _ => ⟨"EdDSA", "logout+jwt", signer.keyID⟩

def issueClaims (i : Issue) : TokenClaims :=
  match i.call with
  | .access claims expirySeconds => signer.accessClaims i.now i.jwtID claims expirySeconds
  | .id claims expirySeconds => signer.idClaims i.now claims expirySeconds
  | .m2m serviceAccountID scopes expirySeconds audience =>
    signer.m2mClaims i.now i.jwtID serviceAccountID scopes expirySeconds audience
  | .signOut subject sessionID clientID expirySeconds =>
    signer.signOutClaims i.now i.jwtID subject sessionID clientID expirySeconds

def issueInput (i : Issue) : String :=
  signer.signingInput (signer.issueHeader i) (signer.issueClaims i)

theorem issue_eq_ok {i : Issue} {token : String} (h : signer.issue i = .ok token) :
    token = signer.signedToken (signer.issueHeader i) (signer.issueClaims i) := by
  obtain ⟨call, now, jwtID⟩ := i
  cases call with
  | access claims expirySeconds | id claims expirySeconds => exact (Except.ok.inj h).symm
  | m2m =>
    simp only [issue, generateM2MToken] at h
    split at h
    · cases h
    · exact (Except.ok.inj h).symm
  | signOut =>
    simp only [issue, generateSignOutToken] at h
    split at h
    · cases h
    split at h
    · cases h
    · exact (Except.ok.inj h).symm

/-! ## Separation -/

/-- The middleware with the tokens of a signer. -/
def serve (server : Server) : Server :=
  { server with
    verifyAccessToken := fun token =>
      (signer.verifyAccessToken server.now token).toOption.map TokenClaims.toJWTClaims
    layrAudience := signer.layrAudience }

/-- A call whose token is meant to authenticate requests. -/
def Proper (i : Issue) : Prop :=
  match i.call with
  | .access _ _ => (signer.issueClaims i).audience = signer.userAudience
  | .m2m _ _ _ audience => audience = signer.layrAudience
  | .id _ _ | .signOut _ _ _ _ => False

/-- A call for an ID token or a sign-out token. -/
def Issue.IsForClient (i : Issue) : Prop :=
  match i.call with
  | .id _ _ | .signOut _ _ _ _ => True
  | .access _ _ | .m2m _ _ _ _ => False

/-- A token has the header and the claims of a token that was issued, with some signature. -/
def Carries (token : String) (i : Issue) : Prop :=
  ∃ signature, token = signer.issueInput i ++ "." ++ signature

/-- The calls that have succeeded. -/
def Issued (issued : List Issue) (i : Issue) : Prop :=
  i ∈ issued ∧ ∃ token, signer.issue i = .ok token

/-- A token is not forged: a signature of it that the key accepts is one of a token issued. -/
def Unforged (issued : List Issue) (token : String) : Prop :=
  ∀ header text signature bytes, Strings.split '.' token = [header, text, signature] →
    signer.base64.decode signature = some bytes →
    signer.keys.verify (header ++ "." ++ text) bytes →
    ∃ i, signer.Issued issued i ∧ signer.issueInput i = header ++ "." ++ text

/-- The kinds are kept apart: a token that authenticates a request comes from a proper call, and
the token of a client never authenticates its user. -/
def Separated (server : Server) (accounts : Accounts) (issued : List Issue) : Prop :=
  ∀ request, signer.Unforged issued request.sessionToken →
    ∀ claims, (signer.serve server).identity accounts request = .user claims ∨
      (signer.serve server).identity accounts request = .m2m claims →
      (∃ i, signer.Issued issued i ∧ signer.Proper i ∧ signer.Carries request.sessionToken i) ∧
        ∀ i, signer.Issued issued i → i.IsForClient → signer.Carries request.sessionToken i →
          (signer.serve server).identity accounts request ≠ .user claims

/-- The middleware finds no one in these claims: they are out of their time, have no subject, or
are those of a service account for another audience. -/
def Dead (now : ℤ) (claims : TokenClaims) : Prop :=
  claims.expiresAt < now ∨ now < claims.notBefore ∨ claims.subject = "" ∨
    (claims.isM2M ∧ claims.audience ≠ signer.layrAudience)

instance (now : ℤ) (claims : TokenClaims) : Decidable (signer.Dead now claims) :=
  inferInstanceAs (Decidable (_ ∨ _ ∨ _ ∨ _))

/-- The token of a call is not accepted, or it is also the token of a proper call and, if it is for
a client, it does not name a user. -/
def KeptApart (now : ℤ) (issued : List Issue) (i : Issue) : Prop :=
  signer.Dead now (signer.issueClaims i) ∨
    (∃ i', signer.Issued issued i' ∧ signer.Proper i' ∧
      signer.issueInput i' = signer.issueInput i) ∧
    (i.IsForClient → (signer.issueClaims i).isM2M)

variable {signer} {server : Server} {accounts : Accounts} {request : Request}

/-- Whom the middleware finds in a token is not dead, and a user only if its claims are not those of
a service account. -/
theorem tokenIdentity_eq_some {identity : Server.Identity}
    (h : (signer.serve server).tokenIdentity request = some identity) :
    ∃ claims, signer.verifyAccessToken server.now request.sessionToken = .ok claims ∧
      ¬signer.Dead server.now claims ∧
      (claims.isM2M → ∀ jwtClaims, identity ≠ .user jwtClaims) := by
  unfold Server.tokenIdentity at h
  split at h
  · cases h
  split at h
  · cases h
  rename_i jwtClaims hverify
  simp only [serve] at hverify
  cases hresult : signer.verifyAccessToken server.now request.sessionToken with
  | error e =>
    rw [hresult] at hverify
    cases hverify
  | ok claims =>
    rw [hresult] at hverify
    cases hverify
    obtain ⟨header, text, signature, bytes, raw, hverified⟩ := verifyAccessToken_eq_ok hresult
    split at h
    · cases h
    rename_i hsubject
    have hother : signer.Dead server.now claims →
        claims.isM2M ∧ claims.audience ≠ signer.layrAudience := by
      rintro (hdead | hdead | hdead | hdead)
      · exact absurd hdead (not_lt.mpr hverified.notExpired)
      · exact absurd hdead (not_lt.mpr hverified.valid)
      · exact absurd hdead hsubject
      · exact hdead
    refine ⟨claims, rfl, ?_⟩
    split at h
    · split at h
      · cases h
      rename_i haudience
      cases h
      exact ⟨fun hdead => haudience (hother hdead).2, fun _ _ => by simp⟩
    · rename_i hkind
      exact ⟨fun hdead => hkind (hother hdead).1, fun hm2m => absurd hm2m hkind⟩

/-- An identity that comes from a token. -/
theorem tokenIdentity_of_identity {claims : JWTClaims}
    (h : server.identity accounts request = .user claims ∨
      server.identity accounts request = .m2m claims) :
    server.tokenIdentity request = some (server.identity accounts request) := by
  cases htoken : server.tokenIdentity request with
  | some => rw [Server.identity_of_token htoken]
  | none =>
    have hother : (∃ id account, server.identity accounts request = .account id account) ∨
        (∃ userID role, server.identity accounts request = .session userID role) ∨
        server.identity accounts request = .anonymous := Server.identity_of_no_token htoken
    rcases hother with ⟨id, account, hidentity⟩ | ⟨userID, role, hidentity⟩ | hidentity
    all_goals
      rw [hidentity] at h
      rcases h with h | h <;> cases h

theorem separated_of_keptApart {issued : List Issue}
    (h : ∀ i, signer.Issued issued i → signer.KeptApart server.now issued i) :
    signer.Separated server accounts issued := by
  intro request hunforged claims hidentity
  have htoken := tokenIdentity_of_identity hidentity
  obtain ⟨tokenClaims, hverify, halive, hkind⟩ := tokenIdentity_eq_some htoken
  obtain ⟨header, text, signature, bytes, raw, hverified⟩ := verifyAccessToken_eq_ok hverify
  obtain ⟨i, hissued, hinput⟩ := hunforged header text signature bytes hverified.split
    hverified.decodeSignature hverified.verify
  have hsession : request.sessionToken = signer.issueInput i ++ "." ++ signature := by
    rw [hinput]
    exact (Strings.split_eq_three hverified.split).1
  have hclaims := claims_of_signingInput hsession hverify
  rw [hclaims] at halive
  obtain ⟨⟨i', hissued', hproper, hsame⟩, -⟩ := (h i hissued).resolve_left halive
  refine ⟨⟨i', hissued', hproper, signature, by rw [hsame, hsession]⟩, ?_⟩
  rintro i'' hissued'' hclient ⟨signature'', hsession''⟩
  have hclaims'' := claims_of_signingInput hsession'' hverify
  rw [← hclaims, hclaims''] at halive
  have hm2m := ((h i'' hissued'').resolve_left halive).2 hclient
  rw [← hclaims''] at hm2m
  exact hkind hm2m claims

/-! ## A request with a token -/

theorem sessionToken_bearerRequest {token : String} (hunblank : Strings.Unblank token)
    (hne : token ≠ "") : (Server.bearerRequest token).sessionToken = token := by
  have hruns : ("Bearer " ++ token).toList =
      'B' :: 'e' :: 'a' :: 'r' :: 'e' :: 'r' :: ' ' :: token.toList := by
    rw [String.toList_append]
    rfl
  have hlower : (Strings.toLower ("Bearer " ++ token)).toList =
      "bearer ".toList ++ token.toList.map Unicode.toLower := by
    rw [Strings.toLower, String.toList_ofList, hruns]
    rfl
  have hstart : Strings.hasPrefix (Strings.toLower ("Bearer " ++ token)) "bearer " := by
    rw [Strings.hasPrefix, List.isPrefixOf_iff_prefix, hlower]
    exact List.prefix_append _ _
  have hbearer : (Server.bearerRequest token).bearer = some token := by
    unfold Request.bearer Server.bearerRequest
    dsimp only
    rw [if_pos rfl, if_pos hstart, hruns]
    simp only [List.drop_succ_cons, List.drop_zero, String.ofList_toList]
    rw [Strings.trimSpace_eq_self hunblank]
  unfold Request.sessionToken Request.firstOf
  rw [hbearer]
  simp [hne]

theorem signedToken_ne_empty (header : TokenHeader) (claims : TokenClaims) :
    signer.signedToken header claims ≠ "" := by
  intro h
  have hruns := congrArg String.toList h
  unfold signedToken at hruns
  simp only [String.toList_append] at hruns
  simp at hruns

/-- The middleware takes whom the claims of a token name for the sender, unless they are dead. -/
theorem identity_of_signedToken (accounts : Accounts) (header : TokenHeader) {claims : TokenClaims}
    (halive : ¬signer.Dead server.now claims) :
    (Server.bearerRequest (signer.signedToken header claims)).sessionToken =
        signer.signedToken header claims ∧
      (signer.serve server).identity accounts
        (Server.bearerRequest (signer.signedToken header claims)) =
        if claims.isM2M then .m2m { claims.toJWTClaims with role := "service_role" }
        else .user claims.toJWTClaims := by
  have hsession := sessionToken_bearerRequest (signer.unblank_signedToken header claims)
    (signedToken_ne_empty header claims)
  refine ⟨hsession, Server.identity_of_token ?_⟩
  simp only [Dead, not_or, not_and, not_not] at halive
  obtain ⟨hexpired, hearly, hsubject, haudience⟩ := halive
  have hverify : (signer.serve server).verifyAccessToken (signer.signedToken header claims) =
      some claims.toJWTClaims := by
    simp only [serve]
    rw [verifyAccessToken_signedToken (not_lt.mp hexpired) (not_lt.mp hearly)]
    rfl
  unfold Server.tokenIdentity
  rw [hsession, if_neg (signedToken_ne_empty header claims), hverify]
  dsimp only
  rw [if_neg hsubject]
  by_cases hkind : claims.isM2M
  · have hlayr : claims.audience = (signer.serve server).layrAudience := haudience hkind
    rw [if_pos hkind, if_pos hkind, if_neg (not_not.mpr hlayr)]
  · rw [if_neg hkind, if_neg hkind]

/-- A signing input has one header and one text of claims, whatever signature follows. -/
theorem issueInput_of_split {i : Issue} {signature header text : String} {rest : List String}
    (h : Strings.split '.' (signer.issueInput i ++ "." ++ signature) = header :: text :: rest) :
    signer.issueInput i = header ++ "." ++ text := by
  unfold issueInput at h ⊢
  rw [split_of_signingInput] at h
  obtain ⟨hheader, htail⟩ := List.cons.inj h
  rw [signingInput, hheader, (List.cons.inj htail).1]

theorem keptApart_of_separated {issued : List Issue}
    (h : signer.Separated server accounts issued) {i : Issue} (hissued : signer.Issued issued i) :
    signer.KeptApart server.now issued i := by
  by_cases hdead : signer.Dead server.now (signer.issueClaims i)
  · exact .inl hdead
  refine .inr ?_
  obtain ⟨token, htoken⟩ := hissued.2
  have hsigned := signer.issue_eq_ok htoken
  obtain ⟨hsession, hidentity⟩ := identity_of_signedToken accounts (signer.issueHeader i) hdead
  rw [← hsigned] at hsession hidentity
  have hcarries : token = signer.issueInput i ++ "." ++
      signer.base64.encode (signer.keys.sign (signer.issueInput i)) := hsigned
  -- the token is no forgery: its signature is that of the call
  have hunforged : signer.Unforged issued (Server.bearerRequest token).sessionToken := by
    intro header text signature bytes hsplit _ _
    rw [hsession, hcarries] at hsplit
    exact ⟨i, hissued, issueInput_of_split hsplit⟩
  have hnamed : ∃ claims, (signer.serve server).identity accounts (Server.bearerRequest token) =
      .user claims ∨
      (signer.serve server).identity accounts (Server.bearerRequest token) = .m2m claims := by
    rw [hidentity]
    split
    · exact ⟨_, .inr rfl⟩
    · exact ⟨_, .inl rfl⟩
  obtain ⟨claims, hclaims⟩ := hnamed
  obtain ⟨⟨i', hissued', hproper, signature, hcarries'⟩, hclient⟩ :=
    h (Server.bearerRequest token) hunforged claims hclaims
  rw [hsession] at hcarries' hclient
  have hsplit := congrArg (Strings.split '.') (hcarries'.symm.trans hcarries)
  have hsame := issueInput_of_split (hsplit.trans (split_of_signingInput _ _ _))
  refine ⟨⟨i', hissued', hproper, hsame⟩, ?_⟩
  intro hkind
  by_contra hm2m
  rw [if_neg hm2m] at hidentity
  have huser := hclient i hissued hkind ⟨_, hcarries⟩
  rcases hclaims with hclaims | hclaims
  · exact huser hclaims
  · rw [hidentity] at hclaims
    cases hclaims

/-- The kinds of tokens are kept apart exactly if every token issued is kept apart: it is not
accepted, or it is also the token of a proper call and, if it is for a client, it is not taken for
that of a user. -/
theorem separated_iff_keptApart (signer : JWTSigner) (server : Server) (accounts : Accounts)
    (issued : List Issue) :
    signer.Separated server accounts issued ↔
      ∀ i, signer.Issued issued i → signer.KeptApart server.now issued i :=
  ⟨fun h _ hissued => keptApart_of_separated h hissued, separated_of_keptApart⟩

/-! ## A signer -/

/-- Bytes as the digits of a number. -/
def digitBase64 : Base64 where
  encode bytes := String.ofList (Nat.toDigits 10 (Encodable.encode (bytes.map UInt8.toNat)))
  decode text :=
    (Strconv.decimalValue text.toList).bind fun n =>
      (Encodable.decode (α := List ℕ) n).map (List.map UInt8.ofNat)
  decode_encode := by
    intro bytes
    rw [String.toList_ofList, Strconv.decimalValue_toDigits, Option.bind_some, Encodable.encodek,
      Option.map_some, List.map_map]
    simp [Function.comp_def]
  isBase64Rune_of_mem := by
    intro bytes c hc
    rw [String.toList_ofList] at hc
    have hdigit : '0'.toNat ≤ c.toNat ∧ c.toNat ≤ '9'.toNat :=
      Char.isDigit_iff_toNat.mp (Nat.isDigit_of_mem_toDigits (by decide) (by decide) hc)
    have hbounds : 0x30 ≤ c.toNat ∧ c.toNat ≤ 0x39 := hdigit
    simp [isBase64Rune, Unicode.inRanges, hbounds]

/-- A text as the numbers of its runes. -/
def textNumbers (s : String) : List ℕ := s.toList.map Char.toNat

theorem ofNat_textNumbers (s : String) :
    String.ofList ((textNumbers s).map Char.ofNat) = s := by
  unfold textNumbers
  rw [List.map_map]
  simp [Function.comp_def, Char.ofNat_toNat]

/-- The claims by kinds of values. -/
def claimValues (claims : TokenClaims) : List (List ℕ) × List ℤ × List Bool :=
  (([claims.subject, claims.role, claims.audience, claims.scope, claims.sessionID, claims.email,
      claims.phone, claims.issuer, claims.nonce, claims.jwtID] ++ claims.events).map textNumbers,
    [claims.expiresAt, claims.issuedAt, claims.notBefore, claims.authTime],
    [claims.emailVerified, claims.phoneVerified, claims.isAnonymous])

def claimsOfValues (values : List (List ℕ) × List ℤ × List Bool) : Option TokenClaims :=
  match values.1.map fun numbers => String.ofList (numbers.map Char.ofNat), values.2 with
  | subject :: role :: audience :: scope :: sessionID :: email :: phone :: issuer :: nonce ::
      jwtID :: events, ([expiresAt, issuedAt, notBefore, authTime],
      [emailVerified, phoneVerified, isAnonymous]) =>
    some { subject, role, audience, scope, sessionID, email, phone, issuer, nonce, jwtID, events,
           expiresAt, issuedAt, notBefore, authTime, emailVerified, phoneVerified, isAnonymous }
  | _, _ => none

theorem claimsOfValues_claimValues (claims : TokenClaims) :
    claimsOfValues (claimValues claims) = some claims := by
  have htexts : (claimValues claims).1.map (fun numbers => String.ofList (numbers.map Char.ofNat)) =
      [claims.subject, claims.role, claims.audience, claims.scope, claims.sessionID, claims.email,
        claims.phone, claims.issuer, claims.nonce, claims.jwtID] ++ claims.events := by
    unfold claimValues
    rw [List.map_map]
    simp [Function.comp_def, ofNat_textNumbers]
  unfold claimsOfValues
  rw [htexts]
  rfl

/-- Values as the length of a list of bytes. -/
def lengthJson : TokenJson where
  marshalHeader _ := []
  marshalClaims claims := List.replicate (Encodable.encode (claimValues claims)) 0
  unmarshalClaims bytes := (Encodable.decode bytes.length).bind claimsOfValues
  unmarshal_marshal := by
    intro claims
    rw [List.length_replicate, Encodable.encodek, Option.bind_some, claimsOfValues_claimValues]

/-- The message as its own signature. -/
def plainKeys : Ed25519 where
  sign message := bytesOf message
  verify message bytes := bytes = bytesOf message
  verify_sign _ := decide_eq_true rfl

def sampleSigner : JWTSigner := ⟨digitBase64, lengthJson, plainKeys, "k", "x", "https://x"⟩

/-- An ID token and a sign-out token of the user `u` for the client `c`. -/
def clientIssues : List Issue :=
  [⟨.id ⟨⟨"u", "", "c", ""⟩, "", "", false, "", false, false, "", 0, 0, 0, 0, "", "", []⟩ none, 0,
    "i"⟩, ⟨.signOut "u" "s" "c" none, 0, "j"⟩]

/-- The middleware takes both for tokens of the user. -/
theorem clientIssues_spec {i : Issue} (h : i ∈ clientIssues) :
    (∃ token, sampleSigner.issue i = .ok token) ∧
      ¬sampleSigner.Dead Server.sampleServer.now (sampleSigner.issueClaims i) ∧
      (sampleSigner.issueClaims i).isM2M = false ∧
      (Server.Identity.user (sampleSigner.issueClaims i).toJWTClaims).context.userID = "u" ∧
      ¬sampleSigner.Proper i := by
  rcases List.mem_cons.mp h with rfl | h
  · exact ⟨⟨_, rfl⟩, by decide, by decide, by decide, id⟩
  · obtain rfl := List.mem_singleton.mp h
    exact ⟨⟨_, rfl⟩, by decide, by decide, by decide, id⟩

/-- A request with an ID token or a sign-out token of the user is taken for one of the user. -/
theorem clientTokens_authenticate :
    (∀ i ∈ clientIssues, ∃ token, sampleSigner.issue i = .ok token ∧
      ((sampleSigner.serve Server.sampleServer).middleware .empty
        (Server.bearerRequest token)).userID = "u") ∧
      ¬sampleSigner.Separated Server.sampleServer .empty clientIssues := by
  constructor
  · intro i hi
    obtain ⟨⟨token, htoken⟩, halive, hkind, huser, -⟩ := clientIssues_spec hi
    obtain ⟨-, hidentity⟩ := identity_of_signedToken .empty (sampleSigner.issueHeader i) halive
    rw [hkind, if_neg (by decide), ← sampleSigner.issue_eq_ok htoken] at hidentity
    refine ⟨token, htoken, ?_⟩
    unfold Server.middleware
    rw [hidentity]
    exact huser
  · intro h
    obtain ⟨htoken, halive, -, -, -⟩ := clientIssues_spec (List.mem_cons_self)
    rcases keptApart_of_separated h ⟨List.mem_cons_self, htoken⟩ with
      hdead | ⟨⟨i', hi', hproper, -⟩, -⟩
    · exact halive hdead
    · exact (clientIssues_spec hi'.1).2.2.2.2 hproper

end JWTSigner

end Layr.Core

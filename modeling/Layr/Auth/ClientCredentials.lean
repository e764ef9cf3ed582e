import Layr.Core.ScopeCover
import Layr.Core.TokenKinds

/-!
# The client credentials grant

A service account exchanges its secret key for a signed token. For the platform's own audience the
token's scopes are those of the account, or those that the request asks for if the account
satisfies each of them.
-/

namespace Layr.Auth

open Go Layr.Core JWTSigner

structure ResourceServerConfig where
  identifier : String
  scopes : List String
  deriving DecidableEq, Repr

/-- The parameters of a token request that this grant reads. -/
structure OAuthTokenInput where
  clientID : String
  clientSecret : String
  audience : String
  scope : String
  deriving DecidableEq, Repr

structure OAuthError where
  status : ℕ
  error : String
  description : String
  deriving DecidableEq, Repr

structure IssueOIDCTokenResponse where
  accessToken : String
  tokenType : String
  expiresIn : ℤ
  scope : String
  deriving DecidableEq, Repr

/-- The elements of a list without those that came before. -/
def deduplicate (seen : List String) : List String → List String
  | [] => []
  | scope :: scopes =>
    if scope ∈ seen then deduplicate seen scopes
    else scope :: deduplicate (scope :: seen) scopes

/-- The scopes of the token: all that are available, or those requested if each of them is
satisfied. -/
def grantScopes (available : List String) (scope refusal : String) :
    Except OAuthError (List String) :=
  let trimmedScope := Strings.trimSpace scope
  if trimmedScope = "" then .ok available
  else
    let requestedScopes := deduplicate [] (Strings.fields trimmedScope)
    if requestedScopes.all fun requestedScope => hasScope available requestedScope then
      .ok requestedScopes
    else .error ⟨400, "invalid_scope", refusal⟩

section

variable (signer : JWTSigner) (server : Server) (accounts : Accounts)
  (resourceServers : List ResourceServerConfig) (jwtID clientIP : String)

/-- `handleOAuthClientCredentials`, with the token id that the signer draws. -/
def handleOAuthClientCredentials (input : OAuthTokenInput) :
    Except OAuthError IssueOIDCTokenResponse :=
  let invalidClient : OAuthError := ⟨401, "invalid_client", "Invalid client credentials"⟩
  if input.clientSecret = "" then .error invalidClient
  else
    match server.authenticate accounts input.clientSecret clientIP with
    | .error _ => .error invalidClient
    | .ok (id, account) =>
      if input.clientID ≠ "" ∧ id ≠ input.clientID ∧ account.keyPrefix ≠ input.clientID then
        .error invalidClient
      else
        let targetAudience := Strings.trimSpace input.audience
        if targetAudience = "" then
          .error ⟨400, "invalid_request", "audience parameter is required"⟩
        else
          let granted :=
            if targetAudience = signer.layrAudience then
              grantScopes account.scopes input.scope
                "The requested scope exceeds permissions granted to the client"
            else
              match resourceServers.find? fun rs => rs.identifier = targetAudience with
              | none => .error ⟨400, "invalid_target",
                  "The requested audience is not a registered resource server"⟩
              | some resourceServer =>
                grantScopes resourceServer.scopes input.scope
                  "The requested scope is not defined for the target resource server"
          match granted with
          | .error e => .error e
          | .ok grantedScopes =>
            match signer.generateM2MToken server.now jwtID id grantedScopes 3600 targetAudience with
            | .error _ => .error ⟨500, "server_error", "Service temporarily unavailable"⟩
            | .ok accessToken =>
              .ok ⟨accessToken, "Bearer", 3600, Strings.join " " grantedScopes⟩

end

/-! ## What is granted -/

theorem mem_deduplicate {scopes : List String} {seen : List String} {scope : String} :
    scope ∈ deduplicate seen scopes ↔ scope ∈ scopes ∧ scope ∉ seen := by
  induction scopes generalizing seen with
  | nil => simp [deduplicate]
  | cons first scopes ih =>
    unfold deduplicate
    by_cases hseen : first ∈ seen
    · rw [if_pos hseen, ih, List.mem_cons]
      constructor
      · rintro ⟨hmem, hnot⟩
        exact ⟨.inr hmem, hnot⟩
      · rintro ⟨rfl | hmem, hnot⟩
        · exact absurd hseen hnot
        · exact ⟨hmem, hnot⟩
    · rw [if_neg hseen, List.mem_cons, ih, List.mem_cons, List.mem_cons]
      constructor
      · rintro (rfl | ⟨hmem, hnot⟩)
        · exact ⟨.inl rfl, hseen⟩
        · exact ⟨.inr hmem, fun hin => hnot (.inr hin)⟩
      · rintro ⟨hmem, hnot⟩
        by_cases heq : scope = first
        · exact .inl heq
        · exact .inr ⟨hmem.resolve_left heq, fun hin => hin.elim heq hnot⟩

/-- The scopes that a token will have: as requested, or the account's as `Fields` reads them once
they are joined by blanks. -/
def tokenScopes (available : List String) (scope : String) : List String :=
  if Strings.trimSpace scope = "" then Strings.fields (Strings.join " " available)
  else Strings.fields (Strings.trimSpace scope)

theorem mem_fields_join_of_grantScopes {available granted : List String} {scope refusal : String}
    (h : grantScopes available scope refusal = .ok granted) (s : String) :
    s ∈ Strings.fields (Strings.join " " granted) ↔ s ∈ tokenScopes available scope := by
  unfold grantScopes at h
  dsimp only at h
  unfold tokenScopes
  split at h
  · rename_i hblank
    rw [if_pos hblank, Except.ok.inj h]
  · rename_i hnonblank
    split at h
    · have hgranted := Except.ok.inj h
      have hwords : ∀ word ∈ deduplicate [] (Strings.fields (Strings.trimSpace scope)),
          word ≠ "" ∧ Strings.Unblank word :=
        fun word hword => Strings.unblank_of_mem_fields (mem_deduplicate.mp hword).1
      rw [if_neg hnonblank, ← hgranted, Strings.fields_join hwords, mem_deduplicate]
      simp
    · cases h

section

variable {signer : JWTSigner} {server : Server} {accounts : Accounts}
  {resourceServers : List ResourceServerConfig} {jwtID clientIP : String}
  {input : OAuthTokenInput} {response : IssueOIDCTokenResponse} {id : String}
  {account : ServiceAccount}

/-- The token that the grant gives for the platform's audience. -/
theorem token_of_handleOAuthClientCredentials
    (hauth : server.authenticate accounts input.clientSecret clientIP = .ok (id, account))
    (haudience : Strings.trimSpace input.audience = signer.layrAudience)
    (h : handleOAuthClientCredentials signer server accounts resourceServers jwtID clientIP input =
      .ok response) :
    ∃ granted refusal, grantScopes account.scopes input.scope refusal = .ok granted ∧
      response.accessToken = signer.signedToken ⟨"EdDSA", "JWT", signer.keyIDOrDefault⟩
        (signer.m2mClaims server.now jwtID id granted 3600 signer.layrAudience) := by
  unfold handleOAuthClientCredentials at h
  dsimp only at h
  split at h
  · cases h
  rw [hauth] at h
  dsimp only at h
  split at h
  · cases h
  split at h
  · cases h
  split at h
  · cases h
  rename_i granted hgranted
  refine ⟨granted, _, hgranted, ?_⟩
  unfold JWTSigner.generateM2MToken at h
  rw [haudience] at h
  split at h
  · cases h
  rename_i accessToken htoken
  split at htoken
  · cases htoken
  · cases h
    exact (Except.ok.inj htoken).symm

theorem layrAudience_ne_empty (signer : JWTSigner) : signer.layrAudience ≠ "" := by
  intro h
  have hruns := congrArg (fun s : String => s.toList.length) h
  simp [JWTSigner.layrAudience, String.toList_append] at hruns

/-- The grant gives a token for the platform's audience if the scopes are satisfied. -/
theorem handleOAuthClientCredentials_eq_ok {granted : List String}
    (hsecret : input.clientSecret ≠ "")
    (hauth : server.authenticate accounts input.clientSecret clientIP = .ok (id, account))
    (hclient : input.clientID = "" ∨ id = input.clientID ∨ account.keyPrefix = input.clientID)
    (haudience : Strings.trimSpace input.audience = signer.layrAudience)
    (hgranted : grantScopes account.scopes input.scope
      "The requested scope exceeds permissions granted to the client" = .ok granted)
    (hid : id ≠ "") :
    handleOAuthClientCredentials signer server accounts resourceServers jwtID clientIP input =
      .ok ⟨signer.signedToken ⟨"EdDSA", "JWT", signer.keyIDOrDefault⟩
        (signer.m2mClaims server.now jwtID id granted 3600 signer.layrAudience), "Bearer", 3600,
        Strings.join " " granted⟩ := by
  have hclient' : ¬(input.clientID ≠ "" ∧ id ≠ input.clientID ∧
      account.keyPrefix ≠ input.clientID) := by
    rintro ⟨hne, hne', hne''⟩
    rcases hclient with heq | heq | heq
    · exact hne heq
    · exact hne' heq
    · exact hne'' heq
  unfold handleOAuthClientCredentials JWTSigner.generateM2MToken
  simp only [hauth, haudience, hgranted, if_neg hsecret, if_neg hclient',
    if_neg (layrAudience_ne_empty signer), if_neg hid, if_true]

/-- A token for the platform satisfies only what the account's scopes satisfy exactly if each of
its scopes is covered by one of the account's. -/
theorem clientCredentials_contained_iff
    (hauth : server.authenticate accounts input.clientSecret clientIP = .ok (id, account))
    (haudience : Strings.trimSpace input.audience = signer.layrAudience)
    (h : handleOAuthClientCredentials signer server accounts resourceServers jwtID clientIP input =
      .ok response)
    {now : ℤ} {claims : TokenClaims}
    (hverify : signer.verifyAccessToken now response.accessToken = .ok claims) :
    (∀ requiredScope, hasScope claims.scopes requiredScope →
      hasScope account.scopes requiredScope) ↔
      ∀ scope ∈ tokenScopes account.scopes input.scope, ∃ a ∈ account.scopes,
        Covers (parseScope (Strings.trimSpace a)) (parseScope scope) := by
  obtain ⟨granted, refusal, hgranted, htoken⟩ :=
    token_of_handleOAuthClientCredentials hauth haudience h
  have hclaims := JWTSigner.claims_of_signingInput htoken hverify
  have hscopes : claims.scopes = Strings.fields (Strings.join " " granted) := by
    rw [hclaims]
    rfl
  rw [hscopes, hasScope_imp_iff fun scope hmem => (Strings.unblank_of_mem_fields hmem).2]
  constructor
  · intro hall scope hmem
    exact hall scope ((mem_fields_join_of_grantScopes hgranted scope).mpr hmem)
  · intro hall scope hmem
    exact hall scope ((mem_fields_join_of_grantScopes hgranted scope).mp hmem)

end

/-! ## Exchanges -/

/-- An account with some scopes and the key `0123456789abcdef`. -/
def keyedAccount (scopes : List String) : ServiceAccount :=
  ⟨none, "a", none, "01234567", Kv.Digest.bytes.hex "0123456789abcdef", scopes, true, [], none⟩

def keyedAccounts (scopes : List String) : Accounts :=
  ⟨[("a", keyedAccount scopes)], List.nodup_singleton _⟩

/-- A request of the account for a platform token. -/
def keyedInput (scope : String) : OAuthTokenInput :=
  ⟨"a", "0123456789abcdef", "x:service_account", scope⟩

theorem authenticate_keyed (scopes : List String) :
    Server.sampleServer.authenticate (keyedAccounts scopes) "0123456789abcdef" "" =
      .ok ("a", keyedAccount scopes) := by
  have htrim : Strings.trimSpace "0123456789abcdef" = "0123456789abcdef" := by decide +kernel
  have hlength : ¬(bytesOf "0123456789abcdef").length < minimumSecretKeyLength := by decide +kernel
  have hstart : bytesOf "01234567" = (bytesOf "0123456789abcdef").take secretKeyPrefixLength := by
    decide +kernel
  have hkey : Server.sampleServer.isKeyOf "0123456789abcdef" (keyedAccount scopes) := by
    rw [Server.isKeyOf, Bool.and_eq_true]
    exact ⟨decide_eq_true hstart, decide_eq_true rfl⟩
  have hfind : (keyedAccounts scopes).rows.find?
      (fun e => Server.sampleServer.isKeyOf "0123456789abcdef" e.2) =
      some ("a", keyedAccount scopes) := List.find?_cons_of_pos hkey
  unfold Server.authenticate
  rw [htrim]
  dsimp only
  rw [if_neg hlength, hfind]
  rfl

/-- An exchange of the account: if it satisfies the scopes, there is a token with them. -/
theorem exchange_keyed {scopes granted : List String} {scope : String}
    (h : grantScopes scopes scope "The requested scope exceeds permissions granted to the client" =
      .ok granted) :
    ∃ response claims, handleOAuthClientCredentials sampleSigner Server.sampleServer
        (keyedAccounts scopes) [] "j" "" (keyedInput scope) = .ok response ∧
      sampleSigner.verifyAccessToken 0 response.accessToken = .ok claims ∧
      claims.scopes = Strings.fields (Strings.join " " granted) := by
  have haudience : Strings.trimSpace "x:service_account" = sampleSigner.layrAudience := by
    decide +kernel
  have hsecret : "0123456789abcdef" ≠ "" := by decide
  have hhandled : handleOAuthClientCredentials sampleSigner Server.sampleServer
      (keyedAccounts scopes) [] "j" "" (keyedInput scope) = .ok _ :=
    handleOAuthClientCredentials_eq_ok hsecret (authenticate_keyed scopes) (.inr (.inl rfl))
      haudience h (by decide)
  refine ⟨_, _, hhandled, JWTSigner.verifyAccessToken_signedToken ?_ (le_refl 0), rfl⟩
  show (0 : ℤ) ≤ 0 + if (3600 : ℤ) ≤ 0 then 3600 else 3600
  decide

theorem exchange_contained :
    ∃ response claims, handleOAuthClientCredentials sampleSigner Server.sampleServer
        (keyedAccounts ["data:schema.write"]) [] "j" "" (keyedInput "data:schema.read") =
        .ok response ∧
      sampleSigner.verifyAccessToken 0 response.accessToken = .ok claims ∧
      ∀ requiredScope, hasScope claims.scopes requiredScope →
        hasScope ["data:schema.write"] requiredScope := by
  have hgranted : grantScopes ["data:schema.write"] "data:schema.read"
      "The requested scope exceeds permissions granted to the client" =
      .ok ["data:schema.read"] := by decide +kernel
  have hauth : Server.sampleServer.authenticate (keyedAccounts ["data:schema.write"])
      (keyedInput "data:schema.read").clientSecret "" =
      .ok ("a", keyedAccount ["data:schema.write"]) := authenticate_keyed _
  have haudience : Strings.trimSpace (keyedInput "data:schema.read").audience =
      sampleSigner.layrAudience := by decide +kernel
  obtain ⟨response, claims, h, hverify, -⟩ := exchange_keyed hgranted
  refine ⟨response, claims, h, hverify, ?_⟩
  refine (clientCredentials_contained_iff hauth haudience h hverify).mpr ?_
  decide +kernel

/-- Of the scope `*:*.read` the root scope is satisfied, so it is granted, and it satisfies
everything. Without a requested scope, a scope with a blank in it becomes two. -/
theorem exchange_not_contained :
    (∃ response claims, handleOAuthClientCredentials sampleSigner Server.sampleServer
        (keyedAccounts ["*:*.read"]) [] "j" "" (keyedInput "*") = .ok response ∧
      sampleSigner.verifyAccessToken 0 response.accessToken = .ok claims ∧
      hasScope claims.scopes "data:schema.write" ∧
      hasScope ["*:*.read"] "data:schema.write" = false) ∧
      ∃ response claims, handleOAuthClientCredentials sampleSigner Server.sampleServer
          (keyedAccounts ["cache data"]) [] "j" "" (keyedInput "") = .ok response ∧
        sampleSigner.verifyAccessToken 0 response.accessToken = .ok claims ∧
        hasScope claims.scopes "data:schema.write" ∧
        hasScope ["cache data"] "data:schema.write" = false := by
  constructor
  · have hgranted : grantScopes ["*:*.read"] "*"
        "The requested scope exceeds permissions granted to the client" = .ok ["*"] := by
      decide +kernel
    obtain ⟨response, claims, h, hverify, hscopes⟩ := exchange_keyed hgranted
    refine ⟨response, claims, h, hverify, ?_, by decide +kernel⟩
    rw [hscopes]
    decide +kernel
  · have hgranted : grantScopes ["cache data"] ""
        "The requested scope exceeds permissions granted to the client" = .ok ["cache data"] := by
      decide +kernel
    obtain ⟨response, claims, h, hverify, hscopes⟩ := exchange_keyed hgranted
    refine ⟨response, claims, h, hverify, ?_, by decide +kernel⟩
    rw [hscopes]
    decide +kernel

end Layr.Auth

import Layr.Auth.History
import Layr.Core.Session

/-!
# Assertions of passkeys (`auth/passkey/webauthn.go`)

A sign-in with a passkey is to be proven by a signature under the stored key over the data of the
authenticator and the hash of the client data, which names the challenge. `VerifySignature` checks
it for keys that it can parse and whose kind it knows, and accepts every signature otherwise; the
handler asks it only where there is a signature; and nobody looks into the client data.

Parameters are the signature schemes, the encodings of keys, SHA-256, the bytes that a stored key
stands for, and how a client data text names its challenge.
-/

namespace Layr.Auth.PasskeyAssertions

open Go Layr.Core

abbrev Byte := UInt8

/-- What `ParsePKIXPublicKey` returns, by the cases of the switch; keys are named by bytes. -/
inductive ParsedKey
  | ecdsa (key : List Byte)
  | ed25519 (key : List Byte)
  | rsa (key : List Byte)
  | other
  deriving DecidableEq, Repr

def ParsedKey.isSupported : ParsedKey → Bool
  | ecdsa _ | ed25519 _ | rsa _ => true
  | other => false

/-- What the passkey package takes from elsewhere. -/
structure Crypto where
  storedBytes : String → List Byte
  sha256 : List Byte → List Byte
  pemDecode : List Byte → Option (List Byte)
  parsePKIXPublicKey : List Byte → Option ParsedKey
  parseUncompressedPublicKey : List Byte → Option (List Byte)
  ecdsaVerifyASN1 : List Byte → List Byte → List Byte → Bool
  ecdsaVerify : List Byte → List Byte → ℕ → ℕ → Bool
  ed25519Verify : List Byte → List Byte → List Byte → Bool
  rsaVerifyPKCS1v15 : List Byte → List Byte → List Byte → Bool
  rsaVerifyPSS : List Byte → List Byte → List Byte → Bool

namespace Crypto

variable (crypto : Crypto)

/-- `big.Int.SetBytes`. -/
def setBytes (bytes : List Byte) : ℕ := bytes.foldl (fun n byte => n * 256 + byte.toNat) 0

/-- `parsePublicKey`. -/
def parsePublicKey (keyBytes : List Byte) : Option ParsedKey :=
  let keyBytes := (crypto.pemDecode keyBytes).getD keyBytes
  (crypto.parsePKIXPublicKey keyBytes).or
    (if keyBytes.length = 65 ∧ keyBytes.head? = some 4 then
      (crypto.parseUncompressedPublicKey keyBytes).map .ecdsa
    else none)

/-- `signedData`. -/
def signedData (clientDataJSON authenticatorData : List Byte) : List Byte :=
  authenticatorData ++ crypto.sha256 clientDataJSON

/-- The signature verifies under the key over the data. There is no scheme for other keys. -/
def verifies (signedData signature : List Byte) : ParsedKey → Bool
  | .ecdsa key =>
    crypto.ecdsaVerifyASN1 key (crypto.sha256 signedData) signature ||
      (signature.length = 64 && crypto.ecdsaVerify key (crypto.sha256 signedData)
        (setBytes (signature.take 32)) (setBytes (signature.drop 32)))
  | .ed25519 key => crypto.ed25519Verify key signedData signature
  | .rsa key =>
    crypto.rsaVerifyPKCS1v15 key (crypto.sha256 signedData) signature ||
      crypto.rsaVerifyPSS key (crypto.sha256 signedData) signature
  | .other => false

/-- `VerifySignature`. What is no key of a known kind is taken for a simulated one. -/
def verifySignature (publicKey clientDataJSON authenticatorData signature : List Byte) : Bool :=
  if publicKey = [] ∨ signature = [] then false
  else
    match crypto.parsePublicKey publicKey with
    | some key =>
      if key.isSupported then
        crypto.verifies (crypto.signedData clientDataJSON authenticatorData) signature key
      else true
    | none => true

/-- The service with this package. -/
def env (env : Env) : Env :=
  { env with
    verifySignature := fun publicKey clientDataJSON authenticatorData signature =>
      crypto.verifySignature (crypto.storedBytes publicKey) (bytesOf clientDataJSON)
        (bytesOf authenticatorData) (bytesOf signature) }

end Crypto

/-! ## What an assertion is to prove -/

section Assertions

variable (crypto : Crypto) (challengeIn : String → Option String)

/-- The stored key of the request's credential is of a known kind. -/
def StoredKey (s : State) (input : VerifyPasskeySignInInput) (key : ParsedKey) : Prop :=
  ∃ passkey, s.selectPasskey input.credentialID = some passkey ∧
    crypto.parsePublicKey (crypto.storedBytes passkey.publicKey) = some key ∧
    key.isSupported

/-- The challenge that the request consumes is the one in its client data. -/
def BindsChallenge (s : State) (input : VerifyPasskeySignInInput) : Prop :=
  (s.consumeChallenge input.challenge).1.isSome ∧
    challengeIn input.clientDataJSON = some input.challenge

/-- The request proves the possession of the stored key for this sign-in. -/
structure Proves (s : State) (input : VerifyPasskeySignInInput) : Prop where
  signed : ∃ key, StoredKey crypto s input key ∧
    crypto.verifies (crypto.signedData (bytesOf input.clientDataJSON)
      (bytesOf input.authenticatorData)) (bytesOf input.signature) key
  nonempty : input.signature ≠ ""
  bound : BindsChallenge challengeIn s input

/-- The request has a signature and the challenge in its client data, and the stored key is of a
known kind. -/
structure Checkable (s : State) (input : VerifyPasskeySignInInput) : Prop where
  key : ∃ key, StoredKey crypto s input key
  nonempty : input.signature ≠ ""
  challenge : challengeIn input.clientDataJSON = some input.challenge

end Assertions

/-- The request is answered with tokens. -/
def Issues (env : Env) (call : Call) (s : State) (input : Option VerifyPasskeySignInInput) : Prop :=
  (serve env call (.verifyPasskeySignIn input) s).1.grantee.isSome

/-- What the handler asks of a request, spelled on the state before it: passkeys are enabled, the
challenge is stored and live, the credential and its user are known, the user is not locked, and a
signature that is not empty is accepted. -/
structure Admitted (env : Env) (s : State) (input : VerifyPasskeySignInInput) : Prop where
  enabled : env.config.passkeysEnabled
  challenge : ∃ entry, s.challenges.get input.challenge = some entry ∧ s.now ≤ entry.expiresAt
  credential : ∃ passkey user, s.selectPasskey input.credentialID = some passkey ∧
    s.selectUser passkey.userID = some user ∧ user.isLocked s.now = false ∧
    (input.signature = "" ∨ env.verifySignature passkey.publicKey input.clientDataJSON
      input.authenticatorData input.signature)

theorem isSome_consumeChallenge_iff {s : State} {challenge : String} :
    (s.consumeChallenge challenge).1.isSome ↔
      ∃ entry, s.challenges.get challenge = some entry ∧ s.now ≤ entry.expiresAt := by
  simp [State.consumeChallenge, Option.any_eq_true]

/-- No tokens unless every check of the handler passes. -/
theorem admitted_of_issues {env : Env} {call : Call} {s : State}
    {input : Option VerifyPasskeySignInInput} (h : Issues env call s input) :
    ∃ given, input = some given ∧ Admitted env s given := by
  have hwp : (handleVerifyPasskeySignIn env call input).wp (fun _ _ => True)
      (fun r _ => r.grantee.isSome → ∃ given, input = some given ∧ Admitted env s given)
      s := by
    have hrefused : ∀ {r : Reply}, r.grantee = none → r.grantee.isSome →
        ∃ given, input = some given ∧ Admitted env s given := by
      intro r hnone hsome
      rw [hnone] at hsome
      cases hsome
    simp only [handleVerifyPasskeySignIn, Prog.wp_bind, Prog.wp_ensure, Prog.wp_require,
      Prog.wp_stmt, Prog.wp_query, wp_ensureUnlocked, wp_issueSessionResponse]
    refine ⟨fun henabled => ⟨fun _ => hrefused rfl, fun given hgiven => ⟨fun _ => hrefused rfl,
      fun _ hchallenge => ⟨fun _ => hrefused rfl, fun passkey hpasskey => ⟨fun hsignature =>
        ⟨fun _ => hrefused rfl, fun user huser => ⟨fun hunlocked _ => ⟨given, hgiven, ?_⟩,
          fun _ => hrefused rfl⟩⟩, fun _ => hrefused rfl⟩⟩⟩⟩, fun _ => hrefused rfl⟩
    exact ⟨henabled, isSome_consumeChallenge_iff.mp (Option.isSome_iff_exists.mpr ⟨_, hchallenge⟩),
      passkey, user, hpasskey, huser, hunlocked, hsignature⟩
  exact Prog.wp_iff_answer.mp hwp h

/-- The checks suffice: nothing else is asked of the request. -/
theorem issues_of_admitted {env : Env} (call : Call) {s : State}
    {input : VerifyPasskeySignInInput} (h : Admitted env s input) :
    Issues env call s (some input) := by
  obtain ⟨challenge, hchallenge⟩ :=
    Option.isSome_iff_exists.mp (isSome_consumeChallenge_iff.mpr h.challenge)
  obtain ⟨passkey, user, hpasskey, huser, hunlocked, hsignature⟩ := h.credential
  -- the challenge is taken from its table, which the later checks do not read
  have hpasskey' : (s.consumeChallenge input.challenge).2.selectPasskey input.credentialID =
      some passkey := hpasskey
  have huser' : (s.consumeChallenge input.challenge).2.selectUser passkey.userID =
      some user := huser
  have hunlocked' : user.isLocked (s.consumeChallenge input.challenge).2.now = false := hunlocked
  have hwp : (handleVerifyPasskeySignIn env call (some input)).wp (fun _ _ => True)
      (fun r _ => r.grantee.isSome) s := by
    simp only [handleVerifyPasskeySignIn, Prog.wp_bind, Prog.wp_ensure, Prog.wp_require,
      Prog.wp_stmt, Prog.wp_query, wp_ensureUnlocked, wp_issueSessionResponse]
    refine ⟨fun _ => ⟨fun hnone => ?_, fun given hgiven => ?_⟩, fun hnot => absurd h.enabled hnot⟩
    · cases hnone
    obtain rfl : input = given := Option.some.inj hgiven
    simp only [hchallenge, hpasskey', reduceCtorEq, Option.some.injEq, forall_eq', false_implies,
      true_and]
    refine ⟨fun _ => ?_, fun hnot => absurd hsignature hnot⟩
    simp [huser', hunlocked', newTokens, Reply.grantee]
  exact Prog.wp_iff_answer.mp hwp

/-- Under a key of a known kind an accepted signature verifies. -/
theorem verifies_of_verifySignature {crypto : Crypto} {key : ParsedKey}
    {publicKey clientDataJSON authenticatorData signature : List Byte}
    (hkey : crypto.parsePublicKey publicKey = some key) (hsupported : key.isSupported)
    (h : crypto.verifySignature publicKey clientDataJSON authenticatorData signature) :
    crypto.verifies (crypto.signedData clientDataJSON authenticatorData) signature key := by
  unfold Crypto.verifySignature at h
  split_ifs at h with hempty
  rw [hkey] at h
  dsimp only at h
  rw [if_pos hsupported] at h
  exact h

/-- Tokens are given out on a proof only, exactly if the request, where it is admitted, has a
signature and the consumed challenge in its client data, and a stored key of a known kind. -/
theorem proves_iff_checkable (crypto : Crypto) (challengeIn : String → Option String) (env : Env)
    (call : Call) (s : State) (input : Option VerifyPasskeySignInInput) :
    (Issues (crypto.env env) call s input →
      ∃ given, input = some given ∧ Proves crypto challengeIn s given) ↔
    ∀ given, input = some given → Admitted (crypto.env env) s given →
      Checkable crypto challengeIn s given := by
  constructor
  · intro hproves given hgiven hadmitted
    obtain ⟨given', hgiven', hproof⟩ := hproves (hgiven ▸ issues_of_admitted call hadmitted)
    obtain rfl : given = given' := Option.some.inj (hgiven.symm.trans hgiven')
    obtain ⟨key, hkey, -⟩ := hproof.signed
    exact ⟨⟨key, hkey⟩, hproof.nonempty, hproof.bound.2⟩
  · intro hcheckable hissues
    obtain ⟨given, hgiven, hadmitted⟩ := admitted_of_issues hissues
    have hcheck := hcheckable given hgiven hadmitted
    obtain ⟨key, passkey, hpasskey, hparsed, hsupported⟩ := hcheck.key
    obtain ⟨passkey', -, hpasskey', -, -, hsignature⟩ := hadmitted.credential
    obtain rfl : passkey = passkey' := Option.some.inj (hpasskey.symm.trans hpasskey')
    have hverifies := verifies_of_verifySignature hparsed hsupported
      (hsignature.resolve_left hcheck.nonempty)
    exact ⟨given, hgiven, ⟨key, ⟨passkey, hpasskey, hparsed, hsupported⟩, hverifies⟩,
      hcheck.nonempty, isSome_consumeChallenge_iff.mpr hadmitted.challenge, hcheck.challenge⟩

/-! ## Sign-ins without a proof -/

/-- Keys that start with an `e` are Ed25519 keys and other bytes are no keys; the signature of some
data is the key with the data behind it, and the hash of bytes the bytes. -/
def sampleCrypto : Crypto where
  storedBytes := bytesOf
  sha256 := id
  pemDecode := fun _ => none
  parsePKIXPublicKey := fun bytes => if bytes.head? = some 101 then some (.ed25519 bytes) else none
  parseUncompressedPublicKey := fun _ => none
  ecdsaVerifyASN1 := fun _ _ _ => false
  ecdsaVerify := fun _ _ _ _ => false
  ed25519Verify := fun key data signature => signature = key ++ data
  rsaVerifyPKCS1v15 := fun _ _ _ => false
  rsaVerifyPSS := fun _ _ _ => false

/-- The user has registered a passkey, and a sign-in has got the challenge `h2`. -/
def challenged (publicKey : String) : State :=
  let env := sampleCrypto.env sampleEnv
  let s := (serve env (sampleCall "0") (.beginPasskeySignUp (some "v")) sampleWorld.state).2
  let s := (serve env (sampleCall "1")
    (.verifyPasskeySignUp (some ⟨"h0", "id", publicKey⟩)) s).2
  (serve env (sampleCall "2") .beginPasskeySignIn s).2

/-- A sign-in with the passkey. -/
def assertion (clientDataJSON signature : String) : VerifyPasskeySignInInput :=
  ⟨"h2", "id", clientDataJSON, "", signature⟩

/-- Tokens are given out without a signature, for any signature under bytes that are no key, and for
a signature over client data with an old challenge. -/
theorem tokens_without_proof :
    (Issues (sampleCrypto.env sampleEnv) (sampleCall "3") (challenged "ek")
        (some (assertion "h2" "")) ∧
      ¬ Proves sampleCrypto some (challenged "ek") (assertion "h2" "")) ∧
    (Issues (sampleCrypto.env sampleEnv) (sampleCall "3") (challenged "k")
        (some (assertion "h2" "x")) ∧
      ¬ Proves sampleCrypto some (challenged "k") (assertion "h2" "x")) ∧
    (Issues (sampleCrypto.env sampleEnv) (sampleCall "3") (challenged "ek")
        (some (assertion "h1" "ekh1")) ∧
      ¬ Proves sampleCrypto some (challenged "ek") (assertion "h1" "ekh1")) := by
  refine ⟨⟨?_, fun hproves => ?_⟩, ⟨?_, fun hproves => ?_⟩, ⟨?_, fun hproves => ?_⟩⟩
  · unfold Issues
    decide +kernel
  · exact hproves.nonempty rfl
  · unfold Issues
    decide +kernel
  · obtain ⟨key, ⟨passkey, hpasskey, hparsed, -⟩, -⟩ := hproves.signed
    have hstored : ((challenged "k").selectPasskey "id").bind (fun passkey =>
        sampleCrypto.parsePublicKey (sampleCrypto.storedBytes passkey.publicKey)) = none := by
      decide +kernel
    have hselect : (challenged "k").selectPasskey "id" = some passkey := hpasskey
    rw [hselect, Option.bind_some, hparsed] at hstored
    cases hstored
  · unfold Issues
    decide +kernel
  · have hbound : "h1" = "h2" := Option.some.inj hproves.bound.2
    exact absurd hbound (by decide)

-- with the key, the challenge and the signature in place the same request proves its case
example : Issues (sampleCrypto.env sampleEnv) (sampleCall "3") (challenged "ek")
    (some (assertion "h2" "ekh2")) := by
  unfold Issues
  decide +kernel

-- and a wrong signature under a key is refused
example : ¬ Issues (sampleCrypto.env sampleEnv) (sampleCall "3") (challenged "ek")
    (some (assertion "h2" "ekh3")) := by
  unfold Issues
  decide +kernel

end Layr.Auth.PasskeyAssertions

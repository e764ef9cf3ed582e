import Layr.Go.Strconv
import Layr.Go.Words

/-!
# Presigned tokens

A token signs the bucket, the key, the operation and the expiry, joined by colons. Only the key may
hold colons, so the signed text has one reading.
-/

namespace Layr.FileStorage

open Go

def isBucketRune (c : Char) : Bool := 'a' ≤ c && c ≤ 'z' || '0' ≤ c && c ≤ '9'

/-- `isValidBucketName`, with the pattern `^[a-z0-9]([a-z0-9-]*[a-z0-9])?$`. -/
def isValidBucketName (name : String) : Bool :=
  3 ≤ name.utf8ByteSize && name.utf8ByteSize ≤ 63 &&
    name.toList.all (fun c => isBucketRune c || c = '-') && name.toList.head?.any isBucketRune &&
    name.toList.getLast?.any isBucketRune

/-- The parts of a presigned URL that are signed. -/
@[ext]
structure Grant where
  bucketName : String
  objectKey : String
  operation : String
  expiresUnix : ℤ

/-- HMAC-SHA-256 under the signing key, in hexadecimal. -/
structure Presigner where
  sign : String → String
  injective : Function.Injective sign

def Grant.payload (grant : Grant) : String :=
  grant.bucketName ++ ":" ++ grant.objectKey ++ ":" ++ grant.operation ++ ":" ++
    String.ofList (Strconv.formatInt grant.expiresUnix)

def Presigner.computePresignSignature (presigner : Presigner) (grant : Grant) : String :=
  presigner.sign grant.payload

/-- `verifyPresignedToken` at a time. -/
def Presigner.verifyPresignedToken (presigner : Presigner) (now : ℤ)
    (bucketName objectKey operation token expires : String) : Bool :=
  if token = "" ∨ expires = "" then false
  else
    match Strconv.parseInt expires.toList with
    | none => false
    | some expiresUnix =>
      if now > expiresUnix then false
      else token = presigner.computePresignSignature ⟨bucketName, objectKey, operation, expiresUnix⟩

/-- A bucket name that is valid and an operation that reads or writes. -/
def Grant.Signable (grant : Grant) : Prop :=
  isValidBucketName grant.bucketName ∧
    (grant.operation = "read" ∨ grant.operation = "write")

theorem Grant.Signable.not_mem {grant : Grant} (h : grant.Signable) :
    ':' ∉ grant.bucketName.toList ∧ ':' ∉ grant.operation.toList := by
  obtain ⟨hname, hoperation⟩ := h
  simp only [isValidBucketName, Bool.and_eq_true, List.all_eq_true] at hname
  refine ⟨fun hmem => absurd (hname.1.1.2 _ hmem) (by decide), ?_⟩
  rcases hoperation with h | h <;> rw [h] <;> decide

/-- The expiry stands behind the last colon, the operation behind the one before it, and the bucket
before the first one. -/
theorem Grant.eq_of_payload_eq {grant other : Grant} (h : grant.Signable) (h' : other.Signable)
    (heq : grant.payload = other.payload) : grant = other := by
  have hexpires : ∀ i : ℤ, ':' ∉ (String.ofList (Strconv.formatInt i)).toList := by
    intro i
    rw [String.toList_ofList]
    exact Strconv.not_mem_formatInt (by decide) i
  rw [payload, payload, show ":" = String.singleton ':' from rfl] at heq
  have hlast := congrArg (Strings.cutLast ':') heq
  rw [Strings.cutLast_append (hexpires _), Strings.cutLast_append (hexpires _), Option.some.injEq,
    Prod.mk.injEq] at hlast
  have hbefore := congrArg (Strings.cutLast ':') hlast.1
  rw [Strings.cutLast_append h.not_mem.2, Strings.cutLast_append h'.not_mem.2, Option.some.injEq,
    Prod.mk.injEq] at hbefore
  have hfirst := congrArg (Strings.cut ':') hbefore.1
  rw [Strings.cut_append h.not_mem.1, Strings.cut_append h'.not_mem.1, Option.some.injEq,
    Prod.mk.injEq] at hfirst
  exact Grant.ext hfirst.1 hfirst.2 hbefore.2
    (Strconv.formatInt_injective (String.ofList_injective hlast.2))

/-- A token is accepted for what it was signed for only, and not after the expiry. -/
theorem verifyPresignedToken_bound (presigner : Presigner) {grant : Grant} (h : grant.Signable)
    {now : ℤ} {bucketName objectKey operation expires : String}
    (hbucket : isValidBucketName bucketName)
    (hoperation : operation = "read" ∨ operation = "write")
    (haccepted : presigner.verifyPresignedToken now bucketName objectKey operation
      (presigner.computePresignSignature grant) expires) :
    Strconv.parseInt expires.toList = some grant.expiresUnix ∧ bucketName = grant.bucketName ∧
      objectKey = grant.objectKey ∧ operation = grant.operation ∧ now ≤ grant.expiresUnix := by
  unfold Presigner.verifyPresignedToken at haccepted
  split at haccepted
  · cases haccepted
  split at haccepted
  · cases haccepted
  rename_i expiresUnix hparse
  split at haccepted
  · cases haccepted
  rename_i hnow
  have hpayload := presigner.injective (of_decide_eq_true haccepted)
  have hsigned : Grant.Signable ⟨bucketName, objectKey, operation, expiresUnix⟩ :=
    ⟨hbucket, hoperation⟩
  obtain rfl := Grant.eq_of_payload_eq h hsigned hpayload
  exact ⟨hparse, rfl, rfl, rfl, not_lt.mp hnow⟩

/-- A key with colons. -/
theorem verifyPresignedToken_sample :
    let presigner : Presigner := ⟨id, Function.injective_id⟩
    let grant : Grant := ⟨"files", "a:read:7", "write", 9⟩
    isValidBucketName "files" ∧
      presigner.verifyPresignedToken 9 "files" "a:read:7" "write"
        (presigner.computePresignSignature grant) "9" ∧
      Strconv.parseInt "9".toList = some 9 := by
  intro presigner grant
  have haccepted : presigner.verifyPresignedToken 9 "files" "a:read:7" "write"
      (presigner.computePresignSignature grant) "9" := by decide +kernel
  exact ⟨by decide, haccepted, (@verifyPresignedToken_bound presigner grant ⟨by decide, .inr rfl⟩
    _ _ _ _ _ (by decide) (.inr rfl) haccepted).1⟩

end Layr.FileStorage

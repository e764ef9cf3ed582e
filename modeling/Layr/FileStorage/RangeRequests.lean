import Layr.FileStorage.Policy
import Layr.Go.Strconv
import Layr.Go.Strings
import Layr.Lib.Codes

/-!
# Downloads of byte ranges

`handleDownloadObject` of the REST interface with the header fields of its response. What
`S3Engine.Download` returns is an input.
-/

namespace Layr.FileStorage

open Go Go.Io Service

/-- `parseRangeHeader`; nothing where it returns an error. -/
def parseRangeHeader (header : String) : Option ContentRange :=
  if !Strings.hasPrefix header "bytes=" then none
  else
    match Strings.split '-' (Strings.trimPrefix header "bytes=") with
    | [first, last] =>
      (Strconv.parseInt first.toList).bind fun start =>
        (Strconv.parseInt last.toList).bind fun endAt =>
          if start > endAt ∨ start < 0 then none
          else some { start := start, endAt := endAt, total := 0, isPartial := true }
    | _ => none

/-- A response with its status, `Content-Length`, `Content-Range` and body, or an error. -/
inductive DownloadResponse
  | content (status : ℕ) (contentLength : List Char) (contentRange : Option (List Char))
      (body : List Byte)
  | failure (failure : Failure)
  deriving DecidableEq, Repr

def DownloadResponse.status : DownloadResponse → ℕ
  | .content status _ _ _ => status
  | .failure error => error.status

/-- `bytes %d-%d/%d`. -/
def contentRangeText (first last total : ℤ) : List Char :=
  "bytes ".toList ++ Strconv.formatInt first ++ '-' :: Strconv.formatInt last ++
    '/' :: Strconv.formatInt total

/-- `handleDownloadObject`. -/
def Service.handleDownloadObject (service : Service) (s : State) (target : Target)
    (rangeHeader : String) (s3Download : Option ContentRange → Except EngineError (List Byte × ℤ)) :
    DownloadResponse :=
  if target.enabled = false then .failure ⟨403, "", "Access denied"⟩
  else if target.bucketName = "" ∨ target.objectKey = "" then
    .failure ⟨400, "", "Bucket and key parameters are required"⟩
  else
    match service.buckets.get target.bucketName with
    | none => .failure ⟨404, "", "Bucket not found"⟩
    | some bucket =>
      match target.denied with
      | some failure => .failure failure
      | none =>
        match resolveEngine bucket with
        | none => .failure ⟨500, "", "Service temporarily unavailable"⟩
        | some backend =>
          let contentRange := if rangeHeader = "" then none else parseRangeHeader rangeHeader
          match (match backend with
            | .database =>
              service.databaseEngine.download s.db bucket target.objectKey contentRange
            | .s3 => s3Download contentRange) with
          | .error .objectNotFound => .failure ⟨404, "", "Object not found"⟩
          | .error _ => .failure ⟨500, "", "Service temporarily unavailable"⟩
          | .ok (body, length) =>
            match contentRange.filter ContentRange.isPartial with
            | some range =>
              .content 206 (Strconv.formatInt length)
                (some (contentRangeText range.start range.endAt range.total)) body
            | none => .content 200 (Strconv.formatInt length) none body

/-- The answer to `Range: bytes=a-b` for an object with this content. -/
def RangeCorrect (content : List Byte) (a b : ℕ) (response : DownloadResponse) : Prop :=
  if a < content.length then
    let last := min b (content.length - 1)
    response = .content 206 (Strconv.formatInt (last - a + 1 : ℕ))
      (some (contentRangeText a last content.length)) ((content.drop a).take (last - a + 1))
  else response.status = 416

def rangeHeader (a b : ℕ) : String :=
  String.ofList ("bytes=".toList ++ Nat.toDigits 10 a ++ '-' :: Nat.toDigits 10 b)

theorem total_of_parseRangeHeader {header : String} {range : ContentRange}
    (h : parseRangeHeader header = some range) : range.total = 0 := by
  unfold parseRangeHeader at h
  split at h
  · cases h
  · split at h
    · obtain ⟨start, -, h⟩ := Option.bind_eq_some_iff.mp h
      obtain ⟨endAt, -, h⟩ := Option.bind_eq_some_iff.mp h
      split at h
      · cases h
      · rw [← Option.some.inj h]
    · cases h

theorem total_eq_of_contentRangeText_eq {first last total first' last' total' : ℤ}
    (h : contentRangeText first last total = contentRangeText first' last' total') :
    total = total' := by
  have hslash : ∀ i, '/' ∉ Strconv.formatInt i := Strconv.not_mem_formatInt (by decide)
  have hfree : ∀ i j, '/' ∉ "bytes ".toList ++ Strconv.formatInt i ++
      '-' :: Strconv.formatInt j := by
    intro i j
    simp [hslash]
  exact Strconv.formatInt_injective (Codes.append_cons_inj (hfree _ _) (hfree _ _) h).2

section

variable (service : Service) (s : State) {target : Target} (hallowed : target.denied = none)
  (header : String) (s3Download : Option ContentRange → Except EngineError (List Byte × ℤ))

include hallowed

/-- No response has status 416, and no `Content-Range` has a total. -/
theorem handleDownloadObject_spec {response : DownloadResponse}
    (h : service.handleDownloadObject s target header s3Download = response) :
    response.status ≠ 416 ∧ ∀ status length text body,
      response = .content status length (some text) body →
      ∃ first last, text = contentRangeText first last 0 := by
  subst h
  unfold Service.handleDownloadObject
  rw [hallowed]
  split
  · simp [DownloadResponse.status]
  split
  · simp [DownloadResponse.status]
  split
  · simp [DownloadResponse.status]
  dsimp only
  split
  · simp [DownloadResponse.status]
  split
  · simp [DownloadResponse.status]
  · simp [DownloadResponse.status]
  split
  next range hrange =>
    refine ⟨by simp [DownloadResponse.status], ?_⟩
    rintro status length text body heq
    cases heq
    obtain ⟨hparsed, -⟩ := Option.filter_eq_some_iff.mp hrange
    split at hparsed
    · cases hparsed
    · exact ⟨_, _, by rw [total_of_parseRangeHeader hparsed]⟩
  next => simp [DownloadResponse.status]

/-- A range is never answered as it should be. -/
theorem range_never_correct (content : List Byte) (a b : ℕ) :
    ¬RangeCorrect content a b
      (service.handleDownloadObject s target (rangeHeader a b) s3Download) := by
  obtain ⟨hstatus, htext⟩ := handleDownloadObject_spec service s hallowed (rangeHeader a b)
    s3Download rfl
  intro hcorrect
  unfold RangeCorrect at hcorrect
  split at hcorrect
  next hlt =>
    obtain ⟨first, last, hrange⟩ := htext _ _ _ _ hcorrect
    have htotal := total_eq_of_contentRangeText_eq hrange
    omega
  · exact hstatus hcorrect

end

/-- An object of three bytes. -/
def sampleFiles : State :=
  (Policy.sampleService.handleUploadObject .initial (Policy.target "images") "image/png"
    (Policy.bodyOf [1, 2, 3]) ⟨5, true, ""⟩).2

def sampleDownload (a b : ℕ) : DownloadResponse :=
  Policy.sampleService.handleDownloadObject sampleFiles (Policy.target "images") (rangeHeader a b)
    fun _ => .error .objectNotFound

theorem sample_range_not_correct : ¬RangeCorrect [1, 2, 3] 0 1 (sampleDownload 0 1) :=
  range_never_correct _ _ rfl _ _ _ _

/-- A range of the object, one that ends behind it, and one that starts behind it. -/
theorem sampleDownload_eq :
    sampleDownload 0 1 = .content 206 "2".toList (some "bytes 0-1/0".toList) [1, 2] ∧
      ¬RangeCorrect [1, 2, 3] 0 1 (sampleDownload 0 1) ∧
      (sampleDownload 1 7).status = 500 ∧ ¬RangeCorrect [1, 2, 3] 1 7 (sampleDownload 1 7) ∧
      (sampleDownload 3 7).status = 500 ∧ ¬RangeCorrect [1, 2, 3] 3 7 (sampleDownload 3 7) := by
  unfold RangeCorrect
  decide +kernel

end Layr.FileStorage

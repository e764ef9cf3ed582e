import Layr.FileStorage.Writes
import Layr.Lib.Runs

/-!
# The policy of a bucket

A bucket may list the content types it allows and limit the size of its objects. REST uploads check
the type and the declared length; an S3 `PUT` and the completion of a multipart upload check
neither. The database engine enforces the limit while it reads, the S3 engine does not. So the
policy holds as long as the requests that are not checked keep to it by themselves.
-/

namespace Layr.FileStorage.Policy

open Go.Io

/-- Every object has a type that its bucket allows, and a size within the bucket's limit. -/
def PolicyHolds (service : Service) (s : State) : Prop :=
  ∀ name bucket key p object, service.buckets.get name = some bucket →
    service.place bucket key = some p → service.stored s p = some object →
    service.allowsType bucket object.contentType ∧ bucket.exceeds object.size = false

/-- No two buckets are kept in one upstream store. -/
def Separate (service : Service) : Prop :=
  ∀ name name' bucket bucket' location, service.buckets.get name = some bucket →
    service.buckets.get name' = some bucket' → service.upstream bucket = some location →
    service.upstream bucket' = some location → bucket = bucket'

def step (service : Service) (s : State) (request : Service.Request) : Option State :=
  some (service.handle s request).2

/-- The bucket is kept by the S3 engine and cannot hold so many bytes. -/
def overflowsUpstream (bucket : Bucket) (length : ℕ) : Bool :=
  Service.resolveEngine bucket = some .s3 && bucket.exceeds length

/-- What the handlers leave to the requests: the types of an S3 `PUT` and of a completed upload are
allowed, and an object for an upstream store is within the limit, unless it is a REST upload
that declares its length. -/
def keepsPolicy (service : Service) (s : State) : Service.Request → Bool
  | .rest target _ body _ =>
    (service.buckets.get target.bucketName).all fun bucket =>
      0 ≤ body.contentLength || !overflowsUpstream bucket body.reader.content.length
  | .put target contentType body _ =>
    (service.buckets.get target.bucketName).all fun bucket =>
      service.allowsType bucket (orOctetStream contentType) &&
        !overflowsUpstream bucket body.reader.content.length
  | .complete target (some uploadID) ignored _ =>
    (service.buckets.get target.bucketName).all fun bucket =>
      service.allowsType bucket (orOctetStream (Service.completedType s uploadID ignored)) &&
        !overflowsUpstream bucket (Service.deliveredParts s uploadID ignored).flatten.length
  | _ => true

@[simp] theorem orOctetStream_idem (contentType : String) :
    orOctetStream (orOctetStream contentType) = orOctetStream contentType := by
  unfold orOctetStream
  split_ifs with hempty hoctet
  · exact absurd hoctet (by decide)
  · rfl
  · rfl

section Steps

variable {service : Service} {s s' : State}

/-- One place holds objects of one bucket. -/
theorem eq_of_place (hseparate : Separate service) {name name' key key' : String}
    {bucket bucket' : Bucket} {p : Place} (hbucket : service.buckets.get name = some bucket)
    (hbucket' : service.buckets.get name' = some bucket') (hp : service.place bucket key = some p)
    (hp' : service.place bucket' key' = some p) : bucket = bucket' := by
  unfold Service.place at hp hp'
  split at hp
  · cases hp
  · split at hp'
    · cases hp'
    · have hid : bucket.id = bucket'.id := by
        have hplace := hp.trans hp'.symm
        exact (Place.database.inj (Option.some.inj hplace)).1
      exact service.uniqueIDs hbucket hbucket' hid
    · obtain ⟨location, -, heq⟩ := Option.map_eq_some_iff.mp hp'
      rw [← heq] at hp
      cases hp
  · obtain ⟨location, hlocation, heq⟩ := Option.map_eq_some_iff.mp hp
    split at hp'
    · cases hp'
    · rw [← heq] at hp'
      cases hp'
    · obtain ⟨location', hlocation', heq'⟩ := Option.map_eq_some_iff.mp hp'
      have hsame : location' = location := (Place.upstream.inj (heq'.trans heq.symm)).1
      rw [hsame] at hlocation'
      exact hseparate name name' bucket bucket' location hbucket hbucket' hlocation hlocation'

/-- A write that keeps to the policy. -/
theorem policyHolds_of_wrote (hseparate : Separate service) (hpolicy : PolicyHolds service s)
    {name key contentType : String} {bucket : Bucket} {content : List Byte}
    (hbucket : service.buckets.get name = some bucket)
    (hwrote : service.Wrote s s' bucket key contentType content)
    (htype : service.allowsType bucket (orOctetStream contentType))
    (hsize : Service.resolveEngine bucket = some .s3 → bucket.exceeds content.length = false) :
    PolicyHolds service s' := by
  obtain ⟨p, hplace, hstored, hothers⟩ := hwrote.written
  have hfits : bucket.exceeds content.length = false := by
    rcases hbackend : Service.resolveEngine bucket with _ | backend
    · rw [Service.place, hbackend] at hplace
      cases hplace
    · cases backend with
      | database => exact hwrote.limited hbackend
      | s3 => exact hsize hbackend
  intro name' bucket' key' p' object hbucket' hplace' hobject
  by_cases hp : p' = p
  · rw [hp] at hplace' hobject
    rw [← eq_of_place hseparate hbucket hbucket' hplace hplace']
    rw [hstored] at hobject
    cases hobject
    exact ⟨htype, hfits⟩
  · rw [hothers p' hp] at hobject
    exact hpolicy name' bucket' key' p' object hbucket' hplace' hobject

theorem exceeds_of_overflowsUpstream {bucket : Bucket} {length : ℕ}
    (h : overflowsUpstream bucket length = false)
    (hbackend : Service.resolveEngine bucket = some .s3) : bucket.exceeds length = false := by
  simpa [overflowsUpstream, hbackend] using h

theorem PolicyHolds.deleteUpload (h : PolicyHolds service s) (uploadID : ID) (deletes : Bool) :
    PolicyHolds service (if deletes then Service.deleteUpload s uploadID else s) := by
  split_ifs
  · unfold PolicyHolds
    simp only [Service.stored_deleteUpload]
    exact h
  · exact h

theorem policyHolds_of_effect (hseparate : Separate service) (hpolicy : PolicyHolds service s)
    {request : Service.Request} (hallowed : keepsPolicy service s request)
    (heffect : service.Effect s request s') : PolicyHolds service s' := by
  cases heffect with
  | @rest target contentType body outside bucket s' hbucket htype hlength hwrote =>
    rw [keepsPolicy, hbucket] at hallowed
    refine policyHolds_of_wrote hseparate hpolicy hbucket hwrote (by simpa using htype) ?_
    intro hbackend
    rcases Bool.or_eq_true_iff.mp hallowed with hdeclared | hfits
    · -- no more bytes are read than were declared
      have hbounded := body.bounded (of_decide_eq_true hdeclared)
      by_contra hexceeds
      have hmono := Bucket.exceeds_mono hbounded (by simpa using hexceeds)
      exact absurd (hlength.symm.trans hmono) (by decide)
    · exact exceeds_of_overflowsUpstream (by simpa using hfits) hbackend
  | put hbucket hwrote =>
    rw [keepsPolicy, hbucket] at hallowed
    obtain ⟨htype, hfits⟩ := Bool.and_eq_true_iff.mp hallowed
    exact policyHolds_of_wrote hseparate hpolicy hbucket hwrote (by simpa using htype)
      (exceeds_of_overflowsUpstream (by simpa using hfits))
  | create _ _ | part _ => exact hpolicy
  | complete hbucket hwrote =>
    rw [keepsPolicy, hbucket] at hallowed
    obtain ⟨htype, hfits⟩ := Bool.and_eq_true_iff.mp hallowed
    have hwritten := policyHolds_of_wrote hseparate hpolicy hbucket hwrote htype
      (exceeds_of_overflowsUpstream (by simpa using hfits))
    exact hwritten.deleteUpload _ _
  | abort => exact hpolicy.deleteUpload _ _

theorem policyHolds_step (hseparate : Separate service) {request : Service.Request}
    (hpolicy : PolicyHolds service s) (hallowed : keepsPolicy service s request)
    (hstep : step service s request = some s') : PolicyHolds service s' := by
  rcases hhandle : service.handle s request with ⟨response, s₁⟩
  rw [step, hhandle, Option.some.injEq] at hstep
  subst hstep
  rcases Service.ends_of_handle hhandle with ⟨-, rfl⟩ | ⟨-, heffect⟩
  · exact hpolicy
  · exact policyHolds_of_effect hseparate hpolicy hallowed heffect

end Steps

theorem policyHolds_initial (service : Service) : PolicyHolds service .initial := by
  intro name bucket key p object _ _ hobject
  cases p <;> cases hobject

/-- Along every run of requests that keep to the policy where they are not checked, every object
does. -/
theorem objects_keep_policy (service : Service) (hseparate : Separate service) {s : State}
    (hrun : Runs.Run (step service) (fun s request => keepsPolicy service s request)
      .initial s) :
    PolicyHolds service s :=
  hrun.invariant (policyHolds_initial service) fun _ _ _ hpolicy hallowed hstep =>
    policyHolds_step hseparate hpolicy hallowed hstep

/-! ## Runs -/

/-- Images only, in the database. -/
def imageBucket : Bucket := ⟨1, "images", false, "database", ["image/png"], 0⟩

/-- At most two bytes, upstream. -/
def smallBucket : Bucket := ⟨2, "small", false, "s3", [], 2⟩

def sampleService : Service where
  databaseEngine := ⟨2, Nat.two_pos, fun _ => "sum"⟩
  buckets := ⟨[("images", imageBucket), ("small", smallBucket)], by simp⟩
  uniqueIDs := by
    intro name name' bucket bucket' h h' hid
    rw [Table.get_eq_some_iff] at h h'
    simp only [List.mem_cons, List.not_mem_nil, or_false, Prod.mk.injEq] at h h'
    rcases h with ⟨-, rfl⟩ | ⟨-, rfl⟩ <;> rcases h' with ⟨-, rfl⟩ | ⟨-, rfl⟩
    · rfl
    · cases hid
    · cases hid
    · rfl
  upstream := fun bucket => if bucket.id = 2 then some "upstream" else none
  equalFold := fun a b => a = b

theorem separate_sampleService : Separate sampleService := by
  intro name name' bucket bucket' location h h' hlocation hlocation'
  refine sampleService.uniqueIDs h h' ?_
  change (if bucket.id = 2 then some "upstream" else none) = some location at hlocation
  change (if bucket'.id = 2 then some "upstream" else none) = some location at hlocation'
  split_ifs at hlocation hlocation' with hid hid'
  rw [hid, hid']

def bodyOf (content : List Byte) : Service.Body where
  reader := ⟨[content], .eof, false⟩
  contentLength := content.length
  bounded := by simp [Reader.content]

def target (bucketName : String) : Service.Target := ⟨true, none, bucketName, "key"⟩

/-- A REST upload of an image and an S3 `PUT` of two bytes. -/
def keptRun : List Service.Request :=
  [.rest (target "images") "image/png" (bodyOf [1, 2, 3]) ⟨5, true, ""⟩,
    .put (target "small") "" (bodyOf [1, 2]) ⟨6, true, ""⟩]

theorem keptRun_keeps_policy :
    ∃ s, Runs.Run (step sampleService)
        (fun s request => keepsPolicy sampleService s request) .initial s ∧
      sampleService.stored s (.database 1 "key") = some ⟨"image/png", 3, [1, 2, 3]⟩ ∧
      PolicyHolds sampleService s :=
  Runs.exists_run keptRun (fun s => sampleService.stored s (.database 1 "key"))
    (by decide +kernel) (by decide +kernel) fun _ hrun hstored =>
      ⟨hstored, objects_keep_policy sampleService separate_sampleService hrun⟩

/-- S3 `PUT`s of a text and of three bytes. -/
def brokenRun : List Service.Request :=
  [.put (target "images") "text/html" (bodyOf [1]) ⟨5, true, ""⟩,
    .put (target "small") "" (bodyOf [1, 2, 3]) ⟨6, true, ""⟩]

/-- Both are stored: a type that the first bucket does not allow, and a size above the limit of the
second. -/
theorem brokenRun_breaks_policy :
    ∃ s, Runs.exec (step sampleService) .initial brokenRun = some s ∧
      sampleService.stored s (.database 1 "key") = some ⟨"text/html", 1, [1]⟩ ∧
      sampleService.stored s (.upstream "upstream" "key") =
        some ⟨"application/octet-stream", 3, [1, 2, 3]⟩ ∧
      ¬ PolicyHolds sampleService s := by
  refine Runs.exists_exec₂ (fun s => sampleService.stored s (.database 1 "key"))
    (fun s => sampleService.stored s (.upstream "upstream" "key")) (by decide +kernel)
    fun s htext hlarge => ⟨htext, hlarge, fun hpolicy => ?_⟩
  have hallowed := (hpolicy "images" imageBucket "key" _ _ rfl rfl htext).1
  exact absurd hallowed (by decide +kernel)

end Layr.FileStorage.Policy

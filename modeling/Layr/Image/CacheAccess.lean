import Layr.Image.Transform
import Layr.Lib.Runs

/-!
# The image cache and access to objects

Between two requests anything else may change: buckets, objects, accounts, the configuration, the
time. A body that is derived from an object should go only to a caller who may read the object at
that moment. The handler looks into the cache before it asks whether the caller may read the source,
and keeps a fallback under the key of its source, so this can fail. It holds in every run in which a
caller whom the cache serves may read the source, and no image is made from a fallback.
-/

namespace Layr.Image

open Go Go.Io Runs

/-- An answer, with the request and what it found at that moment. -/
structure Sent (ω : Type) where
  world : World ω
  request : Request
  response : Response

structure State (ω : Type) where
  world : World ω
  cache : CacheManager
  sent : List (Sent ω)

/-- The state of a new service. -/
def State.start {ω : Type} (world : World ω) : State ω := ⟨world, newCacheManager, []⟩

inductive Label (ω : Type)
  | change (world : World ω)
  | transform (request : Request)

namespace Service

variable {ω : Type} (service : Service ω)

def step (s : State ω) : Label ω → Option (State ω)
  | .change world => some { s with world := world }
  | .transform request =>
    let result := service.handleTransform s.world request s.cache
    some ⟨s.world, result.2, ⟨s.world, request, result.1⟩ :: s.sent⟩

/-! ## What should hold -/

/-- The sources that a request names. -/
def namedSources (world : World ω) (request : Request) : List String :=
  match service.prepare world request with
  | .error _ => []
  | .ok (sourceURL, options) => [sourceURL, service.fallbackImageURL options]

/-- The object of the body is public, or the caller may read it by a source of the request. -/
def Obeys (sent : Sent ω) : Prop :=
  ∀ object, sent.response.origin = some object →
    ∃ sourceURL ∈ service.namedSources sent.world sent.request,
      service.Readable sent.world sent.request sourceURL object

/-- Every answer so far has obeyed the rule. -/
def NotWidened (s : State ω) : Prop := ∀ sent ∈ s.sent, service.Obeys sent

/-- A caller whom the cache serves may read the source, and no fallback is used. -/
def isChecked (s : State ω) : Label ω → Bool
  | .change _ => true
  | .transform request =>
    match service.prepare s.world request with
    | .error _ => true
    | .ok (sourceURL, options) =>
      if (s.cache.get (service.cacheKeyOf sourceURL options)).isSome then
        (objectOf sourceURL).all fun object =>
          decide (service.Readable s.world request sourceURL object)
      else
        (service.fetch s.world request sourceURL).toOption.isSome ||
          service.fallbackImageURL options = ""

/-! ## What the cache keeps -/

/-- The element was made from the source that its key stands for. -/
def Kept (element : Element) : Prop :=
  ∃ sourceURL payload, element.key = computeCacheKey service.digest sourceURL payload ∧
    element.cachedImage.origin = objectOf sourceURL

/-- The invariant of checked runs. -/
structure Sound (s : State ω) : Prop where
  wellKeyed : s.cache.WellKeyed
  kept : ∀ element ∈ s.cache.lruList, service.Kept element
  notWidened : service.NotWidened s

variable {service} {world : World ω} {request : Request}

theorem origin_of_prepare_error {response : Response}
    (h : service.prepare world request = .error response) : response.origin = none := by
  unfold prepare at h
  repeat' split at h
  all_goals cases h
  all_goals rfl

theorem origin_response (e : FetchError) : e.response.origin = none := by
  cases e <;> rfl

theorem origin_sendCached {image : CachedImage} {object : String × String}
    (h : (sendCached world request image).origin = some object) :
    image.origin = some object := by
  unfold sendCached at h
  dsimp only at h
  split at h
  · cases h
  · exact h

/-- Without a fallback, what is fetched comes from the source. -/
theorem fetch_of_fetchOrFallback {sourceURL : String} {options : ω} {source : Source}
    (hchecked : (service.fetch world request sourceURL).toOption.isSome ∨
      service.fallbackImageURL options = "")
    (h : service.fetchOrFallback world request sourceURL options = .ok source) :
    service.fetch world request sourceURL = .ok source := by
  unfold fetchOrFallback at h
  cases hfetch : service.fetch world request sourceURL with
  | ok source' =>
    rw [hfetch] at h
    exact h
  | error e =>
    rw [hfetch] at h hchecked
    have hnone : service.fallbackImageURL options = "" := by
      simpa [Except.toOption] using hchecked
    simp [hnone] at h

/-- The answer behind the cache and the cache that it leaves. -/
theorem transformSource_spec {cache : CacheManager} {sourceURL : String} {options : ω}
    (hcache : cache.WellKeyed) (hkept : ∀ element ∈ cache.lruList, service.Kept element)
    (hchecked : (service.fetch world request sourceURL).toOption.isSome ∨
      service.fallbackImageURL options = "")
    {response : Response} {cache' : CacheManager}
    (h : service.transformSource world request cache sourceURL options = (response, cache')) :
    cache'.WellKeyed ∧ (∀ element ∈ cache'.lruList, service.Kept element) ∧
      ∀ object, response.origin = some object →
        service.Readable world request sourceURL object := by
  unfold transformSource at h
  split at h
  · rename_i e _
    cases h
    refine ⟨hcache, hkept, ?_⟩
    simp [origin_response]
  rename_i source hsource
  split at h
  · cases h
    refine ⟨hcache, hkept, ?_⟩
    simp [Response.origin]
  rename_i data contentType _
  have hfetch := fetch_spec (fetch_of_fetchOrFallback hchecked hsource)
  obtain ⟨hresponse, hset⟩ := Prod.mk.inj h
  obtain ⟨hwell, hmem⟩ := CacheManager.set_spec hcache (service.cacheKeyOf sourceURL options)
    (service.newImage contentType data source.origin)
  rw [hset] at hwell hmem
  refine ⟨hwell, ?_, ?_⟩
  · intro element helement
    rcases hmem element helement with hold | ⟨hkey, himage⟩
    · exact hkept element hold
    · refine ⟨sourceURL, service.optionsPayload options, hkey, ?_⟩
      rw [himage]
      exact hfetch.1
  · intro object horigin
    rw [← hresponse] at horigin
    exact hfetch.2 object horigin

/-- One request that is checked. -/
theorem handleTransform_spec {s : State ω} (hsound : service.Sound s)
    (hchecked : service.isChecked s (.transform request))
    {response : Response} {cache' : CacheManager}
    (h : service.handleTransform s.world request s.cache = (response, cache')) :
    cache'.WellKeyed ∧ (∀ element ∈ cache'.lruList, service.Kept element) ∧
      service.Obeys ⟨s.world, request, response⟩ := by
  unfold handleTransform at h
  unfold isChecked at hchecked
  dsimp only at hchecked
  cases hprepare : service.prepare s.world request with
  | error failed =>
    rw [hprepare] at h
    cases h
    refine ⟨hsound.wellKeyed, hsound.kept, ?_⟩
    intro object horigin
    rw [origin_of_prepare_error hprepare] at horigin
    cases horigin
  | ok prepared =>
    obtain ⟨sourceURL, options⟩ := prepared
    rw [hprepare] at h hchecked
    have hnamed : sourceURL ∈ service.namedSources s.world request := by
      simp [namedSources, hprepare]
    dsimp only at h hchecked
    cases hget : s.cache.get (service.cacheKeyOf sourceURL options) with
    | some found =>
      obtain ⟨image, cache⟩ := found
      rw [hget] at h hchecked
      cases h
      obtain ⟨⟨element, hmem, hkey, rfl⟩, hwell, hsub⟩ :=
        CacheManager.get_spec hsound.wellKeyed hget
      refine ⟨hwell, fun other hother => hsound.kept other (hsub other hother), ?_⟩
      intro object horigin
      -- the element was made from the source of this request
      obtain ⟨source, payload, hkept, hobject⟩ := hsound.kept element hmem
      have hsame : source = sourceURL :=
        sourceURL_eq_of_computeCacheKey_eq (hkept.symm.trans hkey)
      have hnames : objectOf sourceURL = some object := by
        rw [← hsame, ← hobject]
        exact origin_sendCached horigin
      refine ⟨sourceURL, hnamed, ?_⟩
      simpa [hnames] using hchecked
    | none =>
      rw [hget] at h hchecked
      have hfallback : (service.fetch s.world request sourceURL).toOption.isSome ∨
          service.fallbackImageURL options = "" := by
        simpa using hchecked
      obtain ⟨hwell, hkept, hreadable⟩ :=
        transformSource_spec hsound.wellKeyed hsound.kept hfallback h
      refine ⟨hwell, hkept, ?_⟩
      intro object horigin
      exact ⟨sourceURL, hnamed, hreadable object horigin⟩

theorem sound_step {s s' : State ω} {label : Label ω} (hsound : service.Sound s)
    (hchecked : service.isChecked s label) (hstep : service.step s label = some s') :
    service.Sound s' := by
  cases label with
  | change world =>
    cases hstep
    exact ⟨hsound.wellKeyed, hsound.kept, hsound.notWidened⟩
  | transform request =>
    cases hstep
    obtain ⟨hwell, hkept, hobeys⟩ := handleTransform_spec hsound hchecked rfl
    refine ⟨hwell, hkept, ?_⟩
    intro sent hmem
    rcases List.mem_cons.mp hmem with rfl | hmem
    · exact hobeys
    · exact hsound.notWidened sent hmem

/-- In every run whose steps are checked, no body goes to a caller who may not read its object. -/
theorem cache_does_not_widen {s : State ω}
    (hrun : Run service.step (fun s label => service.isChecked s label)
      (State.start world) s) : service.NotWidened s := by
  have hstart : service.Sound (State.start world) :=
    ⟨CacheManager.wellKeyed_new, by simp [State.start, newCacheManager],
      by simp [NotWidened, State.start]⟩
  have hsound : service.Sound s :=
    hrun.invariant hstart fun _ _ _ hsound hchecked hstep => sound_step hsound hchecked hstep
  exact hsound.notWidened

/-! ## Runs on a sample -/

/-- A service that has no codecs, takes the options as they are and keeps images as they are. -/
def sample : Service String where
  codecs := ⟨fun _ => none, fun _ => none, fun _ => none, fun _ => none, fun _ => "",
    fun path => some path, fun _ _ => []⟩
  queryValue _ _ := ""
  queryOfURL _ := none
  digest := Kv.Digest.bytes
  sha256 _ := "h"
  presign _ := "p"
  optionsPayload options := options
  fallbackImageURL _ := ""
  withFormat options _ := options
  transform data _ := some (data, "image/png")

/-- One object, in a bucket that is public or not. One token is accepted, of a user. -/
def sampleWorld (isPublic : Bool) : World String where
  server :=
    { digest := Kv.Digest.bytes
      verifyAccessToken := fun token =>
        if token = "u.b.c" then some ⟨"u", "authenticated", "x:user", ""⟩ else none
      layrAudience := "x:service_account"
      isIPAllowed := fun _ _ => false
      sessionUser := fun _ => none
      consoleSession := fun _ => none
      isConsoleUserEnabled := fun _ => false
      now := 0 }
  accounts := .empty
  buckets name := if name = "b" then some ⟨1, "b", isPublic, "database", [], 0⟩ else none
  db :=
    { objects :=
        { rows := ⟨[((1, "k"), ⟨7, "image/png", 1, "h"⟩)], by simp⟩
          unique := by
            intro k k' object object' h h' _
            have hmem := Table.get_eq_some_iff.mp h
            have hmem' := Table.get_eq_some_iff.mp h'
            simp only [List.mem_singleton, Prod.mk.injEq] at hmem hmem'
            rw [hmem.1, hmem'.1] }
      chunks := ⟨[((7, 0), [1])], by simp⟩ }
  signingKey := []
  signingSalt := []
  allowInsecure := true
  cacheTTLSeconds := 60
  parseProcessingOptions options := some options
  fetchRemoteHTTP _ := .error .other
  unixTime := 0

/-- The request for the image of the object, by the user with the token or by nobody. -/
def sampleRequest (byUser : Bool) : Request where
  base := ⟨fun name => if byUser && name = "Authorization" then "Bearer u.b.c" else "",
    fun _ => "", "::1"⟩
  signature := "_"
  rawPath := "plain/b/k"
  rawQuery := ""

/-- The user may ask twice: the second image comes from the cache. -/
def userTwice : List (Label String) :=
  [.transform (sampleRequest true), .transform (sampleRequest true)]

theorem userTwice_not_widened :
    ∃ s, exec sample.step (State.start (sampleWorld false)) userTwice = some s ∧
      s.sent.map (fun sent => sent.response.origin) = [some ("b", "k"), some ("b", "k")] ∧
      sample.NotWidened s :=
  exists_exec_run (fun s => s.sent.map fun sent => sent.response.origin) (by decide +kernel)
    (by decide +kernel) fun _ hrun hsent => ⟨hsent, cache_does_not_widen hrun⟩

/-- Nobody may read the object while its bucket is not public. -/
theorem widened_of_nobody {start : State String} {cache : CacheManager} {sent : List (Sent String)}
    (hrun : Run sample.step (fun _ _ => True) start ⟨sampleWorld false, cache, sent⟩)
    (h : (sample.handleTransform (sampleWorld false) (sampleRequest false) cache).1.origin =
      some ("b", "k")) :
    ∃ s, Run sample.step (fun _ _ => True) start s ∧ ¬ sample.NotWidened s := by
  have hno : ¬ ∃ sourceURL ∈ sample.namedSources (sampleWorld false) (sampleRequest false),
      sample.Readable (sampleWorld false) (sampleRequest false) sourceURL ("b", "k") := by
    decide +kernel
  refine ⟨_, hrun.step trivial (rfl : sample.step _ (.transform (sampleRequest false)) = some _),
    ?_⟩
  intro hobeys
  exact hno (hobeys _ List.mem_cons_self ("b", "k") h)

/-- After a user has asked for an image, everybody gets it; and after the bucket of an image is
made private, everybody still gets it. -/
theorem cache_widens :
    (∃ s, Run sample.step (fun _ _ => True) (State.start (sampleWorld false)) s ∧
      ¬ sample.NotWidened s) ∧
    ∃ s, Run sample.step (fun _ _ => True) (State.start (sampleWorld true)) s ∧
      ¬ sample.NotWidened s := by
  constructor
  · have hfirst : Run sample.step (fun _ _ => True) (State.start (sampleWorld false)) _ :=
      Run.refl.step trivial (rfl : sample.step _ (.transform (sampleRequest true)) = some _)
    exact widened_of_nobody hfirst (by decide +kernel)
  · have hfirst : Run sample.step (fun _ _ => True) (State.start (sampleWorld true)) _ :=
      Run.refl.step trivial (rfl : sample.step _ (.transform (sampleRequest false)) = some _)
    have hsecond := hfirst.step trivial
      (rfl : sample.step _ (.change (sampleWorld false)) = some _)
    exact widened_of_nobody hsecond (by decide +kernel)

end Service

end Layr.Image

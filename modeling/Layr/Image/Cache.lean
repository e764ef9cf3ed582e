import Layr.Go.Io
import Layr.Kv.KeyRecords
import Layr.Lib.Table

/-!
# The cache of transformed images

`CacheManager` keeps images in memory: a map from keys to the elements of a list, which is ordered
by last use. Its index in the database, its counters and the times of its entries are left out;
nothing is read back from them.
-/

namespace Layr.Image

open Go.Io

/-- A processed image. Its `origin` is not in the source: the bucket and key of the object that
the data comes from, if it comes from the storage. -/
structure CachedImage where
  contentType : String
  eTag : String
  data : List Byte
  origin : Option (String × String)
  deriving DecidableEq, Repr

/-- An element of the list, found by its address. -/
structure Element where
  address : ℕ
  key : String
  cachedImage : CachedImage
  deriving DecidableEq, Repr

/-- `CacheManager`. -/
structure CacheManager where
  memoryCache : Table String ℕ
  lruList : List Element
  maxEntries : ℕ
  nextAddress : ℕ

def defaultMaxMemoryCacheEntries : ℕ := 1000

def defaultMaxCachedItemBytes : ℕ := 10485760

/-- `NewCacheManager`. -/
def newCacheManager : CacheManager := ⟨.empty, [], defaultMaxMemoryCacheEntries, 0⟩

/-- `ComputeCacheKey`, from the text of the options. -/
def computeCacheKey (digest : Kv.Digest) (sourceURL optionsPayload : String) : String :=
  digest.hex (sourceURL ++ "|" ++ digest.hex optionsPayload)

namespace CacheManager

variable (cache : CacheManager)

/-- The element that the map has for a key. -/
def element (cacheKey : String) : Option Element :=
  (cache.memoryCache.get cacheKey).bind fun address =>
    cache.lruList.find? fun element => element.address = address

/-- `MoveToFront`, with the value that the element has then. -/
def moveToFront (element : Element) : List Element :=
  element :: cache.lruList.filter fun other => other.address ≠ element.address

/-- `Get`. -/
def get (cacheKey : String) : Option (CachedImage × CacheManager) :=
  (cache.element cacheKey).map fun element =>
    (element.cachedImage, { cache with lruList := cache.moveToFront element })

/-- The least recently used element removed, if the list is full. -/
def evict : CacheManager :=
  if cache.maxEntries ≤ cache.lruList.length then
    match cache.lruList.getLast? with
    | some oldest =>
      { cache with
        lruList := cache.lruList.dropLast
        memoryCache := cache.memoryCache.delete oldest.key }
    | none => cache
  else cache

/-- A new element at the front. -/
def pushFront (cacheKey : String) (image : CachedImage) : CacheManager :=
  { cache with
    lruList := ⟨cache.nextAddress, cacheKey, image⟩ :: cache.lruList
    memoryCache := cache.memoryCache.upsert cacheKey cache.nextAddress fun _ => cache.nextAddress
    nextAddress := cache.nextAddress + 1 }

/-- `Set`: an image that is too large is not kept. -/
def set (cacheKey : String) (image : CachedImage) : CacheManager :=
  if image.data.length ≤ defaultMaxCachedItemBytes then
    match cache.element cacheKey with
    | some element =>
      { cache with lruList := cache.moveToFront { element with cachedImage := image } }
    | none => cache.evict.pushFront cacheKey image
  else cache

/-! ## What the cache holds -/

/-- The map leads from a key to elements of that key, and addresses are drawn once. -/
structure WellKeyed : Prop where
  address_lt : ∀ element ∈ cache.lruList, element.address < cache.nextAddress
  get_lt : ∀ {key address}, cache.memoryCache.get key = some address → address < cache.nextAddress
  key_eq : ∀ {key address}, cache.memoryCache.get key = some address →
    ∀ element ∈ cache.lruList, element.address = address → element.key = key

variable {cache : CacheManager}

theorem wellKeyed_new : newCacheManager.WellKeyed where
  address_lt := by simp [newCacheManager]
  get_lt := by simp [newCacheManager]
  key_eq := by simp [newCacheManager]

variable {cacheKey : String} {element : Element}

theorem mem_of_element (h : cache.element cacheKey = some element) : element ∈ cache.lruList := by
  obtain ⟨address, -, hfind⟩ := Option.bind_eq_some_iff.mp h
  exact List.mem_of_find?_eq_some hfind

theorem mem_moveToFront {other : Element} (h : other ∈ cache.moveToFront element) :
    other = element ∨ other ∈ cache.lruList := by
  rcases List.mem_cons.mp h with heq | hmem
  · exact .inl heq
  · exact .inr (List.mem_filter.mp hmem).1

section

variable (hcache : cache.WellKeyed)

include hcache

/-- The list may lose elements, and have others with the address and key of one that it has. -/
theorem WellKeyed.of_list {elements : List Element}
    (h : ∀ element ∈ elements, ∃ old ∈ cache.lruList,
      old.address = element.address ∧ old.key = element.key) :
    WellKeyed { cache with lruList := elements } where
  address_lt := by
    intro element hmem
    obtain ⟨old, hold, haddress, -⟩ := h element hmem
    rw [← haddress]
    exact hcache.address_lt old hold
  get_lt := hcache.get_lt
  key_eq := by
    intro key address hget element hmem haddress'
    obtain ⟨old, hold, haddress, hkey⟩ := h element hmem
    rw [← hkey]
    exact hcache.key_eq hget old hold (haddress.trans haddress')

/-- The element of a key has this key. -/
theorem WellKeyed.key_of_element (h : cache.element cacheKey = some element) :
    element.key = cacheKey := by
  obtain ⟨address, hget, hfind⟩ := Option.bind_eq_some_iff.mp h
  have haddress : element.address = address := by simpa using List.find?_some hfind
  exact hcache.key_eq hget element (List.mem_of_find?_eq_some hfind) haddress

/-- `Get` returns an image that was kept for the key, and changes the order only. -/
theorem get_spec {cache' : CacheManager} {image : CachedImage}
    (h : cache.get cacheKey = some (image, cache')) :
    (∃ element ∈ cache.lruList, element.key = cacheKey ∧ element.cachedImage = image) ∧
      cache'.WellKeyed ∧ ∀ element ∈ cache'.lruList, element ∈ cache.lruList := by
  obtain ⟨element, helement, heq⟩ := Option.map_eq_some_iff.mp h
  obtain ⟨himage, rfl⟩ := Prod.mk.inj heq
  have hmem := mem_of_element helement
  have hold : ∀ other ∈ cache.moveToFront element, other ∈ cache.lruList := by
    intro other hother
    rcases mem_moveToFront hother with rfl | hother
    · exact hmem
    · exact hother
  refine ⟨⟨element, hmem, hcache.key_of_element helement, himage⟩, ?_, hold⟩
  apply hcache.of_list
  intro other hother
  exact ⟨other, hold other hother, rfl, rfl⟩

theorem wellKeyed_evict :
    cache.evict.WellKeyed ∧ ∀ element ∈ cache.evict.lruList, element ∈ cache.lruList := by
  unfold evict
  split
  · split
    · rename_i oldest _
      have hsub : ∀ element ∈ cache.lruList.dropLast, element ∈ cache.lruList :=
        fun element hmem => (List.dropLast_sublist _).subset hmem
      have hget : ∀ {key address}, (cache.memoryCache.delete oldest.key).get key = some address →
          cache.memoryCache.get key = some address := fun h => (Table.get_of_delete h).2
      refine ⟨⟨?_, ?_, ?_⟩, hsub⟩
      · intro element hmem
        exact hcache.address_lt element (hsub element hmem)
      · intro key address h
        exact hcache.get_lt (hget h)
      · intro key address h element hmem
        exact hcache.key_eq (hget h) element (hsub element hmem)
    · exact ⟨hcache, fun _ h => h⟩
  · exact ⟨hcache, fun _ h => h⟩

theorem wellKeyed_pushFront (cacheKey : String) (image : CachedImage) :
    (cache.pushFront cacheKey image).WellKeyed := by
  have hget : ∀ {key address}, (cache.pushFront cacheKey image).memoryCache.get key = some address →
      (key = cacheKey ∧ address = cache.nextAddress) ∨
        cache.memoryCache.get key = some address := by
    intro key address h
    have hupsert := (Table.get_upsert cache.memoryCache cacheKey cache.nextAddress
      (fun _ => cache.nextAddress) key).symm.trans h
    split at hupsert
    · rename_i hkey
      refine .inl ⟨hkey, ?_⟩
      cases hold : cache.memoryCache.get cacheKey <;> simp [hold] at hupsert <;> exact hupsert.symm
    · exact .inr hupsert
  refine ⟨?_, ?_, ?_⟩
  · intro element hmem
    show element.address < cache.nextAddress + 1
    rcases List.mem_cons.mp hmem with rfl | hmem
    · exact Nat.lt_succ_self _
    · have := hcache.address_lt element hmem
      omega
  · intro key address h
    show address < cache.nextAddress + 1
    rcases hget h with ⟨-, rfl⟩ | hold
    · exact Nat.lt_succ_self _
    · have := hcache.get_lt hold
      omega
  · intro key address h element hmem haddress
    rcases List.mem_cons.mp hmem with rfl | hmem
    · rcases hget h with ⟨rfl, -⟩ | hold
      · rfl
      · -- the map has no key for the new address
        have hlt := hcache.get_lt hold
        have heq : cache.nextAddress = address := haddress
        omega
    · rcases hget h with ⟨-, rfl⟩ | hold
      · have hlt := hcache.address_lt element hmem
        omega
      · exact hcache.key_eq hold element hmem haddress

/-- `Set` keeps the image for the key, or drops it, and may drop others. -/
theorem set_spec (cacheKey : String) (image : CachedImage) :
    (cache.set cacheKey image).WellKeyed ∧
      ∀ element ∈ (cache.set cacheKey image).lruList,
        element ∈ cache.lruList ∨ (element.key = cacheKey ∧ element.cachedImage = image) := by
  unfold set
  split
  · split
    · rename_i element helement
      have hkey := hcache.key_of_element helement
      refine ⟨?_, ?_⟩
      · apply hcache.of_list
        intro other hother
        rcases mem_moveToFront hother with rfl | hmem
        · exact ⟨element, mem_of_element helement, rfl, rfl⟩
        · exact ⟨other, hmem, rfl, rfl⟩
      · intro other hother
        rcases mem_moveToFront hother with rfl | hmem
        · exact .inr ⟨hkey, rfl⟩
        · exact .inl hmem
    · obtain ⟨hevict, hsub⟩ := wellKeyed_evict hcache
      refine ⟨wellKeyed_pushFront hevict cacheKey image, ?_⟩
      intro element hmem
      rcases List.mem_cons.mp hmem with rfl | hmem
      · exact .inr ⟨rfl, rfl⟩
      · exact .inl (hsub element hmem)
  · exact ⟨hcache, fun _ h => .inl h⟩

end

end CacheManager

/-- The key of an image determines its source. -/
theorem sourceURL_eq_of_computeCacheKey_eq {digest : Kv.Digest}
    {sourceURL sourceURL' payload payload' : String}
    (h : computeCacheKey digest sourceURL payload = computeCacheKey digest sourceURL' payload') :
    sourceURL = sourceURL' := by
  have htext := congrArg String.toList (digest.injective h)
  have hlist : sourceURL.toList ++ '|' :: (digest.hex payload).toList =
      sourceURL'.toList ++ '|' :: (digest.hex payload').toList := by
    simpa [String.toList_append] using htext
  exact String.toList_inj.mp (digest.append_cons_inj (by decide) (by decide) hlist).1

end Layr.Image

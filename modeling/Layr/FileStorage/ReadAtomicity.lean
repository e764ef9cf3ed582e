import Layr.FileStorage.RoundTrip
import Layr.Lib.Runs

/-!
# Downloads among uploads

An upload is one transaction. A download makes two queries, one for the object's row and one for
its chunks, and an overwrite keeps the object's id: between the two queries the chunks may become
those of a version of another size. Where that does not happen, every download returns one version.
-/

namespace Layr.FileStorage.ReadAtomicity

open Go.Io

/-! ## The system -/

/-- What an upload stored. -/
structure Version where
  bucketID : ID
  key : String
  content : List Byte
  deriving DecidableEq

/-- A download between its queries. -/
structure Pending where
  bucketID : ID
  key : String
  contentRange : Option ContentRange
  object : Object
  deriving DecidableEq

/-- What a download returned: its bytes and the reported length. -/
structure Result where
  bucketID : ID
  key : String
  contentRange : Option ContentRange
  bytes : List Byte
  length : ℤ
  deriving DecidableEq

structure State where
  db : Database
  pending : Table ℕ Pending
  versions : List Version
  results : List Result

def State.initial : State := ⟨.empty, .empty, [], []⟩

inductive Label
  /-- An upload, up to its commit. -/
  | upload (bucket : Bucket) (key : String) (reader : Reader) (sizeBytes : ℤ)
    (contentType : String) (objectID : ID)
  /-- The query of a download for its object. -/
  | selectObject (download : ℕ) (bucket : Bucket) (key : String)
    (contentRange : Option ContentRange)
  /-- The query of a download for the chunks. -/
  | selectChunks (download : ℕ)

def step (engine : DatabaseEngine) (s : State) : Label → Option State
  | .upload bucket key reader sizeBytes contentType objectID =>
    match engine.upload s.db bucket key reader sizeBytes contentType objectID with
    | (.error _, db) => some { s with db := db }
    | (.ok _, db) =>
      some { s with db := db, versions := ⟨bucket.id, key, reader.content⟩ :: s.versions }
  | .selectObject download bucket key contentRange =>
    match DatabaseEngine.head s.db bucket key with
    | .error _ => some s
    | .ok object =>
      (s.pending.insert download ⟨bucket.id, key, contentRange, object⟩).map fun pending =>
        { s with pending := pending }
  | .selectChunks download =>
    (s.pending.get download).map fun p =>
      match engine.downloadObject s.db.chunks p.object p.contentRange with
      | .error _ => { s with pending := s.pending.delete download }
      | .ok (bytes, length) =>
        { s with
          pending := s.pending.delete download
          results := ⟨p.bucketID, p.key, p.contentRange, bytes, length⟩ :: s.results }

/-- An upload that commits while downloads of its key are between their queries stores a content of
the size they have read. -/
def keepsSizes (engine : DatabaseEngine) (s : State) : Label → Bool
  | .upload bucket key reader sizeBytes contentType objectID =>
    !(engine.upload s.db bucket key reader sizeBytes contentType objectID).1.isOk ||
      s.pending.rows.all fun e =>
        (e.2.bucketID, e.2.key) ≠ (bucket.id, key) || e.2.object.sizeBytes = reader.content.length
  | _ => true

/-- Every download returned one uploaded version, or the range of it, with its size. -/
def ReadAtomic (s : State) : Prop :=
  ∀ result ∈ s.results, ∃ version ∈ s.versions,
    version.bucketID = result.bucketID ∧ version.key = result.key ∧
    result.bytes = DatabaseEngine.wanted version.content result.contentRange ∧
    result.length = result.bytes.length

/-! ## The invariant -/

/-- Every object stores a version. -/
def AllStored (engine : DatabaseEngine) (s : State) : Prop :=
  ∀ k object, s.db.objects.rows.get k = some object →
    ∃ version ∈ s.versions, version.bucketID = k.1 ∧ version.key = k.2 ∧
      engine.Stores s.db k.1 k.2 object version.content

/-- What a download has read of its object still is so. -/
def AllCurrent (s : State) : Prop :=
  ∀ download p, s.pending.get download = some p →
    ∃ object, s.db.objects.rows.get (p.bucketID, p.key) = some object ∧
      object.id = p.object.id ∧ object.sizeBytes = p.object.sizeBytes

structure Inv (engine : DatabaseEngine) (s : State) : Prop where
  stored : AllStored engine s
  current : AllCurrent s
  atomic : ReadAtomic s

theorem inv_initial (engine : DatabaseEngine) : Inv engine .initial := by
  refine ⟨?_, ?_, ?_⟩
  · intro k object h
    cases h
  · intro download p h
    cases h
  · intro result h
    cases h

section Steps

variable {engine : DatabaseEngine} {s : State}

theorem inv_upload {bucket : Bucket} {key contentType : String} {content : List Byte}
    {object : Object} {db : Database} (hinv : Inv engine s)
    (huploaded : engine.Uploaded s.db db bucket key contentType object content)
    (hsizes : ∀ download p, s.pending.get download = some p →
      (p.bucketID, p.key) = (bucket.id, key) → p.object.sizeBytes = content.length) :
    Inv engine { s with db := db, versions := ⟨bucket.id, key, content⟩ :: s.versions } := by
  refine ⟨?_, ?_, ?_⟩
  · intro k other hother
    by_cases hk : k = (bucket.id, key)
    · rw [hk] at hother ⊢
      have heq : object = other := Option.some.inj (huploaded.stores.row.symm.trans hother)
      exact ⟨_, List.mem_cons_self, rfl, rfl, heq ▸ huploaded.stores⟩
    · rw [huploaded.otherRows k hk] at hother
      obtain ⟨version, hmem, hbucket, hkey, hstores⟩ := hinv.stored k other hother
      exact ⟨version, List.mem_cons_of_mem _ hmem, hbucket, hkey,
        huploaded.stores_other hk hstores⟩
  · intro download p hp
    obtain ⟨other, hother, hid, hsize⟩ := hinv.current download p hp
    by_cases hk : (p.bucketID, p.key) = (bucket.id, key)
    · -- the row keeps its id, and by assumption its size
      rw [hk] at hother
      refine ⟨object, ?_, ?_, ?_⟩
      · rw [hk]
        exact huploaded.stores.row
      · rw [huploaded.keepsID other hother, hid]
      · rw [huploaded.stores.size, hsizes download p hp hk]
    · exact ⟨other, by rw [huploaded.otherRows _ hk, hother], hid, hsize⟩
  · intro result hresult
    obtain ⟨version, hmem, hversion⟩ := hinv.atomic result hresult
    exact ⟨version, List.mem_cons_of_mem _ hmem, hversion⟩

theorem inv_selectObject {bucket : Bucket} {key : String} {contentRange : Option ContentRange}
    {object : Object} {download : ℕ} {pending : Table ℕ Pending} (hinv : Inv engine s)
    (hhead : DatabaseEngine.head s.db bucket key = .ok object)
    (hinsert : s.pending.insert download ⟨bucket.id, key, contentRange, object⟩ = some pending) :
    Inv engine { s with pending := pending } := by
  refine ⟨hinv.stored, ?_, hinv.atomic⟩
  have hrow : s.db.objects.rows.get (bucket.id, key) = some object := by
    unfold DatabaseEngine.head at hhead
    split at hhead
    · cases hhead
    · next hget => rw [hget, Except.ok.inj hhead]
  intro other p hp
  change pending.get other = some p at hp
  rw [Table.get_insert hinsert] at hp
  split at hp
  · cases hp
    exact ⟨object, hrow, rfl, rfl⟩
  · exact hinv.current other p hp

theorem inv_delete (hinv : Inv engine s) (download : ℕ) :
    Inv engine { s with pending := s.pending.delete download } := by
  refine ⟨hinv.stored, ?_, hinv.atomic⟩
  intro other p hp
  exact hinv.current other p (Table.get_of_delete hp).2

/-- The chunks that a download reads are those of a version of the size it has read. -/
theorem atomic_of_downloadObject (hinv : Inv engine s) {download : ℕ} {p : Pending}
    (hp : s.pending.get download = some p) {bytes : List Byte} {length : ℤ}
    (hread : engine.downloadObject s.db.chunks p.object p.contentRange = .ok (bytes, length)) :
    ∃ version ∈ s.versions, version.bucketID = p.bucketID ∧ version.key = p.key ∧
      bytes = DatabaseEngine.wanted version.content p.contentRange ∧ length = bytes.length := by
  obtain ⟨object, hobject, hid, hsize⟩ := hinv.current download p hp
  obtain ⟨version, hmem, hbucket, hkey, hstores⟩ := hinv.stored _ object hobject
  have hcontent : p.object.sizeBytes = version.content.length := by rw [← hsize, hstores.size]
  have hchunks : engine.ChunksOf s.db.chunks p.object.id version.content := hid ▸ hstores.chunks
  have hwindow : ∃ w, DatabaseEngine.window p.object p.contentRange = .ok w := by
    rcases hwindow : DatabaseEngine.window p.object p.contentRange with error | w
    · unfold DatabaseEngine.downloadObject at hread
      rw [hwindow] at hread
      cases hread
    · exact ⟨w, rfl⟩
  obtain ⟨w, hwindow⟩ := hwindow
  rw [engine.downloadObject_of_chunksOf hcontent hchunks hwindow] at hread
  obtain ⟨rfl, rfl⟩ := Prod.mk.inj (Except.ok.inj hread)
  exact ⟨version, hmem, hbucket, hkey, rfl, rfl⟩

theorem inv_step {s' : State} {label : Label} (hinv : Inv engine s)
    (hallowed : keepsSizes engine s label) (hstep : step engine s label = some s') :
    Inv engine s' := by
  cases label with
  | upload bucket key reader sizeBytes contentType objectID =>
    rw [step] at hstep
    rw [keepsSizes] at hallowed
    rcases engine.upload_cases s.db bucket key reader sizeBytes contentType objectID with
      ⟨error, herror, -⟩ | ⟨object, db, hok, huploaded⟩
    · rw [herror] at hstep
      cases hstep
      exact hinv
    · rw [hok] at hstep hallowed
      cases hstep
      refine inv_upload hinv huploaded fun download p hp hk => ?_
      have hall := List.all_eq_true.mp (show s.pending.rows.all _ = true from hallowed)
        (download, p) (Table.get_eq_some_iff.mp hp)
      simpa [Prod.mk.inj hk] using hall
  | selectObject =>
    rw [step] at hstep
    split at hstep
    · cases hstep
      exact hinv
    · next object hhead =>
      obtain ⟨pending, hinsert, rfl⟩ := Option.map_eq_some_iff.mp hstep
      exact inv_selectObject hinv hhead hinsert
  | selectChunks download =>
    obtain ⟨p, hp, rfl⟩ := Option.map_eq_some_iff.mp hstep
    have hrest := inv_delete hinv download
    split
    · exact hrest
    · next bytes length hread =>
      refine ⟨hrest.stored, hrest.current, ?_⟩
      intro result hresult
      rcases List.mem_cons.mp hresult with rfl | hresult
      · exact atomic_of_downloadObject hinv hp hread
      · exact hinv.atomic result hresult

end Steps

/-- When no upload of another size commits between the queries of a download, every download returns
one version. -/
theorem downloads_atomic (engine : DatabaseEngine) {s : State}
    (hrun : Runs.Run (step engine) (fun s label => keepsSizes engine s label) .initial s) :
    ReadAtomic s := by
  have hinv : Inv engine s := Runs.Run.invariant (inv_initial engine)
    (fun _ _ _ hinv hallowed hstep => inv_step hinv hallowed hstep) hrun
  exact hinv.atomic

/-! ## Runs -/

def sampleEngine : DatabaseEngine := ⟨2, by decide, fun _ => "sum"⟩

def sampleBucket : Bucket := ⟨1, "files", false, "database", [], 0⟩

/-- An upload of one piece. -/
def uploadOf (content : List Byte) (objectID : ID) : Label :=
  .upload sampleBucket "key" ⟨[content], .eof, false⟩ content.length "" objectID

/-- A download that meets an overwrite by as many bytes. -/
def evenRun : List Label :=
  [uploadOf [1, 2, 3] 5, .selectObject 0 sampleBucket "key" none, uploadOf [4, 5, 6] 6,
    .selectChunks 0]

theorem evenRun_atomic :
    ∃ s, Runs.Run (step sampleEngine) (fun s label => keepsSizes sampleEngine s label)
        .initial s ∧
      s.results = [⟨1, "key", none, [4, 5, 6], 3⟩] ∧ ReadAtomic s :=
  Runs.exists_run evenRun (fun s => s.results) (by decide +kernel) (by decide +kernel)
    fun _ hrun hresults => ⟨hresults, downloads_atomic sampleEngine hrun⟩

/-- A download that meets an overwrite by more bytes. -/
def unevenRun : List Label :=
  [uploadOf [1, 2, 3] 5, .selectObject 0 sampleBucket "key" none, uploadOf [4, 5, 6, 7, 8] 6,
    .selectChunks 0]

/-- The download returns the first bytes of the second version with the size of the first. -/
theorem unevenRun_not_atomic :
    ∃ s, Runs.exec (step sampleEngine) .initial unevenRun = some s ∧
      s.versions = [⟨1, "key", [4, 5, 6, 7, 8]⟩, ⟨1, "key", [1, 2, 3]⟩] ∧
      s.results = [⟨1, "key", none, [4, 5, 6], 3⟩] ∧ ¬ ReadAtomic s := by
  refine Runs.exists_exec₂ (fun s => s.versions) (fun s => s.results) (by decide +kernel)
    fun s hversions hresults => ⟨hversions, hresults, fun hatomic => ?_⟩
  have hmem : (⟨1, "key", none, [4, 5, 6], 3⟩ : Result) ∈ s.results := by
    rw [hresults]
    exact List.mem_singleton_self _
  obtain ⟨version, hversion, -, -, hbytes, -⟩ := hatomic _ hmem
  rw [hversions] at hversion
  -- neither version is what was returned
  rcases List.mem_cons.mp hversion with rfl | hversion
  · exact absurd hbytes (by decide)
  · rw [List.mem_singleton.mp hversion] at hbytes
    exact absurd hbytes (by decide)

end Layr.FileStorage.ReadAtomicity

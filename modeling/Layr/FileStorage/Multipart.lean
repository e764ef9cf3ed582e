import Layr.FileStorage.Writes
import Layr.Lib.Runs

/-!
# Multipart uploads

What the clients have been told is kept beside the tables: the uploads created and not yet completed
or aborted, with bucket, key and the latest body of every part. A completion is correct if it leaves
the parts, in the order of their numbers, under the bucket and key of the upload, and fails for
every other id. The handler looks at neither: of the completions that are not refused, those are
correct that name an upload of their own bucket and key and whose query for the parts runs to its
end.
-/

namespace Layr.FileStorage.Multipart

open Go.Io Function

/-! ## The ledger -/

structure Entry where
  bucketID : ID
  key : String
  parts : ℕ → Option (List Byte)

/-- The uploads that the clients know. -/
abbrev Ledger := ID → Option Entry

/-- The ledger after a request that was answered with success. -/
def record (service : Service) (ledger : Ledger) : Service.Request → Ledger
  | .create target _ uploadID _ =>
    match service.buckets.get target.bucketName with
    | none => ledger
    | some bucket =>
      update ledger uploadID (some ⟨bucket.id, target.objectKey, fun _ => none⟩)
  | .part _ (some uploadID) (some partNumber) reader _ =>
    update ledger uploadID <| (ledger uploadID).map fun entry =>
      { entry with parts := update entry.parts partNumber.toNat (some reader.content) }
  | .complete _ (some uploadID) ignored _ =>
    if ignored.deletes then update ledger uploadID none else ledger
  | .abort _ (some uploadID) deletes =>
    if deletes then update ledger uploadID none else ledger
  | _ => ledger

/-- The tables with the ledger. -/
structure Traced where
  files : State
  ledger : Ledger

def Traced.initial : Traced := ⟨.initial, fun _ => none⟩

/-- The ledger after a request. -/
def nextLedger (service : Service) (files : State) (ledger : Ledger)
    (request : Service.Request) : Ledger :=
  if (service.handle files request).1.isSuccess then record service ledger request else ledger

/-- A request; the ids drawn for new uploads are not in use. -/
def step (service : Service) (t : Traced) (request : Service.Request) : Option Traced :=
  let next : Traced :=
    ⟨(service.handle t.files request).2, nextLedger service t.files t.ledger request⟩
  match request with
  | .create _ _ uploadID _ => if (t.ledger uploadID).isSome then none else some next
  | _ => some next

/-- The content is the parts of the upload in ascending order. -/
def Entry.Assembles (entry : Entry) (content : List Byte) : Prop :=
  ∃ parts : List (ℕ × List Byte), (parts.Pairwise fun a b => a.1 < b.1) ∧
    (∀ n body, (n, body) ∈ parts ↔ entry.parts n = some body) ∧
    content = (parts.map Prod.snd).flatten

/-- An upload has one such content. -/
theorem Entry.Assembles.unique {entry : Entry} {content content' : List Byte}
    (h : entry.Assembles content) (h' : entry.Assembles content') : content = content' := by
  obtain ⟨parts, hsorted, hmem, rfl⟩ := h
  obtain ⟨parts', hsorted', hmem', rfl⟩ := h'
  have hnodup : ∀ {parts : List (ℕ × List Byte)}, (parts.Pairwise fun a b => a.1 < b.1) →
      parts.Nodup := fun hsorted => hsorted.imp fun hlt heq => absurd (heq ▸ hlt) (lt_irrefl _)
  have hperm : parts.Perm parts' := by
    rw [List.perm_ext_iff_of_nodup (hnodup hsorted) (hnodup hsorted')]
    rintro ⟨n, body⟩
    rw [hmem, hmem']
  have heq : parts = parts' :=
    hperm.eq_of_pairwise (fun a b _ _ hab hba => absurd (hab.trans hba) (lt_irrefl _)) hsorted
      hsorted'
  rw [heq]

/-! ## Correct completions -/

/-- The id is that of an upload created for the bucket and the key of the request. -/
def Owns (service : Service) (ledger : Ledger) (target : Service.Target) (uploadID : Option ID)
    (entry : Entry) : Prop :=
  ∃ id bucket, uploadID = some id ∧ ledger id = some entry ∧
    service.buckets.get target.bucketName = some bucket ∧ entry.bucketID = bucket.id ∧
    entry.key = target.objectKey

/-- A completion that succeeds leaves the parts of its upload under the bucket and the key for which
it was created, and touches no other object; one that names another id fails and changes no
object. -/
def CompleteCorrect (service : Service) (t : Traced) (target : Service.Target)
    (uploadID : Option ID) (response : Service.Response) (files : State) : Prop :=
  (response.isSuccess → ∃ entry bucket p content,
    Owns service t.ledger target uploadID entry ∧ entry.Assembles content ∧
    service.buckets.get target.bucketName = some bucket ∧
    service.place bucket target.objectKey = some p ∧
    (service.stored files p).map Stored.content = some content ∧
    ∀ p', p' ≠ p → service.stored files p' = service.stored t.files p') ∧
  ((∀ entry, ¬ Owns service t.ledger target uploadID entry) →
    response.isSuccess = false ∧ ∀ p, service.stored files p = service.stored t.files p)

/-! ## The tables follow the ledger -/

structure Tracks (files : State) (ledger : Ledger) : Prop where
  parts : ∀ id n, files.parts.get (id, n) = (ledger id).bind fun entry => entry.parts n
  known : ∀ id upload, files.uploads.get id = some upload → ∃ entry, ledger id = some entry

theorem tracks_initial : Tracks .initial fun _ => none := by
  refine ⟨fun id n => rfl, fun id upload h => ?_⟩
  cases h

section Steps

variable {files files' : State} {ledger : Ledger} (h : Tracks files ledger)

include h

/-- What leaves the tables of the uploads alone keeps them in step with the ledger. -/
theorem Tracks.congr (hparts : files'.parts = files.parts)
    (huploads : files'.uploads = files.uploads) : Tracks files' ledger := by
  refine ⟨fun id n => ?_, fun id upload hget => ?_⟩
  · show files'.parts.get (id, n) = _
    rw [hparts]
    exact h.parts id n
  · rw [huploads] at hget
    exact h.known id upload hget

theorem Tracks.delete (id : ID) :
    Tracks (Service.deleteUpload files id) (update ledger id none) := by
  refine ⟨fun id' n => ?_, fun id' upload hget => ?_⟩
  · show (files.parts.deleteWhere fun k _ => k.1 = id).get (id', n) = _
    rw [Table.get_deleteWhere, h.parts]
    by_cases hid : id' = id
    · rw [hid, update_self]
      cases (ledger id).bind fun entry => entry.parts n <;> simp
    · rw [update_of_ne hid]
      cases (ledger id').bind fun entry => entry.parts n <;> simp [hid]
  · obtain ⟨hid, hget⟩ := Table.get_of_delete hget
    rw [update_of_ne hid]
    exact h.known id' upload hget

theorem Tracks.create {id : ID} (hfresh : ledger id = none) (entry : Entry)
    (hempty : ∀ n, entry.parts n = none) {uploads : Table ID MultipartUpload}
    (huploads : ∀ id', id' ≠ id → uploads.get id' = files.uploads.get id') :
    Tracks { files with uploads := uploads } (update ledger id (some entry)) := by
  refine ⟨fun id' n => ?_, fun id' upload hget => ?_⟩
  · show files.parts.get (id', n) = _
    rw [h.parts]
    by_cases hid : id' = id
    · rw [hid, update_self, hfresh, Option.bind_some, hempty]
      rfl
    · rw [update_of_ne hid]
  · change uploads.get id' = some upload at hget
    by_cases hid : id' = id
    · exact ⟨entry, by rw [hid]; exact update_self ..⟩
    · rw [huploads id' hid] at hget
      obtain ⟨entry', hentry⟩ := h.known id' upload hget
      exact ⟨entry', (update_of_ne hid ..).trans hentry⟩

theorem Tracks.part {id : ID} {upload : MultipartUpload}
    (hupload : files.uploads.get id = some upload) (n : ℕ) (body : List Byte) :
    Tracks { files with parts := files.parts.upsert (id, n) body fun _ => body }
      (update ledger id <| (ledger id).map fun entry =>
        { entry with parts := update entry.parts n (some body) }) := by
  obtain ⟨entry, hentry⟩ := h.known id upload hupload
  refine ⟨fun id' n' => ?_, fun id' upload' hget => ?_⟩
  · show (files.parts.upsert (id, n) body fun _ => body).get (id', n') = _
    rw [Table.get_upsert]
    by_cases hid : id' = id
    · rw [hid, update_self, hentry, Option.map_some, Option.bind_some]
      show _ = update entry.parts n (some body) n'
      by_cases hn : n' = n
      · rw [hn, if_pos rfl, update_self]
        cases files.parts.get (id, n) <;> rfl
      · rw [if_neg (by simpa using hn), update_of_ne hn, h.parts, hentry]
        rfl
    · rw [if_neg (by simp [hid]), update_of_ne hid, h.parts]
  · obtain ⟨entry', hentry'⟩ := h.known id' upload' hget
    by_cases hid : id' = id
    · refine ⟨{ entry with parts := update entry.parts n (some body) }, ?_⟩
      show update ledger id _ id' = _
      rw [hid, update_self, hentry]
      rfl
    · exact ⟨entry', (update_of_ne hid ..).trans hentry'⟩

end Steps

section Requests

variable {service : Service} {files files' : State} {ledger : Ledger} {request : Service.Request}
  {response : Service.Response}

/-- What succeeds is recorded. -/
theorem tracks_effect (h : Tracks files ledger) (heffect : service.Effect files request files')
    (hfresh : ∀ target contentType uploadID inserted,
      request = .create target contentType uploadID inserted → ledger uploadID = none) :
    Tracks files' (record service ledger request) := by
  cases heffect with
  | rest _ _ _ hwrote | put _ hwrote => exact h.congr hwrote.parts hwrote.uploads
  | create hbucket huploads =>
    rw [record, hbucket]
    exact h.create (hfresh _ _ _ _ rfl) _ (fun _ => rfl) huploads
  | part hupload => exact h.part hupload _ _
  | complete _ hwrote =>
    have hkept : Tracks _ ledger := h.congr hwrote.parts hwrote.uploads
    rw [record]
    split_ifs
    · exact hkept.delete _
    · exact hkept
  | abort =>
    rw [record]
    split_ifs
    · exact h.delete _
    · exact h

/-- Whatever is requested, the tables stay in step with the ledger. -/
theorem tracks_handle (h : Tracks files ledger)
    (hfresh : ∀ target contentType uploadID inserted,
      request = .create target contentType uploadID inserted → ledger uploadID = none) :
    Tracks (service.handle files request).2 (nextLedger service files ledger request) := by
  rcases hhandle : service.handle files request with ⟨response, files'⟩
  rw [nextLedger, hhandle]
  rcases Service.ends_of_handle hhandle with ⟨hfailed, rfl⟩ | ⟨hsuccess, heffect⟩
  · rw [hfailed]
    exact h
  · rw [hsuccess]
    exact tracks_effect h heffect hfresh

end Requests

theorem tracks_step {service : Service} {t t' : Traced} {request : Service.Request}
    (h : Tracks t.files t.ledger) (hstep : step service t request = some t') :
    Tracks t'.files t'.ledger := by
  have hnext : (∀ target contentType uploadID inserted,
      request = .create target contentType uploadID inserted → t.ledger uploadID = none) ∧
      t' = ⟨(service.handle t.files request).2, nextLedger service t.files t.ledger request⟩ := by
    unfold step at hstep
    dsimp only at hstep
    split at hstep
    · next target contentType uploadID inserted =>
      split_ifs at hstep with hused
      refine ⟨fun target' contentType' uploadID' inserted' heq => ?_, (Option.some.inj hstep).symm⟩
      obtain ⟨-, -, rfl, -⟩ := Service.Request.create.inj heq
      simpa using hused
    · next hother =>
      refine ⟨fun target contentType uploadID inserted heq => ?_, (Option.some.inj hstep).symm⟩
      exact absurd heq (hother _ _ _ _)
  obtain ⟨hfresh, rfl⟩ := hnext
  exact tracks_handle h hfresh

def Traced.InStep (t : Traced) : Prop := Tracks t.files t.ledger

theorem inStep_of_run {service : Service} {t : Traced}
    (hrun : Runs.Run (step service) (fun _ _ => True) .initial t) : t.InStep := by
  have hstart : Traced.initial.InStep := tracks_initial
  exact hrun.invariant hstart fun _ _ _ htracks _ hstep => tracks_step htracks hstep

/-! ## Completions -/

/-- The rows of an upload, in order, make its content. -/
theorem assembles_ordered {files : State} {ledger : Ledger} (h : Tracks files ledger) {id : ID}
    {entry : Entry} (hentry : ledger id = some entry) :
    entry.Assembles ((files.parts.ordered id).map Prod.snd).flatten := by
  refine ⟨files.parts.ordered id, Table.pairwise_ordered files.parts id, fun n body => ?_, rfl⟩
  rw [Table.mem_ordered, h.parts, hentry]
  rfl

/-- The completion names an upload of its own bucket and key and is delivered all the bytes of its
parts. -/
def Proper (service : Service) (t : Traced) (target : Service.Target) (uploadID : Option ID)
    (ignored : Service.Ignored) : Prop :=
  ∃ id entry, uploadID = some id ∧ Owns service t.ledger target uploadID entry ∧
    (Service.deliveredParts t.files id ignored).flatten =
      ((t.files.parts.ordered id).map Prod.snd).flatten

/-- What a completion that succeeds leaves. -/
theorem stored_of_complete {service : Service} {files files' : State} {target : Service.Target}
    {uploadID : Option ID} {ignored : Service.Ignored} {outside : Outside}
    (heffect : service.Effect files (.complete target uploadID ignored outside) files') :
    ∃ id bucket p, uploadID = some id ∧ service.buckets.get target.bucketName = some bucket ∧
      service.place bucket target.objectKey = some p ∧
      (service.stored files' p).map Stored.content =
        some (Service.deliveredParts files id ignored).flatten ∧
      ∀ p', p' ≠ p → service.stored files' p' = service.stored files p' := by
  cases heffect with
  | @complete _ id _ _ bucket files₁ hbucket hwrote =>
    obtain ⟨p, hplace, hstored, hothers⟩ := hwrote.written
    refine ⟨id, bucket, p, rfl, hbucket, hplace, ?_, fun p' hp' => ?_⟩
    · split_ifs
      · rw [Service.stored_deleteUpload, hstored]
        rfl
      · rw [hstored]
        rfl
    · split_ifs
      · rw [Service.stored_deleteUpload, hothers p' hp']
      · exact hothers p' hp'

def sampleBucket : Bucket := ⟨1, "files", false, "database", [], 0⟩

def sampleService : Service where
  databaseEngine := ⟨2, Nat.two_pos, fun _ => "sum"⟩
  buckets := ⟨[("files", sampleBucket)], by simp⟩
  uniqueIDs := by
    intro name name' bucket bucket' h h' _
    rw [Table.get_eq_some_iff, List.mem_singleton] at h h'
    rw [(Prod.mk.inj h).2, (Prod.mk.inj h').2]
  upstream := fun _ => none
  equalFold := fun a b => a = b

def sampleTarget : Service.Target := ⟨true, none, "files", "key"⟩

def partOf (n : ℤ) (body : List Byte) : Service.Request :=
  .part none (some 3) (some n) ⟨[body], .eof, false⟩ true

def noErrors : Service.Ignored := ⟨none, true, true, true⟩

/-- The completion of upload 3 under the key. -/
def completeSample (files : State) : Service.Response × State :=
  sampleService.processCompleteMultipartUpload files sampleTarget (some 3) noErrors ⟨5, false, ""⟩

/-- An upload of two parts, the second first and the first twice. -/
def partsRun : List Service.Request :=
  [.create sampleTarget "" 3 true, partOf 2 [3, 4, 5], partOf 1 [9], partOf 1 [1, 2]]

/-- The content under the key. -/
def sampleContent (files : State) : Option (List Byte) :=
  (sampleService.stored files (.database 1 "key")).map Stored.content

/-- The upload completed once. -/
def completedRun : List Service.Request :=
  partsRun ++ [.complete sampleTarget (some 3) noErrors ⟨5, false, ""⟩]

end Layr.FileStorage.Multipart

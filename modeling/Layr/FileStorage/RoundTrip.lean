import Layr.FileStorage.DatabaseEngine

/-!
# The round trip of an object

The rows of an object stand for the content whose blocks its chunks are. An upload leaves rows that
stand for what its reader handed over, however it cut it, and a download of rows that stand
for a content returns that content, or the wanted range of it.
-/

namespace Layr.FileStorage

open Go.Io Blocks

theorem Bucket.exceeds_mono {bucket : Bucket} {a b : ℤ} (hle : a ≤ b)
    (h : bucket.exceeds a) : bucket.exceeds b := by
  unfold Bucket.exceeds at *
  simp only [Bool.and_eq_true, decide_eq_true_eq] at *
  omega

namespace DatabaseEngine

variable (engine : DatabaseEngine)

/-- The chunks of the object are the blocks of the content. -/
def ChunksOf (chunks : Chunks) (objectID : ID) (content : List Byte) : Prop :=
  ∀ i, chunks.get (objectID, i) =
    if i * engine.chunkSizeBytes < content.length then
      some (block engine.chunkSizeBytes content i)
    else none

/-- The key has the object, and the object the content. -/
structure Stores (db : Database) (bucketID : ID) (key : String) (object : Object)
    (content : List Byte) : Prop where
  row : db.objects.rows.get (bucketID, key) = some object
  size : object.sizeBytes = content.length
  chunks : engine.ChunksOf db.chunks object.id content

/-! ## Uploads -/

section Loop

variable {engine} {bucket : Bucket} {objectID : ID} {chunks : Chunks} {chunkIndex : ℕ}
  {content bytes : List Byte} {reader : Reader} {fuel : ℕ}

/-- Behind whole blocks another chunk is stored. -/
theorem ChunksOf.append {chunks' : Chunks} (h : engine.ChunksOf chunks objectID content)
    (hcontent : content.length = chunkIndex * engine.chunkSizeBytes)
    (hbytes : bytes.length ≤ engine.chunkSizeBytes)
    (hget : ∀ i, chunks'.get (objectID, i) =
      if i = chunkIndex ∧ bytes ≠ [] then some bytes else chunks.get (objectID, i)) :
    engine.ChunksOf chunks' objectID (content ++ bytes) := by
  intro i
  rw [hget, h i, List.length_append]
  rcases lt_trichotomy i chunkIndex with hlt | rfl | hgt
  · have hmul := Nat.mul_lt_mul_of_pos_right hlt engine.positive
    rw [if_neg (by omega), if_pos (by omega), if_pos (by omega),
      block_append_of_lt bytes hcontent hlt]
  · have hnone : ¬i * engine.chunkSizeBytes < content.length := by omega
    rw [block_append_self hcontent hbytes, if_neg hnone]
    exact if_congr (by rw [← List.length_pos_iff]; omega) rfl rfl
  · have hmul := Nat.mul_le_mul_right engine.chunkSizeBytes (Nat.succ_le_of_lt hgt)
    rw [Nat.succ_mul] at hmul
    rw [if_neg (by omega), if_neg (by omega), if_neg (by omega)]

/-- A chunk above the limit is refused, and another one is stored unless it is empty. -/
theorem storeChunk_spec (hchunks : engine.ChunksOf chunks objectID content)
    (hcontent : content.length = chunkIndex * engine.chunkSizeBytes)
    (hstart : bucket.exceeds content.length = false)
    (hbytes : bytes.length ≤ engine.chunkSizeBytes) :
    bucket.exceeds (content ++ bytes).length ∧
      storeChunk bucket objectID bytes chunks chunkIndex content.length =
        .error .payloadTooLarge ∨
    bucket.exceeds (content ++ bytes).length = false ∧ ∃ chunks',
      storeChunk bucket objectID bytes chunks chunkIndex content.length =
        .ok (chunks', if bytes = [] then chunkIndex else chunkIndex + 1,
          (content ++ bytes).length) ∧
      engine.ChunksOf chunks' objectID (content ++ bytes) ∧
      ∀ id i, id ≠ objectID → chunks'.get (id, i) = chunks.get (id, i) := by
  unfold storeChunk
  by_cases hnil : bytes = []
  · subst hnil
    rw [List.append_nil]
    exact .inr ⟨hstart, chunks, rfl, hchunks, fun _ _ _ => rfl⟩
  rw [if_neg hnil, if_neg hnil, ← Int.natCast_add, ← List.length_append]
  by_cases hexceeds : bucket.exceeds (content ++ bytes).length
  · exact .inl ⟨hexceeds, if_pos hexceeds⟩
  have hfree : chunks.get (objectID, chunkIndex) = none := by rw [hchunks, if_neg (by omega)]
  obtain ⟨chunks', hinsert⟩ := Table.exists_insert hfree bytes
  refine .inr ⟨Bool.eq_false_iff.mpr hexceeds, chunks', by rw [if_neg hexceeds, hinsert],
    hchunks.append hcontent hbytes fun i => ?_, fun id i hid => ?_⟩
  · rw [Table.get_insert hinsert]
    exact if_congr (by simp [hnil]) rfl rfl
  · rw [Table.get_insert hinsert, if_neg fun h => hid (Prod.mk.inj h).1]

/-- The end of data, which ends an upload. -/
def ends (final : ReadError) : Prop := final = .eof ∨ final = .unexpectedEOF

/-- Behind whole blocks the loop stores what is left to read, if it is within the limit. It fails if
the reader does, or if the content is above the limit. -/
theorem uploadLoop_spec (hfuel : reader.content.length < fuel)
    (hchunks : engine.ChunksOf chunks objectID content)
    (hcontent : content.length = chunkIndex * engine.chunkSizeBytes)
    (hstart : bucket.exceeds content.length = false) :
    (∃ error, engine.uploadLoop bucket objectID fuel reader chunks chunkIndex content.length =
        .error error ∧
      (ends reader.final → bucket.exceeds (content ++ reader.content).length)) ∨
    bucket.exceeds (content ++ reader.content).length = false ∧ ∃ chunks',
      engine.uploadLoop bucket objectID fuel reader chunks chunkIndex content.length =
        .ok (chunks', (content ++ reader.content).length) ∧
      engine.ChunksOf chunks' objectID (content ++ reader.content) ∧
      ∀ id i, id ≠ objectID → chunks'.get (id, i) = chunks.get (id, i) := by
  -- induction on the reads that remain
  induction fuel generalizing reader chunks chunkIndex content with
  | zero => omega
  | succ fuel ih =>
    have hpos : 0 < engine.chunkSizeBytes := engine.positive
    by_cases hle : engine.chunkSizeBytes ≤ reader.content.length
    · have hlength : (reader.content.take engine.chunkSizeBytes).length = engine.chunkSizeBytes :=
        List.length_take_of_le hle
      have hne : reader.content.take engine.chunkSizeBytes ≠ [] := by
        rw [← List.length_pos_iff, hlength]
        exact hpos
      have hsplit : content ++ reader.content.take engine.chunkSizeBytes ++
          reader.content.drop engine.chunkSizeBytes = content ++ reader.content := by
        rw [List.append_assoc, List.take_append_drop]
      simp only [uploadLoop, readFull_bytes, readFull_error_of_le reader _ hle]
      rcases storeChunk_spec hchunks hcontent hstart hlength.le with
        ⟨hexceeds, hstore⟩ | ⟨hfits, chunks₁, hstore, hchunks₁, hother₁⟩
      · simp only [hstore]
        refine .inl ⟨_, rfl, fun _ => Bucket.exceeds_mono ?_ hexceeds⟩
        simp only [List.length_append]
        omega
      have hcontent₁ : (content ++ reader.content.take engine.chunkSizeBytes).length =
          (chunkIndex + 1) * engine.chunkSizeBytes := by
        rw [List.length_append, hlength, hcontent, Nat.succ_mul]
      have hfuel' : (reader.readFull engine.chunkSizeBytes).2.2.content.length < fuel := by
        rw [content_readFull, List.length_drop]
        omega
      simp only [hstore, if_neg hne]
      have hrest := ih hfuel' hchunks₁ hcontent₁ hfits
      rw [content_readFull, hsplit] at hrest
      refine hrest.imp_right fun ⟨hfits', chunks₂, hloop, hchunks₂, hother₂⟩ =>
        ⟨hfits', chunks₂, hloop, hchunks₂, fun id i hid => ?_⟩
      rw [hother₂ id i hid, hother₁ id i hid]
    · have hlt : reader.content.length < engine.chunkSizeBytes := by omega
      simp only [uploadLoop, readFull_bytes, readFull_error_of_lt reader _ hlt,
        List.take_of_length_le hlt.le]
      rcases storeChunk_spec hchunks hcontent hstart hlt.le with
        ⟨hexceeds, hstore⟩ | ⟨hfits, chunks', hstore, hstored⟩
      · simp only [hstore]
        exact .inl ⟨_, rfl, fun _ => hexceeds⟩
      simp only [hstore]
      -- both ends of data break the loop
      cases hfinal : reader.final with
      | failed message => exact .inl ⟨.readStream message, by simp, by simp [ends]⟩
      | unexpectedEOF => exact .inr ⟨hfits, chunks', by simp, hstored⟩
      | eof => exact .inr ⟨hfits, chunks', by split_ifs <;> rfl, hstored⟩

end Loop

/-- What the tables are after an upload of `content`. -/
structure Uploaded (db db' : Database) (bucket : Bucket) (key contentType : String)
    (object : Object) (content : List Byte) : Prop where
  contentType : object.contentType = orOctetStream contentType
  fits : bucket.exceeds content.length = false
  stores : engine.Stores db' bucket.id key object content
  keepsID : ∀ old, db.objects.rows.get (bucket.id, key) = some old → object.id = old.id
  otherRows : ∀ k, k ≠ (bucket.id, key) → db'.objects.rows.get k = db.objects.rows.get k
  otherChunks : ∀ id i, id ≠ object.id → db'.chunks.get (id, i) = db.chunks.get (id, i)

/-- An upload stores the content of its reader or fails and changes nothing. It fails if the reader
does, if the content is above the limit, or if its object id is taken. -/
theorem upload_cases (db : Database) (bucket : Bucket) (key : String) (reader : Reader)
    (sizeBytes : ℤ) (contentType : String) (objectID : ID) :
    (∃ error, engine.upload db bucket key reader sizeBytes contentType objectID =
        (.error error, db) ∧
      (ends reader.final → bucket.exceeds reader.content.length = false →
        db.objects.hasID objectID)) ∨
    ∃ object db', engine.upload db bucket key reader sizeBytes contentType objectID =
        (.ok object, db') ∧
      engine.Uploaded db db' bucket key contentType object reader.content := by
  unfold upload
  dsimp only
  rcases hupsert : db.objects.upsert (bucket.id, key)
    ⟨objectID, orOctetStream contentType, 0, ""⟩ with _ | objects
  · exact .inl ⟨_, rfl, fun _ _ => Objects.hasID_of_upsert_eq_none hupsert⟩
  -- an object that is replaced keeps its id, so its old chunks are cleared
  obtain ⟨row, hrow⟩ : ∃ row, row = db.objects.merged (bucket.id, key)
    ⟨objectID, orOctetStream contentType, 0, ""⟩ := ⟨_, rfl⟩
  have htype : row.contentType = orOctetStream contentType := by
    rw [hrow, Objects.merged]
    cases db.objects.rows.get (bucket.id, key) <;> rfl
  have hget := Objects.get_upsert hupsert
  rw [← hrow] at hget
  have hcleared : engine.ChunksOf (clearChunks db.chunks row.id) row.id [] := by
    intro i
    rw [get_clearChunks, if_pos rfl]
    rfl
  have hstart : bucket.exceeds 0 = false := by
    simp only [Bucket.exceeds, Bool.and_eq_false_iff, decide_eq_false_iff_not]
    omega
  have hloop := uploadLoop_spec (Nat.lt_add_one reader.content.length) hcleared
    (Nat.zero_mul _).symm hstart
  rw [List.nil_append, List.length_nil, Int.natCast_zero] at hloop
  dsimp only
  rw [← hrow]
  rcases hloop with ⟨error, hloop, hfails⟩ | ⟨hfits, chunks, hloop, hchunks, hother⟩
  · rw [hloop]
    exact .inl ⟨_, rfl, fun hends hfits => absurd (hfits.symm.trans (hfails hends)) (by decide)⟩
  have hself : objects.rows.get (bucket.id, key) = some row := by rw [hget, if_pos rfl]
  have hfinalized := objects.get_finalize hself reader.content.length (engine.sha256 reader.content)
  rw [hloop]
  refine .inr ⟨_, _, rfl, rfl, hfits, ⟨?_, rfl, hchunks⟩, ?_, ?_, ?_⟩
  · show (objects.finalize row.id _ _).rows.get (bucket.id, key) = _
    rw [hfinalized, if_pos rfl, htype]
  · intro old hold
    show row.id = old.id
    rw [hrow, Objects.merged, hold]
    rfl
  · intro k hk
    show (objects.finalize row.id _ _).rows.get k = _
    rw [hfinalized, if_neg hk, hget, if_neg hk]
  · intro id i hid
    show chunks.get (id, i) = _
    rw [hother id i hid, get_clearChunks, if_neg hid]

/-- An upload leaves what the other keys store. -/
theorem Uploaded.stores_other {engine : DatabaseEngine} {db db' : Database} {bucket : Bucket}
    {key contentType : String} {object other : Object} {content content' : List Byte}
    (h : engine.Uploaded db db' bucket key contentType object content) {k : ID × String}
    (hk : k ≠ (bucket.id, key)) (hother : engine.Stores db k.1 k.2 other content') :
    engine.Stores db' k.1 k.2 other content' := by
  have hrow : db'.objects.rows.get k = some other := by rw [h.otherRows k hk, hother.row]
  have hid : other.id ≠ object.id := fun hid => hk (db'.objects.unique hrow h.stores.row hid)
  refine ⟨hrow, hother.size, fun i => ?_⟩
  rw [h.otherChunks other.id i hid]
  exact hother.chunks i

/-! ## Downloads -/

section Slice

variable {size startByte endByte i : ℕ} {content : List Byte}

/-- The window starts at its offset in the first chunk, and at the front of a later one. -/
theorem add_offset_eq_max (hsize : 0 < size) (hfirst : startByte / size ≤ i) :
    i * size + (if i = startByte / size then startByte % size else 0) =
      max startByte (i * size) := by
  split_ifs with hi
  · rw [hi, Nat.div_add_mod', Nat.max_eq_left (Nat.div_mul_le_self startByte size)]
  · have hbehind : startByte < i * size :=
      (Nat.div_lt_iff_lt_mul hsize).mp (lt_of_le_of_ne hfirst (Ne.symm hi))
    rw [Nat.add_zero, Nat.max_eq_right hbehind.le]

/-- The first chunk loses what precedes the window. -/
theorem drop_block (hsize : 0 < size) (hlt : startByte < content.length)
    (hfirst : startByte / size ≤ i) :
    (if i = startByte / size ∧ startByte % size < (block size content i).length then
        (block size content i).drop (startByte % size)
      else block size content i) =
      content.extract (max startByte (i * size)) ((i + 1) * size) := by
  have hplace := add_offset_eq_max hsize hfirst
  by_cases hi : i = startByte / size
  · have hmod : startByte % size < size := Nat.mod_lt _ hsize
    have hnext : (i + 1) * size = i * size + size := Nat.succ_mul i size
    have hself : i * size + startByte % size = startByte := by rw [hi, Nat.div_add_mod']
    have hlength : startByte % size < (block size content i).length := by
      rw [block, length_extract]
      omega
    rw [if_pos hi] at hplace
    rw [if_pos ⟨hi, hlength⟩, block, drop_extract, hplace]
  · rw [if_neg hi, Nat.add_zero] at hplace
    rw [if_neg fun h => hi h.1, block, ← hplace]

/-- The last chunk loses what follows the window. -/
theorem take_block {slice : List Byte} {first : ℕ} {relativeEnd : ℤ}
    (hslice : slice = content.extract first ((i + 1) * size)) (hlt : endByte < content.length)
    (hfirst : first ≤ endByte) (hend : endByte < (i + 1) * size)
    (hrelative : relativeEnd = endByte + 1 - first) :
    (if 0 ≤ relativeEnd ∧ relativeEnd < slice.length then slice.take relativeEnd.toNat else slice) =
      content.extract first (endByte + 1) := by
  have hnat : relativeEnd.toNat = endByte + 1 - first := by omega
  have hlength : slice.length = min ((i + 1) * size - first) (content.length - first) := by
    rw [hslice, length_extract]
  have htake : slice.take relativeEnd.toNat = content.extract first (endByte + 1) := by
    rw [hslice, take_extract, hnat]
    congr 1
    omega
  split_ifs with hcut
  · exact htake
  · rw [← htake, List.take_of_length_le]
    omega

/-- A chunk of a stored content is cut to the part of the window that it meets. -/
theorem sliceChunk_block (hsize : 0 < size) (hle : startByte ≤ endByte)
    (hlt : endByte < content.length) (hfirst : startByte / size ≤ i)
    (hlast : i ≤ endByte / size) :
    sliceChunk size startByte endByte i (block size content i) =
      content.extract (cutAt size startByte (endByte + 1) i)
        (cutAt size startByte (endByte + 1) (i + 1)) := by
  have hplace := add_offset_eq_max hsize hfirst
  have hnext : (i + 1) * size = i * size + size := Nat.succ_mul i size
  have hlow : startByte < (i + 1) * size :=
    (Nat.div_lt_iff_lt_mul hsize).mp (Nat.lt_succ_of_le hfirst)
  have hhigh : i * size ≤ endByte := (Nat.le_div_iff_mul_le hsize).mp hlast
  have hcut : cutAt size startByte (endByte + 1) i = max startByte (i * size) := by
    unfold cutAt
    omega
  have hcut' : cutAt size startByte (endByte + 1) (i + 1) =
      min (endByte + 1) ((i + 1) * size) := by
    unfold cutAt
    omega
  unfold sliceChunk
  dsimp only
  rw [drop_block hsize (hle.trans_lt hlt) hfirst, hcut, hcut']
  by_cases hi : i = endByte / size
  · have hself : i * size + endByte % size = endByte := by rw [hi, Nat.div_add_mod']
    have hmod : endByte % size < size := Nat.mod_lt _ hsize
    have hrelative : ((endByte % size : ℕ) : ℤ) + 1 -
        (if i = startByte / size then ((startByte % size : ℕ) : ℤ) else 0) =
          endByte + 1 - (max startByte (i * size) : ℕ) := by
      rw [← hplace]
      split_ifs <;> omega
    rw [if_congr (and_iff_right hi) rfl rfl, take_block rfl hlt (by omega) (by omega) hrelative]
    congr 1
    omega
  · have hbefore : (i + 1) * size ≤ endByte :=
      (Nat.le_div_iff_mul_le hsize).mp (lt_of_le_of_ne hlast hi)
    rw [if_neg fun h => hi h.1]
    congr 1
    omega

end Slice

/-- The chunks that meet a window of the content are all there. -/
theorem selectChunks_of_chunksOf {chunks : Chunks} {objectID : ID} {content : List Byte}
    (hchunks : engine.ChunksOf chunks objectID content) (first : ℕ) {endByte : ℕ}
    (hlt : endByte < content.length) :
    selectChunks chunks objectID first (endByte / engine.chunkSizeBytes) =
      (List.range' first (endByte / engine.chunkSizeBytes + 1 - first)).map fun i =>
        (i, block engine.chunkSizeBytes content i) := by
  rw [selectChunks, ← List.filterMap_eq_map]
  apply List.filterMap_congr
  intro i hi
  have hmem := List.mem_range'_1.mp hi
  have hmul : i * engine.chunkSizeBytes ≤ endByte / engine.chunkSizeBytes * engine.chunkSizeBytes :=
    Nat.mul_le_mul_right _ (by omega)
  have hself := Nat.div_mul_le_self endByte engine.chunkSizeBytes
  rw [hchunks i, if_pos (by omega)]
  rfl

/-- The goroutine writes the window of the content. -/
theorem stream_of_chunksOf {chunks : Chunks} {objectID : ID} {content : List Byte}
    (hchunks : engine.ChunksOf chunks objectID content) {startByte endByte : ℕ}
    (hle : startByte ≤ endByte) (hlt : endByte < content.length) :
    engine.stream chunks objectID startByte endByte = content.extract startByte (endByte + 1) := by
  have hpos : 0 < engine.chunkSizeBytes := engine.positive
  have hdiv : startByte / engine.chunkSizeBytes ≤ endByte / engine.chunkSizeBytes :=
    Nat.div_le_div_right hle
  rw [stream, engine.selectChunks_of_chunksOf hchunks _ hlt, List.flatMap_map,
    ← flatMap_trimmed content hpos hle]
  apply List.flatMap_congr
  intro i hi
  have hmem := List.mem_range'_1.mp hi
  exact sliceChunk_block hpos hle hlt hmem.1 (by omega)

/-- The part of a content that is asked for: the range, or all of it. -/
def wanted (content : List Byte) : Option ContentRange → List Byte
  | none => content
  | some range =>
    if range.isPartial then content.extract range.start.toNat (range.endAt.toNat + 1) else content

section Window

variable {object : Object} {content : List Byte} {contentRange : Option ContentRange}
  {startByte endByte : ℤ}

/-- The window lies in the content and holds what is asked for. -/
theorem window_spec (hsize : object.sizeBytes = content.length)
    (h : window object contentRange = .ok (startByte, endByte)) :
    0 ≤ startByte ∧ startByte ≤ endByte + 1 ∧ endByte < content.length ∧
      wanted content contentRange = content.extract startByte.toNat (endByte + 1).toNat := by
  have hwhole : content = content.extract 0 (object.sizeBytes - 1 + 1).toNat := by
    rw [hsize, List.extract_eq_take_drop, List.drop_zero, List.take_of_length_le (by omega)]
  unfold window at h
  split at h
  · obtain ⟨rfl, rfl⟩ := Prod.mk.inj (Except.ok.inj h)
    exact ⟨le_rfl, by omega, by omega, hwhole⟩
  · next range =>
    split at h
    · next hpartial =>
      split at h
      · cases h
      · next hvalid =>
        obtain ⟨rfl, rfl⟩ := Prod.mk.inj (Except.ok.inj h)
        simp only [Bool.or_eq_true, decide_eq_true_eq] at hvalid
        refine ⟨by omega, by omega, by omega, ?_⟩
        rw [wanted, if_pos hpartial]
        congr 1
        omega
    · next hwholly =>
      obtain ⟨rfl, rfl⟩ := Prod.mk.inj (Except.ok.inj h)
      refine ⟨le_rfl, by omega, by omega, ?_⟩
      rw [wanted, if_neg hwholly]
      exact hwhole

/-- A download of stored rows returns what is asked for, with its length. -/
theorem downloadObject_of_chunksOf {chunks : Chunks} (hsize : object.sizeBytes = content.length)
    (hchunks : engine.ChunksOf chunks object.id content)
    (hwindow : window object contentRange = .ok (startByte, endByte)) :
    engine.downloadObject chunks object contentRange =
      .ok (wanted content contentRange, (wanted content contentRange).length) := by
  obtain ⟨hnonneg, hle, hlt, hwanted⟩ := window_spec hsize hwindow
  have hlength : ((wanted content contentRange).length : ℤ) = endByte - startByte + 1 := by
    rw [hwanted, length_extract]
    omega
  unfold downloadObject
  rw [hwindow]
  dsimp only
  split_ifs with hempty
  · have hnil : wanted content contentRange = [] := List.length_eq_zero_iff.mp (by omega)
    rw [hnil]
    rfl
  · have hend : (endByte + 1).toNat = endByte.toNat + 1 := by omega
    rw [engine.stream_of_chunksOf hchunks (by omega) (by omega), ← hend, ← hwanted, hlength]

end Window

/-! ## Round trip -/

/-- Whatever was stored before and however the reader cuts the content, an upload within the limit
succeeds, and after every upload that succeeds the whole object and every range of it are
downloaded as they were uploaded. -/
theorem download_after_upload (db : Database) (bucket : Bucket) (key : String) (reader : Reader)
    (sizeBytes : ℤ) (contentType : String) (objectID : ID) (hreader : reader.final = .eof) :
    (bucket.exceeds reader.content.length = false → db.objects.hasID objectID = false →
      ∃ object db', engine.upload db bucket key reader sizeBytes contentType objectID =
        (.ok object, db')) ∧
    ∀ object db', engine.upload db bucket key reader sizeBytes contentType objectID =
        (.ok object, db') →
      engine.download db' bucket key none = .ok (reader.content, reader.content.length) ∧
      ∀ range : ContentRange, range.isPartial → 0 ≤ range.start →
        range.start ≤ range.endAt → range.endAt < reader.content.length →
        engine.download db' bucket key (some range) =
          .ok ((reader.content.drop range.start.toNat).take
            (range.endAt - range.start + 1).toNat, range.endAt - range.start + 1) := by
  refine ⟨fun hfits hfresh => ?_, fun object db' hupload => ?_⟩
  · rcases engine.upload_cases db bucket key reader sizeBytes contentType objectID with
      ⟨error, -, hfails⟩ | ⟨object, db', hok, -⟩
    · exact absurd (hfresh.symm.trans (hfails (.inl hreader) hfits)) (by decide)
    · exact ⟨object, db', hok⟩
  · have hstores : engine.Stores db' bucket.id key object reader.content := by
      rcases engine.upload_cases db bucket key reader sizeBytes contentType objectID with
        ⟨error, herror, -⟩ | ⟨object', db'', hok, huploaded⟩
      · rw [hupload] at herror
        cases herror
      · obtain ⟨hobject, rfl⟩ := Prod.mk.inj (hupload.symm.trans hok)
        rw [Except.ok.inj hobject]
        exact huploaded.stores
    have hdownload : ∀ contentRange startByte endByte,
        window object contentRange = .ok (startByte, endByte) →
        engine.download db' bucket key contentRange =
          .ok (wanted reader.content contentRange,
            (wanted reader.content contentRange).length) := by
      intro contentRange startByte endByte hwindow
      rw [download, head, hstores.row]
      exact engine.downloadObject_of_chunksOf hstores.size hstores.chunks hwindow
    refine ⟨hdownload none _ _ rfl, fun range hpartial hstart hle hlt => ?_⟩
    -- a range within the content passes the checks as it is
    have hvalid : ¬ (range.start < 0 || range.endAt ≥ object.sizeBytes ||
        range.start > range.endAt) := by
      rw [hstores.size]
      simp only [Bool.or_eq_true, decide_eq_true_eq]
      omega
    have hwindow : window object (some range) = .ok (range.start, range.endAt) := by
      rw [window, if_pos hpartial, if_neg hvalid]
    have hcount : range.endAt.toNat + 1 - range.start.toNat =
        (range.endAt - range.start + 1).toNat := by omega
    have hwanted : wanted reader.content (some range) = (reader.content.drop range.start.toNat).take
        (range.endAt - range.start + 1).toNat := by
      rw [wanted, if_pos hpartial, List.extract_eq_take_drop, hcount]
    have hlength : ((wanted reader.content (some range)).length : ℤ) =
        range.endAt - range.start + 1 := by
      rw [hwanted, List.length_take, List.length_drop]
      omega
    rw [hdownload (some range) _ _ hwindow, hlength, hwanted]

/-- A second upload, in three pieces and with chunks of two bytes. -/
theorem download_after_overwrite :
    let engine : DatabaseEngine := ⟨2, by decide, fun _ => "sum"⟩
    let bucket : Bucket := ⟨1, "files", false, "database", [], 8⟩
    let reader : Reader := ⟨[[10], [20, 30, 40], [50]], .eof, true⟩
    let db := (engine.upload .empty bucket "key" ⟨[[1, 2, 3, 4, 5, 6, 7]], .eof, false⟩ 7 "" 5).2
    ∃ object db', engine.upload db bucket "key" reader 5 "" 6 = (.ok object, db') ∧
      engine.download db' bucket "key" none = .ok ([10, 20, 30, 40, 50], 5) ∧
      engine.download db' bucket "key" (some ⟨1, 3, 0, true⟩) = .ok ([20, 30, 40], 3) := by
  intro engine bucket reader db
  obtain ⟨hsucceeds, hreads⟩ := engine.download_after_upload db bucket "key" reader 5 "" 6 rfl
  obtain ⟨object, db', hupload⟩ := hsucceeds (by decide) (by decide +kernel)
  obtain ⟨hwhole, hrange⟩ := hreads object db' hupload
  exact ⟨object, db', hupload, hwhole,
    hrange ⟨1, 3, 0, true⟩ rfl (by decide) (by decide) (by decide)⟩

end DatabaseEngine

end Layr.FileStorage

import Mathlib.Data.List.Infix
import Layr.Lib.Table

/-!
# Directory trees

The files and directories below a root, by their paths. A directory that is made where a file
stands fails, and so does a file that is written where a directory stands. Extracting a list of
entries adds to what is there: a file keeps its content unless the list has one of its path.
-/

namespace Layr

/-- The components of a path below the root. -/
abbrev Path := List String

variable {entries : List (Path × Option (List UInt8))}

inductive Node
  | dir
  | file (content : List UInt8)
  deriving DecidableEq, Repr

/-- The nodes below a root, which is a directory itself. -/
abbrev FileTree := Table Path Node

namespace FileTree

variable {t t' : FileTree} {p q : Path}

def put (t : FileTree) (p : Path) (node : Node) : FileTree := t.upsert p node fun _ => node

theorem get_put (t : FileTree) (p : Path) (node : Node) (q : Path) :
    (t.put p node).get q = if q = p then some node else t.get q :=
  Table.get_upsert_const t p node q

/-- The content of the file of a path. -/
def content (t : FileTree) (p : Path) : Option (List UInt8) :=
  match t.get p with
  | some (.file bytes) => some bytes
  | _ => none

theorem content_eq_some {bytes : List UInt8} :
    t.content p = some bytes ↔ t.get p = some (.file bytes) := by
  unfold content
  split
  · rename_i bytes' hget
    rw [hget, Option.some.injEq, Option.some.injEq, Node.file.injEq]
  · rename_i hnot
    constructor
    · intro h
      cases h
    · intro h
      exact absurd h (hnot bytes)

/-! ## Directories -/

/-- One directory, if no file stands there. -/
def mkdir (t : FileTree) (p : Path) : Option FileTree :=
  match t.get p with
  | some (.file _) => none
  | _ => some (t.put p .dir)

/-- A directory and those above it. -/
def mkdirAll (t : FileTree) (p : Path) : Option FileTree :=
  (p.inits.filter (· ≠ [])).foldlM mkdir t

theorem mkdir_eq_some (h : t.mkdir p = some t') :
    (∀ content, t.get p ≠ some (.file content)) ∧
      ∀ q, t'.get q = if q = p then some .dir else t.get q := by
  unfold mkdir at h
  split at h
  · cases h
  rename_i hnot
  cases h
  exact ⟨fun content heq => hnot content heq, get_put t p .dir⟩

theorem foldlM_mkdir {paths : List Path} (h : paths.foldlM mkdir t = some t') :
    (∀ p ∈ paths, ∀ content, t.get p ≠ some (.file content)) ∧
      ∀ q, t'.get q = if q ∈ paths then some .dir else t.get q := by
  induction paths generalizing t with
  | nil =>
    cases h
    simp
  | cons p paths ih =>
    rw [List.foldlM_cons] at h
    obtain ⟨t₁, hmkdir, hrest⟩ := Option.bind_eq_some_iff.mp h
    obtain ⟨hfile, hget⟩ := mkdir_eq_some hmkdir
    obtain ⟨hfiles, hgets⟩ := ih hrest
    constructor
    · intro p' hmem content heq
      rcases List.mem_cons.mp hmem with rfl | hmem
      · exact hfile content heq
      · by_cases hsame : p' = p
        · exact hfile content (hsame ▸ heq)
        · apply hfiles p' hmem content
          rw [hget, if_neg hsame, heq]
    · intro q
      rw [hgets, hget]
      by_cases hmem : q ∈ paths
      · rw [if_pos hmem, if_pos (List.mem_cons_of_mem _ hmem)]
      · rw [if_neg hmem]
        by_cases hsame : q = p
        · rw [if_pos hsame, if_pos (List.mem_cons.mpr (.inl hsame))]
        · rw [if_neg hsame, if_neg (by simp [hsame, hmem])]

/-- A path is that of a directory which `mkdirAll` makes sure of. -/
def Above (q p : Path) : Prop := q ≠ [] ∧ q <+: p

instance (q p : Path) : Decidable (Above q p) := inferInstanceAs (Decidable (_ ∧ _))

/-- A `mkdirAll` that succeeds meets no file on its way. -/
theorem mkdirAll_eq_some (h : t.mkdirAll p = some t') :
    (∀ q, Above q p → ∀ content, t.get q ≠ some (.file content)) ∧
      ∀ q, t'.get q = if Above q p then some .dir else t.get q := by
  have hmem : ∀ q, q ∈ p.inits.filter (· ≠ []) ↔ Above q p := by
    intro q
    simp only [List.mem_filter, List.mem_inits, decide_eq_true_eq]
    exact and_comm
  obtain ⟨hfiles, hgets⟩ := foldlM_mkdir h
  constructor
  · intro q habove
    exact hfiles q ((hmem q).mpr habove)
  · intro q
    rw [hgets]
    simp only [hmem]

/-! ## Files -/

/-- A file in a directory that is there. -/
def writeFile (t : FileTree) (p : Path) (content : List UInt8) : Option FileTree :=
  if p = [] then none
  else
    match t.get p with
    | some .dir => none
    | _ => some (t.put p (.file content))

/-- A `writeFile` that succeeds replaces no directory. -/
theorem writeFile_eq_some {content : List UInt8} (h : t.writeFile p content = some t') :
    t.get p ≠ some .dir ∧
      ∀ q, t'.get q = if q = p then some (.file content) else t.get q := by
  unfold writeFile at h
  split at h
  · cases h
  split at h
  · cases h
  rename_i hnot
  cases h
  exact ⟨hnot, get_put t p (.file content)⟩

/-! ## Entries -/

/-- One entry: a directory, or a file with the directories above it. -/
def add (t : FileTree) (p : Path) : Option (List UInt8) → Option FileTree
  | none => t.mkdirAll p
  | some content => (t.mkdirAll p.dropLast).bind fun t => t.writeFile p content

/-- The entries of an archive, one after the other. -/
def extract (t : FileTree) (entries : List (Path × Option (List UInt8))) : Option FileTree :=
  entries.foldlM (fun t entry => t.add entry.1 entry.2) t

/-- The content of the last file of a path among entries. -/
def lastFile : List (Path × Option (List UInt8)) → Path → Option (List UInt8)
  | [], _ => none
  | entry :: entries, p => (lastFile entries p).or (if entry.1 = p then entry.2 else none)

/-- An entry has a directory at a path or above which it stands. -/
def Makes (entry : Path × Option (List UInt8)) (p : Path) : Prop :=
  match entry.2 with
  | none => Above p entry.1
  | some _ => Above p entry.1.dropLast

instance : (entry : Path × Option (List UInt8)) → (p : Path) → Decidable (Makes entry p)
  | (q, none), p => inferInstanceAs (Decidable (Above p q))
  | (q, some _), p => inferInstanceAs (Decidable (Above p q.dropLast))

theorem above_dropLast_ne (h : Above q p.dropLast) : q ≠ p := by
  rintro rfl
  have hlength := h.2.length_le
  have hpos := List.length_pos_iff.mpr h.1
  rw [List.length_dropLast] at hlength
  omega

theorem add_eq_some {content : Option (List UInt8)} (h : t.add p content = some t') :
    (∀ q, Makes (p, content) q → ∀ c, t.get q ≠ some (.file c)) ∧
      (∀ q, q = p → content ≠ none → t.get q ≠ some .dir) ∧
      ∀ q, t'.get q = if Makes (p, content) q then some .dir
        else if q = p ∧ content ≠ none then content.map .file else t.get q := by
  cases content with
  | none =>
    obtain ⟨hfiles, hgets⟩ := mkdirAll_eq_some h
    refine ⟨hfiles, fun q _ hne => absurd rfl hne, fun q => ?_⟩
    rw [hgets]
    simp [Makes]
  | some content =>
    obtain ⟨t₁, hmkdir, hwrite⟩ := Option.bind_eq_some_iff.mp h
    obtain ⟨hfiles, hgets⟩ := mkdirAll_eq_some hmkdir
    obtain ⟨hdir, hgets'⟩ := writeFile_eq_some hwrite
    refine ⟨hfiles, ?_, fun q => ?_⟩
    · rintro q rfl - heq
      apply hdir
      rw [hgets, heq]
      split <;> rfl
    · rw [hgets', hgets]
      by_cases habove : Above q p.dropLast
      · have hmakes : Makes (p, some content) q := habove
        rw [if_neg (above_dropLast_ne habove), if_pos habove, if_pos hmakes]
      · have hmakes : ¬Makes (p, some content) q := habove
        rw [if_neg habove, if_neg hmakes]
        by_cases heq : q = p
        · simp [heq]
        · simp [heq]

/-- A file that stands behind an entry: it is that of the entry, or was there before. -/
theorem add_file {content : Option (List UInt8)} (h : t.add p content = some t')
    (q : Path) (c : List UInt8) :
    t'.get q = some (.file c) ↔
      (if p = q then content else none) = some c ∨
        (if p = q then content else none) = none ∧ t.get q = some (.file c) := by
  obtain ⟨hfiles, hdirs, hgets⟩ := add_eq_some h
  rw [hgets]
  by_cases hmakes : Makes (p, content) q
  · rw [if_pos hmakes]
    have hnot : (if p = q then content else none) = none := by
      by_cases heq : p = q
      · rw [if_pos heq]
        cases content with
        | none => rfl
        | some content => exact absurd heq.symm (above_dropLast_ne hmakes)
      · exact if_neg heq
    rw [hnot]
    simp [hfiles q hmakes c]
  · rw [if_neg hmakes]
    by_cases heq : p = q
    · subst heq
      cases content with
      | none => simp
      | some content => simp
    · rw [if_neg (fun hsame => heq hsame.1.symm), if_neg heq]
      simp

/-- A place that stays free. -/
theorem add_none {content : Option (List UInt8)} (h : t.add p content = some t') (q : Path) :
    t'.get q = none ↔
      t.get q = none ∧ (if p = q then content else none) = none ∧ ¬Makes (p, content) q := by
  obtain ⟨-, -, hgets⟩ := add_eq_some h
  rw [hgets]
  by_cases hmakes : Makes (p, content) q
  · simp [hmakes]
  · rw [if_neg hmakes]
    by_cases heq : p = q
    · subst heq
      cases content with
      | none => simp [hmakes]
      | some content => simp
    · rw [if_neg (fun hsame => heq hsame.1.symm), if_neg heq]
      simp [hmakes]

/-- The files behind an extraction: the last one of each path among the entries, and where there
is none the file from before. -/
theorem extract_file (h : t.extract entries = some t') (q : Path) (c : List UInt8) :
    t'.get q = some (.file c) ↔
      lastFile entries q = some c ∨ lastFile entries q = none ∧ t.get q = some (.file c) := by
  induction entries generalizing t with
  | nil =>
    cases h
    simp [lastFile]
  | cons entry entries ih =>
    unfold extract at h
    rw [List.foldlM_cons] at h
    obtain ⟨t₁, hadd, hrest⟩ := Option.bind_eq_some_iff.mp h
    rw [ih hrest, add_file hadd, lastFile]
    cases lastFile entries q with
    | none => simp
    | some content => simp

/-- Of several entries for one path the last one stays. -/
theorem content_extract (h : t.extract entries = some t') (q : Path) :
    t'.content q = (lastFile entries q).or (t.content q) := by
  apply Option.ext
  intro bytes
  rw [content_eq_some, extract_file h]
  cases lastFile entries q with
  | none => simp [content_eq_some]
  | some content => simp

theorem content_writeFile {content : List UInt8} (h : t.writeFile p content = some t')
    (q : Path) : t'.content q = if q = p then some content else t.content q := by
  obtain ⟨-, hgets⟩ := writeFile_eq_some h
  apply Option.ext
  intro bytes
  rw [content_eq_some, hgets]
  by_cases heq : q = p
  · simp [heq]
  · simp [heq, content_eq_some]

theorem extract_none (h : t.extract entries = some t') (q : Path) :
    t'.get q = none ↔
      t.get q = none ∧ lastFile entries q = none ∧ ∀ entry ∈ entries, ¬Makes entry q := by
  induction entries generalizing t with
  | nil =>
    cases h
    simp [lastFile]
  | cons entry entries ih =>
    unfold extract at h
    rw [List.foldlM_cons] at h
    obtain ⟨t₁, hadd, hrest⟩ := Option.bind_eq_some_iff.mp h
    rw [ih hrest, add_none hadd, lastFile]
    simp only [List.forall_mem_cons, Option.or_eq_none_iff]
    constructor
    · rintro ⟨⟨hfree, hentry, hmakes⟩, hlast, hmakes'⟩
      exact ⟨hfree, ⟨hlast, hentry⟩, hmakes, hmakes'⟩
    · rintro ⟨hfree, ⟨hlast, hentry⟩, hmakes, hmakes'⟩
      exact ⟨⟨hfree, hentry, hmakes⟩, hlast, hmakes'⟩

end FileTree

end Layr

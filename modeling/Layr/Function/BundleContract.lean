import Layr.Function.WorkerdRunner
import Layr.Lib.Runs

/-!
# The modules of a worker are those of its last bundle

A bundle is extracted over the directory of the one before, and the wrapper around the entry point
is kept once it is there. So the configuration embeds what the last bundle has only if nothing is
left from before that it does not replace, and the bundle does not hold the word
`addEventListener`.
-/

namespace Layr.Function

open Go Runs FileTree

namespace Toolbox

variable (tools : Toolbox)

/-- The file of a path in a bundle. -/
def bundleFile (deployment : Deployment) (path : Path) : Option (List UInt8) :=
  (tools.bundleEntries deployment).bind fun entries => lastFile entries path

/-- The file that the wrapper re-exports. -/
def entryFile (entrypoint : String) : Path := (cleanPath (entrypointRelativePath entrypoint)).2

/-- The modules of a worker, besides the runner script, are the files of the bundle and the
wrapper, if the bundle has no `user_code.js`; and the entry module is one of the bundle. -/
structure Latest (tree : FileTree) (active : Active) : Prop where
  modules : ∀ path, path ≠ runnerPath → path ≠ userCodePath →
    (buildWorker tree active.deployment).embedded tree path =
      tools.bundleFile active.deployment path
  userCode : (buildWorker tree active.deployment).embedded tree userCodePath =
    (tools.bundleFile active.deployment userCodePath).or
      (some (tools.wrapperCode active.entrypoint))
  entry : tools.bundleFile active.deployment userCodePath ≠ none ∨
    tools.bundleFile active.deployment (entryFile active.entrypoint) ≠ none

/-- No entry of the bundle makes a directory of this path. -/
def MakesNoDir (deployment : Deployment) (path : Path) : Prop :=
  ∀ entries, tools.bundleEntries deployment = some entries →
    ∀ entry ∈ entries, ¬Makes entry path

/-- Nothing is named `user_code.js` but what the bundle has. -/
def Free (tree : FileTree) (active : Active) : Prop :=
  tree.get userCodePath = none ∧ tools.MakesNoDir active.deployment userCodePath

/-- A bundle fits a directory. -/
structure Fits (tree : FileTree) (active : Active) : Prop where
  /-- A service worker has no other files. -/
  script : isServiceWorkerScript active.deployment → ∀ path, path ≠ runnerPath →
    path ≠ userCodePath → tools.bundleFile active.deployment path = none
  /-- Otherwise the files that are there are replaced. -/
  replaced : isServiceWorkerScript active.deployment = false → ∀ path, path ≠ runnerPath →
    path ≠ userCodePath → content tree path ≠ none →
    tools.bundleFile active.deployment path ≠ none
  /-- A bundle without `user_code.js` has the entry point, and the wrapper can be written or is
  there already. -/
  wrapper : tools.bundleFile active.deployment userCodePath = none →
    tools.bundleFile active.deployment (entryFile active.entrypoint) ≠ none ∧
      (content tree userCodePath = some (tools.wrapperCode active.entrypoint) ∨
        tools.Free tree active)

variable {tools} {tree tree' : FileTree} {active : Active}

/-! ## What is embedded -/

theorem mem_walkDir {path : Path} : path ∈ walkDir tree ↔ content tree path ≠ none := by
  unfold walkDir
  rw [List.mem_filterMap, Option.ne_none_iff_exists']
  simp only [content_eq_some]
  constructor
  · rintro ⟨⟨path', node⟩, hmem, hnode⟩
    cases node with
    | dir => cases hnode
    | file bytes =>
      cases hnode
      exact ⟨bytes, Table.get_eq_some_iff.mpr hmem⟩
  · rintro ⟨bytes, hget⟩
    exact ⟨(path, .file bytes), Table.get_eq_some_iff.mp hget, rfl⟩

theorem embedded_script (h : isServiceWorkerScript active.deployment) (path : Path) :
    (buildWorker tree active.deployment).embedded tree path =
      if path = userCodePath then content tree path else none := by
  unfold buildWorker
  rw [if_pos h]
  simp [Worker.embedded, Worker.paths]

theorem embedded_modules (h : isServiceWorkerScript active.deployment = false) {path : Path}
    (hrunner : path ≠ runnerPath) :
    (buildWorker tree active.deployment).embedded tree path = content tree path := by
  have hpaths : path ∈ (buildWorker tree active.deployment).paths ↔
      path = userCodePath ∨ content tree path ≠ none ∧ path ≠ userCodePath := by
    unfold buildWorker
    rw [if_neg (by simp [h])]
    simp only [Worker.paths, List.map_cons, List.map_map, List.mem_cons, hrunner, false_or,
      ← mem_walkDir]
    simp [Function.comp_def, moduleOf, hrunner]
  unfold Worker.embedded
  split
  · rfl
  · rename_i hnot
    rw [hpaths, not_or, not_and_or] at hnot
    rcases hnot with ⟨hne, hnone | hsame⟩
    · exact (not_not.mp hnone).symm
    · exact absurd hne hsame

theorem embedded_userCode :
    (buildWorker tree active.deployment).embedded tree userCodePath =
      content tree userCodePath := by
  cases hkind : isServiceWorkerScript active.deployment with
  | true => rw [embedded_script hkind, if_pos rfl]
  | false => exact embedded_modules hkind (by decide)

theorem or_eq_left_iff {α : Type} {a b : Option α} : a.or b = a ↔ (b ≠ none → a ≠ none) := by
  cases a with
  | none => cases b <;> simp
  | some _ => simp

/-! ## What a deployment leaves -/

theorem get_userCode_eq_none {entries : List (Path × Option (List UInt8))} {t₁ : FileTree}
    (hentries : tools.bundleEntries active.deployment = some entries)
    (hextract : extract tree entries = some t₁) :
    t₁.get userCodePath = none ↔
      tools.Free tree active ∧ tools.bundleFile active.deployment userCodePath = none := by
  have hmakes : tools.MakesNoDir active.deployment userCodePath ↔
      ∀ entry ∈ entries, ¬Makes entry userCodePath := by
    unfold MakesNoDir
    rw [hentries]
    simp
  rw [extract_none hextract, Free, hmakes, bundleFile, hentries, Option.bind_some]
  constructor
  · rintro ⟨hnone, hlast, hmakes⟩
    exact ⟨⟨hnone, hmakes⟩, hlast⟩
  · rintro ⟨⟨hnone, hmakes⟩, hlast⟩
    exact ⟨hnone, hlast, hmakes⟩

section

variable (h : tools.deployed tree active = some tree')

include h

/-- The stages of a deployment. -/
theorem deployed_stages :
    ∃ entries t₁ t₂, tools.bundleEntries active.deployment = some entries ∧
      extract tree entries = some t₁ ∧
      (if t₁.get userCodePath = none then
        writeFile t₁ userCodePath (tools.wrapperCode active.entrypoint)
      else some t₁) = some t₂ ∧
      writeFile t₂ runnerPath tools.runnerScript = some tree' := by
  obtain ⟨t₂, hbundle, hrunner⟩ := Option.bind_eq_some_iff.mp h
  obtain ⟨entries, hentries, hbundle⟩ := Option.bind_eq_some_iff.mp hbundle
  obtain ⟨t₁, hextract, hwrapper⟩ := Option.bind_eq_some_iff.mp hbundle
  exact ⟨entries, t₁, t₂, hentries, hextract, hwrapper, hrunner⟩

theorem content_deployed {path : Path} (hrunner : path ≠ runnerPath) (huser : path ≠ userCodePath) :
    content tree' path =
      (tools.bundleFile active.deployment path).or (content tree path) := by
  obtain ⟨entries, t₁, t₂, hentries, hextract, hwrapper, hscript⟩ := deployed_stages h
  have hkept : content t₂ path = content t₁ path := by
    split at hwrapper
    · rw [content_writeFile hwrapper, if_neg huser]
    · rw [Option.some.inj hwrapper]
  rw [content_writeFile hscript, if_neg hrunner, hkept, content_extract hextract,
    bundleFile, hentries, Option.bind_some]

theorem content_userCode_of_free (hfree : tools.Free tree active) :
    content tree' userCodePath = (tools.bundleFile active.deployment userCodePath).or
      (some (tools.wrapperCode active.entrypoint)) := by
  obtain ⟨entries, t₁, t₂, hentries, hextract, hwrapper, hscript⟩ := deployed_stages h
  rw [content_writeFile hscript, if_neg (by decide)]
  have hnone := get_userCode_eq_none hentries hextract
  split at hwrapper
  · rename_i habsent
    rw [content_writeFile hwrapper, if_pos rfl, (hnone.mp habsent).2, Option.none_or]
  · rename_i hpresent
    cases hfile : tools.bundleFile active.deployment userCodePath with
    | none => exact absurd (hnone.mpr ⟨hfree, hfile⟩) hpresent
    | some bytes =>
      rw [bundleFile, hentries, Option.bind_some] at hfile
      rw [← Option.some.inj hwrapper, content_extract hextract, hfile, Option.some_or,
        Option.some_or]

theorem content_userCode_of_not_free (hfree : ¬tools.Free tree active) :
    content tree' userCodePath = (tools.bundleFile active.deployment userCodePath).or
      (content tree userCodePath) := by
  obtain ⟨entries, t₁, t₂, hentries, hextract, hwrapper, hscript⟩ := deployed_stages h
  rw [content_writeFile hscript, if_neg (by decide)]
  have hpresent : ¬t₁.get userCodePath = none := by
    rw [get_userCode_eq_none hentries hextract]
    exact fun hboth => hfree hboth.1
  rw [if_neg hpresent] at hwrapper
  rw [← Option.some.inj hwrapper, content_extract hextract, bundleFile, hentries,
    Option.bind_some]

/-- The files besides `user_code.js` are those of the bundle exactly if the bundle fits. -/
theorem modules_iff {path : Path} (hrunner : path ≠ runnerPath) (huser : path ≠ userCodePath) :
    (buildWorker tree' active.deployment).embedded tree' path =
        tools.bundleFile active.deployment path ↔
      if isServiceWorkerScript active.deployment then
        tools.bundleFile active.deployment path = none
      else content tree path ≠ none → tools.bundleFile active.deployment path ≠ none := by
  cases hkind : isServiceWorkerScript active.deployment with
  | true =>
    rw [embedded_script hkind, if_neg huser, if_pos rfl]
    exact eq_comm
  | false =>
    rw [embedded_modules hkind hrunner, content_deployed h hrunner huser, or_eq_left_iff]
    simp

/-- `user_code.js` is right exactly if the bundle has one, the wrapper is there or can be
written. -/
theorem userCode_iff :
    (buildWorker tree' active.deployment).embedded tree' userCodePath =
        (tools.bundleFile active.deployment userCodePath).or
          (some (tools.wrapperCode active.entrypoint)) ↔
      (tools.bundleFile active.deployment userCodePath = none →
        content tree userCodePath = some (tools.wrapperCode active.entrypoint) ∨
          tools.Free tree active) := by
  rw [embedded_userCode]
  by_cases hfree : tools.Free tree active
  · rw [content_userCode_of_free h hfree]
    simp [hfree]
  · rw [content_userCode_of_not_free h hfree]
    cases tools.bundleFile active.deployment userCodePath with
    | none => simp [hfree]
    | some bytes => simp

/-- Behind a deployment the worker is that of its bundle exactly if the bundle fits the directory
before. -/
theorem latest_iff_fits : tools.Latest tree' active ↔ tools.Fits tree active := by
  constructor
  · intro hlatest
    refine ⟨?_, ?_, ?_⟩
    · intro hkind path hrunner huser
      have hmodules := (modules_iff h hrunner huser).mp (hlatest.modules path hrunner huser)
      rwa [if_pos hkind] at hmodules
    · intro hkind path hrunner huser
      have hmodules := (modules_iff h hrunner huser).mp (hlatest.modules path hrunner huser)
      rwa [if_neg (by simp [hkind])] at hmodules
    · intro hnone
      exact ⟨hlatest.entry.resolve_left (not_not.mpr hnone),
        (userCode_iff h).mp hlatest.userCode hnone⟩
  · intro hfits
    refine ⟨?_, ?_, ?_⟩
    · intro path hrunner huser
      rw [modules_iff h hrunner huser]
      split
      · rename_i hkind
        exact hfits.script hkind path hrunner huser
      · rename_i hkind
        exact hfits.replaced (Bool.eq_false_iff.mpr hkind) path hrunner huser
    · rw [userCode_iff h]
      exact fun hnone => (hfits.wrapper hnone).2
    · by_cases hnone : tools.bundleFile active.deployment userCodePath = none
      · exact .inr (hfits.wrapper hnone).1
      · exact .inl hnone

end

/-! ## Runs -/

/-- Every active worker is that of its last bundle. -/
def AllLatest (tools : Toolbox) (runner : Runner) : Prop :=
  ∀ name active, runner.activeDeployments.get name = some active →
    tools.Latest (runner.dir name) active

/-- A bundle that is deployed fits the directory of its endpoint. -/
def Fitting (tools : Toolbox) (runner : Runner) : RunnerCall → Prop
  | .deploy name entrypoint deployment => tools.Fits (runner.dir name) ⟨deployment, entrypoint⟩
  | .undeploy _ => True

theorem allLatest_step {runner runner' : Runner} {call : RunnerCall}
    (hlatest : tools.AllLatest runner) (hfits : tools.Fitting runner call)
    (hstep : tools.step runner call = some runner') : tools.AllLatest runner' := by
  intro name active hactive
  cases call with
  | deploy name' =>
    obtain ⟨tree, hdeployed, rfl⟩ := Option.map_eq_some_iff.mp hstep
    unfold Runner.dir
    dsimp only at hactive ⊢
    rw [Table.get_upsert_const] at hactive ⊢
    by_cases heq : name = name'
    · subst heq
      rw [if_pos rfl] at hactive ⊢
      rw [← Option.some.inj hactive, Option.getD_some]
      exact (latest_iff_fits hdeployed).mpr hfits
    · rw [if_neg heq] at hactive ⊢
      exact hlatest name active hactive
  | undeploy name' =>
    cases hstep
    unfold Runner.dir
    dsimp only at hactive ⊢
    rw [Table.get_delete] at hactive ⊢
    by_cases heq : name = name'
    · rw [if_pos heq] at hactive
      cases hactive
    · rw [if_neg heq] at hactive ⊢
      exact hlatest name active hactive

/-- In every run whose deployments fit, every worker is that of its last bundle. -/
theorem workers_latest (tools : Toolbox) {runner : Runner}
    (hrun : Run tools.step tools.Fitting .start runner) : tools.AllLatest runner := by
  refine Run.invariant ?_ ?_ hrun
  · intro name active hactive
    cases hactive
  · intro s label s' hinv hallowed hstep
    exact allLatest_step hinv hallowed hstep

/-! ## Histories of one endpoint -/

/-- Two archives, by their first byte: one with the entry point, one with two files. -/
def sampleTools : Toolbox where
  readTar bytes :=
    if bytes = [1] then some [⟨"index.js", false, [10]⟩]
    else if bytes = [2] then some [⟨"index.js", false, [20]⟩, ⟨"lib/old.js", false, [21]⟩]
    else none
  readZip _ := none
  quote s := "\"" ++ s ++ "\""
  runnerScript := []

def tarBundle (byte : UInt8) : Deployment := ⟨"tar", [byte]⟩

def rawBundle (byte : UInt8) : Deployment := ⟨"raw", [byte]⟩

def redeployed : List RunnerCall :=
  [.deploy "f" "" (tarBundle 2), .undeploy "f", .deploy "f" "" (tarBundle 1)]

/-- A bundle with the entry point fits an empty directory. -/
theorem fits_empty {byte : UInt8} (hbyte : byte = 1 ∨ byte = 2) :
    sampleTools.Fits .empty ⟨tarBundle byte, ""⟩ := by
  refine ⟨?_, ?_, ?_⟩
  · intro hscript
    rcases hbyte with rfl | rfl <;> exact absurd hscript (by decide +kernel)
  · intro _ path _ _ hcontent
    exact absurd rfl hcontent
  · intro _
    refine ⟨by rcases hbyte with rfl | rfl <;> decide +kernel, .inr ⟨rfl, ?_⟩⟩
    intro entries hentries
    rcases hbyte with rfl | rfl
    · cases hentries
      decide +kernel
    · cases hentries
      decide +kernel

theorem redeployed_latest :
    ∃ runner, exec sampleTools.step .start redeployed = some runner ∧
      sampleTools.AllLatest runner := by
  obtain ⟨s₁, hfirst⟩ : ∃ s, sampleTools.step .start (.deploy "f" "" (tarBundle 2)) = some s :=
    ⟨_, rfl⟩
  obtain ⟨s₂, hsecond, hdir⟩ : ∃ s, sampleTools.step s₁ (.undeploy "f") = some s ∧
      s.dir "f" = .empty := by
    refine ⟨_, rfl, ?_⟩
    unfold Runner.dir
    rw [Table.get_delete, if_pos rfl]
    rfl
  obtain ⟨s₃, hthird⟩ : ∃ s, sampleTools.step s₂ (.deploy "f" "" (tarBundle 1)) = some s := by
    unfold step
    dsimp only
    rw [hdir]
    exact ⟨_, rfl⟩
  have hfits : sampleTools.Fitting s₂ (.deploy "f" "" (tarBundle 1)) := by
    unfold Fitting
    dsimp only
    rw [hdir]
    exact fits_empty (.inl rfl)
  refine ⟨s₃, ?_, ?_⟩
  · simp only [redeployed, exec, hfirst, hsecond, hthird, Option.bind_some]
  · have hfits₁ : sampleTools.Fitting .start (.deploy "f" "" (tarBundle 2)) :=
      fits_empty (.inr rfl)
    have hrun₁ : Run sampleTools.step sampleTools.Fitting .start s₁ :=
      Run.step .refl hfits₁ hfirst
    have hrun₂ : Run sampleTools.step sampleTools.Fitting .start s₂ :=
      hrun₁.step (show sampleTools.Fitting s₁ (.undeploy "f") from trivial) hsecond
    exact workers_latest sampleTools (hrun₂.step hfits hthird)

/-- The second archive lies over the first, whose file stays a module, and behind a raw bundle the
code of that bundle stays the entry. -/
theorem overlaid_not_latest :
    (∃ runner, exec sampleTools.step .start
        [.deploy "f" "" (tarBundle 2), .deploy "f" "" (tarBundle 1)] = some runner ∧
      ¬sampleTools.AllLatest runner) ∧
      ∃ runner, exec sampleTools.step .start
          [.deploy "f" "" (rawBundle 7), .deploy "f" "" (tarBundle 1)] = some runner ∧
        ¬sampleTools.AllLatest runner := by
  constructor
  · refine exists_exec₂ (a := some ⟨tarBundle 1, ""⟩) (b := some [21])
      (fun runner => runner.activeDeployments.get "f") (fun runner =>
        (buildWorker (runner.dir "f") (tarBundle 1)).embedded (runner.dir "f") ["lib", "old.js"])
      (by decide +kernel) fun runner hactive hmodule hlatest => ?_
    have hmodules := (hlatest "f" _ hactive).modules ["lib", "old.js"] (by decide) (by decide)
    rw [hmodule] at hmodules
    exact absurd hmodules (by decide +kernel)
  · refine exists_exec₂ (a := some ⟨tarBundle 1, ""⟩) (b := some [7])
      (fun runner => runner.activeDeployments.get "f") (fun runner =>
        (buildWorker (runner.dir "f") (tarBundle 1)).embedded (runner.dir "f") userCodePath)
      (by decide +kernel) fun runner hactive hmodule hlatest => ?_
    have huser := (hlatest "f" _ hactive).userCode
    rw [hmodule] at huser
    exact absurd huser (by decide +kernel)

end Toolbox

end Layr.Function

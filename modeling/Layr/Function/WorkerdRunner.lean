import Layr.Core.Session
import Layr.Lib.FileTree

/-!
# The workerd runner

Each endpoint has a directory. `Deploy` extracts a bundle into it, over what is there, and writes
the runner script; `Undeploy` removes it. The configuration of workerd embeds the files of the
directory as modules.

The readers of archives and `strconv.Quote` are parameters. Ports, proxies and the process are left
out, and with them the calls that fail; so are the names that `sanitizeCapnpIdentifier` gives to the
workers, and with them two endpoints whose workers have one name. The names of endpoints have no
slashes, so their directories are apart.
-/

namespace Layr.Function

open Go

/-! ## Names in archives -/

/-- The stack of `filepath.Clean`, with the components from the last to the first. -/
def cleanStep (rooted : Bool) (stack : List String) (component : String) : List String :=
  if component = "" ∨ component = "." then stack
  else if component = ".." then
    match stack with
    | [] => if rooted then [] else [".."]
    | top :: below => if top = ".." then ".." :: top :: below else below
  else component :: stack

/-- `filepath.Clean`, as the components of the path and whether it is absolute. -/
def cleanPath (name : String) : Bool × Path :=
  let rooted := Strings.hasPrefix name "/"
  (rooted, ((Strings.split '/' name).foldl (cleanStep rooted) []).reverse)

/-- The path of an entry. Absolute names and those that start with two dots are skipped. -/
def entryPath (name : String) : Option Path :=
  match cleanPath name with
  | (true, _) => none
  | (false, path) => if Strings.hasPrefix (path.headD "") ".." then none else some path

/-! ## Bundles -/

structure ArchiveEntry where
  name : String
  isDir : Bool
  content : List UInt8
  deriving DecidableEq, Repr

structure Deployment where
  bundleFormat : String
  bundleContent : List UInt8
  deriving DecidableEq, Repr

/-- `archive/tar`, `archive/zip` and `strconv.Quote`, and the runner script. -/
structure Toolbox where
  readTar : List UInt8 → Option (List ArchiveEntry)
  readZip : List UInt8 → Option (List ArchiveEntry)
  quote : String → String
  runnerScript : List UInt8

def userCodePath : Path := ["user_code.js"]

def runnerPath : Path := ["runner.js"]

/-- The entries of an archive that are extracted. -/
def extracted (entries : List ArchiveEntry) : List (Path × Option (List UInt8)) :=
  entries.filterMap fun entry =>
    (entryPath entry.name).map fun path => (path, if entry.isDir then none else some entry.content)

namespace Toolbox

variable (tools : Toolbox)

/-- The entries of a bundle. A raw one is the user's code. -/
def bundleEntries (deployment : Deployment) : Option (List (Path × Option (List UInt8))) :=
  if deployment.bundleFormat = "tar" then
    (tools.readTar deployment.bundleContent).map extracted
  else if deployment.bundleFormat = "zip" then
    (tools.readZip deployment.bundleContent).map extracted
  else some [(userCodePath, some deployment.bundleContent)]

/-- The file that the wrapper re-exports, as the source names it. -/
def entrypointRelativePath (entrypoint : String) : String :=
  "./" ++ if entrypoint = "" then "index.js" else entrypoint

/-- The wrapper around an entry point. -/
def wrapperCode (entrypoint : String) : List UInt8 :=
  let quoted := tools.quote (entrypointRelativePath entrypoint)
  Core.bytesOf
    ("export * from " ++ quoted ++ ";\nexport \x7b default \x7d from " ++ quoted ++ ";\n")

/-- `extractBundle`. The wrapper is written only where nothing is named `user_code.js`. -/
def extractBundle (tree : FileTree) (deployment : Deployment) (entrypoint : String) :
    Option FileTree :=
  (tools.bundleEntries deployment).bind fun entries =>
    (FileTree.extract tree entries).bind fun tree =>
      if tree.get userCodePath = none then
        FileTree.writeFile tree userCodePath (tools.wrapperCode entrypoint)
      else some tree

/-! ## The configuration -/

/-- `bytes.Contains`. -/
def containsBytes (content needle : List UInt8) : Bool := content.tails.any needle.isPrefixOf

/-- A bundle with the word `addEventListener` in its bytes is taken for a service worker. -/
def isServiceWorkerScript (deployment : Deployment) : Bool :=
  containsBytes deployment.bundleContent (Core.bytesOf "addEventListener")

structure Module where
  name : String
  isJson : Bool
  path : Path
  deriving DecidableEq, Repr

inductive Worker
  | serviceWorkerScript (path : Path)
  | modules (list : List Module)
  deriving DecidableEq, Repr

/-- The module of a file that the walk over the directory finds. -/
def moduleOf (path : Path) : Module :=
  let relPath := Strings.join "/" path
  ⟨"./" ++ relPath, Strings.hasSuffix relPath ".json", path⟩

/-- The files of a directory. -/
def walkDir (tree : FileTree) : List Path :=
  tree.rows.filterMap fun row =>
    match row.2 with
    | .file _ => some row.1
    | .dir => none

/-- The part of `BuildCapnpConfig` for one endpoint. -/
def buildWorker (tree : FileTree) (deployment : Deployment) : Worker :=
  if isServiceWorkerScript deployment then .serviceWorkerScript userCodePath
  else .modules (⟨"runner.js", false, runnerPath⟩ :: ⟨"./user_code.js", false, userCodePath⟩ ::
    ((walkDir tree).filter fun path => path ≠ runnerPath ∧ path ≠ userCodePath).map moduleOf)

/-- The files that a configuration embeds. -/
def Worker.paths : Worker → List Path
  | .serviceWorkerScript path => [path]
  | .modules list => list.map Module.path

/-- The content of the module of a path, if the configuration has one. -/
def Worker.embedded (worker : Worker) (tree : FileTree) (path : Path) : Option (List UInt8) :=
  if path ∈ worker.paths then FileTree.content tree path else none

end Toolbox

/-! ## The runner -/

/-- A deployment with the entry point that its endpoint had. -/
structure Active where
  deployment : Deployment
  entrypoint : String
  deriving DecidableEq, Repr

structure Runner where
  dirs : Table String FileTree
  activeDeployments : Table String Active

def Runner.start : Runner := ⟨.empty, .empty⟩

inductive RunnerCall
  | deploy (name entrypoint : String) (deployment : Deployment)
  | undeploy (name : String)
  deriving DecidableEq, Repr

/-- The directory of an endpoint, made if it is not there. -/
def Runner.dir (runner : Runner) (name : String) : FileTree := (runner.dirs.get name).getD .empty

/-- The directory behind `Deploy`. -/
def Toolbox.deployed (tools : Toolbox) (tree : FileTree) (active : Active) : Option FileTree :=
  (tools.extractBundle tree active.deployment active.entrypoint).bind fun tree =>
    FileTree.writeFile tree runnerPath tools.runnerScript

/-- A call that succeeds. -/
def Toolbox.step (tools : Toolbox) (runner : Runner) : RunnerCall → Option Runner
  | .deploy name entrypoint deployment =>
    let active : Active := ⟨deployment, entrypoint⟩
    (tools.deployed (runner.dir name) active).map fun tree =>
      ⟨runner.dirs.upsert name tree fun _ => tree,
        runner.activeDeployments.upsert name active fun _ => active⟩
  | .undeploy name => some ⟨runner.dirs.delete name, runner.activeDeployments.delete name⟩

end Layr.Function

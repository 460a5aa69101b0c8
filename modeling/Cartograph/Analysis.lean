import Cartograph.Discovery
import Cartograph.Extraction.Dispatch
import Cartograph.Graph.Report
import Cartograph.Host
import Cartograph.Imports.Dotted
import Cartograph.Imports.Relative
import Cartograph.SourceText

/-!
# Analyses

An analysis finds the files of a repository, looks into each of them, puts what they contribute
together in the order of the files, resolves imports and settles the edges. A file that cannot be
looked into contributes its node only. Before every file the analysis may be stopped.
-/

namespace Cartograph

/-! ## Errors -/

/-- Why there is no analysis. -/
inductive AnalysisError where
  /-- There is no directory at `path`. -/
  | notDirectory (path : RawText)
  /-- The real path of `path` cannot be found. -/
  | io (path : RawText) (cause : FileError)
  | cancelled
  /-- The machine builds no workers, in words of its own. -/
  | pool (reason : String)
  deriving DecidableEq, Inhabited, Repr

/-- What a reader is told. -/
def AnalysisError.message : AnalysisError → String
  | .notDirectory path => "Not a valid directory: " ++ path.shown
  | .io path cause => "IO error at " ++ path.shown ++ ": " ++ cause.message
  | .cancelled => "Analysis cancelled"
  | .pool reason => "Failed to build worker pool: " ++ reason

/-- What went wrong, from the outside in. -/
def AnalysisError.causes (error : AnalysisError) : List String :=
  match error with
  | .io _ cause => [error.message, cause.message]
  | _ => [error.message]

/-! ## Looking into files -/

/-- What a file contributes, or why it cannot be looked into. -/
def SourceFile.fragment? (file : SourceFile) (tree : FileTree) (settings : ExtractionSettings) :
    Except ExtractionError Graph := do
  let text ← file.read tree (file.language.readLimit? settings.readLimit)
  file.language.fragment file text

/-- What a file contributes: its node at least. -/
def SourceFile.contribution (file : SourceFile) (tree : FileTree)
    (settings : ExtractionSettings) : Graph :=
  match file.fragment? tree settings with
  | .ok fragment => fragment
  | .error _ => file.bareFragment

/-! ## Stopping -/

/-- What the check before a file found. -/
inductive Check where
  | passed
  /-- The analysis is to stop. -/
  | stopped
  /-- Another worker had found so before. -/
  | skipped
  deriving DecidableEq, Inhabited, Repr

/-- What the checks find when nobody stops the analysis. -/
def undisturbed (files : List SourceFile) : List Check :=
  files.map fun _ => .passed

/-! ## Putting fragments together -/

/-- The graphs put together in their order. -/
def Graph.mergeAll (graphs : List Graph) : Graph :=
  graphs.foldl Graph.merge Graph.empty

/-- Whether there are workers. None are built if the machine is to decide how many there are. -/
def Host.pool (host : Host) (workers : UInt64) : Except AnalysisError Unit :=
  if workers = 0 then .ok ()
  else
    match host.poolFault? workers with
    | some reason => .error (.pool reason)
    | none => .ok ()

/-- What the files contribute together; nothing is resolved yet. `checks` has what the check before
every file found. -/
def buildGraph (host : Host) (tree : FileTree) (settings : ExtractionSettings)
    (files : List SourceFile) (checks : List Check) : Except AnalysisError Graph := do
  host.pool settings.workers
  if checks.contains .stopped then throw .cancelled
  let reached := (files.zip checks).filter fun entry => entry.2 = .passed
  return Graph.mergeAll (reached.map fun entry => entry.1.contribution tree settings)

/-! ## Resolving imports -/

/-- The files of a family of languages. -/
def filesOf (language : Language) (files : List SourceFile) : List SourceFile :=
  files.filter fun file => file.language = language

/-- The resolvers for some files. -/
def resolvers (files : List SourceFile) : List Resolver :=
  [Dotted.resolver (filesOf .python files), Relative.resolver (filesOf .script files)]

/-- The graph of some files with imports resolved and edges settled. -/
def Graph.finish (g : Graph) (files : List SourceFile) : Graph :=
  ((resolvers files).foldl Graph.resolveImports g).settle

/-! ## Repositories -/

/-- The repository to which a path leads from `here`. Its files are looked for below its real path,
which has to be a directory as well. -/
def repositoryAt (tree : FileTree) (here : Place) (path : RawText) : Except AnalysisError Place :=
  if !tree.isDirectoryAt here path then .error (.notDirectory path)
  else
    match tree.realPath here path with
    | .error cause => .error (.io path cause)
    | .ok root =>
      if tree.isDirectoryAt [] (locationOf root) then .ok root
      else .error (.notDirectory (locationOf root))

/-- The name of the repository to which a path leads from `here`: the last name of its real path, or
of the path itself where it has no real path. -/
def repositoryName (tree : FileTree) (here : Place) (path : RawText) : Option String :=
  match tree.realPath here path with
  | .ok root => root.getLast?.map RawText.shown
  | .error _ => (FilePath.fileName? path).map RawText.shown

/-- The files of the repository at `root` that are looked at. -/
def repositoryFiles (tree : FileTree) (root : Place) (settings : DiscoverySettings) :
    List SourceFile :=
  discover tree root settings (ignoredIn tree root settings)

/-! ## Whole analyses -/

/-- The report on the repository at `root`, called `name?`, the files of which have been checked as
told. -/
def analyzeAt (host : Host) (tree : FileTree) (settings : Settings) (root : Place)
    (name? : Option String) (checks : List Check) : Except AnalysisError Report := do
  let files := repositoryFiles tree root settings.discovery
  let g ← buildGraph host tree settings.extraction files checks
  return { (g.finish files).report with repository := name? }

/-- The report on the repository to which a path leads from `here`. -/
def analyze (host : Host) (tree : FileTree) (settings : Settings) (here : Place) (path : RawText) :
    Except AnalysisError Report := do
  let root ← repositoryAt tree here path
  let files := repositoryFiles tree root settings.discovery
  analyzeAt host tree settings root (repositoryName tree here path) (undisturbed files)

end Cartograph

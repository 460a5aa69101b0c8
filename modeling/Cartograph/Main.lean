import Cartograph.Command.Run

/-!
# The program

What a command needs is read from the disk into a file tree, the command runs on the tree, and what
it prints and writes is passed on. Only what a command can look at is read: what its paths lead to,
the links on the way, and the repository as far as its directories are entered. The disk is reached
by names that are texts.
-/

namespace Cartograph.Disk

open Command

/-! ## Reading -/

/-- The place that an absolute path names. -/
def placeOf (path : RawText) : Place :=
  (FileTree.pathParts path).filter fun part => !part.isEmpty

/-- The tree with a directory at a place where there was nothing. -/
def withDirectory (place : Place) (tree : FileTree) : FileTree :=
  if (tree.get? place).isSome then tree else FileTree.put (.directory []) place tree

/-- The bytes of a file of the disk; one that cannot be read counts as empty. -/
def bytesAt (place : Place) : IO (List UInt8) := do
  try
    return (← IO.FS.readBinFile (locationOf place).shown).toList
  catch _ =>
    return []

/-- The place to which a place of the disk leads when links are followed. -/
def followed? (place : Place) : IO (Option Place) := do
  try
    return some (placeOf (← IO.FS.realPath (locationOf place).shown).toString)
  catch _ =>
    return none

/-- The tree with what leads to a path of the disk, and with the file there if it is one. -/
def chart (here : Place) (path : RawText) (tree : FileTree) : IO FileTree := do
  let mut tree := withDirectory here tree
  let mut place := FileTree.startOf here path
  for part in FileTree.pathParts path do
    if part == (".." : RawText) then
      place := place.dropLast
    else if !part.isEmpty && part != ("." : RawText) then
      let next := place ++ [part]
      let some target ← followed? next | return tree
      if target != next then
        tree := FileTree.put (.link (locationOf target)) next tree
      if ← (← IO.FS.realPath (locationOf target).shown).isDir then
        tree := withDirectory target tree
      else
        tree := FileTree.put (.file (← bytesAt target)) target tree
      place := target
  return tree

/-- What is below a directory of the disk, as far as directories are entered. A link to a file
stands as the file. -/
partial def below (enters : Place → Bool) (top names : Place) : IO FileTree := do
  let mut entries : List (RawText × FileTree) := []
  for entry in ← (← IO.FS.realPath (locationOf (top ++ names)).shown).readDir do
    let inner : Place := names ++ [RawText.ofText entry.fileName]
    let some target ← followed? (top ++ inner) | continue
    match (← (← IO.FS.realPath (locationOf target).shown).metadata).type with
    | .file => entries := (RawText.ofText entry.fileName, .file (← bytesAt target)) :: entries
    | .dir =>
      if target == top ++ inner && enters inner then
        entries := (RawText.ofText entry.fileName, ← below enters top inner) :: entries
    | _ => continue
  return .directory entries

/-- The tree with the repository to which a path leads, if it leads to one. -/
def withRepository (settings : Settings) (here : Place) (path : RawText) (tree : FileTree) :
    IO FileTree := do
  let tree ← chart here path tree
  match repositoryAt tree here path with
  | .ok top =>
    let enters := entersDirectory settings.discovery fun _ _ => false
    return FileTree.put (← below enters top []) top tree
  | .error _ => return tree

/-! ## Running -/

/-- The variables that count. -/
def variableNames : List String :=
  ["HOME", "XDG_CONFIG_HOME", readLimitVariable, workersVariable, heedsVariable]

/-- The environment as far as it counts. -/
def environment : IO Environment :=
  variableNames.filterMapM fun name =>
    return (← IO.getEnv name).map fun value => (name, RawText.ofText value)

/-- The tree with the files that may have settings. -/
def withSettingsFiles (env : Environment) (here : Place) (tree : FileTree) : IO FileTree :=
  let paths := (projectFile : RawText) :: (userFile? env).toList
  paths.foldlM (fun tree path => chart here path tree) tree

/-- The tree with what a command looks at. -/
def treeFor (env : Environment) (here : Place) (invocation : Invocation) : IO FileTree := do
  let start ← withSettingsFiles env here (.directory [])
  match invocation, Settings.load start here env with
  | .analyze path output _, .ok settings =>
    let tree ← withRepository settings here path (.directory [])
    let tree ← (output.toList).foldlM (fun tree path => chart here path tree) tree
    withSettingsFiles env here tree
  | _, _ => return start

/-- The path that a command may write to. -/
def writtenBy? : Invocation → Option RawText
  | .analyze _ output _ => output
  | .init _ => some projectFile
  | _ => none

/-- Passes on what a command has done. -/
def deliver (here : Place) (written? : Option RawText) (outcome : Outcome) : IO UInt32 := do
  if outcome.code = 0 then
    for path in written? do
      if let .ok bytes := outcome.tree.readBytes here path then
        IO.FS.writeBinFile path.shown (ByteArray.mk bytes.toArray)
  IO.print outcome.printed
  IO.eprint outcome.notes
  for cause in outcome.causes do
    IO.eprintln cause
  return UInt32.ofNat outcome.code

/-- Runs the command that a command line asks for. -/
def runCommand (arguments : List RawText) : IO UInt32 := do
  match Invocation.ofArguments? arguments with
  | none =>
    IO.eprintln "Wrong command line. For more information, try '--help'."
    return 2
  | some invocation =>
    let env ← environment
    let here := placeOf (← IO.currentDir).toString
    let tree ← treeFor env here invocation
    match invocation.run {} tree here env with
    | .ended outcome => deliver here (writtenBy? invocation) outcome
    | .serving port _ =>
      IO.eprintln ("No listener for port " ++ Text.Decimal.ofNat port.toNat)
      return 1

end Cartograph.Disk

/-- Runs the program. -/
def main (arguments : List String) : IO UInt32 :=
  Cartograph.Disk.runCommand (arguments.map Cartograph.RawText.ofText)

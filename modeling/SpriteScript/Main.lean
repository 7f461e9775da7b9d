import SpriteScript.Command.Run

/-!
The program. It looks at the files on the ways that the command can go, runs the command on
them, and then makes the changes that the command made. A change that the system refuses ends the
run like any other error.
-/

namespace SpriteScript.Command

def placesOn (tree : FileTree) (path : Path) : List Place :=
  let step := fun (here, seen) segment =>
    let next : Place :=
      if Path.isIdle segment then here
      else if segment = ['.', '.'] then here.dropLast
      else here ++ [String.ofList segment]
    (next, next :: seen)
  (path.segments.foldl step (tree.start path, [])).2.reverse

def look (place : Place) : IO (Option Node) := do
  try
    let path ← IO.FS.realPath (FileTree.pathOf place).text
    if ← path.isDir then return some .directory
    let content ← IO.FS.readBinFile path
    return some (.file content.data.toList)
  catch _ => return none

/-- Adds what the file system has at the given places. -/
def lookAt (tree : FileTree) (places : List Place) : IO FileTree :=
  places.foldlM add tree
where
  add (tree : FileTree) (place : Place) : IO FileTree := do
    match ← look place with
    | some node => return tree.put place node
    | none => return tree

def namesIn (place : Place) : IO (List String) := do
  try
    let path ← IO.FS.realPath (FileTree.pathOf place).text
    let entries ← path.readDir
    return entries.toList.map (·.fileName)
  catch _ => return []

def snapshot (arguments : Arguments) : IO FileTree := do
  let here : Path := ⟨(← IO.currentDir).toString⟩
  let workingDirectory := (placesOn ⟨[], []⟩ here).getLastD []
  let tree ← lookAt ⟨workingDirectory, []⟩ (placesOn ⟨[], []⟩ here)
  let tree ← lookAt tree (placesOn tree ⟨arguments.input⟩)
  match tree.canonicalFile? ⟨arguments.input⟩ with
  | none => return tree
  | some input =>
    if arguments.splitTargets then do
      let directory := placesOn tree (outputDirectory input arguments.output)
      let names ← namesIn (directory.getLastD [])
      lookAt tree (directory ++ names.map fun name => directory.getLastD [] ++ [name])
    else lookAt tree (placesOn tree (outputFile input arguments.output))

def make (arguments : Arguments) (path : Path) (node : Node) : IO (Except RunError Unit) := do
  match node with
  | .directory =>
    let made ← (IO.FS.createDirAll path.text).toBaseIO
    return made.mapError fun error =>
      let refused := .refused error.toString
      if arguments.splitTargets then .creating path.shown refused else .file refused
  | .file content =>
    let made ← (IO.FS.writeBinFile path.text ⟨content.toArray⟩).toBaseIO
    return made.mapError fun error => .writing path.shown (.refused error.toString)

/-- Makes the changes one after the other, up to the first that is refused. -/
def apply (arguments : Arguments) (before after : FileTree) : IO (Except RunError Unit) := do
  for (place, node) in after.nodes do
    if before.get? place ≠ some node then
      if let .error error ← make arguments (FileTree.pathOf place) node then
        return .error error
  return .ok ()

end SpriteScript.Command

open SpriteScript.Command in
/-- Runs the command line; the result is the exit code. -/
def main (line : List String) : IO UInt32 := do
  match parseArguments line with
  | .error usage =>
    if usage = .help then IO.print helpText else IO.eprint (usage.message ++ "\n")
    return usage.exitCode.toUInt32
  | .ok arguments =>
    let before ← snapshot arguments
    let (result, world) := execute arguments before
    let applied ← apply arguments before world.tree
    IO.eprint world.stderr
    IO.print world.stdout
    for notice in world.notices do
      if notice.level = .warn then IO.eprint ("[WARN] " ++ notice.message ++ "\n")
    match applied *> result with
    | .ok _ => return 0
    | .error error =>
      IO.eprint ("Error: " ++ error.message ++ "\n")
      for cause in error.causes do
        IO.eprint ("Caused by: " ++ cause ++ "\n")
      return 1

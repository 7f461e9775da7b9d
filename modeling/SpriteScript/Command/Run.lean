import SpriteScript.Command.Arguments
import SpriteScript.Command.Progress
import SpriteScript.Conversion
import SpriteScript.FileName

/-!
Running the command: find the input, load it, and print the source, write it to one file or
write one file per target. What has been printed and written stays when a later step fails.
-/

namespace SpriteScript.Command

/-- The files and what has been said about them. -/
structure World where
  tree : FileTree
  stdout : String := ""
  stderr : String := ""
  notices : List Notice := []
deriving DecidableEq

/-- A step of the run: it comes to a result or to an error, and to a world in either case. -/
def Run (α : Type) : Type :=
  World → Except RunError α × World

namespace Run

variable {α β : Type}

def andThen (first : Run α) (next : α → Run β) : Run β := fun world =>
  match first world with
  | (.ok value, world) => next value world
  | (.error error, world) => (.error error, world)

instance : Monad Run where
  pure value := fun world => (.ok value, world)
  bind := andThen

def fail (error : RunError) : Run α := fun world =>
  (.error error, world)

def tree : Run FileTree := fun world =>
  (.ok world.tree, world)

def progress (step total : Nat) (label : String) : Run Unit := fun world =>
  (.ok (), { world with stderr := world.stderr ++ progressLine step total label })

def print (text : String) : Run Unit := fun world =>
  (.ok (), { world with stdout := world.stdout ++ text })

def note (notice : Notice) : Run Unit := fun world =>
  (.ok (), { world with notices := world.notices ++ [notice] })

def traced (computation : Traced RunError α) : Run α := fun world =>
  (computation.result, { world with notices := world.notices ++ computation.notices })

/-- Writes a file; an error leaves the files as they are. -/
def writeFile (file : Path) (text : String) : Run Unit := fun world =>
  match world.tree.write file (Text.utf8Bytes text) with
  | .ok tree => (.ok (), { world with tree })
  | .error error => (.error (.writing file.shown error), world)

def makeDirectories (directory : Path) (wrap : FileError → RunError) : Run Unit := fun world =>
  let outcome := world.tree.makeDirectories directory
  (match outcome.error with
    | none => .ok ()
    | some error => .error (wrap error),
   { world with tree := outcome.tree })

end Run

open Run

/-- The file that a single source is written to: the given one, with an extension if it has none,
or the one beside the input. -/
def outputFile (input : Path) : Option String → Path
  | none => input.withExtension "rb".toList
  | some output =>
    let path : Path := ⟨output⟩
    if path.extension?.isNone then path.withExtension "rb".toList else path

/-- The directory for separate sources: the given one, or one beside the input. -/
def outputDirectory (input : Path) : Option String → Path
  | some output => ⟨output⟩
  | none =>
    let stem := (input.stem?.getD "project".toList) ++ "_rb".toList
    (input.parent?.getD ⟨"."⟩).join (String.ofList stem)

def writeSource (file : Path) (source : String) : Run Unit := do
  match file.parent? with
  | some parent => makeDirectories parent .file
  | none => pure ()
  writeFile file source

def writeTargets (directory : Path) : (taken : List String) → List Entity → Run Unit
  | _, [] => pure ()
  | taken, target :: rest => do
    let (name, taken) := FileName.allocate target.name taken
    let file := directory.join name
    note (Source.entityNotice target)
    writeFile file (Source.entity target ++ "\n")
    note (.wrote name target.name)
    writeTargets directory taken rest

def splitTargets (project : Project) (only : Option String) (directory : Path) : Run Unit := do
  let targets ← traced ((Traced.ofExcept (project.select only)).mapError .unknownTarget)
  makeDirectories directory (.creating directory.shown)
  writeTargets directory [] targets

def run (arguments : Arguments) : Run Unit := do
  let total := if arguments.stdout then 3 else 4
  progress 1 total "Resolving input path"
  let files ← tree
  let input ← traced (Traced.ofExcept (inputFile files ⟨arguments.input⟩))
  progress 2 total "Reading project"
  let project ← traced (loadInput files input)
  if arguments.splitTargets then do
    progress 3 total "Selecting targets"
    progress 4 total "Writing target files"
    splitTargets project arguments.target (outputDirectory input arguments.output)
  else do
    progress 3 total "Emitting Ruby source"
    let source ← traced ((Source.project project arguments.target).mapError .unknownTarget)
    if arguments.stdout then print source
    else do
      progress 4 total "Writing output"
      writeSource (outputFile input arguments.output) source

def execute (arguments : Arguments) (tree : FileTree) : Except RunError Unit × World :=
  run arguments { tree }

end SpriteScript.Command

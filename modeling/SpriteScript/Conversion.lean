import SpriteScript.Archive.Extract
import SpriteScript.FileTree
import SpriteScript.Loading
import SpriteScript.Source.Entity

/-!
Converting a project from its text or from a file. A file is JSON text when its extension says
so, else an archive that holds such a text. The causes of a failed run end with the text of the
load error; what the system or a library says below that is left out.
-/

namespace SpriteScript

inductive ConversionError where
  | loading (error : LoadError)
  | unknownTarget (error : UnknownTarget)
deriving DecidableEq

def ConversionError.message : ConversionError → String
  | loading error => error.message
  | unknownTarget error => error.message

/-- The source of a project given as JSON text, or of its target of the given name. -/
def convertText (text : String) (only : Option String) : Traced ConversionError String := do
  let project ← (Loading.projectOfText text).mapError .loading
  (Source.project project only).mapError .unknownTarget

inductive RunError where
  | inputNotFound (path : String)
  | loading (path : String) (cause : LoadError)
  | unknownTarget (cause : UnknownTarget)
  | creating (path : String) (cause : FileError)
  | writing (path : String) (cause : FileError)
  | file (cause : FileError)
deriving DecidableEq

namespace RunError

/-- The outermost text of an error; its causes stand below it. -/
def message : RunError → String
  | inputNotFound path => "Input file not found: '" ++ path ++ "'."
  | loading path _ => "Failed to load '" ++ path ++ "'."
  | unknownTarget cause => cause.message
  | creating path _ => "Failed to create '" ++ path ++ "'."
  | writing path _ => "Failed to write '" ++ path ++ "'."
  | file cause => cause.message

def causes : RunError → List String
  | inputNotFound _ => []
  | loading _ cause => [cause.message]
  | unknownTarget _ => []
  | creating _ cause => [cause.message]
  | writing _ cause => [cause.message]
  | file _ => []

end RunError

def projectEntry : List UInt8 :=
  Text.utf8Bytes "project.json"

def projectText (tree : FileTree) (path : Path) : Except LoadError String :=
  match tree.read path with
  | .error .isDirectory =>
    if path.hasExtension "json".toList then .error (.unreadable path.text)
    else .error (.badArchive path.text)
  | .error _ => .error (.unreadable path.text)
  | .ok bytes =>
    if path.hasExtension "json".toList then
      match Text.utf8Text? bytes with
      | some text => .ok text
      | none => .error (.unreadable path.text)
    else
      match Archive.extract projectEntry bytes with
      | .error .notArchive => .error (.badArchive path.text)
      | .error .noEntry => .error (.noProjectEntry path.text)
      | .error .damaged => .error (.unreadable path.text)
      | .ok content =>
        match Text.utf8Text? content with
        | some text => .ok text
        | none => .error (.unreadable path.text)

def loadFile (tree : FileTree) (path : Path) : Traced LoadError Project := do
  let text ← Traced.ofExcept (projectText tree path)
  Loading.projectOfText text

def inputFile (tree : FileTree) (path : Path) : Except RunError Path :=
  match tree.canonicalFile? path with
  | some file => .ok file
  | none => .error (.inputNotFound path.text)

/-- The project of an input file, under its path from the root. -/
def loadInput (tree : FileTree) (file : Path) : Traced RunError Project :=
  (loadFile tree file).mapError (.loading file.shown)

def convertFile (tree : FileTree) (path : Path) (only : Option String) :
    Traced RunError String := do
  let file ← Traced.ofExcept (inputFile tree path)
  let project ← loadInput tree file
  (Source.project project only).mapError .unknownTarget

end SpriteScript

import SpriteScript.Entity
import SpriteScript.Json.Fault

/-!
Why a project cannot be loaded. An error has the text that this program gives it; the texts of the
system and of libraries that may stand below it, such as the reason why a file is not readable or
an archive damaged, are left out.
-/

namespace SpriteScript

/-- The fields without which a target is none. -/
inductive RequiredField where
  | name
  | isStage
deriving DecidableEq

def RequiredField.key : RequiredField → String
  | name => "name"
  | isStage => "isStage"

def Kind.label : Kind → String
  | scalar => "variable"
  | list => "list"

/-- What is wrong with a project, or with the file that should hold it. -/
inductive LoadError where
  /-- The file cannot be read, or what it holds is damaged or no text. -/
  | unreadable (path : String)
  | badArchive (path : String)
  | noProjectEntry (path : String)
  | badText (error : Json.TextError)
  | noTargets
  | missingField (index : Nat) (field : RequiredField)
  | secondStage (first second : String)
  | malformedEntry (target : String) (kind : Kind) (id : String)
deriving DecidableEq

def LoadError.message : LoadError → String
  | unreadable path => "Failed to read '" ++ path ++ "'."
  | badArchive path => "'" ++ path ++ "' is not a valid zip/.sb3 file."
  | noProjectEntry path => "project.json not found in '" ++ path ++ "'."
  | badText error => "Invalid project.json: " ++ error.message
  | noTargets => "Invalid project.json: missing 'targets' array."
  | missingField index field => "Target #" ++ Nat.repr index ++ " missing '" ++ field.key ++ "'."
  | secondStage first second =>
    "Project can only define one stage (found '" ++ first ++ "' and '" ++ second ++ "')."
  | malformedEntry target kind id =>
    "Target '" ++ target ++ "' has malformed " ++ kind.label ++ " entry '" ++ id ++ "'."

end SpriteScript

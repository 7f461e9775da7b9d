/-!
Notices that a run leaves behind. They tell what was read and written, and warn whenever a value
of the input was replaced by another one.
-/

namespace SpriteScript

inductive Level where
  | debug
  | warn
deriving DecidableEq

inductive Notice where
  | readingTarget (target : String) (isStage : Bool)
  | unknownRotation (target style : String)
  | nullValue (target owner : String)
  | nestedValue (target owner : String)
  | skippedCostume (target : String) (index : Nat)
  | emitting (isStage : Bool) (target : String) (arguments : Nat)
  | wrote (file target : String)
deriving DecidableEq

namespace Notice

/-- Only a replaced value is a warning. -/
def level : Notice → Level
  | readingTarget .. => .debug
  | unknownRotation .. => .warn
  | nullValue .. => .warn
  | nestedValue .. => .warn
  | skippedCostume .. => .warn
  | emitting .. => .debug
  | wrote .. => .debug

def message : Notice → String
  | readingTarget target isStage =>
    "reading target '" ++ target ++ "' (stage: " ++ (if isStage then "true" else "false") ++ ")"
  | unknownRotation target style =>
    "target '" ++ target ++ "' has unknown rotation style '" ++ style ++ "', using \"all around\""
  | nullValue target owner => "target '" ++ target ++ "': '" ++ owner ++ "' holds null, using 0"
  | nestedValue target owner =>
    "target '" ++ target ++ "': '" ++ owner ++ "' holds a nested value, using its text form"
  | skippedCostume target index =>
    "target '" ++ target ++ "': skipping costume #" ++ Nat.repr index ++ " (not an object)"
  | emitting isStage target arguments =>
    "emitting " ++ (if isStage then "Stage" else "Sprite") ++ " '" ++ target ++ "' with " ++
      Nat.repr arguments ++ " keyword argument(s)"
  | wrote file target => "wrote '" ++ file ++ "' for target '" ++ target ++ "'"

end Notice

/-- A result or an error, with the notices made on the way. They stay when the result is an
error. -/
structure Traced (ε α : Type) where
  notices : List Notice
  result : Except ε α

namespace Traced

variable {ε α β : Type}

def fail (error : ε) : Traced ε α :=
  ⟨[], .error error⟩

def note (notice : Notice) : Traced ε Unit :=
  ⟨[notice], .ok ()⟩

def ofExcept (result : Except ε α) : Traced ε α :=
  ⟨[], result⟩

/-- Goes on with a result; the notices of both parts stand in order. -/
def andThen (first : Traced ε α) (next : α → Traced ε β) : Traced ε β :=
  match first.result with
  | .error error => ⟨first.notices, .error error⟩
  | .ok value =>
    let second := next value
    ⟨first.notices ++ second.notices, second.result⟩

instance : Monad (Traced ε) where
  pure value := ⟨[], .ok value⟩
  bind := andThen

def mapError {δ : Type} (f : ε → δ) (computation : Traced ε α) : Traced δ α :=
  ⟨computation.notices, computation.result.mapError f⟩

end Traced

end SpriteScript

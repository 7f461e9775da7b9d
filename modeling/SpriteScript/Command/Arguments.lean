/-!
The command line. Arguments are read from left to right. A positional argument or the value of
an option is only checked when the next argument that is understood arrives or the line ends, so
an argument that is not understood is reported first.
-/

namespace SpriteScript.Command

structure Arguments where
  input : String
  output : Option String
  target : Option String
  splitTargets : Bool
  stdout : Bool
deriving DecidableEq

/-- Why nothing is run. -/
inductive Usage where
  | help
  | unknownArgument
  | tooManyValues
  | argumentConflict
  | invalidValue
  | missingRequiredArgument
deriving DecidableEq

def Usage.message : Usage → String
  | help => "help was asked for"
  | unknownArgument => "error: unexpected argument"
  | tooManyValues => "error: an option was given a value that it does not take"
  | argumentConflict => "error: an argument was repeated or cannot be used with another"
  | invalidValue => "error: a value is missing or empty"
  | missingRequiredArgument => "error: the input file was not given"

def Usage.exitCode : Usage → Nat
  | help => 0
  | _ => 2

/-- An argument that is not checked yet. -/
inductive Pending where
  | nothing
  | input (path : String)
  | output (path : String)
  | target (name : String)
  /-- The option for a target still waits for its value. -/
  | targetValue
deriving DecidableEq

structure Scan where
  input : Option String := none
  output : Option String := none
  target : Option String := none
  splitTargets : Bool := false
  stdout : Bool := false
  positionals : Nat := 0
  pending : Pending := .nothing

namespace Scan

def settle (scan : Scan) : Except Usage Scan :=
  match scan.pending with
  | .nothing => .ok scan
  | .input path =>
    if path.isEmpty then .error .invalidValue
    else .ok { scan with input := some path, pending := .nothing }
  | .output path =>
    if path.isEmpty then .error .invalidValue
    else .ok { scan with output := some path, pending := .nothing }
  | .targetValue => .error .invalidValue
  | .target name =>
    if scan.target.isSome then .error .argumentConflict
    else .ok { scan with target := some name, pending := .nothing }

def positional (scan : Scan) (argument : String) : Except Usage Scan :=
  match scan.positionals with
  | 0 => do
    let scan ← scan.settle
    .ok { scan with pending := .input argument, positionals := 1 }
  | 1 => do
    let scan ← scan.settle
    .ok { scan with pending := .output argument, positionals := 2 }
  | _ => .error .unknownArgument

/-- Reads a value: of the option that waits for one, else a positional argument. -/
def value (scan : Scan) (argument : String) : Except Usage Scan :=
  match scan.pending with
  | .targetValue => .ok { scan with pending := .target argument }
  | _ => scan.positional argument

def option (scan : Scan) (name : String) (value : Option String) : Except Usage Scan :=
  match name, value with
  | "target", some name => do
    let scan ← scan.settle
    { scan with pending := .target name }.settle
  | "target", none => do
    let scan ← scan.settle
    .ok { scan with pending := .targetValue }
  | "stdout", none => do
    let scan ← scan.settle
    if scan.stdout then .error .argumentConflict else .ok { scan with stdout := true }
  | "split-targets", none => do
    let scan ← scan.settle
    if scan.splitTargets then .error .argumentConflict else .ok { scan with splitTargets := true }
  | "help", none => do
    let _ ← scan.settle
    .error .help
  | "stdout", some _ => .error .tooManyValues
  | "split-targets", some _ => .error .tooManyValues
  | "help", some _ => .error .tooManyValues
  | _, _ => .error .unknownArgument

/-- Reads options with one dash, of which only the first is ever looked at. -/
def shortOptions (scan : Scan) (first : Char) : Except Usage Scan :=
  if first = 'h' then do
    let _ ← scan.settle
    .error .help
  else .error .unknownArgument

def argument (scan : Scan) (argument : String) : Except Usage Scan :=
  match argument.toList with
  | '-' :: '-' :: long =>
    let name := long.takeWhile (· != '=')
    let value := match long.dropWhile (· != '=') with
      | [] => none
      | _ :: rest => some (String.ofList rest)
    scan.option (String.ofList name) value
  | '-' :: first :: _ => scan.shortOptions first
  | _ => scan.value argument

/-- Reads the arguments; behind a double dash all of them are positional. -/
def arguments (scan : Scan) (trailing : Bool) : List String → Except Usage Scan
  | [] => .ok scan
  | next :: rest =>
    if trailing then do
      let scan ← scan.positional next
      scan.arguments true rest
    else if next = "--" then scan.arguments true rest
    else do
      let scan ← scan.argument next
      scan.arguments false rest

end Scan

def parseArguments (line : List String) : Except Usage Arguments := do
  let scan ← ({} : Scan).arguments false line
  let scan ← scan.settle
  if scan.stdout && scan.splitTargets then .error .argumentConflict
  match scan.input with
  | none => .error .missingRequiredArgument
  | some input =>
    .ok { input, output := scan.output, target := scan.target, splitTargets := scan.splitTargets,
          stdout := scan.stdout }

def helpText : String :=
  "Convert Scratch 3 sprite and stage state (.sb3 or project.json) into Smalruby source.\n" ++
  "\n" ++
  "Usage: smalruby-rs [OPTIONS] <INPUT> [OUTPUT]\n" ++
  "\n" ++
  "Arguments:\n" ++
  "  <INPUT>   \n" ++
  "  [OUTPUT]  \n" ++
  "\n" ++
  "Options:\n" ++
  "      --target <NAME>  Emit only the target with this name.\n" ++
  "      --split-targets  Write one .rb file per target into OUTPUT (a directory).\n" ++
  "      --stdout         Print the generated source instead of writing a file.\n" ++
  "  -h, --help           Print help\n"

end SpriteScript.Command

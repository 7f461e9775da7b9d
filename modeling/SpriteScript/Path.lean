/-!
Paths as texts. Segments stand between slashes; empty segments and single dots say nothing, so
the last segment that says something names the file. Its extension is what follows the last dot,
unless that dot comes first.
-/

namespace SpriteScript

structure Path where
  text : String
deriving DecidableEq

namespace Path

def splitSlashes : List Char → List (List Char)
  | [] => [[]]
  | '/' :: rest => [] :: splitSlashes rest
  | c :: rest =>
    match splitSlashes rest with
    | [] => [[c]]
    | segment :: others => (c :: segment) :: others

def segments (path : Path) : List (List Char) :=
  splitSlashes path.text.toList

def ofSegments (segments : List (List Char)) : Path :=
  ⟨String.ofList (List.intercalate ['/'] segments)⟩

/-- A segment that stays where it is. -/
def isIdle (segment : List Char) : Bool :=
  segment.isEmpty || segment == ['.']

def isAbsolute (path : Path) : Bool :=
  path.text.toList.head? == some '/'

/-- The segments up to the last one that says something, last first. -/
def reversedCore (path : Path) : List (List Char) :=
  path.segments.reverse.dropWhile isIdle

def fileName? (path : Path) : Option (List Char) :=
  match path.reversedCore with
  | [] => none
  | name :: _ => if name = ['.', '.'] then none else some name

def splitExtension (name : List Char) : List Char × Option (List Char) :=
  let after := (name.reverse.takeWhile (· != '.')).reverse
  let before := name.take (name.length - after.length - 1)
  if after.length = name.length || before.isEmpty then (name, none) else (before, some after)

def stem? (path : Path) : Option (List Char) :=
  path.fileName?.map fun name => (splitExtension name).1

/-- The extension; the empty text behind a last dot is one. -/
def extension? (path : Path) : Option (List Char) :=
  path.fileName?.bind fun name => (splitExtension name).2

def hasExtension (path : Path) (extension : List Char) : Bool :=
  path.extension?.any fun found => found.map Char.toLower == extension

/-- The path with another extension; unchanged without a file name. -/
def withExtension (path : Path) (extension : List Char) : Path :=
  match path.reversedCore with
  | [] => path
  | name :: before =>
    if name = ['.', '.'] then path
    else ofSegments ((((splitExtension name).1 ++ '.' :: extension) :: before).reverse)

/-- The path without its last component, as it was written up to the one before. A relative path
of one component leaves the empty path; the root and the empty path have none. -/
def parent? (path : Path) : Option Path :=
  let dotted := path.segments.head? == some ['.']
  match path.reversedCore with
  | [] => if dotted then some ⟨""⟩ else none
  | _ :: before =>
    match before.dropWhile isIdle with
    | [] => some ⟨if path.isAbsolute then "/" else if dotted then "." else ""⟩
    | core => some (ofSegments core.reverse)

def join (path : Path) (name : String) : Path :=
  if path.text.isEmpty || path.text.toList.getLast? == some '/' then ⟨path.text ++ name⟩
  else ⟨path.text ++ "/" ++ name⟩

/-- How messages show a path: without the mark of extended-length paths. -/
def shown (path : Path) : String :=
  match path.text.toList with
  | '\\' :: '\\' :: '?' :: '\\' :: rest => String.ofList rest
  | _ => path.text

end Path

end SpriteScript

import SpriteScript.Keyed
import SpriteScript.Path

/-!
File trees and what a program does with them. A tree holds directories and files under absolute
places, and no links; a relative path starts at the working directory. Looking up a path goes
segment by segment through directories that exist, also where the path later leads back up. A step
fails only for reasons that the path and the tree show, not for missing rights or room, and one that
fails leaves the tree as it was.
-/

namespace SpriteScript

inductive Node where
  | directory
  | file (content : List UInt8)
deriving DecidableEq

/-- The names from the root down to a place. -/
abbrev Place := List String

inductive FileError where
  | notFound
  | alreadyExists
  | notDirectory
  | isDirectory
  | nameTooLong
  /-- The path holds the character that ends paths for the system. -/
  | zeroInName
  /-- A reason that no tree shows, in the words of the system. No operation on trees gives it. -/
  | refused (reason : String)
deriving DecidableEq

def FileError.message : FileError → String
  | notFound => "No such file or directory (os error 2)"
  | alreadyExists => "File exists (os error 17)"
  | notDirectory => "Not a directory (os error 20)"
  | isDirectory => "Is a directory (os error 21)"
  | nameTooLong => "File name too long (os error 36)"
  | zeroInName => "file name contained an unexpected NUL byte"
  | refused reason => reason

structure FileTree where
  workingDirectory : Place
  nodes : Keyed Place Node
deriving DecidableEq

namespace FileTree

/-- What stands at a place; the root is always a directory. -/
def get? (tree : FileTree) (place : Place) : Option Node :=
  if place = [] then some .directory else tree.nodes.find? place

def put (tree : FileTree) (place : Place) (node : Node) : FileTree :=
  { tree with nodes := tree.nodes.put place node }

/-- Refuses paths that cannot be handed to the system: with a zero character, of 4096 bytes or
more, or empty. -/
def allowed (path : Path) : Except FileError Unit :=
  if path.text.toList.contains '\x00' then .error .zeroInName
  else if 4096 ≤ path.text.utf8ByteSize then .error .nameTooLong
  else if path.text.isEmpty then .error .notFound
  else .ok ()

def child (place : Place) (name : List Char) : Except FileError Place :=
  let name := String.ofList name
  if 255 < name.utf8ByteSize then .error .nameTooLong else .ok (place ++ [name])

def enter (tree : FileTree) (place : Place) (segment : List Char) : Except FileError Place :=
  match tree.get? place with
  | none => .error .notFound
  | some (.file _) => .error .notDirectory
  | some .directory =>
    if Path.isIdle segment then .ok place
    else if segment = ['.', '.'] then .ok place.dropLast
    else do
      let next ← child place segment
      match tree.get? next with
      | none => .error .notFound
      | some _ => .ok next

def walk (tree : FileTree) (place : Place) : List (List Char) → Except FileError Place
  | [] => .ok place
  | segment :: rest => do
    let next ← tree.enter place segment
    tree.walk next rest

def start (tree : FileTree) (path : Path) : Place :=
  if path.isAbsolute then [] else tree.workingDirectory

def resolve (tree : FileTree) (path : Path) : Except FileError Place := do
  allowed path
  tree.walk (tree.start path) path.segments

def pathOf (place : Place) : Path :=
  ⟨"/" ++ "/".intercalate place⟩

def isDirectory (tree : FileTree) (path : Path) : Bool :=
  match tree.resolve path with
  | .ok place => tree.get? place == some .directory
  | .error _ => false

def read (tree : FileTree) (path : Path) : Except FileError (List UInt8) := do
  let place ← tree.resolve path
  match tree.get? place with
  | some (.file content) => .ok content
  | some .directory => .error .isDirectory
  | none => .error .notFound

def canonicalFile? (tree : FileTree) (path : Path) : Option Path :=
  match tree.resolve path with
  | .ok place =>
    match tree.get? place with
    | some (.file _) => some (pathOf place)
    | _ => none
  | .error _ => none

def directoryOf (tree : FileTree) (path : Path) (before : List (List Char)) :
    Except FileError Place := do
  let place ← tree.walk (tree.start path) before
  match tree.get? place with
  | some .directory => .ok place
  | some (.file _) => .error .notDirectory
  | none => .error .notFound

/-- Makes a directory in one that exists. Slashes at the end of the path are no matter. -/
def makeDirectory (tree : FileTree) (path : Path) : Except FileError FileTree := do
  allowed path
  match path.segments.reverse.dropWhile List.isEmpty with
  | [] => .error .alreadyExists
  | last :: before => do
    let directory ← tree.directoryOf path before.reverse
    if last = ['.'] || last = ['.', '.'] then .error .alreadyExists
    else do
      let place ← child directory last
      match tree.get? place with
      | some _ => .error .alreadyExists
      | none => .ok (tree.put place .directory)

/-- What an operation of several steps leaves behind, and the error that ended it. -/
structure Outcome where
  tree : FileTree
  error : Option FileError

def ensureDirectory (tree : FileTree) (path : Path) : Outcome :=
  match tree.makeDirectory path with
  | .ok tree => ⟨tree, none⟩
  | .error error => if tree.isDirectory path then ⟨tree, none⟩ else ⟨tree, some error⟩

/-- Makes a directory and the missing ones above it, at most `fuel` of them. Those above stay when
the last one cannot be made. -/
def makeDirectoriesWithin : (fuel : Nat) → FileTree → Path → Outcome
  | 0, tree, _ => ⟨tree, some .notFound⟩
  | fuel + 1, tree, path =>
    if path.text.isEmpty then ⟨tree, none⟩
    else
      match tree.makeDirectory path, path.parent? with
      | .error .notFound, none => ⟨tree, some .notFound⟩
      | .error .notFound, some parent =>
        let above := makeDirectoriesWithin fuel tree parent
        match above.error with
        | some error => ⟨above.tree, some error⟩
        | none => above.tree.ensureDirectory path
      | _, _ => tree.ensureDirectory path

/-- Makes a directory and the missing ones above it. Every step up leaves out a segment. -/
def makeDirectories (tree : FileTree) (path : Path) : Outcome :=
  makeDirectoriesWithin (path.segments.length + 2) tree path

def write (tree : FileTree) (path : Path) (content : List UInt8) : Except FileError FileTree := do
  allowed path
  match path.segments.reverse with
  | [] => .error .notFound
  | last :: before =>
    if last.isEmpty then
      match before.dropWhile List.isEmpty with
      | [] => .error .isDirectory
      | _ :: upper => do
        let _ ← tree.directoryOf path upper.reverse
        .error .isDirectory
    else do
      let directory ← tree.directoryOf path before.reverse
      if last = ['.'] || last = ['.', '.'] then .error .isDirectory
      else do
        let place ← child directory last
        match tree.get? place with
        | some .directory => .error .isDirectory
        | _ => .ok (tree.put place (.file content))

end FileTree

end SpriteScript

import SpriteScript.Identifier
import SpriteScript.Text.Lowercase

/-!
File names for targets. A name is made of the target's identifier, so it is a single path
component; names that differ only in case count as taken, and a number tells them apart.
-/

namespace SpriteScript.FileName

def trimUnderscores (text : List Char) : List Char :=
  (((text.dropWhile (· == '_')).reverse).dropWhile (· == '_')).reverse

def base (name : String) : List Char :=
  match trimUnderscores (name.toList.map Identifier.part) with
  | [] => "target".toList
  | chars => chars

/-- The candidates in order: `base.rb`, `base_2.rb`, `base_3.rb` and so on. -/
def candidate (base : List Char) : Nat → String
  | 0 => String.ofList (base ++ ".rb".toList)
  | n + 1 => String.ofList (base ++ '_' :: Nat.toDigits 10 (n + 2) ++ ".rb".toList)

/-- The first candidate that is not taken. Candidates stay different in lowercase, so one more of
them than there are taken names is enough. -/
def fresh (name : String) (taken : List String) : String :=
  let candidates := (List.range (taken.length + 1)).map (candidate (base name))
  (candidates.find? fun file => !taken.contains (Text.lowercase file)).getD
    (candidate (base name) taken.length)

def allocate (name : String) (taken : List String) : String × List String :=
  let file := fresh name taken
  (file, Text.lowercase file :: taken)

end SpriteScript.FileName

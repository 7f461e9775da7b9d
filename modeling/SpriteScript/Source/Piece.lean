/-!
Source text as a sequence of pieces. Code stands as it is; a quoted piece is a text between
double quotes. Keeping the two apart until the characters are written shows where a text can
touch the structure of the program: only inside its own quotes.
-/

namespace SpriteScript.Source

/-- Writes a backslash before every double quote and leaves everything else alone. -/
def escape : List Char → List Char
  | [] => []
  | c :: rest => if c = '"' then '\\' :: '"' :: escape rest else c :: escape rest

def quoteChars (text : List Char) : List Char :=
  '"' :: escape text ++ ['"']

def quote (text : String) : String :=
  String.ofList (quoteChars text.toList)

/-- A stretch of code, or a text that is written as a double-quoted literal. -/
inductive Piece where
  | code (text : String)
  | quoted (text : String)
deriving DecidableEq

namespace Piece

def chars : Piece → List Char
  | code text => text.toList
  | quoted text => quoteChars text.toList

end Piece

def chars (pieces : List Piece) : List Char :=
  pieces.flatMap Piece.chars

def text (pieces : List Piece) : String :=
  String.ofList (chars pieces)

end SpriteScript.Source

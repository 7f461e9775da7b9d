import SpriteScript.Source.Piece

/-!
Constructor calls with keyword arguments, laid out over lines. Arguments stand one column past
the opening bracket of the call; a group of records opens a bracket on its own line and every
level inside goes two columns further.
-/

namespace SpriteScript.Source

structure Field where
  key : String
  value : List Piece

/-- What a keyword argument holds: a value on one line, or a group of records. -/
inductive Content where
  | inline (value : List Piece)
  | records (items : List (List Field))

structure Argument where
  key : String
  content : Content

structure Call where
  constructor : String
  subject : String
  arguments : List Argument

/-- A line below the first, `depth` levels inside the call. -/
structure Line where
  depth : Nat
  pieces : List Piece

/-- Gives every element the mark `between`, and the last one `last`. -/
def punctuate {α β : Type} (between last : β) : List α → List (α × β)
  | [] => []
  | [x] => [(x, last)]
  | x :: y :: rest => (x, between) :: punctuate between last (y :: rest)

namespace Field

def line (field : Field) (mark : Piece) : Line :=
  ⟨2, .code field.key :: .code ": " :: field.value ++ [mark]⟩

end Field

def recordLines (fields : List Field) (mark : Piece) : List Line :=
  ⟨1, [.code r"{"]⟩ ::
    (punctuate (.code ",") (.code "") fields).map (fun (field, mark) => field.line mark) ++
    [⟨1, [.code r"}", mark]⟩]

namespace Argument

def lines (argument : Argument) (mark : Piece) : List Line :=
  match argument.content with
  | .inline value => [⟨0, .code argument.key :: .code ": " :: value ++ [mark]⟩]
  | .records items =>
    ⟨0, [.code argument.key, .code ": ["]⟩ ::
      (punctuate (.code ",") (.code "") items).flatMap
        (fun (item, mark) => recordLines item mark) ++
      [⟨0, [.code "]", mark]⟩]

end Argument

namespace Call

def opening (call : Call) : String :=
  call.constructor ++ ".new("

/-- The column at which the arguments stand. -/
def column (call : Call) : Nat :=
  call.opening.length

def head (call : Call) : List Piece :=
  [.code call.opening, .quoted call.subject, .code (if call.arguments.isEmpty then ")" else ",")]

def lines (call : Call) : List Line :=
  (punctuate (.code ",") (.code ")") call.arguments).flatMap fun (argument, mark) =>
    argument.lines mark

/-- The pieces of a line with its line feed and indentation. -/
def linePieces (column : Nat) (line : Line) : List Piece :=
  .code "\n" :: .code (String.ofList (List.replicate (column + 2 * line.depth) ' ')) :: line.pieces

def pieces (call : Call) : List Piece :=
  call.head ++ call.lines.flatMap (linePieces call.column)

end Call

end SpriteScript.Source

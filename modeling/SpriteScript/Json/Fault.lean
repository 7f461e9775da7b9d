/-!
Faults of JSON text and where they stand. A reader knows only what is left of the text, so it
marks a fault by the number of bytes behind it; the line and the column are found at the end.
-/

namespace SpriteScript.Json

inductive Reason where
  | endInValue
  | endInList
  | endInObject
  | endInString
  | expectedValue
  | expectedWord
  | expectedColon
  | expectedListSeparator
  | expectedObjectSeparator
  | trailingComma
  | keyNotString
  | trailingCharacters
  | invalidNumber
  | numberOutOfRange
  | invalidEscape
  | controlCharacter
  | loneSurrogate
  | endInSurrogatePair
  | nestedTooDeep
deriving DecidableEq

def Reason.message : Reason → String
  | endInValue => "EOF while parsing a value"
  | endInList => "EOF while parsing a list"
  | endInObject => "EOF while parsing an object"
  | endInString => "EOF while parsing a string"
  | expectedValue => "expected value"
  | expectedWord => "expected ident"
  | expectedColon => "expected `:`"
  | expectedListSeparator => "expected `,` or `]`"
  | expectedObjectSeparator => r"expected `,` or `}`"
  | trailingComma => "trailing comma"
  | keyNotString => "key must be a string"
  | trailingCharacters => "trailing characters"
  | invalidNumber => "invalid number"
  | numberOutOfRange => "number out of range"
  | invalidEscape => "invalid escape"
  | controlCharacter => "control character (\\u0000-\\u001F) found while parsing a string"
  | loneSurrogate => "lone leading surrogate in hex escape"
  | endInSurrogatePair => "unexpected end of hex escape"
  | nestedTooDeep => "recursion limit exceeded"

def byteLength : List Char → Nat
  | [] => 0
  | c :: rest => c.utf8Size + byteLength rest

/-- A fault with `left` bytes of the text behind it. -/
structure Fault where
  reason : Reason
  left : Nat
deriving DecidableEq

namespace Fault

def before (reason : Reason) (rest : List Char) : Fault :=
  ⟨reason, byteLength rest⟩

/-- A fault behind the first byte of `rest`, or at the end of the text. -/
def past (reason : Reason) (rest : List Char) : Fault :=
  ⟨reason, byteLength rest - 1⟩

end Fault

/-- A fault with its line, counted from one, and the bytes before it on that line. -/
structure TextError where
  reason : Reason
  line : Nat
  column : Nat
deriving DecidableEq

namespace TextError

def message (error : TextError) : String :=
  error.reason.message ++ " at line " ++ Nat.repr error.line ++ " column " ++ Nat.repr error.column

/-- Walks over the first `offset` bytes of a text, counting lines and columns. -/
def locate (reason : Reason) (line column offset : Nat) : List Char → TextError
  | [] => ⟨reason, line, column⟩
  | c :: rest =>
    if offset < c.utf8Size then ⟨reason, line, column + offset⟩
    else if c = '\n' then locate reason (line + 1) 0 (offset - 1) rest
    else locate reason line (column + c.utf8Size) (offset - c.utf8Size) rest

def ofFault (text : List Char) (fault : Fault) : TextError :=
  locate fault.reason 1 0 (byteLength text - fault.left) text

end TextError

end SpriteScript.Json

import SpriteScript.Json.Number

/-!
Reading JSON text. Every reader takes what is left of the text and gives a result with what is
left after it, or the first fault. Arrays and objects nest up to 127 deep; the depth that is
left bounds the recursion, and the length of the whole text bounds every loop, since each round
takes at least one character. A repeated key of an object replaces the value and keeps the place.
-/

namespace SpriteScript.Json

/-- A result with the rest of the text, or the first fault. -/
abbrev Reader (α : Type) := List Char → Except Fault (α × List Char)

def isBlank (c : Char) : Bool :=
  c == ' ' || c == '\n' || c == '\t' || c == '\r'

def skipBlanks (text : List Char) : List Char :=
  text.dropWhile isBlank

def word {α : Type} (value : α) : List Char → Reader α
  | [], rest => .ok (value, rest)
  | _ :: _, [] => .error (.before .endInValue [])
  | expected :: more, c :: rest =>
    if c = expected then word value more rest else .error (.past .expectedWord (c :: rest))

def hexValue? (c : Char) : Option Nat :=
  if c.isDigit then some (c.toNat - '0'.toNat)
  else if 'a' ≤ c ∧ c ≤ 'f' then some (c.toNat - 'a'.toNat + 10)
  else if 'A' ≤ c ∧ c ≤ 'F' then some (c.toNat - 'A'.toNat + 10)
  else none

def hexQuad? : List Char → Option (Nat × List Char)
  | a :: b :: c :: d :: rest => do
    let a ← hexValue? a
    let b ← hexValue? b
    let c ← hexValue? c
    let d ← hexValue? d
    some (((a * 16 + b) * 16 + c) * 16 + d, rest)
  | _ => none

/-- Reads four hexadecimal digits; four bytes are read before they are looked at. -/
def hexQuad (text : List Char) : Except Fault (Nat × List Char) :=
  if byteLength (text.take 4) < 4 then .error (.before .endInString [])
  else
    match hexQuad? text with
    | some result => .ok result
    | none => .error ⟨.invalidEscape, byteLength text - 4⟩

def surrogateMark (expected : Char) : List Char → Except Fault (List Char)
  | [] => .error (.before .endInString [])
  | c :: rest => if c = expected then .ok rest else .error (.past .endInSurrogatePair (c :: rest))

/-- Reads the digits of a `\u` escape, and a second escape if the first is half of a pair. -/
def unicodeEscape (text : List Char) : Except Fault (Char × List Char) := do
  let (high, rest) ← hexQuad text
  if 0xDC00 ≤ high ∧ high ≤ 0xDFFF then .error (.before .loneSurrogate rest)
  else if 0xD800 ≤ high ∧ high ≤ 0xDBFF then do
    let rest ← surrogateMark '\\' rest
    let rest ← surrogateMark 'u' rest
    let (low, rest) ← hexQuad rest
    if 0xDC00 ≤ low ∧ low ≤ 0xDFFF then
      .ok (Char.ofNat (0x10000 + (high - 0xD800) * 0x400 + (low - 0xDC00)), rest)
    else .error (.before .loneSurrogate rest)
  else .ok (Char.ofNat high, rest)

def escaped : List Char → Except Fault (Char × List Char)
  | [] => .error (.before .endInString [])
  | c :: rest =>
    match c with
    | '"' => .ok ('"', rest)
    | '\\' => .ok ('\\', rest)
    | '/' => .ok ('/', rest)
    | 'b' => .ok ('\x08', rest)
    | 'f' => .ok ('\x0c', rest)
    | 'n' => .ok ('\n', rest)
    | 'r' => .ok ('\r', rest)
    | 't' => .ok ('\t', rest)
    | 'u' => unicodeEscape rest
    | _ => .error (.past .invalidEscape (c :: rest))

/-- Reads the characters of a string up to its closing quote, at most `fuel` of them, in front of
the reversed characters that are already read. -/
def stringFrom : (fuel : Nat) → (done : List Char) → Reader String
  | 0, _, rest => .error (.before .endInString rest)
  | _ + 1, _, [] => .error (.before .endInString [])
  | fuel + 1, done, c :: rest =>
    if c = '"' then .ok (String.ofList done.reverse, rest)
    else if c.toNat < 0x20 then .error (.past .controlCharacter (c :: rest))
    else if c = '\\' then
      match escaped rest with
      | .error fault => .error fault
      | .ok (d, rest) => stringFrom fuel (d :: done) rest
    else stringFrom fuel (c :: done) rest

def string (limit : Nat) : Reader String :=
  stringFrom limit []

def itemsFrom (value : Reader Value) : (fuel : Nat) → (done : List Value) → Reader (List Value)
  | 0, _, rest => .error (.past .endInList rest)
  | fuel + 1, done, text =>
    match skipBlanks text with
    | [] => .error (.past .endInList [])
    | c :: rest =>
      if c = ']' then .ok (done.reverse, rest)
      else if done.isEmpty then
        match value (c :: rest) with
        | .error fault => .error fault
        | .ok (item, rest) => itemsFrom value fuel (item :: done) rest
      else if c ≠ ',' then .error (.past .expectedListSeparator (c :: rest))
      else
        match skipBlanks rest with
        | [] => .error (.past .endInValue [])
        | d :: rest =>
          if d = ']' then .error (.past .trailingComma (d :: rest))
          else
            match value (d :: rest) with
            | .error fault => .error fault
            | .ok (item, rest) => itemsFrom value fuel (item :: done) rest

def field (limit : Nat) (value : Reader Value) (text : List Char) :
    Except Fault ((String × Value) × List Char) := do
  let (key, rest) ← string limit text
  match skipBlanks rest with
  | [] => .error (.past .endInObject [])
  | c :: rest =>
    if c ≠ ':' then .error (.past .expectedColon (c :: rest))
    else do
      let (item, rest) ← value rest
      .ok ((key, item), rest)

def fieldsFrom (limit : Nat) (value : Reader Value) :
    (fuel : Nat) → (first : Bool) → (done : Keyed String Value) → Reader (Keyed String Value)
  | 0, _, _, rest => .error (.past .endInObject rest)
  | fuel + 1, first, done, text =>
    match skipBlanks text with
    | [] => .error (.past .endInObject [])
    | c :: rest =>
      if c = '}' then .ok (done, rest)
      else if first then
        if c ≠ '"' then .error (.past .keyNotString (c :: rest))
        else
          match field limit value rest with
          | .error fault => .error fault
          | .ok ((key, item), rest) =>
            fieldsFrom limit value fuel false (Keyed.put key item done) rest
      else if c ≠ ',' then .error (.past .expectedObjectSeparator (c :: rest))
      else
        match skipBlanks rest with
        | [] => .error (.past .endInValue [])
        | d :: rest =>
          if d = '}' then .error (.past .trailingComma (d :: rest))
          else if d ≠ '"' then .error (.past .keyNotString (d :: rest))
          else
            match field limit value rest with
            | .error fault => .error fault
            | .ok ((key, item), rest) =>
              fieldsFrom limit value fuel false (Keyed.put key item done) rest

/-- Reads a value, with `nested` for the values inside arrays and objects; without it they nest
too deep. -/
def valueWith (limit : Nat) (nested : Option (Reader Value)) (text : List Char) :
    Except Fault (Value × List Char) :=
  match skipBlanks text with
  | [] => .error (.past .endInValue [])
  | c :: rest =>
    if c = 'n' then word .null ['u', 'l', 'l'] rest
    else if c = 't' then word (.bool true) ['r', 'u', 'e'] rest
    else if c = 'f' then word (.bool false) ['a', 'l', 's', 'e'] rest
    else if c = '-' then (number true rest).map fun (n, rest) => (.number n, rest)
    else if c.isDigit then (number false (c :: rest)).map fun (n, rest) => (.number n, rest)
    else if c = '"' then (string limit rest).map fun (s, rest) => (.string s, rest)
    else if c = '[' then
      match nested with
      | none => .error (.past .nestedTooDeep (c :: rest))
      | some value =>
        (itemsFrom value limit [] rest).map fun (items, rest) => (.array items, rest)
    else if c = '{' then
      match nested with
      | none => .error (.past .nestedTooDeep (c :: rest))
      | some value =>
        (fieldsFrom limit value limit true [] rest).map fun (fields, rest) =>
          (.object fields, rest)
    else .error (.past .expectedValue (c :: rest))

def valueWithin (limit : Nat) : (depth : Nat) → Reader Value
  | 0 => valueWith limit none
  | depth + 1 => valueWith limit (some (valueWithin limit depth))

def document (text : List Char) : Except Fault Value := do
  let (value, rest) ← valueWithin (text.length + 1) 127 text
  match skipBlanks rest with
  | [] => .ok value
  | rest => .error (.past .trailingCharacters rest)

def parse (text : String) : Except TextError Value :=
  (document text.toList).mapError (TextError.ofFault text.toList)

end SpriteScript.Json

/-!
UTF-8 as bytes. A text has one encoding; reading refuses bytes that encode no text, or writes the
replacement character for every longest beginning of a character that does not go on as it should.
-/

namespace SpriteScript.Text

def utf8Text? (bytes : List UInt8) : Option String :=
  String.fromUTF8? ⟨bytes.toArray⟩

def utf8Bytes (text : String) : List UInt8 :=
  text.toUTF8.data.toList

def replacement : Char := '\ufffd'

/-- The ranges of the bytes that have to follow the first byte of a character; nothing if no
character starts with it. -/
def following? (first : Nat) : Option (List (Nat × Nat)) :=
  let other := (0x80, 0xBF)
  if first < 0x80 then some []
  else if 0xC2 ≤ first ∧ first ≤ 0xDF then some [other]
  else if first = 0xE0 then some [(0xA0, 0xBF), other]
  else if first = 0xED then some [(0x80, 0x9F), other]
  else if 0xE1 ≤ first ∧ first ≤ 0xEF then some [other, other]
  else if first = 0xF0 then some [(0x90, 0xBF), other, other]
  else if 0xF1 ≤ first ∧ first ≤ 0xF3 then some [other, other, other]
  else if first = 0xF4 then some [(0x80, 0x8F), other, other]
  else none

/-- The bits of the code point that the first byte of a character gives. -/
def leadingBits (first : Nat) : Nat :=
  if first < 0x80 then first
  else if first < 0xE0 then first % 0x20
  else if first < 0xF0 then first % 0x10
  else first % 0x08

def character (value : Nat) : List (Nat × Nat) → List UInt8 → Char × List UInt8
  | [], bytes => (Char.ofNat value, bytes)
  | _ :: _, [] => (replacement, [])
  | (least, greatest) :: ranges, byte :: rest =>
    if least ≤ byte.toNat ∧ byte.toNat ≤ greatest then
      character (value * 0x40 + byte.toNat % 0x40) ranges rest
    else (replacement, byte :: rest)

def charactersWithin : (fuel : Nat) → List UInt8 → List Char
  | 0, _ => []
  | _ + 1, [] => []
  | fuel + 1, first :: rest =>
    match following? first.toNat with
    | none => replacement :: charactersWithin fuel rest
    | some ranges =>
      let (c, rest) := character (leadingBits first.toNat) ranges rest
      c :: charactersWithin fuel rest

/-- The text that bytes stand for in UTF-8, with the replacement character where they stand for
none. Every character takes at least one byte. -/
def utf8Lossy (bytes : List UInt8) : String :=
  String.ofList (charactersWithin bytes.length bytes)

end SpriteScript.Text

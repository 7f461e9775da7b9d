import SpriteScript.Archive.Crc32
import SpriteScript.Archive.Entry
import SpriteScript.Archive.Field
import SpriteScript.Text.Utf8

/-!
Extra fields of directory entries. A field has a kind, a length and a content. Some kinds change
the entry, some have a form that is checked, and all others are passed over. When the bytes end
inside a field, what has been read by then stands.
-/

namespace SpriteScript.Archive

inductive FieldFault where
  /-- The bytes end inside a field. -/
  | cut
  /-- A field has a form that is not allowed. -/
  | refused
deriving DecidableEq

structure Cursor where
  entry : Entry
  bytes : List UInt8

/-- A computation on a cursor; the cursor stays as it is when the computation stops. -/
abbrev FieldReader := ExceptT FieldFault (StateM Cursor)

namespace FieldReader

def take (width : Nat) : FieldReader (List UInt8) := do
  let cursor ← get
  if cursor.bytes.length < width then throw .cut
  set { cursor with bytes := cursor.bytes.drop width }
  return cursor.bytes.take width

def skip (width : Nat) : FieldReader Unit := do
  let _ ← take width

def number (width : Nat) : FieldReader Nat := do
  let bytes ← take width
  return (littleEndian? width bytes).getD 0

def demand (condition : Bool) : FieldReader Unit :=
  if condition then pure () else throw .refused

def change (f : Entry → Entry) : FieldReader Unit :=
  modify fun cursor => { cursor with entry := f cursor.entry }

/-- Takes a number for a part of the entry that is full, or if `all` are given. The result is how
many bytes that took. -/
def wideNumber (all : Bool) (old : Entry → Nat) (replace : Nat → Entry → Entry) :
    FieldReader Nat := do
  let cursor ← get
  if all || old cursor.entry = 0xFFFFFFFF then
    let value ← number 8
    change (replace value)
    return 8
  else return 0

/-- The sizes and the offset in wide fields, those of them that need one. -/
def wideNumbers (length : Nat) : FieldReader Unit := do
  let all := decide (24 ≤ length)
  let unpacked ← wideNumber all (·.unpackedSize) fun n entry => { entry with unpackedSize := n }
  let packed ← wideNumber all (·.packedSize) fun n entry => { entry with packedSize := n }
  let offset ← wideNumber all (·.offset) fun n entry => { entry with offset := n }
  let used := unpacked + packed + offset
  demand (used ≤ length)
  skip (length - used)

def fileTimes (length : Nat) : FieldReader Unit := do
  demand (length = 32)
  skip 4
  let tag ← number 2
  demand (tag = 1)
  let size ← number 2
  demand (size = 24)
  skip 24

def encryption (length : Nat) : FieldReader Unit := do
  demand (length = 7)
  let version ← number 2
  let vendor ← number 2
  let strength ← number 1
  let method ← number 2
  demand (vendor = 0x4541)
  demand (version = 1 || version = 2)
  demand (1 ≤ strength && strength ≤ 3)
  change fun entry => { entry with sealed := true, method }

/-- Up to three times of a file. Three flags say which of them there are; a field with room for
one has one, whatever they say. -/
def timestamps (length : Nat) : FieldReader Unit := do
  let flags ← number 1
  let present := flags % 2 + flags / 2 % 2 + flags / 4 % 2
  demand (flags < 8 && (length = 5 || length = 1 + 4 * present))
  skip (if length = 5 then 4 else 4 * present)

/-- A text that replaces another one, and the checksum of the text to be replaced. -/
def replacementText (length : Nat) : FieldReader (Nat × List UInt8) := do
  skip 1
  let checksum ← number 4
  demand (5 ≤ length)
  let text ← take (length - 5)
  return (checksum, text)

def unicodeComment (length : Nat) : FieldReader Unit := do
  let (checksum, text) ← replacementText length
  let cursor ← get
  demand ((crc32 (Text.utf8Bytes cursor.entry.comment)).toNat = checksum)
  match Text.utf8Text? text with
  | none => throw .refused
  | some comment => change fun entry => { entry with comment }

def unicodeName (length : Nat) : FieldReader Unit := do
  let (checksum, name) ← replacementText length
  let cursor ← get
  demand ((crc32 cursor.entry.name).toNat = checksum)
  demand (Text.utf8Text? name).isSome
  change fun entry => { entry with name }

def content (kind length : Nat) : FieldReader Unit :=
  if kind = 0x0001 then wideNumbers length
  else if kind = 0x000a then fileTimes length
  else if kind = 0x9901 then encryption length
  else if kind = 0x5455 then timestamps length
  else if kind = 0x6375 then unicodeComment length
  else if kind = 0x7075 then unicodeName length
  else skip length

def fields : (fuel : Nat) → FieldReader Unit
  | 0 => pure ()
  | fuel + 1 => do
    let cursor ← get
    if cursor.bytes.isEmpty then return
    let kind ← number 2
    let length ← number 2
    content kind length
    fields fuel

end FieldReader

/-- The entry with what its extra fields say, unless one of them is refused. Every field takes
four bytes at least. -/
def Entry.extended? (entry : Entry) (extra : List UInt8) : Option Entry :=
  match (FieldReader.fields extra.length).run.run ⟨entry, extra⟩ with
  | (.error .refused, _) => none
  | (_, cursor) => some cursor.entry

end SpriteScript.Archive

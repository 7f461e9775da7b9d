import SpriteScript.Archive.EndRecord
import SpriteScript.Archive.ExtraField
import SpriteScript.Text.CodePage

/-!
The directory of an archive: the entries to which the last end record leads that can be followed.
-/

namespace SpriteScript.Archive

def commentText (flags : Nat) (bytes : List UInt8) : String :=
  if flags.testBit 11 then Text.utf8Lossy bytes else Text.codePageText bytes

/-- The method number that announces a field on encryption. -/
def encryptedMethod : Nat := 99

/-- The directory entry that `bytes` start with, and the bytes behind it. The data of a file
stands in front of the directory. -/
def entry? (location : Location) (bytes : List UInt8) : Option (Entry × List UInt8) := do
  if !startsWith entryMark bytes then none
  let flags ← field? bytes 8 2
  let method ← field? bytes 10 2
  let checksum ← field? bytes 16 4
  let packedSize ← field? bytes 20 4
  let unpackedSize ← field? bytes 24 4
  let nameLength ← field? bytes 28 2
  let extraLength ← field? bytes 30 2
  let commentLength ← field? bytes 32 2
  let offset ← field? bytes 42 4
  let tail := bytes.drop 46
  if tail.length < nameLength + extraLength + commentLength then none
  let name := tail.take nameLength
  let tail := tail.drop nameLength
  let extra := tail.take extraLength
  let tail := tail.drop extraLength
  let comment := commentText flags (tail.take commentLength)
  let plain : Entry :=
    { name, comment, encrypted := flags.testBit 0, sealed := false, method, checksum, packedSize,
      unpackedSize, offset }
  let entry ← plain.extended? extra
  if entry.method = encryptedMethod && !entry.sealed then none
  if location.start ≤ entry.offset + location.shift then none
  some ({ entry with offset := entry.offset + location.shift }, tail.drop commentLength)

def entries? (location : Location) : (count : Nat) → List UInt8 → Option (List Entry)
  | 0, _ => some []
  | count + 1, bytes => do
    let (first, rest) ← entry? location bytes
    let others ← entries? location count rest
    some (first :: others)

def directoryAt? (bytes : List UInt8) (offset : Nat) : Option (List Entry) := do
  let location ← location? bytes offset
  entries? location location.entries (bytes.drop location.start)

def directory? (bytes : List UInt8) : Option (List Entry) :=
  (marks endMark bytes 0 bytes.length).reverse.findSome? (directoryAt? bytes)

end SpriteScript.Archive

import SpriteScript.Archive.Directory
import SpriteScript.Archive.Inflate

/-!
Taking one file out of an archive. Entries are stored or deflated; the checksum of the directory
has to agree with the data.
-/

namespace SpriteScript.Archive

inductive Problem where
  | notArchive
  | noEntry
  | damaged
deriving DecidableEq

inductive Packing where
  | stored
  | deflated
deriving DecidableEq

def Entry.packing? (entry : Entry) : Option Packing :=
  if entry.encrypted || entry.sealed then none
  else if entry.method = 0 then some .stored
  else if entry.method = 8 then some .deflated
  else none

/-- The data of an entry as it stands in the archive, behind its local record. -/
def packedData? (bytes : List UInt8) (entry : Entry) : Option (List UInt8) := do
  let record := bytes.drop entry.offset
  if !startsWith localMark record then none
  let nameLength ← field? record 26 2
  let extraLength ← field? record 28 2
  some ((record.drop (30 + nameLength + extraLength)).take entry.packedSize)

def Packing.unpack? : Packing → List UInt8 → Option (List UInt8)
  | stored, data => some data
  | deflated, data => inflate? data

def content (bytes : List UInt8) (entry : Entry) : Except Problem (List UInt8) :=
  match entry.packing?, packedData? bytes entry with
  | some packing, some data =>
    match packing.unpack? data with
    | none => .error .damaged
    | some result =>
      if (crc32 result).toNat = entry.checksum then .ok result else .error .damaged
  | _, _ => .error .noEntry

/-- The content of the file with the given name; of several the last. -/
def extract (name bytes : List UInt8) : Except Problem (List UInt8) :=
  match directory? bytes with
  | none => .error .notArchive
  | some entries =>
    match entries.reverse.find? (·.name = name) with
    | none => .error .noEntry
    | some entry => content bytes entry

end SpriteScript.Archive

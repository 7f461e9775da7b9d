import SpriteScript.Archive.Crc32
import SpriteScript.Archive.Field

/-!
Writing archives whose files are stored as they are: a local record for each file, then the
directory, then the end record.
-/

namespace SpriteScript.Archive

structure Member where
  name : List UInt8
  content : List UInt8
deriving DecidableEq

namespace Member

/-- The fields that both records of a file share: version, flags, method, time, date, checksum,
sizes, and the lengths of the name and of no extra field. -/
def description (member : Member) : List UInt8 :=
  littleEndian 2 20 ++ littleEndian 2 0 ++ littleEndian 2 0 ++ littleEndian 2 0 ++
    littleEndian 2 33 ++ littleEndian 4 (crc32 member.content).toNat ++
    littleEndian 4 member.content.length ++ littleEndian 4 member.content.length ++
    littleEndian 2 member.name.length ++ littleEndian 2 0

/-- The record in front of the content, and the content. -/
def localRecord (member : Member) : List UInt8 :=
  littleEndian 4 localMark ++ member.description ++ member.name ++ member.content

def directoryRecord (member : Member) (offset : Nat) : List UInt8 :=
  littleEndian 4 entryMark ++ littleEndian 2 20 ++ member.description ++ littleEndian 2 0 ++
    littleEndian 2 0 ++ littleEndian 2 0 ++ littleEndian 4 0 ++ littleEndian 4 offset ++
    member.name

end Member

def localRecords (members : List Member) : List UInt8 :=
  members.flatMap Member.localRecord

def directoryFrom (offset : Nat) : List Member → List UInt8
  | [] => []
  | member :: rest =>
    member.directoryRecord offset ++ directoryFrom (offset + member.localRecord.length) rest

def endRecord (count size offset : Nat) : List UInt8 :=
  littleEndian 4 endMark ++ littleEndian 2 0 ++ littleEndian 2 0 ++ littleEndian 2 count ++
    littleEndian 2 count ++ littleEndian 4 size ++ littleEndian 4 offset ++ littleEndian 2 0

def stored (members : List Member) : List UInt8 :=
  let records := localRecords members
  let directory := directoryFrom 0 members
  records ++ directory ++ endRecord members.length directory.length records.length

end SpriteScript.Archive

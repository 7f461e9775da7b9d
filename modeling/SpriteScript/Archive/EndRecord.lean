import SpriteScript.Archive.Field

/-!
The records at the end of an archive, which say where its directory stands. A comment may follow
the end record. Where its fields are too narrow, a locator in front of it leads to a second record
with wide fields. Bytes in front of the archive shift all offsets by the same amount, which shows
where the mark is found that an offset leads to.
-/

namespace SpriteScript.Archive

structure EndRecord where
  disk : Nat
  directoryDisk : Nat
  entriesHere : Nat
  entries : Nat
  directoryOffset : Nat

def endRecord? (bytes : List UInt8) : Option EndRecord := do
  if !startsWith endMark bytes then none
  let disk ← field? bytes 4 2
  let directoryDisk ← field? bytes 6 2
  let entriesHere ← field? bytes 8 2
  let entries ← field? bytes 10 2
  let directoryOffset ← field? bytes 16 4
  let comment ← field? bytes 20 2
  if (bytes.drop 22).length < comment then none
  some { disk, directoryDisk, entriesHere, entries, directoryOffset }

structure Locator where
  directoryDisk : Nat
  recordOffset : Nat
  disks : Nat

def Locator.length : Nat := 20

def locator? (bytes : List UInt8) : Option Locator := do
  if !startsWith locatorMark bytes then none
  let directoryDisk ← field? bytes 4 4
  let recordOffset ← field? bytes 8 8
  let disks ← field? bytes 16 4
  some { directoryDisk, recordOffset, disks }

/-- The end record with wide fields. Its length does not count the mark and itself. -/
structure WideEndRecord where
  length : Nat
  madeBy : Nat
  needed : Nat
  disk : Nat
  directoryDisk : Nat
  entriesHere : Nat
  entries : Nat
  directoryOffset : Nat

def wideEndRecord? (bytes : List UInt8) : Option WideEndRecord := do
  if !startsWith wideEndMark bytes then none
  let length ← field? bytes 4 8
  let madeBy ← field? bytes 12 2
  let needed ← field? bytes 14 2
  let disk ← field? bytes 16 4
  let directoryDisk ← field? bytes 20 4
  let entriesHere ← field? bytes 24 8
  let entries ← field? bytes 32 8
  let directoryOffset ← field? bytes 48 8
  some { length, madeBy, needed, disk, directoryDisk, entriesHere, entries, directoryOffset }

/-- Where a directory stands: how many bytes stand in front of the archive, where the directory
starts among all bytes, and how many entries it has. -/
structure Location where
  shift : Nat
  start : Nat
  entries : Nat

/-- Where an end record at `offset` says that the directory stands. The first entry is looked for
from the recorded offset on; an empty directory stands in front of the record. -/
def plainLocation? (bytes : List UInt8) (offset : Nat) (record : EndRecord) :
    Option Location := do
  if record.disk ≠ record.directoryDisk then none
  let start ←
    if record.entries = 0 then some (max offset record.directoryOffset)
    else (marks entryMark bytes record.directoryOffset offset).head?
  some { shift := start - record.directoryOffset, start, entries := record.entriesHere }

/-- The wide end record at `offset`, if it agrees with its locator, fills the room up to it, and
leaves room for its entries: each of them takes 46 bytes at least. -/
def wideRecordAt? (bytes : List UInt8) (locator : Locator) (locatorOffset offset : Nat) :
    Option (Nat × WideEndRecord) := do
  let record ← wideEndRecord? (bytes.drop offset)
  if record.length < 44 || offset + 12 + record.length ≠ locatorOffset then none
  if record.directoryDisk ≠ locator.directoryDisk then none
  if offset < record.entries * 46 + record.directoryOffset then none
  some (offset, record)

def wideLocation? (bytes : List UInt8) (locator : Locator) (locatorOffset : Nat) :
    Option Location := do
  if 1 < locator.disks then none
  let (offset, record) ←
    (marks wideEndMark bytes locator.recordOffset locatorOffset).findSome?
      (wideRecordAt? bytes locator locatorOffset)
  if record.entries < record.entriesHere || record.madeBy < record.needed then none
  if record.disk ≠ record.directoryDisk then none
  let shift := offset - locator.recordOffset
  some { shift, start := record.directoryOffset + shift, entries := record.entries }

def locatorBefore? (bytes : List UInt8) (offset : Nat) (record : EndRecord) : Option Locator :=
  if offset < Locator.length then none
  else if record.entries = 0xFFFF || record.directoryOffset = 0xFFFFFFFF then
    locator? (bytes.drop (offset - Locator.length))
  else none

def location? (bytes : List UInt8) (offset : Nat) : Option Location := do
  let record ← endRecord? (bytes.drop offset)
  match locatorBefore? bytes offset record with
  | some locator => wideLocation? bytes locator (offset - Locator.length)
  | none => plainLocation? bytes offset record

end SpriteScript.Archive

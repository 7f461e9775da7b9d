/-!
Numbers and marks in the bytes of an archive. A number stands least significant byte first; a mark
is a number of four bytes that tells which record follows.
-/

namespace SpriteScript.Archive

def littleEndian : (width : Nat) → Nat → List UInt8
  | 0, _ => []
  | width + 1, n => UInt8.ofNat n :: littleEndian width (n / 256)

def littleEndian? : (width : Nat) → List UInt8 → Option Nat
  | 0, _ => some 0
  | _ + 1, [] => none
  | width + 1, byte :: rest => (littleEndian? width rest).map (byte.toNat + 256 * ·)

def field? (bytes : List UInt8) (offset width : Nat) : Option Nat :=
  littleEndian? width (bytes.drop offset)

/-- The mark of the record in front of a file's data. -/
def localMark : Nat := 0x04034b50

/-- The mark of a file's record in the directory. -/
def entryMark : Nat := 0x02014b50

def endMark : Nat := 0x06054b50

def wideEndMark : Nat := 0x06064b50

def locatorMark : Nat := 0x07064b50

def startsWith (mark : Nat) (bytes : List UInt8) : Bool :=
  littleEndian? 4 bytes == some mark

/-- The offsets at which a mark stands, in increasing order, looking at `count` of them from
`offset` on. -/
def marksFrom (mark offset : Nat) : (count : Nat) → List UInt8 → List Nat
  | 0, _ => []
  | _ + 1, [] => []
  | count + 1, byte :: rest =>
    if startsWith mark (byte :: rest) then offset :: marksFrom mark (offset + 1) count rest
    else marksFrom mark (offset + 1) count rest

/-- The offsets at which a mark stands from `first` up to `last`, the latter excluded. -/
def marks (mark : Nat) (bytes : List UInt8) (first last : Nat) : List Nat :=
  marksFrom mark first (last - first) (bytes.drop first)

end SpriteScript.Archive

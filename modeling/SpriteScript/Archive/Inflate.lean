import SpriteScript.Archive.Huffman

/-!
Decompression of deflated data. The data is a sequence of bits, least significant first in each
byte, cut into blocks: stored, with the fixed codes, or with codes of their own. The last block is
marked; what stands behind it is not looked at. Data that ends before it is corrupt.
-/

namespace SpriteScript.Archive

def byteBits (byte : UInt8) : List Bool :=
  (List.range 8).map byte.toNat.testBit

def bitsValue : List Bool → Nat
  | [] => 0
  | bit :: rest => bit.toNat + 2 * bitsValue rest

def takeNumber? (width : Nat) (bits : List Bool) : Option (Nat × List Bool) :=
  let taken := bits.take width
  if taken.length < width then none else some (bitsValue taken, bits.drop width)

abbrev Inflating := Array UInt8 × List Bool

/-- The base and the number of extra bits for each length symbol from 257 on. -/
def lengthTable : List (Nat × Nat) :=
  [(3, 0), (4, 0), (5, 0), (6, 0), (7, 0), (8, 0), (9, 0), (10, 0), (11, 1), (13, 1), (15, 1),
   (17, 1), (19, 2), (23, 2), (27, 2), (31, 2), (35, 3), (43, 3), (51, 3), (59, 3), (67, 4),
   (83, 4), (99, 4), (115, 4), (131, 5), (163, 5), (195, 5), (227, 5), (258, 0)]

/-- The base and the number of extra bits for each distance symbol. -/
def distanceTable : List (Nat × Nat) :=
  [(1, 0), (2, 0), (3, 0), (4, 0), (5, 1), (7, 1), (9, 2), (13, 2), (17, 3), (25, 3), (33, 4),
   (49, 4), (65, 5), (97, 5), (129, 6), (193, 6), (257, 7), (385, 7), (513, 8), (769, 8),
   (1025, 9), (1537, 9), (2049, 10), (3073, 10), (4097, 11), (6145, 11), (8193, 12), (12289, 12),
   (16385, 13), (24577, 13)]

def codeLengthOrder : List Nat :=
  [16, 17, 18, 0, 8, 7, 9, 6, 10, 5, 11, 4, 12, 3, 13, 2, 14, 1, 15]

/-- The byte `distance` bytes back; in front of the output there are zeros. -/
def byteBack (output : Array UInt8) (distance : Nat) : UInt8 :=
  if output.size < distance then 0 else output.getD (output.size - distance) 0

/-- Repeats `length` bytes from `distance` bytes back; a copy may reach into itself. -/
def copyBack (distance : Nat) : (length : Nat) → Array UInt8 → Array UInt8
  | 0, output => output
  | length + 1, output => copyBack distance length (output.push (byteBack output distance))

def extended? (table : List (Nat × Nat)) (symbol : Nat) (bits : List Bool) :
    Option (Nat × List Bool) := do
  let (base, extra) ← table[symbol]?
  let (more, bits) ← takeNumber? extra bits
  some (base + more, bits)

def symbols? (literals distances : PrefixCode) :
    (fuel : Nat) → Array UInt8 → List Bool → Option Inflating
  | 0, _, _ => none
  | fuel + 1, output, bits => do
    let (symbol, bits) ← literals.decode? bits
    if symbol < 256 then symbols? literals distances fuel (output.push (UInt8.ofNat symbol)) bits
    else if symbol = 256 then some (output, bits)
    else do
      let (length, bits) ← extended? lengthTable (symbol - 257) bits
      let (symbol, bits) ← distances.decode? bits
      let (distance, bits) ← extended? distanceTable symbol bits
      symbols? literals distances fuel (copyBack distance length output) bits

/-- Reads a block of literal and length symbols. Every symbol takes at least one bit. -/
def codedBlock? (literals distances : PrefixCode) (output : Array UInt8) (bits : List Bool) :
    Option Inflating :=
  symbols? literals distances (bits.length + 1) output bits

def storedBytes? : (length : Nat) → Array UInt8 → List Bool → Option Inflating
  | 0, output, bits => some (output, bits)
  | length + 1, output, bits => do
    let (byte, bits) ← takeNumber? 8 bits
    storedBytes? length (output.push (UInt8.ofNat byte)) bits

/-- Reads a stored block; it starts at a whole byte, which the number of bits left shows. Its
length is given twice, the second time with all bits turned. -/
def storedBlock? (output : Array UInt8) (bits : List Bool) : Option Inflating := do
  let bits := bits.drop (bits.length % 8)
  let (length, bits) ← takeNumber? 16 bits
  let (complement, bits) ← takeNumber? 16 bits
  if length + complement = 0xFFFF then storedBytes? length output bits else none

def fixedLiterals : PrefixCode :=
  .ofLengths (List.replicate 144 8 ++ List.replicate 112 9 ++ List.replicate 24 7 ++
    List.replicate 8 8)

/-- The code of distances in fixed blocks; two of its symbols mean no distance. -/
def fixedDistances : PrefixCode :=
  .ofLengths (List.replicate 32 5)

def takeTriples? : (count : Nat) → List Bool → Option (List Nat × List Bool)
  | 0, bits => some ([], bits)
  | count + 1, bits => do
    let (first, bits) ← takeNumber? 3 bits
    let (others, bits) ← takeTriples? count bits
    some (first :: others, bits)

/-- Reads one symbol of code lengths; `values` are the lengths so far, last first. Three symbols
stand for repetitions: of the last length, and of zero. -/
def codeLength? (code : PrefixCode) (values : List Nat) (bits : List Bool) :
    Option (List Nat × List Bool) := do
  let (symbol, bits) ← code.decode? bits
  if symbol < 16 then some (symbol :: values, bits)
  else if symbol = 16 then do
    let last ← values.head?
    let (more, bits) ← takeNumber? 2 bits
    some (List.replicate (3 + more) last ++ values, bits)
  else do
    let (width, least) := if symbol = 17 then (3, 3) else (7, 11)
    let (more, bits) ← takeNumber? width bits
    some (List.replicate (least + more) 0 ++ values, bits)

def codeLengths? (code : PrefixCode) (wanted : Nat) :
    (fuel : Nat) → (values : List Nat) → List Bool → Option (List Nat × List Bool)
  | 0, _, _ => none
  | fuel + 1, values, bits =>
    if values.length = wanted then some (values.reverse, bits)
    else if wanted < values.length then none
    else do
      let (values, bits) ← codeLength? code values bits
      codeLengths? code wanted fuel values bits

def lengthFor (given : List (Nat × Nat)) (symbol : Nat) : Nat :=
  (given.lookup symbol).getD 0

def usableCode? (lengths : List Nat) : Option PrefixCode :=
  let code := PrefixCode.ofLengths lengths
  if code.isUsable then some code else none

/-- Reads a block that brings its own codes, for up to 286 literals and lengths and up to 30
distances. -/
def dynamicBlock? (output : Array UInt8) (bits : List Bool) : Option Inflating := do
  let (moreLiterals, bits) ← takeNumber? 5 bits
  let (moreDistances, bits) ← takeNumber? 5 bits
  let (moreCodes, bits) ← takeNumber? 4 bits
  let literals := 257 + moreLiterals
  let distances := 1 + moreDistances
  if 286 < literals || 30 < distances then none
  let (triples, bits) ← takeTriples? (4 + moreCodes) bits
  let given := codeLengthOrder.zip triples
  let code ← usableCode? ((List.range 19).map (lengthFor given))
  let wanted := literals + distances
  let (lengths, bits) ← codeLengths? code wanted (wanted + 1) [] bits
  let literalCode ← usableCode? (lengths.take literals)
  let distanceCode ← usableCode? (lengths.drop literals)
  codedBlock? literalCode distanceCode output bits

def block? (kind : Nat) (output : Array UInt8) (bits : List Bool) : Option Inflating :=
  if kind = 0 then storedBlock? output bits
  else if kind = 1 then codedBlock? fixedLiterals fixedDistances output bits
  else if kind = 2 then dynamicBlock? output bits
  else none

def blocks? : (fuel : Nat) → Array UInt8 → List Bool → Option (Array UInt8)
  | 0, _, _ => none
  | fuel + 1, output, bits => do
    let (last, bits) ← takeNumber? 1 bits
    let (kind, bits) ← takeNumber? 2 bits
    let (output, bits) ← block? kind output bits
    if last = 1 then some output else blocks? fuel output bits

/-- The decompressed data; nothing if the data is corrupt. Every block takes at least one bit. -/
def inflate? (data : List UInt8) : Option (List UInt8) :=
  let bits := data.flatMap byteBits
  (blocks? (bits.length + 1) #[] bits).map Array.toList

end SpriteScript.Archive

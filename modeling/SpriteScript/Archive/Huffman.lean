/-!
Canonical prefix codes, given by the length of each symbol's code word. Words of one length are
consecutive numbers in the order of their symbols, and each length starts where the one before
it ended.
-/

namespace SpriteScript.Archive

/-- Number of code words of the lengths 1 to 15, and the symbols by length and value. -/
structure PrefixCode where
  counts : List Nat
  symbols : Array Nat

namespace PrefixCode

/-- The code in which symbol `i` has a word of the `i`-th length; length zero means no word. -/
def ofLengths (lengths : List Nat) : PrefixCode :=
  let numbered := lengths.zipIdx
  let words := (List.range 15).map fun k => (numbered.filter (·.1 = k + 1)).map Prod.snd
  ⟨words.map List.length, words.flatten.toArray⟩

/-- The share of all sequences of 15 bits that start with a code word, in units of 2⁻¹⁵. -/
def share (code : PrefixCode) : Nat :=
  code.counts.zipIdx.foldl (fun total (count, k) => total + count * Nat.pow 2 (14 - k)) 0

/-- Whether a block may use the code: every sequence of bits starts with a word of exactly one
symbol, or there is no word at all, or only one, of a single bit. -/
def isUsable (code : PrefixCode) : Bool :=
  code.share = Nat.pow 2 15 || code.symbols.size = 0 ||
    (code.symbols.size = 1 && code.share = Nat.pow 2 14)

/-- Reads a code word bit by bit. `word` are the bits so far, `first` is the first word of this
length and `index` the place of its symbol. -/
def decodeFrom? (symbols : Array Nat) :
    (counts : List Nat) → (word first index : Nat) → List Bool → Option (Nat × List Bool)
  | [], _, _, _, _ => none
  | _ :: _, _, _, _, [] => none
  | count :: counts, word, first, index, bit :: rest =>
    let word := 2 * word + bit.toNat
    let first := 2 * first
    if word < first + count then
      (symbols[index + (word - first)]?).map fun symbol => (symbol, rest)
    else decodeFrom? symbols counts word (first + count) (index + count) rest

def decode? (code : PrefixCode) (bits : List Bool) : Option (Nat × List Bool) :=
  decodeFrom? code.symbols code.counts 0 0 0 bits

end PrefixCode

end SpriteScript.Archive

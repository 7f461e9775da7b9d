/-!
Double-precision numbers, kept exactly. Every finite number is a sign and a whole number of
units of 2⁻¹⁰⁷⁴, the least positive magnitude. The magnitudes are listed in increasing order
and a number carries its place in that list, its rank; the rank is also the number's bit
pattern without the sign. All arithmetic is exact on naturals and rounds once, at the end,
to the nearest magnitude, a half going to the even rank.
-/

namespace SpriteScript

/-- The place of a finite magnitude in the increasing list of all of them; rank 0 is zero. -/
abbrev Rank := Fin (2047 * Nat.pow 2 52)

/-- A number of the binary64 format. Every not-a-number pattern is the one value `nan`. -/
inductive Binary64 where
  | nan
  | infinite (negative : Bool)
  | finite (negative : Bool) (rank : Rank)
deriving DecidableEq

namespace Binary64

/-- The binary places behind the point that the least positive magnitude takes. It is not
unfolded, so that its powers stay powers in a proof. -/
@[irreducible] def places : Nat := 1074

theorem places_eq : places = 1074 := by
  rw [places]

/-- The number one in units of 2⁻¹⁰⁷⁴. -/
def unitsInOne : Nat :=
  Nat.pow 2 places

theorem unitsInOne_pos : 0 < unitsInOne :=
  Nat.two_pow_pos _

def halfEven (num den : Nat) : Nat :=
  let quotient := num / den
  let twice := 2 * (num % den)
  if twice < den then quotient
  else if den < twice then quotient + 1
  else quotient + quotient % 2

def exponentOf (rank : Nat) : Nat :=
  rank / Nat.pow 2 52 - 1

/-- The mantissa of a rank: below 2⁵³, and at least 2⁵² unless the exponent is zero. -/
def mantissaOf (rank : Nat) : Nat :=
  rank - exponentOf rank * Nat.pow 2 52

def unitsOf (rank : Nat) : Nat :=
  mantissaOf rank * Nat.pow 2 (exponentOf rank)

/-- The rank nearest to `num / den`. Mantissa and exponent are chosen so that the sum stays
right when rounding carries into the next power of two. -/
def nearestRank (num den : Nat) : Nat :=
  let units := num * unitsInOne
  let exponent := Nat.log2 (units / den) - 52
  exponent * Nat.pow 2 52 + halfEven units (den * Nat.pow 2 exponent)

def rank? (num den : Nat) : Option Rank :=
  if h : nearestRank num den < 2047 * Nat.pow 2 52 then some ⟨nearestRank num den, h⟩ else none

def mulRank? (a b : Rank) : Option Rank :=
  rank? (unitsOf a * unitsOf b) (unitsInOne * unitsInOne)

def divRank? (a b : Rank) : Option Rank :=
  rank? (unitsOf a) (unitsOf b)

/-- The number nearest to `num / den` with the given sign; infinite when it is out of range. -/
def ofRatio (negative : Bool) (num den : Nat) : Binary64 :=
  (rank? num den).elim (.infinite negative) (.finite negative)

def zero : Binary64 := .finite false ⟨0, by decide⟩

def ofNat (n : Nat) : Binary64 := ofRatio false n 1

def ofInt (n : Int) : Binary64 := ofRatio (decide (n < 0)) n.natAbs 1

def isFinite : Binary64 → Bool
  | finite .. => true
  | _ => false

/-- Equality as numbers: `nan` differs from everything and the two zeros are equal. -/
def same : Binary64 → Binary64 → Bool
  | infinite a, infinite b => a == b
  | finite a m, finite b n => m == n && (a == b || m.val == 0)
  | _, _ => false

def ofBits (bits : UInt64) : Binary64 :=
  let negative := decide (Nat.pow 2 63 ≤ bits.toNat)
  let rank := bits.toNat % Nat.pow 2 63
  if h : rank < 2047 * Nat.pow 2 52 then .finite negative ⟨rank, h⟩
  else if rank = 2047 * Nat.pow 2 52 then .infinite negative
  else .nan

/-- The bit pattern of a number; `nan` has the quiet pattern without a sign. -/
def toBits : Binary64 → UInt64
  | nan => 0x7ff8000000000000
  | infinite negative => signBit negative + 0x7ff0000000000000
  | finite negative rank => signBit negative + UInt64.ofNat rank.val
where
  signBit (negative : Bool) : UInt64 := if negative then 0x8000000000000000 else 0

end Binary64

end SpriteScript

import SpriteScript.Binary64

/-!
Decimal text of binary64 magnitudes. A magnitude is printed with the fewest digits that still
read back as it, and of those the nearest. The search runs over decimal grids from coarse to
fine; it counts in units of 10⁻¹⁰⁷⁴, of which every magnitude is a whole number, so the finest
grid always holds the magnitude itself.
-/

namespace SpriteScript

/-- The number `coefficient * 10 ^ exponent`. -/
structure Decimal where
  coefficient : Nat
  exponent : Int
deriving DecidableEq

namespace Decimal

inductive Tie where
  | upward
  | toEven
deriving DecidableEq

def Tie.choose (tie : Tie) (lower : Nat) : Nat :=
  match tie with
  | .upward => lower + 1
  | .toEven => lower + lower % 2

/-- The number of units of 10⁻¹⁰⁷⁴ in one of 2⁻¹⁰⁷⁴. -/
def pointsInUnit : Nat :=
  Nat.pow 5 Binary64.places

def scaled (rank : Nat) : Nat :=
  Binary64.unitsOf rank * pointsInUnit

/-- The numbers that read back as a magnitude, counted in halves of 10⁻¹⁰⁷⁴: those between the
midpoints to its two neighbours, and the midpoints too if its rank is even. -/
structure Span where
  below : Nat
  middle : Nat
  above : Nat
  closed : Bool

def span (rank : Nat) : Span where
  below := scaled (rank - 1) + scaled rank
  middle := 2 * scaled rank
  above := scaled rank + scaled (rank + 1)
  closed := rank % 2 = 0

def Span.holds (span : Span) (point : Nat) : Bool :=
  if span.closed then span.below ≤ 2 * point && 2 * point ≤ span.above
  else span.below < 2 * point && 2 * point < span.above

/-- The nearer of the two neighbours of the magnitude on the grid of the given pitch that read
back. -/
def onGrid (tie : Tie) (span : Span) (pitch : Nat) : Option Nat :=
  let lower := span.middle / (2 * pitch)
  match span.holds (lower * pitch), span.holds ((lower + 1) * pitch) with
  | false, false => none
  | true, false => some lower
  | false, true => some (lower + 1)
  | true, true =>
    match compare span.middle ((2 * lower + 1) * pitch) with
    | .lt => some lower
    | .eq => some (tie.choose lower)
    | .gt => some (lower + 1)

/-- The first candidate on the grids of pitch `10 ^ j`, `10 ^ (j - 1)` and so on; on the last one
the magnitude itself. -/
def search (tie : Tie) (span : Span) : (j : Nat) → Decimal
  | 0 => ⟨span.middle / 2, -Binary64.places⟩
  | j + 1 =>
    match onGrid tie span (Nat.pow 10 (j + 1)) with
    | some coefficient => ⟨coefficient, (j + 1 : Int) - Binary64.places⟩
    | none => search tie span j

/-- The shortest decimal that reads back as `rank`. The first grid is coarser than the magnitude
because 2⁹³ is below 10²⁸. -/
def shortest (tie : Tie) (rank : Nat) : Decimal :=
  if rank = 0 then ⟨0, 0⟩
  else search tie (span rank) (28 * ((Nat.log2 (scaled rank) + 1) / 93 + 1))

def digits (n : Nat) : List Char :=
  Nat.toDigits 10 n

def paddedDigits (width n : Nat) : List Char :=
  List.replicate (width - (digits n).length) '0' ++ digits n

/-- Positional notation, with a fraction only when the exponent is negative. -/
def positional (d : Decimal) : List Char :=
  match d.exponent with
  | .ofNat k => digits (d.coefficient * Nat.pow 10 k)
  | .negSucc k =>
    digits (d.coefficient / Nat.pow 10 (k + 1)) ++
      '.' :: paddedDigits (k + 1) (d.coefficient % Nat.pow 10 (k + 1))

def leadingExponent (d : Decimal) : Int :=
  d.exponent + ((digits d.coefficient).length - 1 : Nat)

def scientific (d : Decimal) : List Char :=
  let exponent := d.leadingExponent
  let mantissa := match digits d.coefficient with
    | first :: second :: rest => first :: '.' :: second :: rest
    | short => short
  let sign := if exponent < 0 then '-' else '+'
  mantissa ++ 'e' :: sign :: digits exponent.natAbs

end Decimal

end SpriteScript

import SpriteScript.Proofs.NumberExactness
import SpriteScript.Proofs.ParsedValues

/-!
Whole numbers are written as the integers they are. Up to 2⁵³ every integer is the value of a
number, its shortest digits are its own, and so the notation for whole numbers and the general one
give one text. Only negative zero keeps the two apart.
-/

namespace SpriteScript

namespace Binary64

theorem halfEven_exact (quotient : Nat) {den : Nat} (h : 0 < den) :
    halfEven (quotient * den) den = quotient := by
  have remainder : 2 * (quotient * den % den) < den := by
    rw [Nat.mul_mod_left]
    exact h
  simp only [halfEven, if_pos remainder, Nat.mul_div_cancel _ h]

theorem dvd_shifted {n : Nat} (small : n ≤ 2 ^ 53) (k : Nat) :
    2 ^ (Nat.log2 (n * 2 ^ k) - 52) ∣ n * 2 ^ k := by
  by_cases last : n = 2 ^ 53
  · rw [last, ← Nat.pow_add, Nat.log2_two_pow]
    exact Nat.pow_dvd_pow 2 (Nat.sub_le _ _)
  · apply Nat.dvd_mul_left_of_dvd
    apply Nat.pow_dvd_pow
    by_cases zero : n * 2 ^ k = 0
    · simp [zero]
    · have below : Nat.log2 (n * 2 ^ k) < 53 + k := by
        rw [Nat.log2_lt zero]
        exact shifted_lt (by omega) k
      omega

theorem unitsOf_mantissa {exponent mantissa : Nat} (less : mantissa < 2 ^ 53)
    (normal : exponent = 0 ∨ 2 ^ 52 ≤ mantissa) :
    unitsOf (exponent * 2 ^ 52 + mantissa) = mantissa * 2 ^ exponent := by
  have power : exponentOf (exponent * 2 ^ 52 + mantissa) = exponent := by
    simp only [exponentOf, Nat.pow_eq]
    omega
  rw [unitsOf, mantissaOf, power, Nat.pow_eq, Nat.pow_eq, Nat.add_sub_cancel_left]

theorem unitsOf_rounded {units : Nat} (exact : 2 ^ (Nat.log2 units - 52) ∣ units) :
    unitsOf ((Nat.log2 units - 52) * 2 ^ 52 + halfEven units (2 ^ (Nat.log2 units - 52))) =
      units := by
  have less := mantissa_lt units
  have normal : Nat.log2 units - 52 = 0 ∨ 2 ^ 52 ≤ units / 2 ^ (Nat.log2 units - 52) := by
    by_cases zero : Nat.log2 units - 52 = 0
    · exact .inl zero
    · refine .inr ?_
      have nonzero : units ≠ 0 := by
        rintro rfl
        simp at zero
      rw [Nat.le_div_iff_mul_le (Nat.two_pow_pos _), ← Nat.pow_add]
      refine Nat.le_trans (Nat.pow_le_pow_right (by decide) ?_) (Nat.log2_self_le nonzero)
      omega
  obtain ⟨mantissa, product⟩ := exact
  generalize Nat.log2 units - 52 = exponent at less normal product ⊢
  subst product
  rw [Nat.mul_div_cancel_left _ (Nat.two_pow_pos _)] at less normal
  rw [Nat.mul_comm (2 ^ exponent), halfEven_exact _ (Nat.two_pow_pos _),
    unitsOf_mantissa less normal]

theorem unitsOf_nearestRank {n : Nat} (small : n ≤ 2 ^ 53) :
    unitsOf (nearestRank n 1) = unitsInOne * n := by
  have exact : 2 ^ (Nat.log2 (n * unitsInOne) - 52) ∣ n * unitsInOne := dvd_shifted small places
  rw [nearestRank_one, unitsOf_rounded exact, Nat.mul_comm]

theorem ofInt_eq {n : Int} (small : n.natAbs ≤ 2 ^ 53) :
    ∃ rank : Rank, ofInt n = .finite (decide (n < 0)) rank ∧
      unitsOf rank = unitsInOne * n.natAbs := by
  have inside : nearestRank n.natAbs 1 < 2047 * Nat.pow 2 52 :=
    nearestRank_lt (Nat.lt_of_le_of_lt small (by decide))
  have found : rank? n.natAbs 1 = some ⟨_, inside⟩ := dif_pos inside
  refine ⟨⟨_, inside⟩, ?_, unitsOf_nearestRank small⟩
  rw [ofInt, ofRatio, found, Option.elim_some]

theorem sign_mul_self (negative : Bool) : sign negative * sign negative = 1 := by
  cases negative <;> simp [sign]

/-- A whole value tells its units, and its sign unless it is zero. -/
theorem whole_of_value {negative : Bool} {units one : Nat} {n : Int} (positive : 0 < one)
    (value : sign negative * (units / one) = n) :
    units = one * n.natAbs ∧ (n ≠ 0 → negative = decide (n < 0)) := by
  have product : (units : ℤ) = one * (if negative then -n else n) := by
    have cast : (units : ℚ) = one * (sign negative * n) := by
      rw [← value, ← mul_assoc (sign negative), sign_mul_self, one_mul,
        mul_div_cancel₀ _ (Nat.cast_ne_zero.mpr positive.ne')]
    cases negative with
    | false =>
        rw [sign, if_neg Bool.false_ne_true, one_mul] at cast
        exact_mod_cast cast
    | true =>
        rw [sign, if_pos rfl, neg_one_mul] at cast
        exact_mod_cast cast
  have nonneg : 0 ≤ if negative then -n else n :=
    nonneg_of_mul_nonneg_right (product ▸ Int.natCast_nonneg units) (Int.natCast_pos.mpr positive)
  have size : (if negative then -n else n).natAbs = n.natAbs := by
    cases negative with
    | false => rfl
    | true => exact Int.natAbs_neg n
  constructor
  · have units := congrArg Int.natAbs product
    rw [Int.natAbs_natCast, Int.natAbs_mul, Int.natAbs_natCast, size] at units
    exact units
  · intro nonzero
    cases negative with
    | false =>
        have least : 0 ≤ n := nonneg
        simp [least]
    | true =>
        have greatest : 0 ≤ -n := nonneg
        have less : n < 0 := by omega
        simp [less]

end Binary64

namespace Source

open Decimal

/-- The general notation of a finite number: its sign and its shortest digits. -/
def generalChars (negative : Bool) (rank : Nat) : List Char :=
  (if negative then ['-'] else []) ++ (shortest .upward rank).positional

theorem toList_toString (n : Int) :
    (toString n).toList = (if n < 0 then ['-'] else []) ++ digits n.natAbs := by
  cases n with
  | ofNat m =>
      have nonneg : ¬ Int.ofNat m < 0 := by simp
      rw [if_neg nonneg, List.nil_append]
      exact Nat.toList_repr
  | negSucc m =>
      have text : toString (Int.negSucc m) = "-" ++ Nat.repr (m + 1) := rfl
      rw [if_pos (Int.negSucc_lt_zero m), text, String.toList_append, Nat.toList_repr]
      rfl

theorem rank_eq_zero_iff {n rank : Nat} (units : Binary64.unitsOf rank = Binary64.unitsInOne * n) :
    rank = 0 ↔ n = 0 := by
  constructor
  · intro zero
    apply Nat.eq_zero_of_not_pos
    intro positive
    exact rank_ne_zero_of_whole units positive zero
  · rintro rfl
    apply Classical.byContradiction
    intro nonzero
    rw [Nat.mul_zero] at units
    exact (Binary64.unitsOf_pos nonzero).ne units.symm

theorem general_whole {n rank : Nat} (units : Binary64.unitsOf rank = Binary64.unitsInOne * n)
    (small : n ≤ 2 ^ 53) : (shortest .upward rank).positional = digits n := by
  rcases Nat.eq_zero_or_pos n with zero | positive
  · rw [zero, (rank_eq_zero_iff units).mpr zero]
    rfl
  · exact shortest_whole units positive small .upward

theorem magnitudeChars_whole {n rank : Nat}
    (units : Binary64.unitsOf rank = Binary64.unitsInOne * n) (small : n ≤ 2 ^ 53) :
    magnitudeChars rank = digits n := by
  obtain ⟨m, same, text⟩ | text := magnitudeChars_cases rank
  · rw [units] at same
    rw [text, Nat.eq_of_mul_eq_mul_left Binary64.unitsInOne_pos same]
  · rw [text, general_whole units small]

section Whole

variable {negative : Bool} {rank : Rank} {n : Int}
  (units : Binary64.unitsOf rank = Binary64.unitsInOne * n.natAbs) (small : n.natAbs ≤ 2 ^ 53)
include units small

theorem numberChars_whole (role : n ≠ 0 → negative = decide (n < 0)) :
    numberChars (.finite negative rank) = (toString n).toList := by
  have shown : (negative && rank.val != 0) = decide (n < 0) := by
    by_cases zero : n = 0
    · have first : rank.val = 0 := (rank_eq_zero_iff units).mpr (by simp [zero])
      simp [zero, first]
    · have nonzero : rank.val ≠ 0 := fun first =>
        zero (Int.natAbs_eq_zero.mp ((rank_eq_zero_iff units).mp first))
      rw [role zero, bne_iff_ne.mpr nonzero, Bool.and_true]
  rw [numberChars_eq_signed, shown, magnitudeChars_whole units small, toList_toString]
  simp only [decide_eq_true_eq]

theorem generalChars_whole (role : negative = decide (n < 0)) :
    generalChars negative rank = (toString n).toList := by
  rw [generalChars, general_whole units small, role, toList_toString]
  simp only [decide_eq_true_eq]

end Whole

theorem signed_whole (negative : Bool) {n rank : Nat}
    (units : Binary64.unitsOf rank = Binary64.unitsInOne * n) :
    Binary64.signed negative rank = ((if negative then -n else n : Int) : ℚ) := by
  have nonzero : (Binary64.unitsInOne : ℚ) ≠ 0 := Nat.cast_ne_zero.mpr Binary64.unitsInOne_pos.ne'
  rw [Binary64.signed_eq_units, units, Nat.cast_mul, mul_div_cancel_left₀ _ nonzero]
  cases negative <;> simp [Binary64.sign]

/-- All other numbers are written in the general notation. -/
theorem numberChars_general {negative : Bool} {rank : Rank}
    (large : ∀ n : Int, Binary64.signed negative rank = n → 9 * 10 ^ 15 ≤ n.natAbs) :
    numberChars (.finite negative rank) = generalChars negative rank := by
  have nonzero : rank.val ≠ 0 := by
    intro zero
    have value : Binary64.signed negative rank = ((0 : Int) : ℚ) := by
      rw [zero, Binary64.signed_zero, Int.cast_zero]
    exact absurd (large 0 value) (by decide)
  have slow : ¬ (Binary64.unitsOf rank % Binary64.unitsInOne = 0 ∧
      Binary64.unitsOf rank < integerLimit) := by
    rintro ⟨whole, below⟩
    obtain ⟨n, units⟩ := Nat.dvd_of_mod_eq_zero whole
    have least := large _ (signed_whole negative units)
    have size : (if negative then -n else n : Int).natAbs = n := by
      cases negative <;> simp
    rw [size] at least
    rw [units, integerLimit, Nat.mul_comm] at below
    exact absurd (Nat.lt_of_mul_lt_mul_right below) (Nat.not_lt.mpr least)
  rw [numberChars_eq_signed, bne_iff_ne.mpr nonzero, Bool.and_true, generalChars, magnitudeChars]
  simp only [if_neg slow]

theorem scalar_number (value : Binary64) : scalar (.number value) = number value := by
  simp [scalar, scalarPieces, text, chars, Piece.chars]

/-- The notation for whole numbers is the general one, except for the sign of negative zero, and
it is the text of the integer. Every integer up to 2⁵³ keeps its text as a literal. -/
theorem integer_text :
    (∀ (negative : Bool) (rank : Rank) (n : Int), Binary64.signed negative rank = n →
      n.natAbs < 9 * 10 ^ 15 → number (.finite negative rank) = toString n ∧
        ((negative = true → rank.val ≠ 0) →
          String.ofList (generalChars negative rank) = toString n)) ∧
    (∀ (negative : Bool) (rank : Rank),
      (∀ n : Int, Binary64.signed negative rank = n → 9 * 10 ^ 15 ≤ n.natAbs) →
        number (.finite negative rank) = String.ofList (generalChars negative rank)) ∧
    ∀ n : Int, n.natAbs ≤ 2 ^ 53 → scalar (.ofInt n) = toString n := by
  refine ⟨?_, ?_, ?_⟩
  · intro negative rank n value limit
    have small : n.natAbs ≤ 2 ^ 53 := by omega
    rw [Binary64.signed_eq_units] at value
    obtain ⟨units, role⟩ := Binary64.whole_of_value Binary64.unitsInOne_pos value
    constructor
    · rw [number, numberChars_whole units small role, String.ofList_toList]
    · intro signless
      have shown : negative = decide (n < 0) := by
        by_cases zero : n = 0
        · have first : rank.val = 0 := (rank_eq_zero_iff units).mpr (by simp [zero])
          cases negative with
          | false => simp [zero]
          | true => exact absurd first (signless rfl)
        · exact role zero
      rw [generalChars_whole units small shown, String.ofList_toList]
  · intro negative rank large
    rw [number, numberChars_general large]
  · intro n small
    obtain ⟨rank, finite, units⟩ := Binary64.ofInt_eq small
    rw [Literal.ofInt, scalar_number, finite, number, numberChars_whole units small fun _ => rfl,
      String.ofList_toList]

/-- The last integer below the limit, the limit itself and the greatest integer. -/
theorem integer_text_edges :
    (Binary64.signed true 4845865999795912703 = ((-8999999999999999 : Int) : ℚ) ∧
      number (.finite true 4845865999795912703) = toString (-8999999999999999 : Int) ∧
      String.ofList (generalChars true 4845865999795912703) =
        toString (-8999999999999999 : Int)) ∧
    number (.finite false 4845865999795912704) =
      String.ofList (generalChars false 4845865999795912704) ∧
    scalar (.ofInt (-9007199254740992)) = toString (-9007199254740992 : Int) := by
  have below : Binary64.unitsOf 4845865999795912703 = Binary64.unitsInOne * 8999999999999999 := by
    decide +kernel
  have limit : Binary64.unitsOf 4845865999795912704 = Binary64.unitsInOne * 9000000000000000 := by
    decide +kernel
  have first : Binary64.signed true 4845865999795912703 = ((-8999999999999999 : Int) : ℚ) := by
    rw [signed_whole true below]
    rfl
  refine ⟨⟨first, ?_⟩, ?_, integer_text.2.2 _ (by decide)⟩
  · obtain ⟨text, general⟩ := integer_text.1 true 4845865999795912703 _ first (by decide)
    exact ⟨text, general fun _ => by decide⟩
  · apply integer_text.2.1
    intro n value
    have same := (signed_whole false limit).symm.trans value
    rw [← Int.cast_inj.mp same]
    decide

end Source

end SpriteScript

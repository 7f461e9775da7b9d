import Mathlib.Algebra.Order.Field.Basic
import Mathlib.Data.Rat.Cast.Order
import Mathlib.Tactic.FieldSimp
import Mathlib.Tactic.Positivity
import SpriteScript.Proofs.ShortestDecimal

/-!
The text of a finite number is exact. It is a canonical numeral, and the numeral's value, taken
as a rational number, rounds to the number and to no other. Values are the ones that the bit
pattern gives with its three fields; rounding goes to the nearest of them and a half to the even
one.
-/

namespace SpriteScript

namespace Binary64

def sign (negative : Bool) : ℚ :=
  if negative then -1 else 1

/-- The exact value of a sign and a rank. -/
def signed (negative : Bool) (rank : Nat) : ℚ :=
  sign negative * (unitsOf rank / 2 ^ 1074)

def exponentField (bits : UInt64) : Nat :=
  bits.toNat / 2 ^ 52 % 2 ^ 11

def fractionField (bits : UInt64) : Nat :=
  bits.toNat % 2 ^ 52

/-- The value of the bit pattern of a finite number, by its fields. At the least exponent the
fraction stands alone; elsewhere a leading bit is added. -/
def fieldsValue (bits : UInt64) : ℚ :=
  (-1 : ℚ) ^ (bits.toNat / 2 ^ 63) *
    if exponentField bits = 0 then (fractionField bits : ℚ) * (2 : ℚ) ^ (-1074 : ℤ)
    else ((2 ^ 52 + fractionField bits : Nat) : ℚ) * (2 : ℚ) ^ ((exponentField bits : ℤ) - 1075)

/-- Whether a number is the one that `q` rounds to: every other value is farther away, or just as
far and the number has the even rank. The rank behind the last one has the value from which on
nothing rounds to a finite number. -/
def RoundsTo (q : ℚ) (number : Binary64) : Prop :=
  ∃ negative rank, number = .finite negative rank ∧
    ∀ other place, place ≤ 2047 * 2 ^ 52 → signed other place ≠ signed negative rank →
      |q - signed negative rank| < |q - signed other place| ∨
        (|q - signed negative rank| = |q - signed other place| ∧ rank.val % 2 = 0)

theorem unitsOf_fields (exponent : Nat) {fraction : Nat} (h : fraction < 2 ^ 52) :
    unitsOf (exponent * 2 ^ 52 + fraction) =
      if exponent = 0 then fraction else (2 ^ 52 + fraction) * 2 ^ (exponent - 1) := by
  have power : exponentOf (exponent * 2 ^ 52 + fraction) = exponent - 1 := by
    simp only [exponentOf, Nat.pow_eq]
    omega
  rw [unitsOf, mantissaOf, power]
  split
  · next zero =>
    subst zero
    simp
  · next nonzero =>
    have mantissa : exponent * 2 ^ 52 + fraction - (exponent - 1) * Nat.pow 2 52 =
        2 ^ 52 + fraction := by
      simp only [Nat.pow_eq]
      omega
    rw [mantissa, Nat.pow_eq]

theorem units_eq_fields (exponent : Nat) {fraction : Nat} (h : fraction < 2 ^ 52) :
    (unitsOf (exponent * 2 ^ 52 + fraction) : ℚ) / 2 ^ 1074 =
      if exponent = 0 then (fraction : ℚ) * (2 : ℚ) ^ (-1074 : ℤ)
      else ((2 ^ 52 + fraction : Nat) : ℚ) * (2 : ℚ) ^ ((exponent : ℤ) - 1075) := by
  have two : (2 : ℚ) ≠ 0 := by decide
  rw [unitsOf_fields exponent h]
  split
  · rw [zpow_neg, div_eq_mul_inv]
    rfl
  · next nonzero =>
    obtain ⟨k, rfl⟩ := Nat.exists_eq_succ_of_ne_zero nonzero
    have shift : ((k.succ : Nat) : ℤ) - 1075 = (k : ℤ) + -1074 := by omega
    rw [shift, zpow_add₀ two, zpow_neg, Nat.succ_sub_one, Nat.cast_mul, Nat.cast_pow, zpow_natCast,
      mul_div_assoc, div_eq_mul_inv]
    rfl

theorem ofBits_of_exponent {bits : UInt64} (h : exponentField bits < 2047) :
    ∃ negative rank, ofBits bits = .finite negative rank ∧
      signed negative rank = fieldsValue bits := by
  have total := bits.toNat_lt
  have rank : bits.toNat % Nat.pow 2 63 = exponentField bits * 2 ^ 52 + fractionField bits := by
    simp only [exponentField, fractionField, Nat.pow_eq]
    omega
  have fraction : fractionField bits < 2 ^ 52 := Nat.mod_lt _ (by decide)
  have inside : bits.toNat % Nat.pow 2 63 < 2047 * Nat.pow 2 52 := by
    rw [rank, Nat.pow_eq]
    omega
  refine ⟨_, _, dif_pos inside, ?_⟩
  have leading : sign (decide (Nat.pow 2 63 ≤ bits.toNat)) = (-1) ^ (bits.toNat / 2 ^ 63) := by
    by_cases high : Nat.pow 2 63 ≤ bits.toNat
    · have one : bits.toNat / 2 ^ 63 = 1 := by
        rw [Nat.pow_eq] at high
        omega
      simp only [sign, high, decide_true, if_true, one, pow_one]
    · have zero : bits.toNat / 2 ^ 63 = 0 := by
        rw [Nat.pow_eq] at high
        omega
      simp only [sign, high, decide_false, Bool.false_eq_true, if_false, zero, pow_zero]
  simp only [signed, rank]
  rw [leading, units_eq_fields _ fraction, fieldsValue]

theorem unitsInOne_cast : (unitsInOne : ℚ) = 2 ^ 1074 := by
  rw [unitsInOne, Nat.pow_eq, Nat.cast_pow, Nat.cast_ofNat, places_eq]

theorem signed_eq_units (negative : Bool) (rank : Nat) :
    signed negative rank = sign negative * (unitsOf rank / unitsInOne) := by
  rw [signed, unitsInOne_cast]

theorem signed_eq_scaled (negative : Bool) (rank : Nat) :
    signed negative rank = sign negative * (Decimal.scaled rank / 10 ^ places) := by
  have tens : (10 : ℚ) ^ places = unitsInOne * Decimal.pointsInUnit := by
    exact_mod_cast Decimal.tens_eq
  have positive : (Decimal.pointsInUnit : ℚ) ≠ 0 :=
    Nat.cast_ne_zero.mpr (Nat.pow_pos (by decide)).ne'
  rw [signed_eq_units, tens, Decimal.scaled, Nat.cast_mul, mul_div_mul_right _ _ positive]

theorem distance_eq (negative other : Bool) (point place : Nat) (unit : ℚ) (h : 0 < unit) :
    |sign negative * (point / unit) - sign other * (place / unit)| =
      |(((point : ℤ) - (if other = negative then 1 else -1) * place : ℤ) : ℚ)| / unit := by
  have inner : |sign negative * (point / unit) - sign other * (place / unit)| =
      |sign negative * point - sign other * place| / unit := by
    rw [← mul_div_assoc, ← mul_div_assoc, ← sub_div, abs_div, abs_of_pos h]
  have turned : sign negative * point - sign other * place = sign negative *
      (((point : ℤ) - (if other = negative then 1 else -1) * place : ℤ) : ℚ) := by
    cases negative <;> cases other <;> simp [sign] <;> ring
  have size : |sign negative| = 1 := by
    cases negative <;> simp [sign]
  rw [inner, turned, abs_mul, size, one_mul]

/-- Of all values, those of the other sign included, the middle of a span is nearest to each of
its points. -/
theorem nearer_of_holds {rank point place : Nat} {direction : ℤ}
    (h : (Decimal.span rank).holds point = true) (unit : direction = 1 ∨ direction = -1)
    (distinct : direction * Decimal.scaled place ≠ Decimal.scaled rank) :
    |(point : ℤ) - Decimal.scaled rank| < |(point : ℤ) - direction * Decimal.scaled place| ∨
      (|(point : ℤ) - Decimal.scaled rank| = |(point : ℤ) - direction * Decimal.scaled place| ∧
        rank % 2 = 0) := by
  obtain ⟨⟨low, high⟩, odd⟩ := (Decimal.span_holds_iff rank point).mp h
  have below : rank ≠ 0 → Decimal.scaled (rank - 1) < Decimal.scaled rank := by
    intro nonzero
    exact Decimal.scaled_strictMono (by omega)
  have above : Decimal.scaled rank < Decimal.scaled (rank + 1) :=
    Decimal.scaled_strictMono (Nat.lt_succ_self rank)
  have before : place < rank → Decimal.scaled place ≤ Decimal.scaled (rank - 1) := by
    intro less
    exact Decimal.scaled_strictMono.monotone (by omega)
  have behind : rank < place → Decimal.scaled (rank + 1) ≤ Decimal.scaled place := by
    intro greater
    exact Decimal.scaled_strictMono.monotone greater
  have same : place = rank → Decimal.scaled place = Decimal.scaled rank := congrArg Decimal.scaled
  have zero : rank = 0 → Decimal.scaled rank = 0 := by
    rintro rfl
    exact Decimal.scaled_zero
  generalize Decimal.scaled (rank - 1) = lower at *
  generalize Decimal.scaled (rank + 1) = upper at *
  generalize Decimal.scaled rank = middle at *
  generalize Decimal.scaled place = away at *
  obtain rfl | rfl := unit <;>
    rcases abs_cases ((point : ℤ) - middle) with ⟨near, _⟩ | ⟨near, _⟩ <;>
    rcases abs_cases ((point : ℤ) - _ * away) with ⟨far, _⟩ | ⟨far, _⟩ <;>
    rw [near, far] <;> omega

theorem signed_zero (negative : Bool) : signed negative 0 = 0 := by
  have units : unitsOf 0 = 0 := rfl
  rw [signed, units, Nat.cast_zero, zero_div, mul_zero]

theorem RoundsTo.of_signed_eq {q : ℚ} {negative negative' : Bool} {rank : Rank}
    (same : signed negative rank = signed negative' rank) (h : RoundsTo q (.finite negative rank)) :
    RoundsTo q (.finite negative' rank) := by
  obtain ⟨_, _, ⟨⟩, nearest⟩ := h
  refine ⟨negative', rank, rfl, ?_⟩
  rw [← same]
  exact nearest

theorem roundsTo_of_holds (negative : Bool) {rank : Rank} {point : Nat}
    (h : (Decimal.span rank).holds point = true) :
    RoundsTo (sign negative * (point / 10 ^ places)) (.finite negative rank) := by
  have unit : (0 : ℚ) < 10 ^ places := by positivity
  refine ⟨negative, rank, rfl, ?_⟩
  intro other place _ distinct
  have apart : (if other = negative then 1 else -1) * (Decimal.scaled place : ℤ) ≠
      Decimal.scaled rank := by
    intro equal
    apply distinct
    rw [signed_eq_scaled, signed_eq_scaled, ← Int.cast_natCast (Decimal.scaled rank), ← equal]
    generalize (10 : ℚ) ^ places = unit, Decimal.scaled place = steps
    cases negative <;> cases other <;> simp [sign, neg_div]
  have direction : (if other = negative then (1 : ℤ) else -1) = 1 ∨
      (if other = negative then (1 : ℤ) else -1) = -1 := by
    split
    · exact .inl rfl
    · exact .inr rfl
  have self : (if negative = negative then (1 : ℤ) else -1) = 1 := if_pos rfl
  rw [signed_eq_scaled, signed_eq_scaled, distance_eq _ _ _ _ _ unit, distance_eq _ _ _ _ _ unit,
    self, one_mul, ← Int.cast_abs, ← Int.cast_abs, div_lt_div_iff_of_pos_right unit,
    div_left_inj' unit.ne', Int.cast_lt, Int.cast_inj]
  exact nearer_of_holds h direction apart

end Binary64

/-- A decimal numeral: its sign, the digits of the whole part and those of the fraction. -/
structure Numeral where
  negative : Bool
  whole : List Char
  fraction : List Char

namespace Numeral

/-- The characters of a numeral; a point stands only in front of a fraction. -/
def chars (numeral : Numeral) : List Char :=
  (if numeral.negative then ['-'] else []) ++ numeral.whole ++
    if numeral.fraction = [] then [] else '.' :: numeral.fraction

def value (numeral : Numeral) : ℚ :=
  Binary64.sign numeral.negative *
    ((Nat.ofDigitChars 10 numeral.whole 0 : ℚ) +
      (Nat.ofDigitChars 10 numeral.fraction 0 : ℚ) / 10 ^ numeral.fraction.length)

/-- Digits only, at least one of them in front of the point, no zero in front of another digit
and none at the end of a fraction. -/
structure Canonical (numeral : Numeral) : Prop where
  whole_digits : ∀ c ∈ numeral.whole, c.isDigit = true
  whole_ne_nil : numeral.whole ≠ []
  leading : numeral.whole.head? = some '0' → numeral.whole = ['0']
  fraction_digits : ∀ c ∈ numeral.fraction, c.isDigit = true
  trailing : numeral.fraction.getLast? ≠ some '0'

end Numeral

namespace Decimal

theorem isDigit_of_mem_digits {n : Nat} {c : Char} (h : c ∈ digits n) : c.isDigit = true :=
  Nat.isDigit_of_mem_toDigits (by decide) (by decide) h

theorem isDigit_of_mem_paddedDigits {width n : Nat} {c : Char} (h : c ∈ paddedDigits width n) :
    c.isDigit = true := by
  rw [paddedDigits, List.mem_append] at h
  obtain zero | digit := h
  · rw [List.eq_of_mem_replicate zero]
    decide
  · exact isDigit_of_mem_digits digit

theorem digits_of_lt {n : Nat} (h : n < 10) : digits n = [n.digitChar] :=
  Nat.toDigits_of_lt_base h

theorem digits_of_le {n : Nat} (h : 10 ≤ n) :
    digits n = digits (n / 10) ++ [(n % 10).digitChar] :=
  Nat.toDigits_of_base_le (by decide) h

theorem digits_ne_nil (n : Nat) : digits n ≠ [] :=
  Nat.toDigits_ne_nil

theorem head?_digits {n : Nat} (h : n ≠ 0) : (digits n).head? ≠ some '0' := by
  induction n using Nat.strongRecOn with
  | ind n ih =>
      rcases Nat.lt_or_ge n 10 with small | large
      · rw [digits_of_lt small]
        simpa using h
      · rw [digits_of_le large, List.head?_append_of_ne_nil _ (digits_ne_nil _)]
        exact ih (n / 10) (by omega) (by omega)

theorem getLast?_digits (n : Nat) : (digits n).getLast? = some (n % 10).digitChar := by
  rcases Nat.lt_or_ge n 10 with small | large
  · rw [digits_of_lt small, Nat.mod_eq_of_lt small]
    rfl
  · rw [digits_of_le large, List.getLast?_concat]

theorem digits_of_head?_zero {n : Nat} (zero : (digits n).head? = some '0') :
    digits n = ['0'] := by
  by_cases h : n = 0
  · subst h
    rfl
  · exact absurd zero (head?_digits h)

theorem ofDigitChars_paddedDigits (width n : Nat) :
    Nat.ofDigitChars 10 (paddedDigits width n) 0 = n := by
  rw [paddedDigits, Nat.ofDigitChars_append, Nat.ofDigitChars_replicate_zero, Nat.mul_zero]
  exact Nat.ofDigitChars_ten_toDigits

theorem ofDigitChars_digits (n : Nat) : Nat.ofDigitChars 10 (digits n) 0 = n :=
  Nat.ofDigitChars_ten_toDigits

theorem canonical_digits (negative : Bool) (n : Nat) :
    Numeral.Canonical ⟨negative, digits n, []⟩ where
  whole_digits := fun _ => isDigit_of_mem_digits
  whole_ne_nil := digits_ne_nil n
  leading := digits_of_head?_zero
  fraction_digits := by simp
  trailing := by simp

theorem canonical_fraction (negative : Bool) (whole : Nat) {width n : Nat} (h : n % 10 ≠ 0) :
    Numeral.Canonical ⟨negative, digits whole, paddedDigits width n⟩ where
  whole_digits := fun _ => isDigit_of_mem_digits
  whole_ne_nil := digits_ne_nil whole
  leading := digits_of_head?_zero
  fraction_digits := fun _ => isDigit_of_mem_paddedDigits
  trailing := by
    rw [paddedDigits, List.getLast?_append, getLast?_digits]
    simpa using h

theorem value_digits (negative : Bool) (c k : Nat) :
    Numeral.value ⟨negative, digits (c * 10 ^ k), []⟩ =
      Binary64.sign negative * (point ⟨c, .ofNat k⟩ / 10 ^ Binary64.places) := by
  have cancel : (point ⟨c, .ofNat k⟩ : ℚ) / 10 ^ Binary64.places = (c * 10 ^ k : Nat) := by
    rw [point_ofNat, Nat.cast_mul, Nat.cast_pow 10 Binary64.places, Nat.cast_ofNat]
    exact mul_div_cancel_right₀ _ (by positivity)
  rw [cancel, Numeral.value, ofDigitChars_digits]
  simp

theorem value_fraction (negative : Bool) (c : Nat) {k : Nat} (h : k + 1 ≤ Binary64.places) :
    Numeral.value ⟨negative, digits (c / 10 ^ (k + 1)), paddedDigits (k + 1) (c % 10 ^ (k + 1))⟩ =
      Binary64.sign negative * (point ⟨c, .negSucc k⟩ / 10 ^ Binary64.places) := by
  have shift : (Int.negSucc k + Binary64.places).toNat = Binary64.places - (k + 1) := by omega
  have cancel (j : Nat) (le : k + 1 ≤ j) :
      ((c * 10 ^ (j - (k + 1)) : Nat) : ℚ) / 10 ^ j = c / 10 ^ (k + 1) := by
    obtain ⟨more, rfl⟩ := Nat.exists_eq_add_of_le le
    rw [Nat.add_sub_cancel_left, pow_add, Nat.cast_mul, Nat.cast_pow, Nat.cast_ofNat]
    field_simp
  have parts : ((c / 10 ^ (k + 1) : Nat) : ℚ) + (c % 10 ^ (k + 1) : Nat) / 10 ^ (k + 1) =
      c / 10 ^ (k + 1) := by
    rw [eq_div_iff (by positivity), add_mul, div_mul_cancel₀ _ (by positivity)]
    exact_mod_cast Nat.div_add_mod' c (10 ^ (k + 1))
  rw [point, shift, cancel _ h, Numeral.value, ofDigitChars_digits, ofDigitChars_paddedDigits,
    length_paddedDigits (Nat.succ_pos k) (Nat.mod_lt _ (Nat.pow_pos (by decide))), parts]

/-- Positional notation is a numeral with the value of the decimal. It is canonical unless the
fraction ends in a zero. -/
theorem exists_numeral (negative : Bool) {d : Decimal}
    (lowest : -Binary64.places ≤ d.exponent)
    (tidy : 0 ≤ d.exponent ∨ d.coefficient % 10 ≠ 0) :
    ∃ numeral : Numeral, numeral.Canonical ∧
      numeral.chars = (if negative then ['-'] else []) ++ d.positional ∧
      numeral.value = Binary64.sign negative * (d.point / 10 ^ Binary64.places) := by
  obtain ⟨c, exponent⟩ := d
  cases exponent with
  | ofNat k =>
      refine ⟨_, canonical_digits negative (c * 10 ^ k), ?_, value_digits negative c k⟩
      simp [Numeral.chars, positional]
  | negSucc k =>
      have last : c % 10 ^ (k + 1) % 10 ≠ 0 := by
        rw [Nat.mod_mod_of_dvd c (dvd_pow_self 10 (Nat.succ_ne_zero k))]
        exact tidy.resolve_left (by simp)
      have width : k + 1 ≤ Binary64.places := by
        simp only at lowest
        omega
      refine ⟨_, canonical_fraction negative _ last, ?_, value_fraction negative c width⟩
      have nonempty : paddedDigits (k + 1) (c % 10 ^ (k + 1)) ≠ [] :=
        List.append_ne_nil_of_right_ne_nil _ (digits_ne_nil _)
      simp [Numeral.chars, positional, nonempty]

end Decimal

namespace Source

open Decimal

theorem magnitudeChars_zero : magnitudeChars 0 = ['0'] := by
  obtain ⟨n, units, text⟩ | text := magnitudeChars_cases 0
  · have zero : n = 0 := by
      apply Nat.eq_zero_of_not_pos
      intro nonzero
      exact (Nat.mul_pos Binary64.unitsInOne_pos nonzero).ne units
    rw [text, zero]
    rfl
  · rw [text]
    rfl

theorem numberChars_eq_signed (negative : Bool) (rank : Rank) :
    numberChars (.finite negative rank) =
      (if (negative && rank.val != 0) = true then ['-'] else []) ++ magnitudeChars rank.val := by
  rw [numberChars_finite]
  split
  · rw [List.singleton_append]
  · rw [List.nil_append]

theorem numberChars_ne_minus_zero (negative : Bool) (rank : Rank) :
    numberChars (.finite negative rank) ≠ ['-', '0'] := by
  intro h
  obtain ⟨rfl, nonzero⟩ | unsigned := sign_cases negative rank
  · rw [numberChars_negative nonzero] at h
    have zero : magnitudeChars rank.val = magnitudeChars 0 := by
      rw [magnitudeChars_zero]
      exact List.tail_eq_of_cons_eq h
    exact nonzero (magnitudeChars_injective zero)
  · rw [numberChars_unsigned unsigned] at h
    have minus : '-' ∈ magnitudeChars rank.val := by
      rw [h]
      exact List.mem_cons_self
    have digit := magnitudeChars_chars minus
    revert digit
    decide

theorem exists_numeral_of_finite (negative : Bool) (rank : Rank) :
    ∃ numeral : Numeral, numeral.Canonical ∧
      numberChars (.finite negative rank) = numeral.chars ∧
      Binary64.RoundsTo numeral.value (.finite negative rank) := by
  obtain ⟨d, shape, lowest, holds, text⟩ := magnitudeChars_eq_positional rank
  have tidy : 0 ≤ d.exponent ∨ d.coefficient % 10 ≠ 0 := by
    by_cases zero : rank.val = 0
    · obtain whole | rfl := shape
      · exact .inl whole
      · rw [zero]
        exact .inl (Int.le_refl 0)
    · obtain whole | rfl := shape
      · exact .inl whole
      · exact .inr (shortest_last_digit zero .upward)
  obtain ⟨numeral, canonical, chars, value⟩ :=
    exists_numeral (negative && rank.val != 0) lowest tidy
  refine ⟨numeral, canonical, ?_, ?_⟩
  · rw [chars, numberChars_eq_signed, text]
  · rw [value]
    apply Binary64.RoundsTo.of_signed_eq _ (Binary64.roundsTo_of_holds _ holds)
    -- Negative zero is written without its sign, which is of no matter to its value.
    obtain ⟨rfl, nonzero⟩ | rfl | zero := sign_cases negative rank
    · rw [Bool.true_and, bne_iff_ne.mpr nonzero]
    · rfl
    · rw [zero, Binary64.signed_zero, Binary64.signed_zero]

theorem number_ofBits_exact {bits : UInt64} (h : Binary64.exponentField bits < 2047) :
    ∃ numeral : Numeral, numeral.Canonical ∧
      number (.ofBits bits) = String.ofList numeral.chars ∧ number (.ofBits bits) ≠ "-0" ∧
      ∃ negative rank, Binary64.ofBits bits = .finite negative rank ∧
        Binary64.signed negative rank = Binary64.fieldsValue bits ∧
        Binary64.RoundsTo numeral.value (.ofBits bits) := by
  obtain ⟨negative, rank, finite, value⟩ := Binary64.ofBits_of_exponent h
  obtain ⟨numeral, canonical, chars, rounds⟩ := exists_numeral_of_finite negative rank
  rw [finite]
  refine ⟨numeral, canonical, congrArg String.ofList chars, ?_, negative, rank, rfl, value, rounds⟩
  intro minus
  apply numberChars_ne_minus_zero negative rank
  have written := congrArg String.toList minus
  rw [number, String.toList_ofList] at written
  exact written

/-- The text of a finite number is a canonical numeral, never a negative zero, whose exact value
rounds to the number; and two numbers have one text only when they are equal as numbers or both
are no numbers. -/
theorem number_exact :
    (∀ bits : UInt64, Binary64.exponentField bits < 2047 →
      ∃ numeral : Numeral, numeral.Canonical ∧
        number (.ofBits bits) = String.ofList numeral.chars ∧ number (.ofBits bits) ≠ "-0" ∧
        ∃ negative rank, Binary64.ofBits bits = .finite negative rank ∧
          Binary64.signed negative rank = Binary64.fieldsValue bits ∧
          Binary64.RoundsTo numeral.value (.ofBits bits)) ∧
    ∀ v w : Binary64, number v = number w ↔ v.same w = true ∨ (v = .nan ∧ w = .nan) :=
  ⟨fun _ finite => number_ofBits_exact finite, number_eq_iff⟩

/-- The least positive number, whose fraction has over three hundred zeros. -/
theorem number_exact_least : Binary64.exponentField 1 < 2047 ∧
    ∃ numeral : Numeral, numeral.Canonical ∧
      number (.ofBits 1) = String.ofList numeral.chars ∧ number (.ofBits 1) ≠ "-0" ∧
      ∃ negative rank, Binary64.ofBits 1 = .finite negative rank ∧
        Binary64.signed negative rank = Binary64.fieldsValue 1 ∧
        Binary64.RoundsTo numeral.value (.ofBits 1) :=
  ⟨by decide, number_exact.1 1 (by decide)⟩

end Source

end SpriteScript

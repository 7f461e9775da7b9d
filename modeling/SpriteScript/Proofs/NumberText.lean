import Mathlib.Order.Monotone.Basic
import Mathlib.Tactic.Ring
import SpriteScript.Proofs.Blocks
import SpriteScript.Source.Literal

/-!
The text of a number tells the number. The decimals that read back as a magnitude form a span
around it, the spans of two magnitudes have no decimal in common, and the shortest decimal is
taken from the span. Positional notation keeps the value of a decimal, so equal texts come from
one magnitude, whichever of the two notations for whole numbers was chosen.
-/

namespace SpriteScript

namespace Binary64

theorem unitsOf_succ (rank : Nat) :
    unitsOf (rank + 1) = unitsOf rank + 2 ^ exponentOf rank := by
  by_cases same : exponentOf (rank + 1) = exponentOf rank
  · have grows : mantissaOf (rank + 1) = mantissaOf rank + 1 := by
      simp only [mantissaOf, same]
      simp only [exponentOf, Nat.pow_eq] at same ⊢
      omega
    rw [unitsOf, unitsOf, same, grows, Nat.pow_eq]
    ring
  · -- The last mantissa of a power of two is followed by the first one of the next power.
    have next : exponentOf (rank + 1) = exponentOf rank + 1 := by
      simp only [exponentOf, Nat.pow_eq] at same ⊢
      omega
    have last : mantissaOf rank = 2 ^ 53 - 1 := by
      simp only [mantissaOf, exponentOf, Nat.pow_eq] at next ⊢
      omega
    have first : mantissaOf (rank + 1) = 2 ^ 52 := by
      simp only [mantissaOf, exponentOf, Nat.pow_eq] at next ⊢
      omega
    rw [unitsOf, unitsOf, first, last, next, Nat.pow_eq, Nat.pow_eq]
    ring

theorem unitsOf_lt_succ (rank : Nat) : unitsOf rank < unitsOf (rank + 1) := by
  rw [unitsOf_succ]
  exact Nat.lt_add_of_pos_right (Nat.two_pow_pos _)

theorem unitsOf_strictMono : StrictMono unitsOf :=
  strictMono_nat_of_lt_succ unitsOf_lt_succ

end Binary64

namespace Decimal

theorem scaled_strictMono : StrictMono scaled := by
  intro r s h
  exact Nat.mul_lt_mul_of_pos_right (Binary64.unitsOf_strictMono h)
    (Nat.pow_pos (by decide))

theorem scaled_zero : scaled 0 = 0 :=
  Nat.mul_eq_zero.mpr (.inl rfl)

theorem span_holds_iff (rank point : Nat) :
    (span rank).holds point = true ↔
      (scaled (rank - 1) + scaled rank ≤ 2 * point ∧
        2 * point ≤ scaled rank + scaled (rank + 1)) ∧
      (rank % 2 = 1 → scaled (rank - 1) + scaled rank ≠ 2 * point ∧
        2 * point ≠ scaled rank + scaled (rank + 1)) := by
  by_cases even : rank % 2 = 0
  · have odd : ¬ rank % 2 = 1 := by omega
    simp [span, Span.holds, even]
  · have odd : rank % 2 = 1 := by omega
    simp [span, Span.holds, odd]
    omega

/-- Neighbouring spans touch at the midpoint between their magnitudes, and only the one of the
even rank holds it. -/
theorem span_unique_of_lt {r s point : Nat} (h : r < s) (hr : (span r).holds point = true) :
    (span s).holds point = false := by
  rw [Bool.eq_false_iff]
  intro hs
  obtain ⟨⟨_, above⟩, oddR⟩ := (span_holds_iff r point).mp hr
  obtain ⟨⟨below, _⟩, oddS⟩ := (span_holds_iff s point).mp hs
  have le₁ : scaled r ≤ scaled (s - 1) := scaled_strictMono.monotone (by omega)
  have le₂ : scaled (r + 1) ≤ scaled s := scaled_strictMono.monotone h
  by_cases next : s = r + 1
  · subst next
    simp only [Nat.add_sub_cancel] at below oddS
    have meet : 2 * point = scaled r + scaled (r + 1) := by omega
    by_cases parity : r % 2 = 1
    · exact (oddR parity).2 meet
    · exact (oddS (by omega)).1 meet.symm
  · have lt : scaled (r + 1) < scaled s := scaled_strictMono (by omega)
    omega

theorem span_unique {r s point : Nat} (hr : (span r).holds point = true)
    (hs : (span s).holds point = true) : r = s := by
  rcases Nat.lt_trichotomy r s with lt | eq | gt
  · rw [span_unique_of_lt lt hr] at hs
    contradiction
  · exact eq
  · rw [span_unique_of_lt gt hs] at hr
    contradiction

theorem span_holds_scaled (rank : Nat) : (span rank).holds (scaled rank) = true := by
  have below : scaled (rank - 1) ≤ scaled rank := scaled_strictMono.monotone (Nat.sub_le _ _)
  have above : scaled rank < scaled (rank + 1) := scaled_strictMono (Nat.lt_succ_self _)
  refine (span_holds_iff rank _).mpr ⟨by omega, fun odd => ?_⟩
  have strict : scaled (rank - 1) < scaled rank := scaled_strictMono (by omega)
  omega

/-- A decimal counted in units of 10⁻¹⁰⁷⁴. -/
def point (d : Decimal) : Nat :=
  d.coefficient * 10 ^ (d.exponent + Binary64.places).toNat

theorem point_zero (exponent : Int) : point ⟨0, exponent⟩ = 0 :=
  Nat.zero_mul _

theorem tens_eq : 10 ^ Binary64.places = Binary64.unitsInOne * pointsInUnit :=
  Nat.mul_pow 2 5 Binary64.places

theorem point_ofNat (c k : Nat) :
    point ⟨c, .ofNat k⟩ = c * 10 ^ k * 10 ^ Binary64.places := by
  have exponent : (Int.ofNat k + Binary64.places).toNat = k + Binary64.places := rfl
  rw [point, exponent, Nat.pow_add, Nat.mul_assoc]

theorem point_whole (n rank : Nat) (units : Binary64.unitsOf rank = Binary64.unitsInOne * n) :
    point ⟨n, .ofNat 0⟩ = scaled rank := by
  rw [point_ofNat, tens_eq, scaled, units]
  ring

theorem onGrid_holds {tie : Tie} {span : Span} {pitch coefficient : Nat}
    (h : onGrid tie span pitch = some coefficient) :
    span.holds (coefficient * pitch) = true := by
  simp only [onGrid] at h
  split at h
  · contradiction
  · next lower _ => cases h; exact lower
  · next _ upper => cases h; exact upper
  · next lower upper =>
    have choice : coefficient = span.middle / (2 * pitch) ∨
        coefficient = span.middle / (2 * pitch) + 1 := by
      split at h
      · cases h; exact .inl rfl
      · cases h
        cases tie
        · exact .inr rfl
        · simp only [Tie.choose]; omega
      · cases h; exact .inr rfl
    obtain rfl | rfl := choice
    · exact lower
    · exact upper

theorem search_holds (tie : Tie) (rank j : Nat) :
    -Binary64.places ≤ (search tie (span rank) j).exponent ∧
      (span rank).holds (search tie (span rank) j).point = true := by
  induction j with
  | zero =>
      refine ⟨Int.le_refl _, ?_⟩
      have half : (search tie (span rank) 0).point = scaled rank := by
        simp [search, point, span]
      rw [half]
      exact span_holds_scaled rank
  | succ j ih =>
      rw [search]
      split
      · next coefficient found =>
        refine ⟨by simp only; omega, ?_⟩
        have exponent : ((j + 1 : Int) - Binary64.places + Binary64.places).toNat = j + 1 := by
          omega
        simpa only [point, exponent, Nat.pow_eq] using onGrid_holds found
      · exact ih

theorem shortest_holds (tie : Tie) (rank : Nat) :
    -Binary64.places ≤ (shortest tie rank).exponent ∧
      (span rank).holds (shortest tie rank).point = true := by
  unfold shortest
  split
  · next zero =>
    subst zero
    have units : point ⟨0, 0⟩ = scaled 0 := by rw [point_zero, scaled_zero]
    refine ⟨by simp, ?_⟩
    rw [units]
    exact span_holds_scaled 0
  · exact search_holds tie rank _

theorem digits_injective {m n : Nat} (h : digits m = digits n) : m = n := by
  have value := congrArg (Nat.ofDigitChars 10 · 0) h
  simpa only [digits, Nat.ofDigitChars_ten_toDigits] using value

theorem point_notMem_digits (n : Nat) : '.' ∉ digits n := by
  intro h
  have digit := Nat.isDigit_of_mem_toDigits (by decide) (by decide) h
  revert digit
  decide

theorem length_paddedDigits {width n : Nat} (positive : 0 < width) (h : n < 10 ^ width) :
    (paddedDigits width n).length = width := by
  have short : (digits n).length ≤ width :=
    (Nat.length_toDigits_le_iff (by decide) positive).mpr h
  simp only [paddedDigits, List.length_append, List.length_replicate]
  omega

theorem paddedDigits_injective {width m n : Nat}
    (h : paddedDigits width m = paddedDigits width n) : m = n := by
  have value := congrArg (Nat.ofDigitChars 10 · 0) h
  simpa only [paddedDigits, Nat.ofDigitChars_append, Nat.ofDigitChars_replicate_zero,
    Nat.mul_zero, digits, Nat.ofDigitChars_ten_toDigits] using value

theorem positional_whole (n : Nat) : positional ⟨n, .ofNat 0⟩ = digits n :=
  congrArg digits (Nat.mul_one n)

/-- A fraction has as many digits as places, so the text tells the exponent too. -/
theorem positional_fraction_injective {c c' k k' : Nat}
    (h : positional ⟨c, .negSucc k⟩ = positional ⟨c', .negSucc k'⟩) : c = c' ∧ k = k' := by
  simp only [positional, Nat.pow_eq] at h
  obtain ⟨whole, fraction⟩ :=
    append_mark_inj (point_notMem_digits _) (point_notMem_digits _) h
  have below (c k : Nat) : c % 10 ^ (k + 1) < 10 ^ (k + 1) :=
    Nat.mod_lt _ (Nat.pow_pos (by decide))
  have width := congrArg List.length fraction
  rw [length_paddedDigits (Nat.succ_pos k) (below c k),
    length_paddedDigits (Nat.succ_pos k') (below c' k')] at width
  obtain rfl : k = k' := Nat.succ.inj width
  refine ⟨?_, rfl⟩
  rw [← Nat.div_add_mod c (10 ^ (k + 1)), ← Nat.div_add_mod c' (10 ^ (k + 1)),
    digits_injective whole, paddedDigits_injective fraction]

theorem point_eq_of_positional_eq {d e : Decimal} (hd : -Binary64.places ≤ d.exponent)
    (he : -Binary64.places ≤ e.exponent) (h : d.positional = e.positional) : d.point = e.point := by
  obtain ⟨c, x⟩ := d
  obtain ⟨c', y⟩ := e
  cases x with
  | ofNat k =>
      cases y with
      | ofNat l =>
          have value : c * 10 ^ k = c' * 10 ^ l := digits_injective h
          rw [point_ofNat, point_ofNat, value]
      | negSucc l =>
          have found : '.' ∈ digits (c * 10 ^ k) := by
            change digits (c * 10 ^ k) = _ at h
            simp [h, positional]
          exact absurd found (point_notMem_digits _)
  | negSucc k =>
      cases y with
      | ofNat l =>
          have found : '.' ∈ digits (c' * 10 ^ l) := by
            change _ = digits (c' * 10 ^ l) at h
            simp [← h, positional]
          exact absurd found (point_notMem_digits _)
      | negSucc l =>
          obtain ⟨rfl, rfl⟩ := positional_fraction_injective h
          rfl

end Decimal

namespace Source

open Decimal

theorem magnitudeChars_cases (rank : Nat) :
    (∃ n, Binary64.unitsOf rank = Binary64.unitsInOne * n ∧ magnitudeChars rank = digits n) ∨
      magnitudeChars rank = (shortest .upward rank).positional := by
  by_cases whole : Binary64.unitsOf rank % Binary64.unitsInOne = 0 ∧
      Binary64.unitsOf rank < integerLimit
  · obtain ⟨n, units⟩ := Nat.dvd_of_mod_eq_zero whole.1
    have quotient : Binary64.unitsOf rank / Binary64.unitsInOne = n := by
      rw [units, Nat.mul_div_cancel_left n Binary64.unitsInOne_pos]
    refine .inl ⟨n, units, ?_⟩
    simp only [magnitudeChars, if_pos whole, quotient]
  · refine .inr ?_
    simp only [magnitudeChars, if_neg whole]

/-- A whole number below the limit is written as it is, which is a decimal of its span as well. -/
theorem magnitudeChars_eq_positional (rank : Nat) :
    ∃ d : Decimal, (0 ≤ d.exponent ∨ d = shortest .upward rank) ∧ -Binary64.places ≤ d.exponent ∧
      (span rank).holds d.point = true ∧ magnitudeChars rank = d.positional := by
  obtain ⟨n, units, text⟩ | text := magnitudeChars_cases rank
  · refine ⟨⟨n, .ofNat 0⟩, .inl (Int.le_refl 0), by simp, ?_, ?_⟩
    · rw [point_whole n rank units]
      exact span_holds_scaled rank
    · rw [text, positional_whole]
  · obtain ⟨lowest, holds⟩ := shortest_holds .upward rank
    exact ⟨shortest .upward rank, .inr rfl, lowest, holds, text⟩

theorem magnitudeChars_injective {r s : Nat} (h : magnitudeChars r = magnitudeChars s) :
    r = s := by
  obtain ⟨d, _, hd, holds, text⟩ := magnitudeChars_eq_positional r
  obtain ⟨e, _, he, holds', text'⟩ := magnitudeChars_eq_positional s
  rw [text, text'] at h
  rw [point_eq_of_positional_eq hd he h] at holds
  exact span_unique holds holds'

theorem positional_chars {d : Decimal} {c : Char} (h : c ∈ d.positional) :
    c.isDigit = true ∨ c = '.' := by
  have digit {n : Nat} (h : c ∈ digits n) : c.isDigit = true :=
    Nat.isDigit_of_mem_toDigits (by decide) (by decide) h
  unfold positional at h
  split at h
  · exact .inl (digit h)
  · simp only [paddedDigits, List.mem_append, List.mem_cons, List.mem_replicate] at h
    obtain h | h | ⟨_, h⟩ | h := h
    · exact .inl (digit h)
    · exact .inr h
    · exact .inl (by rw [h]; decide)
    · exact .inl (digit h)

theorem magnitudeChars_chars {rank : Nat} {c : Char} (h : c ∈ magnitudeChars rank) :
    c.isDigit = true ∨ c = '.' := by
  obtain ⟨d, _, _, _, text⟩ := magnitudeChars_eq_positional rank
  rw [text] at h
  exact positional_chars h

theorem numberChars_finite (negative : Bool) (rank : Rank) :
    numberChars (.finite negative rank) =
      if (negative && rank.val != 0) = true then '-' :: magnitudeChars rank.val
      else magnitudeChars rank.val :=
  rfl

theorem numberChars_negative {rank : Rank} (h : rank.val ≠ 0) :
    numberChars (.finite true rank) = '-' :: magnitudeChars rank.val := by
  rw [numberChars_finite, if_pos]
  rw [Bool.true_and, bne_iff_ne]
  exact h

theorem numberChars_unsigned {negative : Bool} {rank : Rank}
    (h : negative = false ∨ rank.val = 0) :
    numberChars (.finite negative rank) = magnitudeChars rank.val := by
  rw [numberChars_finite, if_neg]
  rw [Bool.and_eq_true, bne_iff_ne]
  rintro ⟨rfl, nonzero⟩
  exact h.elim Bool.noConfusion nonzero

theorem sign_cases (negative : Bool) (rank : Rank) :
    (negative = true ∧ rank.val ≠ 0) ∨ (negative = false ∨ rank.val = 0) := by
  cases negative with
  | false => exact .inr (.inl rfl)
  | true =>
      by_cases zero : rank.val = 0
      · exact .inr (.inr zero)
      · exact .inl ⟨rfl, zero⟩

theorem numberChars_finite_chars {negative : Bool} {rank : Rank} {c : Char}
    (h : c ∈ numberChars (.finite negative rank)) : c.isDigit = true ∨ c = '.' ∨ c = '-' := by
  obtain ⟨rfl, nonzero⟩ | unsigned := sign_cases negative rank
  · rw [numberChars_negative nonzero, List.mem_cons] at h
    obtain h | h := h
    · exact .inr (.inr h)
    · exact (magnitudeChars_chars h).imp_right .inl
  · rw [numberChars_unsigned unsigned] at h
    exact (magnitudeChars_chars h).imp_right .inl

theorem numberChars_finite_injective {a b : Bool} {m n : Rank}
    (h : numberChars (.finite a m) = numberChars (.finite b n)) :
    Binary64.same (.finite a m) (.finite b n) = true := by
  have minus (rank : Nat) : '-' ∉ magnitudeChars rank := by
    intro mem
    have digit := magnitudeChars_chars mem
    revert digit
    decide
  have same (rank : m.val = n.val) (sign : a = b ∨ m.val = 0) :
      Binary64.same (.finite a m) (.finite b n) = true := by
    simp only [Binary64.same, Bool.and_eq_true, Bool.or_eq_true, beq_iff_eq]
    exact ⟨Fin.ext rank, sign⟩
  obtain ⟨rfl, hm⟩ | hm := sign_cases a m <;> obtain ⟨rfl, hn⟩ | hn := sign_cases b n
  · rw [numberChars_negative hm, numberChars_negative hn] at h
    exact same (magnitudeChars_injective (List.tail_eq_of_cons_eq h)) (.inl rfl)
  · rw [numberChars_negative hm, numberChars_unsigned hn] at h
    exact absurd (h ▸ List.mem_cons_self) (minus _)
  · rw [numberChars_unsigned hm, numberChars_negative hn] at h
    exact absurd (h ▸ List.mem_cons_self) (minus _)
  · rw [numberChars_unsigned hm, numberChars_unsigned hn] at h
    have rank := magnitudeChars_injective h
    refine same rank ?_
    obtain rfl | zero := hm
    · obtain rfl | zero := hn
      · exact .inl rfl
      · exact .inr (rank.trans zero)
    · exact .inr zero

/-- The characters that number literals are made of. -/
def isNumeral (c : Char) : Bool :=
  c.isDigit || ['.', '-', ':', 'F', 'l', 'o', 'a', 't', 'N', 'A', 'I', 'T', 'Y'].contains c

theorem isNumeral_of_mem {value : Binary64} {c : Char} (h : c ∈ numberChars value) :
    isNumeral c = true := by
  cases value with
  | nan =>
      have all : (numberChars .nan).all isNumeral = true := by decide
      exact List.all_eq_true.mp all c h
  | infinite negative =>
      have all : ∀ negative, (numberChars (.infinite negative)).all isNumeral = true := by decide
      exact List.all_eq_true.mp (all negative) c h
  | finite negative rank =>
      obtain digit | rfl | rfl := numberChars_finite_chars h
      · simp only [isNumeral, digit, Bool.true_or]
      · decide
      · decide

theorem notMem_numberChars {c : Char} (h : isNumeral c = false) (value : Binary64) :
    c ∉ numberChars value := by
  intro mem
  rw [isNumeral_of_mem mem] at h
  contradiction

theorem numberChars_finite_ne {negative : Bool} {rank : Rank} {value : Binary64}
    (other : 'F' ∈ numberChars value) :
    numberChars (.finite negative rank) ≠ numberChars value := by
  intro h
  rw [← h] at other
  have digit := numberChars_finite_chars other
  revert digit
  decide

theorem numberChars_eq_of_same {v w : Binary64} (h : v.same w = true) :
    numberChars v = numberChars w := by
  cases v with
  | nan => simp [Binary64.same] at h
  | infinite a =>
      cases w with
      | infinite b =>
          obtain rfl : a = b := by simpa [Binary64.same] using h
          rfl
      | nan | finite _ _ => simp [Binary64.same] at h
  | finite a m =>
      cases w with
      | finite b n =>
          simp only [Binary64.same, Bool.and_eq_true, Bool.or_eq_true, beq_iff_eq] at h
          obtain ⟨rfl, rfl | zero⟩ := h
          · rfl
          · rw [numberChars_unsigned (.inr zero), numberChars_unsigned (.inr zero)]
      | nan | infinite _ => simp [Binary64.same] at h

/-- The text of a number tells it up to the sign of zero. -/
theorem number_eq_iff (v w : Binary64) :
    number v = number w ↔ v.same w = true ∨ (v = .nan ∧ w = .nan) := by
  rw [number, number, String.ofList_inj]
  constructor
  · intro h
    cases v with
    | nan =>
        cases w with
        | nan => exact .inr ⟨rfl, rfl⟩
        | infinite b => revert b; decide
        | finite b n => exact absurd h.symm (numberChars_finite_ne (by decide))
    | infinite a =>
        have mark : ∀ a, 'F' ∈ numberChars (.infinite a) := by decide
        cases w with
        | nan => revert a; decide
        | infinite b => revert a b; decide
        | finite b n => exact absurd h.symm (numberChars_finite_ne (mark a))
    | finite a m =>
        have mark : ∀ b, 'F' ∈ numberChars (.infinite b) := by decide
        cases w with
        | nan => exact absurd h (numberChars_finite_ne (by decide))
        | infinite b => exact absurd h (numberChars_finite_ne (mark b))
        | finite b n => exact .inl (numberChars_finite_injective h)
  · rintro (same | ⟨rfl, rfl⟩)
    · exact numberChars_eq_of_same same
    · rfl

end Source

end SpriteScript

import Mathlib.Tactic.Ring
import SpriteScript.Proofs.NumberText

/-!
The search for the shortest decimal. A span is an interval around its magnitude, so a grid that
has a point in it has one of the two neighbours of the magnitude in it, and the search stops at
the coarsest such grid. Hence the coefficient found never ends in a zero; and a whole number of
at most 2⁵³ is found on the grid of the whole numbers or as a multiple of ten, always as itself.
-/

namespace SpriteScript

namespace Binary64

theorem mantissaOf_pos {rank : Nat} (h : rank ≠ 0) : 0 < mantissaOf rank := by
  simp only [mantissaOf, exponentOf, Nat.pow_eq]
  omega

theorem unitsOf_pos {rank : Nat} (h : rank ≠ 0) : 0 < unitsOf rank :=
  Nat.mul_pos (mantissaOf_pos h) (Nat.two_pow_pos _)

theorem unitsOf_succ_le {rank : Nat} (h : rank ≠ 0) : unitsOf (rank + 1) ≤ 2 * unitsOf rank := by
  have step : 2 ^ exponentOf rank ≤ unitsOf rank := by
    rw [unitsOf]
    exact Nat.le_mul_of_pos_left _ (mantissaOf_pos h)
  rw [unitsOf_succ]
  omega

/-- A magnitude with an exponent has a mantissa of 53 bits. -/
theorem exponentOf_le {rank k : Nat} (h : unitsOf rank < 2 ^ (53 + k)) : exponentOf rank ≤ k := by
  apply Nat.le_of_not_lt
  intro greater
  have mantissa : 2 ^ 52 ≤ mantissaOf rank := by
    simp only [mantissaOf, exponentOf, Nat.pow_eq] at greater ⊢
    omega
  have units : 2 ^ (53 + k) ≤ unitsOf rank := by
    calc 2 ^ (53 + k) = 2 ^ 52 * 2 ^ (k + 1) := by rw [← Nat.pow_add]; congr 1; omega
      _ ≤ mantissaOf rank * 2 ^ exponentOf rank :=
          Nat.mul_le_mul mantissa (Nat.pow_le_pow_right (by decide) greater)
      _ = unitsOf rank := rfl
  omega

end Binary64

namespace Decimal

theorem span_middle (rank : Nat) : (span rank).middle = 2 * scaled rank := by
  simp only [span]

theorem span_holds_between {rank a b point : Nat} (ha : (span rank).holds a = true)
    (hb : (span rank).holds b = true) (below : a ≤ point) (above : point ≤ b) :
    (span rank).holds point = true := by
  rw [span_holds_iff] at ha hb ⊢
  refine ⟨by omega, fun odd => ?_⟩
  have low := ha.2 odd
  have high := hb.2 odd
  omega

theorem span_holds_zero {rank : Nat} (h : rank ≠ 0) : (span rank).holds 0 = false := by
  have positive : scaled 0 < scaled rank := scaled_strictMono (Nat.pos_of_ne_zero h)
  rw [Bool.eq_false_iff, Ne, span_holds_iff]
  omega

theorem le_of_span_holds {rank point : Nat} (nonzero : rank ≠ 0)
    (h : (span rank).holds point = true) : point ≤ 2 * scaled rank := by
  have next : scaled (rank + 1) ≤ 2 * scaled rank := by
    rw [scaled, scaled, ← Nat.mul_assoc]
    exact Nat.mul_le_mul_right _ (Binary64.unitsOf_succ_le nonzero)
  rw [span_holds_iff] at h
  omega

/-- Whether a point of the grid of the given pitch reads back as the magnitude. -/
def Meets (rank pitch : Nat) : Prop :=
  ∃ coefficient, (span rank).holds (coefficient * pitch) = true

theorem onGrid_eq_none {tie : Tie} {span : Span} {pitch : Nat}
    (h : onGrid tie span pitch = none) :
    span.holds (span.middle / (2 * pitch) * pitch) = false ∧
      span.holds ((span.middle / (2 * pitch) + 1) * pitch) = false := by
  simp only [onGrid] at h
  split at h
  · next lower upper => exact ⟨lower, upper⟩
  · contradiction
  · contradiction
  · split at h <;> contradiction

/-- A middle that lies on the grid is its own nearest point. -/
theorem onGrid_of_middle {tie : Tie} {span : Span} {pitch coefficient : Nat}
    (positive : 0 < pitch) (middle : span.middle = 2 * (coefficient * pitch))
    (self : span.holds (coefficient * pitch) = true) :
    onGrid tie span pitch = some coefficient := by
  have lower : span.middle / (2 * pitch) = coefficient := by
    rw [middle, Nat.mul_div_mul_left _ _ Nat.two_pos, Nat.mul_div_cancel _ positive]
  have nearer : compare span.middle ((2 * coefficient + 1) * pitch) = .lt := by
    rw [Nat.compare_eq_lt, middle, Nat.add_mul, Nat.mul_assoc]
    omega
  simp only [onGrid, lower, self]
  cases span.holds ((coefficient + 1) * pitch) with
  | false => rfl
  | true => simp only [nearer]

theorem onGrid_ne_none {tie : Tie} {rank pitch : Nat} (positive : 0 < pitch)
    (h : Meets rank pitch) : onGrid tie (span rank) pitch ≠ none := by
  intro missed
  obtain ⟨coefficient, holds⟩ := h
  obtain ⟨lower, upper⟩ := onGrid_eq_none missed
  rw [span_middle, Nat.mul_div_mul_left _ _ Nat.two_pos] at lower upper
  have self := span_holds_scaled rank
  generalize scaled rank = middle at lower upper self
  have floor : middle / pitch * pitch ≤ middle := Nat.div_mul_le_self _ _
  have ceiling : middle ≤ (middle / pitch + 1) * pitch :=
    Nat.le_of_lt (Nat.lt_mul_of_div_lt (Nat.lt_succ_self _) positive)
  -- The neighbour on the side of the point lies between the point and the magnitude.
  rcases Nat.lt_or_ge (middle / pitch) coefficient with greater | less
  · rw [span_holds_between self holds ceiling (Nat.mul_le_mul_right _ greater)] at upper
    contradiction
  · rw [span_holds_between holds self (Nat.mul_le_mul_right _ less) floor] at lower
    contradiction

theorem onGrid_exact {tie : Tie} {rank pitch coefficient : Nat} (positive : 0 < pitch)
    (exact : scaled rank = coefficient * pitch) :
    onGrid tie (span rank) pitch = some coefficient := by
  apply onGrid_of_middle positive
  · rw [span_middle, exact]
  · rw [← exact]
    exact span_holds_scaled rank

/-- The grid on which a decimal lies, as the exponent of its pitch. -/
def grid (d : Decimal) : Nat :=
  (d.exponent + Binary64.places).toNat

theorem search_grid (tie : Tie) (rank j : Nat) :
    ((search tie (span rank) j).grid : Int) =
      (search tie (span rank) j).exponent + Binary64.places :=
  Int.toNat_of_nonneg (by have := (search_holds tie rank j).1; omega)

theorem search_coarsest {tie : Tie} {rank j : Nat} (coarser : ¬ Meets rank (10 ^ (j + 1))) :
    ¬ Meets rank (10 ^ ((search tie (span rank) j).grid + 1)) := by
  induction j with
  | zero =>
      have finest : (search tie (span rank) 0).grid = 0 := by simp [search, grid]
      rw [finest]
      exact coarser
  | succ j ih =>
      rw [search]
      split
      · next coefficient found =>
        have here : grid ⟨coefficient, (j + 1 : Int) - Binary64.places⟩ = j + 1 := by
          simp only [grid]
          omega
        rw [here]
        exact coarser
      · next missed =>
        apply ih
        intro meets
        exact onGrid_ne_none (Nat.pow_pos (by decide)) meets missed

/-- The search does not go below a grid on which there is a candidate. -/
theorem search_of_found {tie : Tie} {rank j k coefficient : Nat} (positive : 0 < k) (le : k ≤ j)
    (found : onGrid tie (span rank) (10 ^ k) = some coefficient) :
    search tie (span rank) j = ⟨coefficient, (k : Int) - Binary64.places⟩ ∨
      k < (search tie (span rank) j).grid := by
  induction j with
  | zero => omega
  | succ j ih =>
      rw [search, Nat.pow_eq]
      by_cases last : k = j + 1
      · subst last
        rw [found]
        exact .inl rfl
      · split
        · next other _ =>
          refine .inr ?_
          simp only [grid]
          omega
        · exact ih (by omega)

/-- The search begins on a grid that is coarser than the magnitude. -/
def firstGrid (rank : Nat) : Nat :=
  28 * ((Nat.log2 (scaled rank) + 1) / 93 + 1)

theorem shortest_of_ne_zero {rank : Nat} (h : rank ≠ 0) (tie : Tie) :
    shortest tie rank = search tie (span rank) (firstGrid rank) :=
  if_neg h

theorem scaled_lt_firstGrid (rank : Nat) : scaled rank < 10 ^ firstGrid rank := by
  calc scaled rank < 2 ^ (Nat.log2 (scaled rank) + 1) := Nat.lt_log2_self
    _ ≤ 2 ^ (93 * ((Nat.log2 (scaled rank) + 1) / 93 + 1)) :=
        Nat.pow_le_pow_right (by decide) (by omega)
    _ ≤ 10 ^ (28 * ((Nat.log2 (scaled rank) + 1) / 93 + 1)) := by
        rw [Nat.pow_mul, Nat.pow_mul]
        exact Nat.pow_le_pow_left (by decide) _

theorem not_meets_firstGrid {rank : Nat} (h : rank ≠ 0) :
    ¬ Meets rank (10 ^ (firstGrid rank + 1)) := by
  rintro ⟨coefficient, holds⟩
  have bound := le_of_span_holds h holds
  have first := scaled_lt_firstGrid rank
  rw [Nat.pow_succ] at holds bound
  generalize 10 ^ firstGrid rank = pitch at holds bound first
  rcases Nat.eq_zero_or_pos coefficient with rfl | positive
  · rw [Nat.zero_mul, span_holds_zero h] at holds
    contradiction
  · have least : pitch * 10 ≤ coefficient * (pitch * 10) := Nat.le_mul_of_pos_left _ positive
    omega

/-- No decimal with fewer digits behind or more zeros at its end reads back. -/
theorem shortest_coarsest {rank : Nat} (h : rank ≠ 0) (tie : Tie) :
    ¬ Meets rank (10 ^ ((shortest tie rank).grid + 1)) := by
  rw [shortest_of_ne_zero h]
  exact search_coarsest (not_meets_firstGrid h)

theorem shortest_last_digit {rank : Nat} (h : rank ≠ 0) (tie : Tie) :
    (shortest tie rank).coefficient % 10 ≠ 0 := by
  intro zero
  apply shortest_coarsest h tie
  refine ⟨(shortest tie rank).coefficient / 10, ?_⟩
  have tens : (shortest tie rank).coefficient / 10 * 10 = (shortest tie rank).coefficient :=
    Nat.div_mul_cancel (Nat.dvd_of_mod_eq_zero zero)
  have holds := (shortest_holds tie rank).2
  rw [Nat.pow_succ, Nat.mul_comm _ 10, ← Nat.mul_assoc, tens]
  exact holds

theorem scaled_succ_le {rank limit k : Nat}
    (h : Binary64.unitsOf rank < Binary64.unitsInOne * limit) (bound : limit ≤ 2 ^ (53 + k)) :
    scaled (rank + 1) ≤ scaled rank + 2 ^ k * 10 ^ Binary64.places := by
  have exponent : Binary64.exponentOf rank ≤ Binary64.places + k := by
    apply Binary64.exponentOf_le
    calc Binary64.unitsOf rank < Binary64.unitsInOne * limit := h
      _ ≤ 2 ^ Binary64.places * 2 ^ (53 + k) := Nat.mul_le_mul_left _ bound
      _ = 2 ^ (53 + (Binary64.places + k)) := by rw [← Nat.pow_add]; congr 1; omega
  have step : 2 ^ Binary64.exponentOf rank ≤ Binary64.unitsInOne * 2 ^ k := by
    calc 2 ^ Binary64.exponentOf rank ≤ 2 ^ (Binary64.places + k) :=
          Nat.pow_le_pow_right Nat.two_pos exponent
      _ = Binary64.unitsInOne * 2 ^ k := Nat.pow_add 2 Binary64.places k
  rw [scaled, scaled, Binary64.unitsOf_succ, Nat.add_mul, tens_eq, ← Nat.mul_assoc,
    Nat.mul_comm (2 ^ k)]
  exact Nat.add_le_add_left (Nat.mul_le_mul_right _ step) _

section Whole

variable {n rank : Nat} (units : Binary64.unitsOf rank = Binary64.unitsInOne * n)
include units

theorem scaled_whole : scaled rank = n * 10 ^ Binary64.places := by
  rw [← point_whole n rank units, point_ofNat, Nat.pow_zero, Nat.mul_one]

theorem rank_ne_zero_of_whole (positive : 0 < n) : rank ≠ 0 := by
  rintro rfl
  have zero : Binary64.unitsOf 0 = 0 := rfl
  rw [zero] at units
  exact absurd units.symm (Nat.mul_pos Binary64.unitsInOne_pos positive).ne'

/-- The whole numbers up to 2⁵³ are at most one apart from their neighbours among the magnitudes;
only the last one has its upper neighbour at a distance of two. -/
theorem whole_neighbours (positive : 0 < n) (small : n ≤ 2 ^ 53) :
    scaled rank ≤ scaled (rank - 1) + 2 ^ 0 * 10 ^ Binary64.places ∧
      scaled (rank + 1) ≤
        scaled rank + 2 ^ (if n = 2 ^ 53 then 1 else 0) * 10 ^ Binary64.places := by
  constructor
  · obtain ⟨before, rfl⟩ := Nat.exists_eq_succ_of_ne_zero (rank_ne_zero_of_whole units positive)
    have below : Binary64.unitsOf before < Binary64.unitsInOne * n := by
      rw [← units]
      exact Binary64.unitsOf_lt_succ before
    exact scaled_succ_le below small
  · have below : Binary64.unitsOf rank < Binary64.unitsInOne * (n + 1) := by
      rw [units]
      exact Nat.mul_lt_mul_of_pos_left (Nat.lt_succ_self n) Binary64.unitsInOne_pos
    apply scaled_succ_le below
    split <;> omega

theorem eq_whole_of_holds (positive : 0 < n) (small : n ≤ 2 ^ 53) {m : Nat}
    (h : (span rank).holds (m * 10 ^ Binary64.places) = true) :
    m = n ∨ (n = 2 ^ 53 ∧ m = n + 1) := by
  obtain ⟨below, above⟩ := whole_neighbours units positive small
  have low := ((span_holds_iff rank _).mp h).1.1
  have high := ((span_holds_iff rank _).mp h).1.2
  rw [scaled_whole units] at below above low high
  have positive : 0 < 10 ^ Binary64.places := Nat.pow_pos (by decide)
  generalize 10 ^ Binary64.places = pitch at below above low high positive
  have step {a b : Nat} (lt : a < b) : a * pitch + pitch ≤ b * pitch := by
    rw [← Nat.succ_mul]
    exact Nat.mul_le_mul_right _ lt
  have least : n ≤ m := by
    apply Nat.le_of_not_lt
    intro less
    have far := step less
    omega
  split at above
  · next last =>
    have greatest : m ≤ n + 1 := by
      apply Nat.le_of_not_lt
      intro greater
      have far := step greater
      rw [Nat.succ_mul] at far
      omega
    omega
  · refine .inl (Nat.le_antisymm ?_ least)
    apply Nat.le_of_not_lt
    intro greater
    have far := step greater
    omega

theorem shortest_whole (positive : 0 < n) (small : n ≤ 2 ^ 53) (tie : Tie) :
    (shortest tie rank).positional = digits n := by
  have nonzero := rank_ne_zero_of_whole units positive
  have found : onGrid tie (span rank) (10 ^ Binary64.places) = some n :=
    onGrid_exact (Nat.pow_pos (by decide)) (scaled_whole units)
  have first : 0 < Binary64.places := by
    rw [Binary64.places_eq]
    decide
  have start : Binary64.places ≤ firstGrid rank := by
    apply Nat.le_of_lt
    apply (Nat.pow_lt_pow_iff_right (show 1 < 10 by decide)).mp
    refine Nat.lt_of_le_of_lt ?_ (scaled_lt_firstGrid rank)
    rw [scaled_whole units]
    exact Nat.le_mul_of_pos_left _ positive
  rw [shortest_of_ne_zero nonzero]
  rcases search_of_found first start found with here | coarser
  · rw [here, Int.sub_self]
    exact positional_whole n
  · -- A multiple of ten in the span is the number itself, since 2⁵³ + 1 is none.
    obtain ⟨_, holds⟩ := search_holds tie rank (firstGrid rank)
    have exponent := search_grid tie rank (firstGrid rank)
    generalize search tie (span rank) (firstGrid rank) = d at coarser holds exponent
    obtain ⟨k, power⟩ : ∃ k : Nat, d.exponent = .ofNat (k + 1) := by
      refine ⟨d.grid - Binary64.places - 1, ?_⟩
      simp only [Int.ofNat_eq_natCast]
      omega
    obtain ⟨c, _⟩ := d
    subst power
    rw [point_ofNat] at holds
    have value : c * 10 ^ (k + 1) = n := by
      rcases eq_whole_of_holds units positive small holds with same | ⟨last, next⟩
      · exact same
      · rw [Nat.pow_succ, ← Nat.mul_assoc] at next
        omega
    exact congrArg digits value

end Whole

end Decimal

end SpriteScript

import Mathlib.Algebra.Group.Nat.Defs
import SpriteScript.Json.Reader
import SpriteScript.Proofs.KeyedLaws

/-!
What holds of every value that is read from a text: its numbers are finite and the keys of each
object are distinct. A whole number has at most 64 bits, so it is in range; a real number is
refused when it is not; and a repeated key replaces the value in its place.
-/

namespace SpriteScript

namespace Binary64

theorem halfEven_le (num den : Nat) : halfEven num den ≤ num / den + 1 := by
  unfold halfEven
  dsimp only
  split
  · omega
  · split <;> omega

theorem mantissa_lt (units : Nat) : units / 2 ^ (Nat.log2 units - 52) < 2 ^ 53 := by
  rw [Nat.div_lt_iff_lt_mul (Nat.two_pow_pos _), ← Nat.pow_add]
  exact Nat.lt_of_lt_of_le Nat.lt_log2_self (Nat.pow_le_pow_right (by decide) (by omega))

theorem rounded_lt {units k : Nat} (h : units < 2 ^ k) :
    (Nat.log2 units - 52) * 2 ^ 52 + halfEven units (2 ^ (Nat.log2 units - 52)) <
      (k + 3) * 2 ^ 52 := by
  have rounded := halfEven_le units (2 ^ (Nat.log2 units - 52))
  have quotient := mantissa_lt units
  have exponent : Nat.log2 units ≤ k := by
    by_cases zero : units = 0
    · simp [zero]
    · exact Nat.le_of_lt ((Nat.log2_lt zero).mpr h)
  omega

theorem shifted_lt {n k : Nat} (h : n < 2 ^ k) (shift : Nat) : n * 2 ^ shift < 2 ^ (k + shift) := by
  rw [Nat.pow_add]
  exact Nat.mul_lt_mul_of_pos_right h (Nat.two_pow_pos shift)

theorem nearestRank_one (n : Nat) :
    nearestRank n 1 = (Nat.log2 (n * unitsInOne) - 52) * 2 ^ 52 +
      halfEven (n * unitsInOne) (2 ^ (Nat.log2 (n * unitsInOne) - 52)) := by
  rw [nearestRank, Nat.div_one, Nat.one_mul]
  simp only [Nat.pow_eq]

theorem nearestRank_lt {n : Nat} (h : n < 2 ^ 64) : nearestRank n 1 < 2047 * Nat.pow 2 52 := by
  have bound := rounded_lt (shifted_lt h places)
  rw [nearestRank_one]
  refine Nat.lt_trans bound ?_
  rw [places_eq]
  decide

theorem isFinite_ofRatio {n : Nat} (h : n < 2 ^ 64) (negative : Bool) :
    (ofRatio negative n 1).isFinite = true := by
  rw [ofRatio, rank?, dif_pos (nearestRank_lt h)]
  rfl

end Binary64

namespace Json

/-- Whether a number is finite when it is rounded. -/
def Number.Finite (number : Number) : Prop :=
  number.toBinary64.isFinite = true

theorem Number.finite_unsigned (value : UInt64) : (unsigned value).Finite :=
  Binary64.isFinite_ofRatio value.toNat_lt false

theorem Number.finite_negative (value : Int64) : (negative value).Finite := by
  apply Binary64.isFinite_ofRatio
  have low := value.le_toInt
  have high := value.toInt_lt
  omega

/-- Whether all that a reader gives has a property. -/
def Gives {α : Type} (P : α → Prop) (result : Except Fault (α × List Char)) : Prop :=
  ∀ value rest, result = .ok (value, rest) → P value

theorem gives_ok {α : Type} {P : α → Prop} {value : α} (h : P value) (rest : List Char) :
    Gives P (.ok (value, rest)) := by
  rintro _ _ ⟨⟩
  exact h

theorem gives_error {α : Type} {P : α → Prop} (fault : Fault) : Gives P (.error fault) := by
  rintro _ _ ⟨⟩

theorem gives_map {α β : Type} {P : α → Prop} {Q : β → Prop} {f : α → β}
    {result : Except Fault (α × List Char)} (h : Gives P result)
    (hf : ∀ value, P value → Q (f value)) :
    Gives Q (result.map fun (value, rest) => (f value, rest)) := by
  cases result with
  | error fault => exact gives_error fault
  | ok read => exact gives_ok (hf _ (h _ _ rfl)) _

section Numbers

variable {negative : Bool} {significand dropped : Nat} {shift : Int} {text : List Char}

theorem real_finite : Gives Number.Finite (real negative significand shift text) := by
  rw [real]
  cases scaleByTen significand shift with
  | none => exact gives_error _
  | some rank => exact gives_ok (show Number.Finite (.real (.finite negative rank)) from rfl) _

theorem whole_finite : Gives Number.Finite (whole negative significand text) := by
  unfold whole
  split
  · exact gives_ok (Number.finite_unsigned _) _
  · split
    · exact real_finite
    · exact gives_ok (Number.finite_negative _) _

theorem exponentPart_finite :
    Gives Number.Finite (exponentPart negative significand shift text) := by
  unfold exponentPart
  split
  split
  · exact gives_error _
  · split
    · exact gives_error _
    · split
      · exact real_finite
      · split
        · exact gives_error _
        · exact real_finite

theorem finishReal_finite : Gives Number.Finite (finishReal negative significand shift text) := by
  unfold finishReal
  split
  · exact exponentPart_finite
  · exact exponentPart_finite
  · exact real_finite

theorem fractionPart_finite :
    Gives Number.Finite (fractionPart negative significand shift text) := by
  unfold fractionPart
  split
  · exact gives_error _
  · split
    · exact gives_error _
    · exact finishReal_finite

theorem afterDigits_finite :
    Gives Number.Finite (afterDigits negative significand dropped text) := by
  unfold afterDigits
  split
  · exact fractionPart_finite
  · exact exponentPart_finite
  · exact exponentPart_finite
  · split
    · exact whole_finite
    · exact real_finite

theorem number_finite : Gives Number.Finite (number negative text) := by
  unfold number
  split
  · exact gives_error _
  · split
    · split
      · split
        · exact gives_error _
        · exact afterDigits_finite
      · exact afterDigits_finite
    · split
      · exact afterDigits_finite
      · exact gives_error _

end Numbers

/-- A value whose numbers are finite and whose objects have distinct keys, at every depth. -/
inductive Value.Proper : Value → Prop where
  | null : Proper .null
  | bool (value : Bool) : Proper (.bool value)
  | number {value : Number} (finite : value.Finite) : Proper (.number value)
  | string (value : String) : Proper (.string value)
  | array {items : List Value} (proper : ∀ item ∈ items, Proper item) : Proper (.array items)
  | object {fields : Keyed String Value} (nodup : (Keyed.keys fields).Nodup)
      (proper : ∀ field ∈ fields, Proper field.2) : Proper (.object fields)

theorem word_gives {α : Type} {P : α → Prop} {value : α} (h : P value) (expected text : List Char) :
    Gives P (word value expected text) := by
  induction expected generalizing text with
  | nil => exact gives_ok h text
  | cons c expected ih =>
      cases text with
      | nil => exact gives_error _
      | cons d text =>
          rw [word]
          split
          · exact ih text
          · exact gives_error _

section Readers

variable {value : Reader Value} (proper : ∀ text, Gives Value.Proper (value text))
include proper

theorem itemsFrom_proper (fuel : Nat) {done : List Value} (text : List Char)
    (before : ∀ item ∈ done, item.Proper) :
    Gives (fun items : List Value => ∀ item ∈ items, item.Proper)
      (itemsFrom value fuel done text) := by
  induction fuel generalizing done text with
  | zero => exact gives_error _
  | succ fuel ih =>
      have further {start rest : List Char} {item : Value} (read : value start = .ok (item, rest)) :
          Gives (fun items : List Value => ∀ item ∈ items, item.Proper)
            (itemsFrom value fuel (item :: done) rest) :=
        ih rest (List.forall_mem_cons.mpr ⟨proper start item rest read, before⟩)
      -- Every branch stops with a fault but the closing bracket and the two that read an item.
      rw [itemsFrom]
      split
      · exact gives_error _
      · split
        · exact gives_ok (by simpa using before) _
        · split
          · split
            · exact gives_error _
            · next read => exact further read
          · split
            · exact gives_error _
            · split
              · exact gives_error _
              · split
                · exact gives_error _
                · split
                  · exact gives_error _
                  · next read => exact further read

theorem field_proper (limit : Nat) (text : List Char) :
    Gives (fun field : String × Value => field.2.Proper) (field limit value text) := by
  rw [field]
  cases string limit text with
  | error fault => exact gives_error fault
  | ok read =>
      simp only [bind, Except.bind]
      split
      · exact gives_error _
      · split
        · exact gives_error _
        · next c rest colon skipped =>
          cases item : value rest with
          | error fault => exact gives_error fault
          | ok found =>
              exact gives_ok (P := fun field : String × Value => field.2.Proper)
                (proper rest found.1 found.2 item) _

theorem fieldsFrom_proper (limit fuel : Nat) (first : Bool) {done : Keyed String Value}
    (text : List Char) (before : (Value.object done).Proper) :
    Gives (fun fields => (Value.object fields).Proper)
      (fieldsFrom limit value fuel first done text) := by
  induction fuel generalizing first done text with
  | zero => exact gives_error _
  | succ fuel ih =>
      have further {start rest : List Char} {key : String} {item : Value}
          (read : field limit value start = .ok ((key, item), rest)) :
          Gives (fun fields => (Value.object fields).Proper)
            (fieldsFrom limit value fuel false (Keyed.put key item done) rest) := by
        have itemProper := field_proper proper limit start (key, item) rest read
        cases before with
        | object nodup fieldsProper =>
            refine ih false rest (.object (Keyed.nodup_put nodup key item) ?_)
            intro entry mem
            obtain rfl | old := Keyed.mem_of_mem_put mem
            · exact itemProper
            · exact fieldsProper entry old
      rw [fieldsFrom]
      split
      · exact gives_error _
      · split
        · exact gives_ok (P := fun fields => (Value.object fields).Proper) before _
        · split
          · split
            · exact gives_error _
            · split
              · exact gives_error _
              · next read => exact further read
          · split
            · exact gives_error _
            · split
              · exact gives_error _
              · split
                · exact gives_error _
                · split
                  · exact gives_error _
                  · split
                    · exact gives_error _
                    · next read => exact further read

end Readers

theorem valueWith_proper (limit : Nat) {nested : Option (Reader Value)}
    (proper : ∀ value ∈ nested, ∀ text, Gives Value.Proper (value text)) (text : List Char) :
    Gives Value.Proper (valueWith limit nested text) := by
  rw [valueWith]
  split
  · exact gives_error _
  · next c rest skipped =>
    split
    · exact word_gives .null _ _
    split
    · exact word_gives (.bool true) _ _
    split
    · exact word_gives (.bool false) _ _
    split
    · exact gives_map number_finite fun _ => .number
    split
    · exact gives_map number_finite fun _ => .number
    split
    · exact gives_map (fun _ _ _ => trivial) fun value _ => .string value
    split
    · cases nested with
      | none => exact gives_error _
      | some value =>
          exact gives_map (itemsFrom_proper (proper value rfl) limit rest (by simp)) fun _ => .array
    split
    · cases nested with
      | none => exact gives_error _
      | some value =>
          have empty : (Value.object []).Proper := .object List.nodup_nil (by simp)
          exact gives_map (fieldsFrom_proper (proper value rfl) limit limit true rest empty)
            fun _ => id
    · exact gives_error _

theorem valueWithin_proper (limit depth : Nat) (text : List Char) :
    Gives Value.Proper (valueWithin limit depth text) := by
  induction depth generalizing text with
  | zero => exact valueWith_proper limit (by simp) text
  | succ depth ih => exact valueWith_proper limit (by simpa using ih) text

theorem parse_proper {text : String} {value : Value} (h : parse text = .ok value) :
    value.Proper := by
  rw [parse, document] at h
  have proper := valueWithin_proper (text.toList.length + 1) 127 text.toList
  cases read : valueWithin (text.toList.length + 1) 127 text.toList with
  | error fault =>
      rw [read] at h
      cases h
  | ok found =>
      rw [read] at h
      simp only [bind, Except.bind] at h
      split at h <;> cases h
      exact proper _ _ read

end Json

end SpriteScript

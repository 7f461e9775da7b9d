import SpriteScript.Proofs.LoadedEntities
import SpriteScript.Proofs.NumberExactness
import SpriteScript.Proofs.Unambiguity

/-!
How a target is written when all its numbers are finite. Every value in its call is a canonical
numeral, a quoted text, a truth value or a list of those, and no key has capital letters. So the
code has no capital F, with which the names of what is not finite begin.
-/

namespace SpriteScript

theorem Entity.Finite.entriesOf {entity : Entity} (h : entity.Finite) (kind : Kind) :
    ∀ entry ∈ entity.entriesOf kind, entry.Finite := by
  intro entry mem
  obtain ⟨keyed, inEntries, rfl⟩ := List.mem_map.mp (List.mem_of_mem_filter mem)
  exact h.entries.finite keyed inEntries

namespace Source

open Token

/-- How a single value is written. -/
inductive IsScalar : List Piece → Prop where
  | numeral {numeral : Numeral} (canonical : numeral.Canonical) :
      IsScalar [.code (String.ofList numeral.chars)]
  | quoted (text : String) : IsScalar [.quoted text]
  | bool (value : Bool) : IsScalar [.code (bool value)]

/-- How a value is written: alone, or several as a list. -/
inductive IsValue : List Piece → Prop where
  | scalar {pieces : List Piece} (single : IsScalar pieces) : IsValue pieces
  | sequence {items : List (List Piece)} (single : ∀ item ∈ items, IsScalar item) :
      IsValue (.code "[" :: List.intercalate [.code ", "] items ++ [.code "]"])

def IsKey (key : String) : Prop :=
  (key.toList.all fun c => c.isLower || c.isDigit || c == '_') = true

instance (key : String) : Decidable (IsKey key) :=
  inferInstanceAs (Decidable (_ = true))

structure Field.HasForm (field : Field) : Prop where
  key : IsKey field.key
  value : IsValue field.value

def Content.HasForm : Content → Prop
  | inline value => IsValue value
  | records items => ∀ fields ∈ items, ∀ field ∈ fields, field.HasForm

structure Argument.HasForm (argument : Argument) : Prop where
  key : IsKey argument.key
  content : argument.content.HasForm

theorem number_isScalar {value : Binary64} (finite : value.isFinite = true) :
    IsScalar [.code (number value)] := by
  cases value with
  | finite negative rank =>
      obtain ⟨numeral, canonical, chars, _⟩ := exists_numeral_of_finite negative rank
      rw [number, chars]
      exact .numeral canonical
  | nan | infinite _ => cases finite

theorem repr_isScalar (n : Nat) : IsScalar [.code (Nat.repr n)] := by
  have chars : Nat.repr n = String.ofList (Numeral.chars ⟨false, Decimal.digits n, []⟩) := by
    rw [← String.toList_inj, Nat.toList_repr, String.toList_ofList]
    simp [Numeral.chars, Decimal.digits]
  rw [chars]
  exact .numeral (Decimal.canonical_digits false n)

theorem scalarPieces_isScalar {value : Literal} (finite : value.Finite) :
    IsScalar (scalarPieces value) := by
  cases value with
  | number value => exact number_isScalar finite
  | text value => exact .quoted value
  | bool value => exact .bool value

theorem entryValue_isValue {entry : Entry} (finite : entry.Finite) :
    IsValue (entryValue entry) := by
  cases entry with
  | scalar name value => exact .scalar (scalarPieces_isScalar finite)
  | list name items =>
      refine .sequence ?_
      intro pieces mem
      obtain ⟨item, inItems, rfl⟩ := List.mem_map.mp mem
      exact scalarPieces_isScalar (finite item inItems)

theorem textField_hasForm {key : String} (h : IsKey key) (text : String) :
    (textField key text).HasForm :=
  ⟨h, .scalar (.quoted text)⟩

theorem numberField_hasForm {key : String} (h : IsKey key) {value : Binary64}
    (finite : value.isFinite = true) : (numberField key value).HasForm :=
  ⟨h, .scalar (number_isScalar finite)⟩

theorem costumeRecord_hasForm {costume : Costume} (finite : costume.Finite) :
    ∀ field ∈ costumeRecord costume, field.HasForm := by
  simp only [costumeRecord, List.forall_mem_cons]
  exact ⟨textField_hasForm (by decide) _, textField_hasForm (by decide) _,
    numberField_hasForm (by decide) finite.bitmapResolution, textField_hasForm (by decide) _,
    textField_hasForm (by decide) _, numberField_hasForm (by decide) finite.rotationCenterX,
    numberField_hasForm (by decide) finite.rotationCenterY, by simp⟩

theorem entryRecord_hasForm {entry : Entry} (finite : entry.Finite) :
    ∀ field ∈ entryRecord entry, field.HasForm := by
  have key : IsKey "value" := by decide
  rw [entryRecord, List.forall_mem_cons]
  exact ⟨textField_hasForm (by decide) _, optional_forall ⟨key, entryValue_isValue finite⟩⟩

theorem optional_hasForm {p : Prop} [Decidable p] {key : String} {content : Content}
    (hk : IsKey key) (hc : content.HasForm) :
    ∀ argument ∈ (if p then [] else [(⟨key, content⟩ : Argument)]), argument.HasForm :=
  optional_forall ⟨hk, hc⟩

theorem arguments_hasForm {entity : Entity} (finite : entity.Finite) :
    ∀ argument ∈ arguments entity, argument.HasForm := by
  have number {value : Binary64} (h : value.isFinite = true) :
      (Content.inline [.code (number value)]).HasForm := .scalar (number_isScalar h)
  have costumes : (Content.records (entity.costumes.map costumeRecord)).HasForm := by
    simpa [Content.HasForm] using fun costume mem =>
      costumeRecord_hasForm (finite.costumes costume mem)
  have entries (kind : Kind) :
      (Content.records ((entity.entriesOf kind).map entryRecord)).HasForm := by
    simpa [Content.HasForm] using fun entry mem =>
      entryRecord_hasForm (finite.entriesOf kind entry mem)
  simp only [arguments, numberArgument, recordsArgument, List.forall_mem_append, and_assoc]
  exact ⟨optional_hasForm (by decide) (number finite.x),
    optional_hasForm (by decide) (number finite.y),
    optional_hasForm (by decide) (number finite.direction),
    optional_hasForm (by decide) (.scalar (.bool _)),
    optional_hasForm (by decide) (number finite.size),
    optional_hasForm (by decide) (.scalar (repr_isScalar _)),
    optional_hasForm (by decide) costumes, optional_hasForm (by decide) (.scalar (.quoted _)),
    optional_hasForm (by decide) (entries .scalar), optional_hasForm (by decide) (entries .list)⟩

/-- No capital F stands in the code of some pieces. -/
def NoConstant (pieces : List Piece) : Prop :=
  sign 'F' ∉ tokens pieces

instance (pieces : List Piece) : Decidable (NoConstant pieces) :=
  inferInstanceAs (Decidable (¬ _))

theorem NoConstant.absent {pieces : List Piece} (h : NoConstant pieces) :
    ¬ "Float::".toList.map sign <:+: tokens pieces := by
  intro inside
  exact h (inside.subset (by decide))

section

variable {pieces pieces' : List Piece} {s : String}

theorem noConstant_nil : NoConstant [] := by
  simp [NoConstant]

theorem noConstant_append :
    NoConstant (pieces ++ pieces') ↔ NoConstant pieces ∧ NoConstant pieces' := by
  simp [NoConstant]

theorem noConstant_code :
    NoConstant (.code s :: pieces) ↔ 'F' ∉ s.toList ∧ NoConstant pieces := by
  simp [NoConstant, Piece.tokens]

theorem noConstant_quoted : NoConstant (.quoted s :: pieces) ↔ NoConstant pieces := by
  simp [NoConstant, Piece.tokens]

theorem noConstant_flatMap {α : Type} {f : α → List Piece} {xs : List α} :
    NoConstant (xs.flatMap f) ↔ ∀ x ∈ xs, NoConstant (f x) := by
  have each : tokens (xs.flatMap f) = xs.flatMap fun x => tokens (f x) := List.flatMap_assoc
  simp [NoConstant, each]

theorem noConstant_intercalate {parts : List (List Piece)} (separator : 'F' ∉ s.toList)
    (h : ∀ part ∈ parts, NoConstant part) : NoConstant (List.intercalate [.code s] parts) := by
  induction parts with
  | nil => exact noConstant_nil
  | cons part parts ih =>
      rw [List.forall_mem_cons] at h
      cases parts with
      | nil => simpa using h.1
      | cons next parts =>
          rw [List.intercalate_cons_cons, noConstant_append, noConstant_append, noConstant_code]
          exact ⟨⟨h.1, separator, noConstant_nil⟩, ih h.2⟩

end

theorem notMem_of_isKey {key : String} (h : IsKey key) : 'F' ∉ key.toList := by
  intro mem
  exact absurd (List.all_eq_true.mp h 'F' mem) (by decide)

theorem notMem_of_canonical {numeral : Numeral} (h : numeral.Canonical) :
    'F' ∉ numeral.chars := by
  have digits {cs : List Char} (all : ∀ c ∈ cs, c.isDigit = true) : 'F' ∉ cs :=
    fun mem => absurd (all 'F' mem) (by decide)
  have negative : 'F' ∉ (if numeral.negative then ['-'] else []) := by
    cases numeral.negative <;> decide
  have fraction : 'F' ∉ (if numeral.fraction = [] then [] else '.' :: numeral.fraction) := by
    split
    · simp
    · simpa using digits h.fraction_digits
  simp only [Numeral.chars, List.mem_append, negative, digits h.whole_digits, fraction, or_self,
    not_false_eq_true]

theorem IsScalar.noConstant {pieces : List Piece} (h : IsScalar pieces) : NoConstant pieces := by
  cases h with
  | numeral canonical =>
      rw [noConstant_code, String.toList_ofList]
      exact ⟨notMem_of_canonical canonical, noConstant_nil⟩
  | quoted text => exact noConstant_quoted.mpr noConstant_nil
  | bool value =>
      rw [noConstant_code]
      exact ⟨by revert value; decide, noConstant_nil⟩

theorem IsValue.noConstant {pieces : List Piece} (h : IsValue pieces) : NoConstant pieces := by
  cases h with
  | scalar single => exact single.noConstant
  | sequence single =>
      rw [noConstant_append, noConstant_code, noConstant_code]
      exact ⟨⟨by decide, noConstant_intercalate (by decide) fun item mem =>
        (single item mem).noConstant⟩, by decide, noConstant_nil⟩

theorem noConstant_keyed {key : String} {value : List Piece} {mark : Piece} (hk : IsKey key)
    (hv : IsValue value) (hm : NoConstant [mark]) :
    NoConstant (.code key :: .code ": " :: value ++ [mark]) := by
  rw [noConstant_append, noConstant_code, noConstant_code]
  exact ⟨⟨notMem_of_isKey hk, by decide, hv.noConstant⟩, hm⟩

theorem noConstant_mark {α : Type} {last : Piece} {xs : List α} {x : α} {mark : Piece}
    (h : (x, mark) ∈ punctuate (.code ",") last xs) (hl : NoConstant [last]) :
    NoConstant [mark] := by
  obtain rfl | rfl := (mem_punctuate h).2
  · exact noConstant_code.mpr ⟨by decide, noConstant_nil⟩
  · exact hl

theorem recordLines_noConstant {fields : List Field} {mark : Piece}
    (form : ∀ field ∈ fields, field.HasForm) (hm : NoConstant [mark]) :
    ∀ line ∈ recordLines fields mark, NoConstant line.pieces := by
  intro line mem
  simp only [recordLines, List.cons_append, List.mem_cons, List.mem_append, List.mem_map,
    List.not_mem_nil, or_false] at mem
  obtain rfl | ⟨⟨field, mark'⟩, mem, rfl⟩ | rfl := mem
  · exact noConstant_code.mpr ⟨by decide, noConstant_nil⟩
  · have written := form field (mem_punctuate mem).1
    exact noConstant_keyed written.key written.value (noConstant_mark mem (by decide))
  · exact noConstant_code.mpr ⟨by decide, hm⟩

theorem Argument.lines_noConstant {argument : Argument} {mark : Piece} (form : argument.HasForm)
    (hm : NoConstant [mark]) : ∀ line ∈ argument.lines mark, NoConstant line.pieces := by
  obtain ⟨key, content⟩ := argument
  intro line mem
  cases content with
  | inline value =>
      rw [List.mem_singleton.mp mem]
      exact noConstant_keyed form.key form.content hm
  | records items =>
      simp only [Argument.lines, List.cons_append, List.mem_cons, List.mem_append,
        List.mem_flatMap, List.not_mem_nil, or_false] at mem
      obtain rfl | ⟨⟨item, mark'⟩, mem, line⟩ | rfl := mem
      · exact noConstant_code.mpr ⟨notMem_of_isKey form.key, by decide⟩
      · exact recordLines_noConstant (form.content item (mem_punctuate mem).1)
          (noConstant_mark mem (by decide)) _ line
      · exact noConstant_code.mpr ⟨by decide, hm⟩

theorem Call.noConstant {call : Call} (opening : 'F' ∉ call.opening.toList)
    (form : ∀ argument ∈ call.arguments, argument.HasForm) : NoConstant call.pieces := by
  rw [Call.pieces, noConstant_append, noConstant_flatMap]
  constructor
  · rw [Call.head, noConstant_code, noConstant_quoted, noConstant_code]
    exact ⟨opening, by split <;> decide, noConstant_nil⟩
  · intro line mem
    obtain ⟨⟨argument, mark⟩, mem, inLines⟩ := List.mem_flatMap.mp mem
    have written := form argument (mem_punctuate mem).1
    rw [Call.linePieces, noConstant_code, noConstant_code]
    refine ⟨by decide, ?_, ?_⟩
    · intro blank
      rw [String.toList_ofList] at blank
      cases List.eq_of_mem_replicate blank
    · exact Argument.lines_noConstant written (noConstant_mark mem (by decide)) _ inLines

theorem targetPieces_noConstant {targets : List Entity}
    (finite : ∀ target ∈ targets, target.Finite) : NoConstant (targetPieces targets) := by
  rw [targetPieces, noConstant_append]
  refine ⟨noConstant_intercalate (by decide) ?_, by decide⟩
  intro pieces mem
  obtain ⟨target, inTargets, rfl⟩ := List.mem_map.mp mem
  refine Call.noConstant ?_ (arguments_hasForm (finite target inTargets))
  cases role : target.isStage <;> simp only [Call.opening, call, role] <;> decide

end Source

end SpriteScript

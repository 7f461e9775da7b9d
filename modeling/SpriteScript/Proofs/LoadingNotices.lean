import Mathlib.Data.List.Infix
import Mathlib.Data.List.TakeWhile
import SpriteScript.Proofs.Acceptance
import SpriteScript.Proofs.CostumeIndex
import SpriteScript.Proofs.MergedEntries
import SpriteScript.Proofs.TargetOrder

/-!
What the loading of a project tells. Every element of the file announces itself and then warns of
what is replaced: an unknown rotation style, values of variables and items of lists that no literal
can hold, costumes that are left out. The elements tell in the order of the file, whatever order
the targets get, and an element that fails has told what stands in front of its fault.
-/

namespace SpriteScript

theorem RotationStyle.ofName?_eq_none_iff {name : String} :
    ofName? name = none ↔ name ∉ ["all around", "left-right", "don't rotate"] := by
  rw [ofName?, List.find?_eq_none]
  simp [RotationStyle.name, eq_comm]

namespace Loading

open Json (Value)

/-- The warning about a value that no literal can hold. -/
def valueNotices (target owner : String) : Value → List Notice
  | .null => [.nullValue target owner]
  | .array _ => [.nestedValue target owner]
  | .object _ => [.nestedValue target owner]
  | _ => []

/-- The warnings about the value or the items that a declaration holds. -/
def declarationNotices (target : String) : Kind → Value → List Notice
  | .scalar, .array (.string name :: value :: _) => valueNotices target name value
  | .list, .array (.string name :: .array items :: _) => items.flatMap (valueNotices target name)
  | _, _ => []

def entryNotices (target : String) (kind : Kind) (declared : Keyed String Value) : List Notice :=
  declared.flatMap fun field => declarationNotices target kind field.2

/-- The warning about a rotation style that has none of the three names. -/
def styleNotices (target : String) (value : Value) : List Notice :=
  (((value.field? "rotationStyle").bind Value.string?).filter
      (· ∉ ["all around", "left-right", "don't rotate"])).toList.map (.unknownRotation target)

/-- The warnings about costumes that are no objects, with their places. -/
def costumeNotices (target : String) (value : Value) : List Notice :=
  ((((value.field? "costumes").bind Value.array?).getD []).zipIdx.filter (!·.1.isObject)).map
    fun skipped => .skippedCostume target skipped.2

/-- What an element warns of, in order. -/
def elementWarnings (value : Value) : List Notice :=
  let name := textOf "name" value
  styleNotices name value ++ entryNotices name .scalar (declarations "variables" value) ++
    entryNotices name .list (declarations "lists" value) ++ costumeNotices name value

/-- What an element tells when it is read as a whole. -/
def elementNotices (value : Value) : List Notice :=
  .readingTarget (textOf "name" value) (marksStage value) :: elementWarnings value

/-- Whether a value has the shape of a declaration. -/
def isDeclaration : Kind → Value → Bool
  | .scalar, .array (.string _ :: _ :: _) => true
  | .list, .array (.string _ :: .array _ :: _) => true
  | _, _ => false

/-- The declarations in front of the first one that lacks the shape of its kind. -/
def wellShaped (kind : Kind) (declared : Keyed String Value) : Keyed String Value :=
  declared.takeWhile (isDeclaration kind ·.2)

/-- What an element has told when its reading ends with an error. A second stage is refused when
all of it is read, and a malformed entry tells nothing itself. -/
def noticesUntil (value : Value) (error : LoadError) : List Notice :=
  let name := textOf "name" value
  let head := .readingTarget name (marksStage value) :: styleNotices name value
  match error with
  | .malformedEntry _ .scalar _ =>
    head ++ entryNotices name .scalar (wellShaped .scalar (declarations "variables" value))
  | .malformedEntry _ .list _ =>
    head ++ entryNotices name .scalar (declarations "variables" value) ++
      entryNotices name .list (wellShaped .list (declarations "lists" value))
  | .secondStage _ _ => elementNotices value
  | _ => []

theorem isDeclaration_iff {kind : Kind} {value : Value} :
    isDeclaration kind value = true ↔ Declares kind value := by
  constructor
  · intro h
    unfold isDeclaration at h
    split at h
    · exact .scalar _ _ _
    · exact .list _ _ _
    · contradiction
  · intro h
    cases h <;> rfl

theorem wellShaped_of_declares {kind : Kind} {declared : Keyed String Value}
    (h : ∀ field ∈ declared, Declares kind field.2) : wellShaped kind declared = declared :=
  List.takeWhile_eq_self_iff.mpr fun field mem => isDeclaration_iff.mpr (h field mem)

theorem literal_notices (target owner : String) (value : Value) :
    (literal target owner value).notices = valueNotices target owner value := by
  cases value <;> rfl

theorem literals_notices (target owner : String) (values : List Value) :
    (literals target owner values).notices = values.flatMap (valueNotices target owner) := by
  induction values with
  | nil => rfl
  | cons value values ih =>
      rw [literals, Traced.bind_notices_of_ok (literal_result target owner value),
        Traced.bind_notices_of_ok (literals_result target owner values), literal_notices, ih,
        Traced.pure_notices, List.append_nil, List.flatMap_cons]

theorem declaration_notices (target : String) (kind : Kind) (id : String) (value : Value) :
    (declaration target kind id value).notices = [] := by
  unfold declaration
  split <;> rfl

/-- A malformed entry tells nothing, not even of the items of its list. -/
theorem declarationNotices_of_malformed {target : String} {kind : Kind} {value : Value}
    (h : ¬ Declares kind value) : declarationNotices target kind value = [] := by
  unfold declarationNotices
  split
  · exact absurd (.scalar _ _ _) h
  · exact absurd (.list _ _ _) h
  · rfl

theorem entry_notices (target : String) (kind : Kind) (id : String) (value : Value) :
    (entry target kind id value).notices = declarationNotices target kind value := by
  rw [entry]
  cases parted : (declaration target kind id value).result with
  | error error =>
      have malformed : ¬ Declares kind value := by
        intro declares
        cases declares <;> cases parted
      rw [Traced.bind_notices_of_error parted, declaration_notices,
        declarationNotices_of_malformed malformed]
  | ok parts =>
      obtain ⟨more, rfl⟩ := declaration_ok parted
      rw [Traced.bind_notices_of_ok parted, declaration_notices, List.nil_append]
      obtain ⟨name, part⟩ := parts
      cases kind with
      | scalar =>
          rw [declarationNotices, ← literal_notices]
          exact (Traced.bind_notices_of_ok (literal_result target name part) _).trans
            (List.append_nil _)
      | list =>
          cases part with
          | array items =>
              rw [declarationNotices, ← literals_notices]
              exact (Traced.bind_notices_of_ok (literals_result target name items) _).trans
                (List.append_nil _)
          | null | bool _ | number _ | string _ | object _ => rfl

theorem rotationStyle_notices (target : String) (value : Value) :
    (rotationStyle target value).notices = styleNotices target value := by
  rw [rotationStyle, styleNotices]
  cases (value.field? "rotationStyle").bind Value.string? with
  | none => rfl
  | some name =>
      rw [Option.elim_some, styleNamed, Option.filter_some]
      simp only [decide_eq_true_eq, ← RotationStyle.ofName?_eq_none_iff]
      cases RotationStyle.ofName? name <;> rfl

theorem costumesFrom_notices (target : String) (index : Nat) (values : List Value) :
    (costumesFrom target index values).notices =
      ((values.zipIdx index).filter (!·.1.isObject)).map fun skipped =>
        .skippedCostume target skipped.2 := by
  induction values generalizing index with
  | nil => rfl
  | cons value values ih =>
      cases value with
      | object fields =>
          have others := costumesFrom_result target (index + 1) values
          rw [costumesFrom, Traced.bind_notices_of_ok others, ih]
          simp [Value.isObject]
      | null | bool _ | number _ | string _ | array _ =>
          rw [List.zipIdx_cons, List.filter_cons_of_pos rfl, List.map_cons, ← ih]
          rfl

/-- Entries tell until the first of them is malformed, and then nothing more. -/
theorem entriesInto_notices (target : String) (kind : Kind) (entries : Keyed String Entry)
    (declared : Keyed String Value) :
    (entriesInto target kind entries declared).notices =
      entryNotices target kind (wellShaped kind declared) := by
  -- What is told does not depend on the entries that are there.
  induction declared generalizing entries with
  | nil => rfl
  | cons field declared ih =>
      obtain ⟨id, value⟩ := field
      rw [entriesInto, wellShaped]
      cases read : (entry target kind id value).result with
      | ok new =>
          have shaped : isDeclaration kind value = true :=
            isDeclaration_iff.mpr (exists_entry_ok_iff.mp ⟨new, read⟩)
          simp [Traced.bind_notices_of_ok read, entry_notices, ih, wellShaped, shaped, entryNotices]
      | error error =>
          have bad := (entry_error_iff.mp read).1
          rw [Traced.bind_notices_of_error read, entry_notices, declarationNotices_of_malformed bad]
          rw [← isDeclaration_iff] at bad
          simp [entryNotices, bad]

section Element

variable {index : Nat} {name : String} {isStage : Bool} {value : Value}

theorem textOf_of_string {key text : String} (h : value.field? key = some (.string text)) :
    textOf key value = text := by
  simp [textOf, h, Value.string?]

theorem state_notices_of_ok {entries : Keyed String Entry}
    (read : (entriesOf name value).result = .ok entries) :
    (state name isStage value).notices =
      styleNotices name value ++ (entryNotices name .scalar (declarations "variables" value) ++
        (entryNotices name .list (declarations "lists" value) ++ costumeNotices name value)) := by
  obtain ⟨scalars, lists⟩ := entriesOf_ok_iff.mp ⟨entries, read⟩
  obtain ⟨found, first, second⟩ := Traced.bind_ok_iff.mp read
  rw [state, Traced.bind_notices_of_ok (rotationStyle_result name value),
    Traced.bind_notices_of_ok first, Traced.bind_notices_of_ok second,
    Traced.bind_notices_of_ok (costumesFrom_result name 0 _), Traced.pure_notices,
    List.append_nil, rotationStyle_notices, entriesInto_notices, entriesInto_notices,
    costumesFrom_notices, wellShaped_of_declares scalars, wellShaped_of_declares lists,
    costumeNotices]

theorem state_notices_of_scalar {id : String}
    (first : FirstUndeclared .scalar (declarations "variables" value) id) :
    (state name isStage value).notices =
      styleNotices name value ++
        entryNotices name .scalar (wellShaped .scalar (declarations "variables" value)) := by
  have failed := entriesInto_error_of_first first name []
  rw [state, Traced.bind_notices_of_ok (rotationStyle_result name value),
    Traced.bind_notices_of_error failed, rotationStyle_notices, entriesInto_notices]

theorem state_notices_of_list {id : String}
    (scalars : ∀ field ∈ declarations "variables" value, Declares .scalar field.2)
    (first : FirstUndeclared .list (declarations "lists" value) id) :
    (state name isStage value).notices =
      styleNotices name value ++ (entryNotices name .scalar (declarations "variables" value) ++
        entryNotices name .list (wellShaped .list (declarations "lists" value))) := by
  have declared : ∃ all, (entriesInto name .scalar [] _).result = .ok all :=
    entriesInto_ok_iff.mpr scalars
  obtain ⟨entries, read⟩ := declared
  have failed := entriesInto_error_of_first first name entries
  rw [state, Traced.bind_notices_of_ok (rotationStyle_result name value),
    Traced.bind_notices_of_ok read, Traced.bind_notices_of_error failed, rotationStyle_notices,
    entriesInto_notices, entriesInto_notices, wellShaped_of_declares scalars]

/-- An element that has its name and its role announces itself before all else. -/
theorem target_notices_of_fields (named : value.field? "name" = some (.string name))
    (role : value.field? "isStage" = some (.bool isStage)) :
    (target index value).notices =
      .readingTarget name (marksStage value) :: (state name isStage value).notices := by
  have announced : target index value = (do
      Traced.note (.readingTarget name isStage)
      state name isStage value) := by
    simp [target, named, role, Value.string?, Value.bool?]
  have marked : marksStage value = isStage := by
    cases isStage <;> simp [marksStage, role]
  rw [announced, marked, Traced.bind_notices_of_ok (Traced.note_result _)]
  rfl

theorem target_notices_of_ok {entity : Entity} (h : (target index value).result = .ok entity) :
    (target index value).notices = elementNotices value := by
  obtain ⟨name, isStage, entries, named, role, read, -⟩ := target_ok_iff.mp h
  rw [target_notices_of_fields named role, state_notices_of_ok read, elementNotices,
    elementWarnings, textOf_of_string named, List.append_assoc, List.append_assoc]

/-- An element that fails has told what stands in front of its fault. -/
theorem target_notices_of_fault {error : LoadError} (h : ElementFault index value error) :
    (target index value).notices = noticesUntil value error := by
  cases h with
  | name missing =>
      simp only [ne_eq, ← Value.bind_string_iff] at missing
      rw [target]
      cases found : (value.field? "name").bind Value.string? with
      | none => rfl
      | some name => exact absurd found (missing name)
  | isStage named missing =>
      simp only [ne_eq, ← Value.bind_bool_iff] at missing
      rw [← Value.bind_string_iff] at named
      rw [target, named]
      cases found : (value.field? "isStage").bind Value.bool? with
      | none => rfl
      | some role => exact absurd found (missing role)
  | scalar named role found first =>
      have first := firstUndeclared_declarations_iff.mpr ⟨_, found, first⟩
      rw [target_notices_of_fields named role, state_notices_of_scalar first, noticesUntil,
        textOf_of_string named]
      rfl
  | list named role scalars found first =>
      have first := firstUndeclared_declarations_iff.mpr ⟨_, found, first⟩
      rw [← forall_mem_declarations_iff] at scalars
      rw [target_notices_of_fields named role, state_notices_of_list scalars first, noticesUntil,
        textOf_of_string named, List.cons_append, List.cons_append, List.append_assoc]

end Element

section Elements

variable {index : Nat} {stage : Option Entity} {value bad : Value} {entity : Entity}
  {rest before after : List Value} {error : LoadError}

theorem targetsFrom_notices_of_sprite (h : (target index value).result = .ok entity)
    (unmarked : marksStage value = false) :
    (targetsFrom index stage (value :: rest)).notices =
      elementNotices value ++ (targetsFrom (index + 1) stage rest).notices := by
  rw [targetsFrom, Traced.bind_notices_of_ok h, target_notices_of_ok h, isStage_of_target_ok h,
    unmarked, if_neg Bool.false_ne_true]
  cases others : (targetsFrom (index + 1) stage rest).result with
  | ok found => rw [Traced.bind_notices_of_ok others, Traced.pure_notices, List.append_nil]
  | error error => rw [Traced.bind_notices_of_error others]

theorem targetsFrom_notices_of_stage (h : (target index value).result = .ok entity)
    (marked : marksStage value = true) :
    (targetsFrom index none (value :: rest)).notices =
      elementNotices value ++ (targetsFrom (index + 1) (some entity) rest).notices := by
  rw [targetsFrom, Traced.bind_notices_of_ok h, target_notices_of_ok h, isStage_of_target_ok h,
    marked, if_pos rfl]

theorem targetsFrom_notices_of_second (h : (target index value).result = .ok entity)
    (marked : marksStage value = true) (first : Entity) :
    (targetsFrom index (some first) (value :: rest)).notices = elementNotices value := by
  rw [targetsFrom, Traced.bind_notices_of_ok h, target_notices_of_ok h, isStage_of_target_ok h,
    marked, if_pos rfl]
  exact List.append_nil _

/-- Elements that are all read tell what each of them tells, in the order of the file. -/
theorem targetsFrom_notices_of_ok {found : Option Entity × List (Int × Entity)}
    (h : (targetsFrom index stage rest).result = .ok found) :
    (targetsFrom index stage rest).notices = rest.flatMap elementNotices := by
  induction rest generalizing index stage found with
  | nil => rfl
  | cons value rest ih =>
      cases read : (target index value).result with
      | error error => cases h.symm.trans (targetsFrom_of_error read rest)
      | ok entity =>
          cases marked : marksStage value with
          | false =>
              rw [targetsFrom_of_sprite read marked] at h
              cases others : (targetsFrom (index + 1) stage rest).result with
              | error error =>
                  rw [others] at h
                  cases h
              | ok found =>
                  rw [targetsFrom_notices_of_sprite read marked, ih others, List.flatMap_cons]
          | true =>
              cases stage with
              | none =>
                  rw [targetsFrom_of_stage read marked] at h
                  rw [targetsFrom_notices_of_stage read marked, ih h, List.flatMap_cons]
              | some first => cases h.symm.trans (targetsFrom_of_second read marked first rest)

/-- Elements of which one fails tell what those in front of it tell, and then what it has told
itself. -/
theorem targetsFrom_notices_of_stops (h : Stops index stage before bad error) :
    (targetsFrom index stage (before ++ bad :: after)).notices =
      before.flatMap elementNotices ++ noticesUntil bad error := by
  -- A stage among the elements in front is the stage that the rest is read with.
  induction before generalizing index stage with
  | nil =>
      rw [stops_nil_iff] at h
      obtain fault | ⟨first, second, rfl, wellFormed, named, earlier⟩ := h
      · have failed := target_error_iff_fault.mpr fault
        rw [List.nil_append, targetsFrom, Traced.bind_notices_of_error failed,
          target_notices_of_fault fault]
        rfl
      · obtain ⟨entity, read⟩ := (target_ok_iff_wellFormed index).mpr wellFormed
        obtain ⟨entered, rfl, -⟩ := Option.map_eq_some_iff.mp earlier
        exact targetsFrom_notices_of_second read (marksStage_of_named named) entered
  | cons value before ih =>
      obtain ⟨entity, read⟩ := (target_ok_iff_wellFormed index).mpr (h.1 value List.mem_cons_self)
      rw [List.flatMap_cons, List.append_assoc, List.cons_append]
      cases marked : marksStage value with
      | false =>
          rw [stops_cons_sprite read marked] at h
          rw [targetsFrom_notices_of_sprite read marked, ih h]
      | true =>
          cases stage with
          | none =>
              rw [stops_cons_stage read marked] at h
              rw [targetsFrom_notices_of_stage read marked, ih h]
          | some first => exact absurd h (not_stops_cons_second marked)

end Elements

theorem entryNotices_wellShaped_isPrefix (target : String) (kind : Kind)
    (declared : Keyed String Value) :
    entryNotices target kind (wellShaped kind declared) <+: entryNotices target kind declared :=
  (List.takeWhile_prefix _).flatMap _

/-- An element that fails has told nothing that it would not tell as a whole. -/
theorem noticesUntil_isPrefix (value : Value) (error : LoadError) :
    noticesUntil value error <+: elementNotices value := by
  have part (kind : Kind) := entryNotices_wellShaped_isPrefix (textOf "name" value) kind
  unfold noticesUntil
  split
  · have shaped := part .scalar (declarations "variables" value)
    simp only [elementNotices, elementWarnings, List.cons_append, List.append_assoc,
      List.prefix_cons_inj, List.prefix_append_right_inj]
    exact shaped.trans (List.prefix_append _ _)
  · have shaped := part .list (declarations "lists" value)
    simp only [elementNotices, elementWarnings, List.cons_append, List.append_assoc,
      List.prefix_cons_inj, List.prefix_append_right_inj]
    exact shaped.trans (List.prefix_append _ _)
  · exact List.prefix_rfl
  · exact List.nil_prefix

/-- The literals that are values themselves. -/
inductive Holds : Value → Literal → Prop where
  | number (value : Json.Number) : Holds (.number value) (.number value.toBinary64)
  | string (value : String) : Holds (.string value) (.text value)
  | bool (value : Bool) : Holds (.bool value) (.bool value)

/-- A literal is the value that it is read from, and nothing is told of it, or it takes the place
of that value and a warning in the log tells so. -/
inductive Openly (log : List Notice) (target owner : String) (value : Value) (literal : Literal) :
    Prop where
  | kept (holds : Holds value literal) (silent : valueNotices target owner value = [])
  | replaced {notice : Notice} (told : valueNotices target owner value = [notice])
      (warns : notice.level = .warn) (logged : notice ∈ log)

/-- An entry is read from a declaration, and so are its literals from their values, openly. -/
inductive OpenEntry (log : List Notice) (target : String) : Kind → Value → Entry → Prop where
  | scalar {name : String} {value : Value} {more : List Value} {literal : Literal}
      (read : Openly log target name value literal) :
      OpenEntry log target .scalar (.array (.string name :: value :: more)) (.scalar name literal)
  | list {name : String} {values more : List Value} {items : List Literal}
      (read : List.Forall₂ (Openly log target name) values items) :
      OpenEntry log target .list (.array (.string name :: .array values :: more))
        (.list name items)

/-- An entity is read from an element, and each of its entries from a declaration of the element
under the same id, openly. -/
structure OpenEntity (log : List Notice) (value : Value) (entity : Entity) : Prop where
  loads : Loads value entity
  entries : ∀ entry ∈ entity.entries, ∃ field,
    field.1 = entry.1 ∧
      (field ∈ declarations "variables" value ∧
          OpenEntry log entity.name .scalar field.2 entry.2 ∨
        field ∈ declarations "lists" value ∧ OpenEntry log entity.name .list field.2 entry.2)

section Open

variable {log : List Notice} {target owner : String} {kind : Kind} {value : Value}

theorem openly_literalOf (logged : ∀ notice ∈ valueNotices target owner value, notice ∈ log) :
    Openly log target owner value (literalOf value) := by
  cases value with
  | number value => exact .kept (.number value) rfl
  | string value => exact .kept (.string value) rfl
  | bool value => exact .kept (.bool value) rfl
  | null | array _ | object _ => exact .replaced rfl rfl (logged _ List.mem_cons_self)

theorem openEntry_of_declaredAs {entry : Entry} (read : DeclaredAs kind value entry)
    (logged : ∀ notice ∈ declarationNotices target kind value, notice ∈ log) :
    OpenEntry log target kind value entry := by
  cases read with
  | scalar name value more => exact .scalar (openly_literalOf logged)
  | list name items more =>
      apply OpenEntry.list
      rw [List.forall₂_map_right_iff, List.forall₂_same]
      intro item mem
      apply openly_literalOf
      intro notice told
      exact logged notice (List.mem_flatMap.mpr ⟨item, mem, told⟩)

theorem openEntry_of_readAs {declared : Keyed String Value} {entries : Keyed String Entry}
    (read : ReadAs kind declared entries)
    (logged : ∀ notice ∈ entryNotices target kind declared, notice ∈ log)
    {entry : String × Entry} (mem : entry ∈ entries) :
    ∃ field ∈ declared, field.1 = entry.1 ∧ OpenEntry log target kind field.2 entry.2 := by
  obtain ⟨field, found, same, readField⟩ := read.exists_of_mem mem
  refine ⟨field, found, same, openEntry_of_declaredAs readField ?_⟩
  intro notice told
  exact logged notice (List.mem_flatMap.mpr ⟨field, found, told⟩)

theorem openEntity_of_target {index : Nat} {entity : Entity}
    (h : (Loading.target index value).result = .ok entity)
    (logged : ∀ notice ∈ elementNotices value, notice ∈ log) : OpenEntity log value entity where
  loads := loads_of_target h
  entries := by
    obtain ⟨name, isStage, entries, named, _, read, rfl⟩ := target_ok_iff.mp h
    obtain ⟨scalars, first, second⟩ := Traced.bind_ok_iff.mp read
    obtain ⟨new, readScalars, rfl⟩ := entriesInto_readAs first
    obtain ⟨lists, readLists, rfl⟩ := entriesInto_readAs second
    simp only [elementNotices, elementWarnings, textOf_of_string named, List.forall_mem_cons,
      List.forall_mem_append] at logged
    obtain ⟨-, ⟨⟨-, scalarsLogged⟩, listsLogged⟩, -⟩ := logged
    intro entry mem
    obtain mem | mem := Keyed.mem_of_mem_putAll mem
    · obtain none | mem := Keyed.mem_of_mem_putAll mem
      · cases none
      · obtain ⟨field, found, same, openly⟩ := openEntry_of_readAs readScalars scalarsLogged mem
        exact ⟨field, same, .inl ⟨found, openly⟩⟩
    · obtain ⟨field, found, same, openly⟩ := openEntry_of_readAs readLists listsLogged mem
      exact ⟨field, same, .inr ⟨found, openly⟩⟩

end Open

section Levels

variable {target owner : String} {kind : Kind} {value : Value} {notice : Notice}

theorem level_of_mem_valueNotices (h : notice ∈ valueNotices target owner value) :
    notice.level = .warn := by
  cases value with
  | null | array _ | object _ =>
      obtain rfl := List.mem_singleton.mp h
      rfl
  | bool _ | number _ | string _ => cases h

theorem level_of_mem_declarationNotices (h : notice ∈ declarationNotices target kind value) :
    notice.level = .warn := by
  unfold declarationNotices at h
  split at h
  · exact level_of_mem_valueNotices h
  · obtain ⟨item, _, told⟩ := List.mem_flatMap.mp h
    exact level_of_mem_valueNotices told
  · cases h

theorem level_of_mem_entryNotices {declared : Keyed String Value}
    (h : notice ∈ entryNotices target kind declared) : notice.level = .warn := by
  obtain ⟨field, _, told⟩ := List.mem_flatMap.mp h
  exact level_of_mem_declarationNotices told

theorem level_of_mem_elementWarnings (h : notice ∈ elementWarnings value) :
    notice.level = .warn := by
  simp only [elementWarnings, List.mem_append] at h
  obtain ((style | scalar) | list) | costume := h
  · obtain ⟨name, _, rfl⟩ := List.mem_map.mp style
    rfl
  · exact level_of_mem_entryNotices scalar
  · exact level_of_mem_entryNotices list
  · obtain ⟨skipped, _, rfl⟩ := List.mem_map.mp costume
    rfl

/-- Only an element that is read announces itself, and all else that it tells are warnings. -/
theorem elementNotices_levels (value : Value) :
    (elementNotices value).map Notice.level =
      .debug :: List.replicate (elementWarnings value).length .warn := by
  rw [elementNotices, List.map_cons]
  congr 1
  rw [List.eq_replicate_iff]
  refine ⟨List.length_map _, ?_⟩
  intro level mem
  obtain ⟨notice, told, rfl⟩ := List.mem_map.mp mem
  exact level_of_mem_elementWarnings told

end Levels

/-- A text with the log and the result of its loading. The log of a text that is loaded holds what
all elements tell, in the order of the file; of a text that is not, the part in front of the
fault. -/
inductive Logged (text : String) : Load Project → Prop where
  | badText {error : Json.TextError} (parsed : Json.parse text = .error error) :
      Logged text ⟨[], .error (.badText error)⟩
  | noTargets {root : Value} (parsed : Json.parse text = .ok root)
      (missing : targets? root = none) : Logged text ⟨[], .error .noTargets⟩
  | stopped {root value : Value} {before after : List Value} {error : LoadError}
      (parsed : Json.parse text = .ok root)
      (found : targets? root = some (before ++ value :: after))
      (stops : Stops 0 none before value error)
      (cut : before.flatMap elementNotices ++ noticesUntil value error <+:
        (before ++ value :: after).flatMap elementNotices) :
      Logged text ⟨before.flatMap elementNotices ++ noticesUntil value error, .error error⟩
  | loaded {root : Value} {values : List Value} {project : Project}
      (parsed : Json.parse text = .ok root) (found : targets? root = some values)
      (openly : ∀ entity ∈ project.targets, ∃ value ∈ values,
        OpenEntity (values.flatMap elementNotices) value entity) :
      Logged text ⟨values.flatMap elementNotices, .ok project⟩

theorem project_notices_of_ok {root : Value} {values : List Value} {project : Project}
    (found : targets? root = some values) (h : (Loading.project root).result = .ok project) :
    (Loading.project root).notices = values.flatMap elementNotices := by
  rw [targets?] at found
  rw [Loading.project, found] at h ⊢
  obtain ⟨read, first, _⟩ := Traced.bind_ok_iff.mp h
  rw [Traced.bind_notices_of_ok first, targetsFrom_notices_of_ok first]
  exact List.append_nil _

theorem project_openly {root : Value} {project : Project}
    (h : (Loading.project root).result = .ok project) :
    ∃ values, targets? root = some values ∧ ∀ entity ∈ project.targets, ∃ value ∈ values,
      OpenEntity (values.flatMap elementNotices) value entity := by
  obtain ⟨values, stages, sprites, found, arranged⟩ := project_arranged h
  refine ⟨values, found, ?_⟩
  intro entity mem
  rw [← arranged.targets_eq] at mem
  obtain ⟨pair, inPairs, rfl⟩ := List.mem_map.mp mem
  have inFile := arranged.mem_values inPairs
  refine ⟨pair.1, inFile, openEntity_of_target (arranged.loads pair inPairs 0) ?_⟩
  intro notice told
  exact List.mem_flatMap.mpr ⟨pair.1, inFile, told⟩

theorem project_stops {root : Value} {values : List Value} {error : LoadError}
    (found : targets? root = some values) (h : (Loading.project root).result = .error error) :
    ∃ before value after, values = before ++ value :: after ∧ Stops 0 none before value error ∧
      (Loading.project root).notices =
        before.flatMap elementNotices ++ noticesUntil value error := by
  rw [targets?] at found
  rw [Loading.project, found] at h ⊢
  obtain failed | ⟨_, _, rest⟩ := Traced.bind_error_iff.mp h
  · obtain ⟨before, value, after, rfl, stops⟩ := targetsFrom_error_iff.mp failed
    refine ⟨before, value, after, rfl, stops, ?_⟩
    exact (Traced.bind_notices_of_error failed _).trans (targetsFrom_notices_of_stops stops)
  · cases rest

theorem project_logged {text : String} {root : Value} (parsed : Json.parse text = .ok root) :
    Logged text (Loading.project root) := by
  cases read : (Loading.project root).result with
  | ok project =>
      obtain ⟨values, found, openly⟩ := project_openly read
      have whole : Loading.project root = ⟨values.flatMap elementNotices, .ok project⟩ := by
        rw [← project_notices_of_ok found read, ← read]
      rw [whole]
      exact .loaded parsed found openly
  | error error =>
      cases found : targets? root with
      | none =>
          rw [Loading.project]
          rw [targets?] at found
          rw [found]
          exact .noTargets parsed found
      | some values =>
          obtain ⟨before, value, after, rfl, stops, told⟩ := project_stops found read
          have part : Loading.project root =
              ⟨before.flatMap elementNotices ++ noticesUntil value error, .error error⟩ := by
            rw [← told, ← read]
          rw [part]
          apply Logged.stopped parsed found stops
          rw [List.flatMap_append, List.flatMap_cons, List.prefix_append_right_inj]
          exact (noticesUntil_isPrefix value error).trans (List.prefix_append _ _)

/-- The log is exact, and each literal of a loaded project is the value of the file or has a
warning in the log. -/
theorem projectOfText_logged (text : String) :
    Logged text (projectOfText text) ∧
      ∀ value, (elementNotices value).map Notice.level =
        .debug :: List.replicate (elementWarnings value).length .warn := by
  refine ⟨?_, elementNotices_levels⟩
  rw [projectOfText]
  cases parsed : Json.parse text with
  | error error => exact .badText parsed
  | ok root => exact project_logged parsed

/-- The second target is cut off at its malformed list, before the costume that is no object. -/
example : (Loading.project (.object [("targets", .array [
    .object [("name", .string "s"), ("isStage", .bool true),
      ("variables", .object [("v", .array [.string "a", .null])])],
    .object [("name", .string "t"), ("isStage", .bool false), ("costumes", .array [.null]),
      ("lists", .object [("l", .array [.string "b", .array [.bool true, .array []]]),
        ("m", .null)])]])])).notices =
    [.readingTarget "s" true, .nullValue "s" "a", .readingTarget "t" false,
      .nestedValue "t" "b"] := rfl

end Loading

end SpriteScript

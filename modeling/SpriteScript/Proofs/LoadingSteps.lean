import SpriteScript.Loading
import SpriteScript.Proofs.Blocks

/-!
What each loading step gives. Literals, styles and costumes are always read; an entry is read when
its declaration has the shape of its kind; a target when its name and role are there and all its
declarations have their shapes. The steps that can fail are described by two equivalences, one
for the result and one for the error.
-/

namespace SpriteScript

namespace Traced

variable {ε α β : Type}

@[simp] theorem pure_result (value : α) : (pure value : Traced ε α).result = .ok value := rfl

@[simp] theorem pure_notices (value : α) : (pure value : Traced ε α).notices = [] := rfl

@[simp] theorem fail_result (error : ε) : (fail error : Traced ε α).result = .error error := rfl

@[simp] theorem note_result (notice : Notice) : (note notice : Traced ε Unit).result = .ok () := rfl

theorem bind_def (first : Traced ε α) (next : α → Traced ε β) :
    (first >>= next) = first.andThen next := rfl

theorem bind_of_ok {first : Traced ε α} {value : α} (h : first.result = .ok value)
    (next : α → Traced ε β) :
    (first >>= next) =
      ⟨first.notices ++ (next value).notices, (next value).result⟩ := by
  rw [bind_def, andThen, h]

theorem bind_of_error {first : Traced ε α} {error : ε} (h : first.result = .error error)
    (next : α → Traced ε β) : (first >>= next) = ⟨first.notices, .error error⟩ := by
  rw [bind_def, andThen, h]

theorem bind_result_of_ok {first : Traced ε α} {value : α} (h : first.result = .ok value)
    (next : α → Traced ε β) : (first >>= next).result = (next value).result := by
  rw [bind_of_ok h]

theorem bind_notices_of_ok {first : Traced ε α} {value : α} (h : first.result = .ok value)
    (next : α → Traced ε β) : (first >>= next).notices = first.notices ++ (next value).notices := by
  rw [bind_of_ok h]

theorem bind_notices_of_error {first : Traced ε α} {error : ε} (h : first.result = .error error)
    (next : α → Traced ε β) : (first >>= next).notices = first.notices := by
  rw [bind_of_error h]

theorem bind_ok_iff {first : Traced ε α} {next : α → Traced ε β} {result : β} :
    (first >>= next).result = .ok result ↔
      ∃ value, first.result = .ok value ∧ (next value).result = .ok result := by
  cases h : first.result with
  | ok value => simp [bind_of_ok h]
  | error error => simp [bind_of_error h]

theorem bind_error_iff {first : Traced ε α} {next : α → Traced ε β} {error : ε} :
    (first >>= next).result = .error error ↔
      first.result = .error error ∨
        ∃ value, first.result = .ok value ∧ (next value).result = .error error := by
  cases h : first.result with
  | ok value => simp [bind_of_ok h]
  | error error => simp [bind_of_error h]

end Traced

namespace Json.Value

theorem bind_string_iff {value : Option Value} {text : String} :
    value.bind string? = some text ↔ value = some (.string text) := by
  cases value with
  | none => simp
  | some value => cases value <;> simp [string?]

theorem bind_bool_iff {value : Option Value} {b : Bool} :
    value.bind bool? = some b ↔ value = some (.bool b) := by
  cases value with
  | none => simp
  | some value => cases value <;> simp [bool?]

theorem bind_array_iff {value : Option Value} {items : List Value} :
    value.bind array? = some items ↔ value = some (.array items) := by
  cases value with
  | none => simp
  | some value => cases value <;> simp [array?]

end Json.Value

namespace Loading

open Json (Value)

/-- The literal that a value is read as. -/
def literalOf : Value → Literal
  | .number value => .number value.toBinary64
  | .string value => .text value
  | .bool value => .bool value
  | .null => Literal.zero
  | value => .text value.compact

theorem literal_result (target owner : String) (value : Value) :
    (literal target owner value).result = .ok (literalOf value) := by
  cases value <;> rfl

theorem literals_result (target owner : String) (values : List Value) :
    (literals target owner values).result = .ok (values.map literalOf) := by
  induction values with
  | nil => rfl
  | cons value values ih =>
      rw [literals, Traced.bind_result_of_ok (literal_result target owner value),
        Traced.bind_result_of_ok ih]
      rfl

/-- The style that a target is read with. -/
def styleOf (value : Value) : RotationStyle :=
  (((value.field? "rotationStyle").bind Value.string?).bind RotationStyle.ofName?).getD .allAround

theorem rotationStyle_result (target : String) (value : Value) :
    (rotationStyle target value).result = .ok (styleOf value) := by
  rw [rotationStyle, styleOf]
  cases (value.field? "rotationStyle").bind Value.string? with
  | none => rfl
  | some name => cases h : RotationStyle.ofName? name <;> simp [styleNamed, h, Traced.bind_ok_iff]

/-- The costumes that an array is read as. -/
def costumesOf (values : List Value) : List Costume :=
  values.filterMap fun
    | .object fields => some (costume (.object fields))
    | _ => none

theorem costumesFrom_result (target : String) (index : Nat) (values : List Value) :
    (costumesFrom target index values).result = .ok (costumesOf values) := by
  induction values generalizing index with
  | nil => rfl
  | cons value values ih =>
      cases value with
      | object fields =>
          rw [costumesFrom, Traced.bind_result_of_ok (ih (index + 1))]
          rfl
      | null | bool _ | number _ | string _ | array _ => exact ih (index + 1)

/-- Whether a value declares something of a kind: its name, then its value or the array of its
items. -/
inductive Declares : Kind → Value → Prop where
  | scalar (name : String) (value : Value) (more : List Value) :
      Declares .scalar (.array (.string name :: value :: more))
  | list (name : String) (items more : List Value) :
      Declares .list (.array (.string name :: .array items :: more))

theorem declaration_ok {target id : String} {kind : Kind} {value : Value} {parts : String × Value}
    (h : (declaration target kind id value).result = .ok parts) :
    ∃ more, value = .array (.string parts.1 :: parts.2 :: more) := by
  unfold declaration at h
  split at h <;> cases h
  exact ⟨_, rfl⟩

theorem declaration_error {target id : String} {kind : Kind} {value : Value} {error : LoadError}
    (h : (declaration target kind id value).result = .error error) :
    error = .malformedEntry target kind id := by
  unfold declaration at h
  split at h <;> cases h
  rfl

/-- What a value is read as when it declares something of a kind. -/
inductive DeclaredAs : Kind → Value → Entry → Prop where
  | scalar (name : String) (value : Value) (more : List Value) :
      DeclaredAs .scalar (.array (.string name :: value :: more)) (.scalar name (literalOf value))
  | list (name : String) (items more : List Value) :
      DeclaredAs .list (.array (.string name :: .array items :: more))
        (.list name (items.map literalOf))

theorem declares_iff {kind : Kind} {value : Value} :
    Declares kind value ↔ ∃ new, DeclaredAs kind value new := by
  constructor
  · rintro (⟨name, value, more⟩ | ⟨name, items, more⟩)
    · exact ⟨_, .scalar name value more⟩
    · exact ⟨_, .list name items more⟩
  · rintro ⟨_, ⟨name, value, more⟩ | ⟨name, items, more⟩⟩
    · exact .scalar name value more
    · exact .list name items more

theorem entry_ok_iff {target id : String} {kind : Kind} {value : Value} {new : Entry} :
    (entry target kind id value).result = .ok new ↔ DeclaredAs kind value new := by
  constructor
  · intro h
    rw [entry, Traced.bind_ok_iff] at h
    obtain ⟨⟨name, part⟩, parted, rest⟩ := h
    obtain ⟨more, rfl⟩ := declaration_ok parted
    cases kind with
    | scalar =>
        rw [Traced.bind_result_of_ok (literal_result target name part)] at rest
        cases rest
        exact .scalar name part more
    | list =>
        cases part with
        | array items =>
            rw [Traced.bind_result_of_ok (literals_result target name items)] at rest
            cases rest
            exact .list name items more
        | null | bool _ | number _ | string _ | object _ => cases rest
  · intro h
    cases h with
    | scalar name value more =>
        have parted : (declaration target .scalar id
            (.array (.string name :: value :: more))).result = .ok (name, value) := rfl
        rw [entry, Traced.bind_result_of_ok parted]
        exact Traced.bind_result_of_ok (literal_result target name value) _
    | list name items more =>
        have parted : (declaration target .list id
            (.array (.string name :: .array items :: more))).result =
            .ok (name, .array items) := rfl
        rw [entry, Traced.bind_result_of_ok parted]
        exact Traced.bind_result_of_ok (literals_result target name items) _

theorem entry_error {target id : String} {kind : Kind} {value : Value} {error : LoadError}
    (h : (entry target kind id value).result = .error error) :
    error = .malformedEntry target kind id := by
  rw [entry, Traced.bind_error_iff] at h
  obtain failed | ⟨⟨name, value⟩, _, rest⟩ := h
  · exact declaration_error failed
  · cases kind with
    | scalar =>
        rw [Traced.bind_result_of_ok (literal_result target name value)] at rest
        cases rest
    | list =>
        cases value with
        | array items =>
            rw [Traced.bind_result_of_ok (literals_result target name items)] at rest
            cases rest
        | null | bool _ | number _ | string _ | object _ =>
            cases rest
            rfl

theorem exists_entry_ok_iff {target id : String} {kind : Kind} {value : Value} :
    (∃ new, (entry target kind id value).result = .ok new) ↔ Declares kind value := by
  simp only [entry_ok_iff, declares_iff]

theorem entry_error_iff {target id : String} {kind : Kind} {value : Value} {error : LoadError} :
    (entry target kind id value).result = .error error ↔
      ¬ Declares kind value ∧ error = .malformedEntry target kind id := by
  constructor
  · intro h
    refine ⟨?_, entry_error h⟩
    intro declares
    obtain ⟨new, ok⟩ := exists_entry_ok_iff.mpr declares
    cases h.symm.trans ok
  · rintro ⟨undeclared, rfl⟩
    cases h : (entry target kind id value).result with
    | ok new => exact absurd (exists_entry_ok_iff.mp ⟨new, h⟩) undeclared
    | error error => rw [entry_error h]

/-- The id of the first declaration that lacks the shape of its kind. -/
def FirstUndeclared (kind : Kind) (declared : Keyed String Value) (id : String) : Prop :=
  ∃ before bad after, declared = before ++ (id, bad) :: after ∧
    (∀ field ∈ before, Declares kind field.2) ∧ ¬ Declares kind bad

theorem entriesInto_ok_iff {target : String} {kind : Kind} {entries : Keyed String Entry}
    {declared : Keyed String Value} :
    (∃ all, (entriesInto target kind entries declared).result = .ok all) ↔
      ∀ field ∈ declared, Declares kind field.2 := by
  induction declared generalizing entries with
  | nil => simp [entriesInto]
  | cons field declared ih =>
      rw [List.forall_mem_cons, ← exists_entry_ok_iff]
      constructor
      · rintro ⟨all, h⟩
        obtain ⟨new, ok, rest⟩ := Traced.bind_ok_iff.mp h
        exact ⟨⟨new, ok⟩, ih.mp ⟨all, rest⟩⟩
      · rintro ⟨⟨new, ok⟩, rest⟩
        obtain ⟨all, h⟩ := ih.mpr rest
        exact ⟨all, Traced.bind_ok_iff.mpr ⟨new, ok, h⟩⟩

theorem entriesInto_error {target : String} {kind : Kind} {entries : Keyed String Entry}
    {declared : Keyed String Value} {error : LoadError}
    (h : (entriesInto target kind entries declared).result = .error error) :
    ∃ id, FirstUndeclared kind declared id ∧ error = .malformedEntry target kind id := by
  induction declared generalizing entries with
  | nil => cases h
  | cons field declared ih =>
      obtain ⟨id, value⟩ := field
      obtain failed | ⟨new, ok, rest⟩ := Traced.bind_error_iff.mp h
      · obtain ⟨bad, rfl⟩ := entry_error_iff.mp failed
        exact ⟨id, ⟨[], value, declared, rfl, by simp, bad⟩, rfl⟩
      · obtain ⟨other, ⟨before, bad, after, rfl, shaped, undeclared⟩, rfl⟩ := ih rest
        refine ⟨other, ⟨(id, value) :: before, bad, after, rfl, ?_, undeclared⟩, rfl⟩
        exact List.forall_mem_cons.mpr ⟨exists_entry_ok_iff.mp ⟨new, ok⟩, shaped⟩

theorem entriesInto_error_of_first {kind : Kind} {declared : Keyed String Value} {id : String}
    (h : FirstUndeclared kind declared id) (target : String) (entries : Keyed String Entry) :
    (entriesInto target kind entries declared).result =
      .error (.malformedEntry target kind id) := by
  obtain ⟨before, bad, after, rfl, shaped, undeclared⟩ := h
  induction before generalizing entries with
  | nil => exact Traced.bind_error_iff.mpr (.inl (entry_error_iff.mpr ⟨undeclared, rfl⟩))
  | cons field before ih =>
      rw [List.forall_mem_cons] at shaped
      obtain ⟨new, ok⟩ := exists_entry_ok_iff.mpr shaped.1
      exact Traced.bind_error_iff.mpr (.inr ⟨new, ok, ih _ shaped.2⟩)

theorem entriesInto_error_iff {target : String} {kind : Kind} {entries : Keyed String Entry}
    {declared : Keyed String Value} {error : LoadError} :
    (entriesInto target kind entries declared).result = .error error ↔
      ∃ id, FirstUndeclared kind declared id ∧ error = .malformedEntry target kind id := by
  constructor
  · exact entriesInto_error
  · rintro ⟨id, first, rfl⟩
    exact entriesInto_error_of_first first target entries

theorem currentCostume_of_chosen {value : Value} {k : UInt64}
    (chosen : value.field? "currentCostume" = some (.number (.unsigned k))) :
    (currentCostume value).toNat = min (k.toNat + 1) 0xFFFFFFFFFFFFFFFF := by
  have bound := k.toNat_lt
  simp only [currentCostume, chosen, Option.bind_some, Value.number?, Json.Number.unsigned?,
    Option.elim_some]
  by_cases last : k = 0xFFFFFFFFFFFFFFFF
  · subst last
    decide
  · have below : k.toNat ≠ 0xFFFFFFFFFFFFFFFF := fun eq => last (UInt64.toNat_inj.mp eq)
    rw [if_neg last, UInt64.toNat_add]
    simp only [UInt64.reduceToNat]
    omega

theorem currentCostume_of_unchosen {value : Value}
    (h : ∀ k, value.field? "currentCostume" ≠ some (.number (.unsigned k))) :
    currentCostume value = 1 := by
  rw [currentCostume]
  cases found : value.field? "currentCostume" with
  | none => rfl
  | some index =>
      cases index with
      | number number =>
          cases number with
          | unsigned k => exact absurd found (h k)
          | negative _ | real _ => rfl
      | null | bool _ | string _ | array _ | object _ => rfl

/-- The entity that a target is read as, once its entries are known. -/
def entityOf (name : String) (isStage : Bool) (value : Value) (entries : Keyed String Entry) :
    Entity :=
  let blank := Entity.blank name isStage
  { blank with
    x := numberOr blank.x "x" value
    y := numberOr blank.y "y" value
    direction := numberOr blank.direction "direction" value
    visible := ((value.field? "visible").map Value.truthy).getD blank.visible
    size := numberOr blank.size "size" value
    costumes := costumesOf (((value.field? "costumes").bind Value.array?).getD [])
    currentCostume := currentCostume value
    rotationStyle := styleOf value
    entries }

/-- The entries of a target: its variables, then its lists. -/
def entriesOf (name : String) (value : Value) : Load (Keyed String Entry) := do
  let scalars ← entriesInto name .scalar [] (declarations "variables" value)
  entriesInto name .list scalars (declarations "lists" value)

theorem state_ok_iff {name : String} {isStage : Bool} {value : Value} {entity : Entity} :
    (state name isStage value).result = .ok entity ↔
      ∃ entries, (entriesOf name value).result = .ok entries ∧
        entity = entityOf name isStage value entries := by
  simp only [state, entriesOf, Traced.bind_ok_iff, rotationStyle_result, costumesFrom_result,
    Except.ok.injEq, exists_eq_left', Traced.pure_result]
  constructor
  · rintro ⟨scalars, hs, entries, he, rfl⟩
    exact ⟨entries, ⟨scalars, hs, he⟩, rfl⟩
  · rintro ⟨entries, ⟨scalars, hs, he⟩, rfl⟩
    exact ⟨scalars, hs, entries, he, rfl⟩

theorem state_error_iff {name : String} {isStage : Bool} {value : Value} {error : LoadError} :
    (state name isStage value).result = .error error ↔
      (entriesOf name value).result = .error error := by
  simp [state, entriesOf, Traced.bind_error_iff, rotationStyle_result, costumesFrom_result]

theorem target_ok_iff {index : Nat} {value : Value} {entity : Entity} :
    (target index value).result = .ok entity ↔
      ∃ name isStage entries, value.field? "name" = some (.string name) ∧
        value.field? "isStage" = some (.bool isStage) ∧
        (entriesOf name value).result = .ok entries ∧
        entity = entityOf name isStage value entries := by
  unfold target
  cases hn : (value.field? "name").bind Value.string? with
  | none => simp [← Value.bind_string_iff, hn]
  | some name =>
      cases hs : (value.field? "isStage").bind Value.bool? with
      | none => simp [← Value.bind_bool_iff, hs]
      | some isStage =>
          rw [Value.bind_string_iff] at hn
          rw [Value.bind_bool_iff] at hs
          simp [hn, hs, Traced.bind_ok_iff, state_ok_iff]

theorem fields_of_target_ok {index : Nat} {value : Value} {entity : Entity}
    (h : (target index value).result = .ok entity) :
    value.field? "name" = some (.string entity.name) ∧
      value.field? "isStage" = some (.bool entity.isStage) := by
  obtain ⟨name, isStage, entries, hn, hs, _, rfl⟩ := target_ok_iff.mp h
  exact ⟨hn, hs⟩

/-- The elements of a project file. -/
def targets? (root : Value) : Option (List Value) :=
  (root.field? "targets").bind Value.array?

/-- Whether an element is marked as the stage. -/
def marksStage (value : Value) : Bool :=
  match value.field? "isStage" with
  | some (.bool true) => true
  | _ => false

theorem isStage_of_target_ok {index : Nat} {value : Value} {entity : Entity}
    (h : (target index value).result = .ok entity) : entity.isStage = marksStage value := by
  rw [marksStage, (fields_of_target_ok h).2]
  cases entity.isStage <;> rfl

section Steps

variable {index : Nat} {stage : Option Entity} {value : Value} {entity : Entity}

theorem targetsFrom_of_error {error : LoadError} (h : (target index value).result = .error error)
    (rest : List Value) : (targetsFrom index stage (value :: rest)).result = .error error :=
  Traced.bind_error_iff.mpr (.inl h)

theorem targetsFrom_of_sprite (h : (target index value).result = .ok entity)
    (unmarked : marksStage value = false) (rest : List Value) :
    (targetsFrom index stage (value :: rest)).result =
      (targetsFrom (index + 1) stage rest).result.map fun (stage, sprites) =>
        (stage, (layer value, entity) :: sprites) := by
  rw [targetsFrom, Traced.bind_result_of_ok h, isStage_of_target_ok h, unmarked,
    if_neg Bool.false_ne_true]
  cases others : (targetsFrom (index + 1) stage rest).result with
  | ok found => rw [Traced.bind_result_of_ok others]; rfl
  | error error => rw [Traced.bind_of_error others]; rfl

theorem targetsFrom_of_stage (h : (target index value).result = .ok entity)
    (marked : marksStage value = true) (rest : List Value) :
    (targetsFrom index none (value :: rest)).result =
      (targetsFrom (index + 1) (some entity) rest).result := by
  rw [targetsFrom, Traced.bind_result_of_ok h, isStage_of_target_ok h, marked, if_pos rfl]

theorem targetsFrom_of_second (h : (target index value).result = .ok entity)
    (marked : marksStage value = true) (first : Entity) (rest : List Value) :
    (targetsFrom index (some first) (value :: rest)).result =
      .error (.secondStage first.name entity.name) := by
  rw [targetsFrom, Traced.bind_result_of_ok h, isStage_of_target_ok h, marked, if_pos rfl]
  rfl

end Steps

end Loading

end SpriteScript

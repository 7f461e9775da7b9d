import SpriteScript.Proofs.LoadingSteps

/-!
Which projects are loaded, and why the others are not. A project is loaded when its elements are
well-formed and at most one of them is the stage. Otherwise the error is the first fault: that of
the first element that is not well-formed or is a second stage, and within the element the first in
the order name, role, variables, lists, second stage.
-/

namespace SpriteScript.Loading

open Json (Value)

/-- Whether an element of the file is a target. -/
structure WellFormed (value : Value) : Prop where
  name : ∃ name, value.field? "name" = some (.string name)
  isStage : ∃ isStage, value.field? "isStage" = some (.bool isStage)
  scalars : ∀ fields, value.field? "variables" = some (.object fields) →
    ∀ field ∈ fields, Declares .scalar field.2
  lists : ∀ fields, value.field? "lists" = some (.object fields) →
    ∀ field ∈ fields, Declares .list field.2

/-- The fault of an element by itself. Each constructor holds only when those above it do not. -/
inductive ElementFault (index : Nat) (value : Value) : LoadError → Prop where
  | name (missing : ∀ name, value.field? "name" ≠ some (.string name)) :
      ElementFault index value (.missingField index .name)
  | isStage {name : String} (named : value.field? "name" = some (.string name))
      (missing : ∀ isStage, value.field? "isStage" ≠ some (.bool isStage)) :
      ElementFault index value (.missingField index .isStage)
  | scalar {name id : String} {isStage : Bool} {fields : Keyed String Value}
      (named : value.field? "name" = some (.string name))
      (role : value.field? "isStage" = some (.bool isStage))
      (scalars : value.field? "variables" = some (.object fields))
      (first : FirstUndeclared .scalar fields id) :
      ElementFault index value (.malformedEntry name .scalar id)
  | list {name id : String} {isStage : Bool} {fields : Keyed String Value}
      (named : value.field? "name" = some (.string name))
      (role : value.field? "isStage" = some (.bool isStage))
      (scalars : ∀ fields, value.field? "variables" = some (.object fields) →
        ∀ field ∈ fields, Declares .scalar field.2)
      (lists : value.field? "lists" = some (.object fields))
      (first : FirstUndeclared .list fields id) :
      ElementFault index value (.malformedEntry name .list id)

/-- Whether an element is a stage of the given name. -/
def StageNamed (name : String) (value : Value) : Prop :=
  value.field? "name" = some (.string name) ∧ value.field? "isStage" = some (.bool true)

/-- Whether elements are well-formed and hold at most one stage. -/
structure Sound (values : List Value) : Prop where
  wellFormed : ∀ value ∈ values, WellFormed value
  single : (values.filter marksStage).length ≤ 1

/-- Whether a value is a project. -/
def Accepted (root : Value) : Prop :=
  ∃ values, root.field? "targets" = some (.array values) ∧ Sound values

/-- The first fault of a value that is no project: the elements in front of it are sound. -/
inductive FirstFault (root : Value) : LoadError → Prop where
  | noTargets (missing : ∀ values, root.field? "targets" ≠ some (.array values)) :
      FirstFault root .noTargets
  | element {before after : List Value} {value : Value} {error : LoadError}
      (found : root.field? "targets" = some (.array (before ++ value :: after)))
      (sound : Sound before) (fault : ElementFault before.length value error) :
      FirstFault root error
  | secondStage {before after : List Value} {stage value : Value} {first second : String}
      (found : root.field? "targets" = some (.array (before ++ value :: after)))
      (sound : Sound before) (mem : stage ∈ before) (earlier : StageNamed first stage)
      (wellFormed : WellFormed value) (later : StageNamed second value) :
      FirstFault root (.secondStage first second)

theorem forall_mem_declarations_iff {P : String × Value → Prop} {key : String} {value : Value} :
    (∀ field ∈ declarations key value, P field) ↔
      ∀ fields, value.field? key = some (.object fields) → ∀ field ∈ fields, P field := by
  rw [declarations]
  cases value.field? key with
  | none => simp
  | some found => cases found <;> simp [Value.object?]

theorem firstUndeclared_declarations_iff {kind : Kind} {key id : String} {value : Value} :
    FirstUndeclared kind (declarations key value) id ↔
      ∃ fields, value.field? key = some (.object fields) ∧ FirstUndeclared kind fields id := by
  have nil : ¬ FirstUndeclared kind [] id := by
    rintro ⟨before, bad, after, eq, _⟩
    simp at eq
  rw [declarations]
  cases value.field? key with
  | none => simp [nil]
  | some found => cases found <;> simp [Value.object?, nil]

theorem entriesOf_ok_iff {name : String} {value : Value} :
    (∃ entries, (entriesOf name value).result = .ok entries) ↔
      (∀ field ∈ declarations "variables" value, Declares .scalar field.2) ∧
        ∀ field ∈ declarations "lists" value, Declares .list field.2 := by
  simp only [entriesOf, Traced.bind_ok_iff]
  constructor
  · rintro ⟨entries, scalars, hs, he⟩
    exact ⟨entriesInto_ok_iff.mp ⟨scalars, hs⟩, entriesInto_ok_iff.mp ⟨entries, he⟩⟩
  · rintro ⟨hv, hl⟩
    obtain ⟨scalars, hs⟩ := entriesInto_ok_iff.mpr hv
    obtain ⟨entries, he⟩ := entriesInto_ok_iff.mpr hl
    exact ⟨entries, scalars, hs, he⟩

theorem entriesOf_error_iff {name : String} {value : Value} {error : LoadError} :
    (entriesOf name value).result = .error error ↔
      (∃ id, FirstUndeclared .scalar (declarations "variables" value) id ∧
        error = .malformedEntry name .scalar id) ∨
      (∀ field ∈ declarations "variables" value, Declares .scalar field.2) ∧
        ∃ id, FirstUndeclared .list (declarations "lists" value) id ∧
          error = .malformedEntry name .list id := by
  rw [entriesOf, Traced.bind_error_iff]
  simp only [entriesInto_error_iff, exists_and_right, entriesInto_ok_iff]

theorem target_ok_iff_wellFormed (index : Nat) {value : Value} :
    (∃ entity, (target index value).result = .ok entity) ↔ WellFormed value := by
  simp only [target_ok_iff]
  constructor
  · rintro ⟨_, name, isStage, entries, hn, hs, he, rfl⟩
    obtain ⟨hv, hl⟩ := entriesOf_ok_iff.mp ⟨entries, he⟩
    exact ⟨⟨name, hn⟩, ⟨isStage, hs⟩, forall_mem_declarations_iff.mp hv,
      forall_mem_declarations_iff.mp hl⟩
  · rintro ⟨⟨name, hn⟩, ⟨isStage, hs⟩, hv, hl⟩
    obtain ⟨entries, he⟩ : ∃ entries, (entriesOf name value).result = .ok entries :=
      entriesOf_ok_iff.mpr ⟨forall_mem_declarations_iff.mpr hv, forall_mem_declarations_iff.mpr hl⟩
    exact ⟨_, name, isStage, entries, hn, hs, he, rfl⟩

theorem target_error_iff {index : Nat} {value : Value} {error : LoadError} :
    (target index value).result = .error error ↔
      (∀ name, value.field? "name" ≠ some (.string name)) ∧ error = .missingField index .name ∨
      ∃ name, value.field? "name" = some (.string name) ∧
        ((∀ isStage, value.field? "isStage" ≠ some (.bool isStage)) ∧
            error = .missingField index .isStage ∨
          ∃ isStage, value.field? "isStage" = some (.bool isStage) ∧
            (entriesOf name value).result = .error error) := by
  unfold target
  simp only [ne_eq, ← Value.bind_string_iff, ← Value.bind_bool_iff]
  cases (value.field? "name").bind Value.string? with
  | none => simp [eq_comm]
  | some name =>
      cases (value.field? "isStage").bind Value.bool? with
      | none => simp [eq_comm]
      | some isStage => simp [Traced.bind_error_iff, state_error_iff]

theorem target_error_iff_fault {index : Nat} {value : Value} {error : LoadError} :
    (target index value).result = .error error ↔ ElementFault index value error := by
  rw [target_error_iff]
  simp only [entriesOf_error_iff, firstUndeclared_declarations_iff, forall_mem_declarations_iff]
  constructor
  · rintro (⟨missing, rfl⟩ | ⟨name, named, ⟨missing, rfl⟩ | ⟨isStage, role, rest⟩⟩)
    · exact .name missing
    · exact .isStage named missing
    · obtain ⟨id, ⟨fields, found, first⟩, rfl⟩ | ⟨scalars, id, ⟨fields, found, first⟩, rfl⟩ := rest
      · exact .scalar named role found first
      · exact .list named role scalars found first
  · intro fault
    cases fault with
    | name missing => exact .inl ⟨missing, rfl⟩
    | isStage named missing => exact .inr ⟨_, named, .inl ⟨missing, rfl⟩⟩
    | scalar named role scalars first =>
        exact .inr ⟨_, named, .inr ⟨_, role, .inl ⟨_, ⟨_, scalars, first⟩, rfl⟩⟩⟩
    | list named role scalars lists first =>
        exact .inr ⟨_, named, .inr ⟨_, role, .inr ⟨scalars, _, ⟨_, lists, first⟩, rfl⟩⟩⟩

section Sprite

variable {index : Nat} {stage : Option Entity} {value : Value} {entity : Entity} {rest : List Value}

theorem targetsFrom_sprite_ok_iff (h : (target index value).result = .ok entity)
    (unmarked : marksStage value = false) :
    (∃ found, (targetsFrom index stage (value :: rest)).result = .ok found) ↔
      ∃ found, (targetsFrom (index + 1) stage rest).result = .ok found := by
  rw [targetsFrom_of_sprite h unmarked]
  cases (targetsFrom (index + 1) stage rest).result <;> simp [Except.map]

theorem targetsFrom_sprite_error_iff {error : LoadError}
    (h : (target index value).result = .ok entity) (unmarked : marksStage value = false) :
    (targetsFrom index stage (value :: rest)).result = .error error ↔
      (targetsFrom (index + 1) stage rest).result = .error error := by
  rw [targetsFrom_of_sprite h unmarked]
  cases (targetsFrom (index + 1) stage rest).result <;> simp [Except.map]

end Sprite

theorem targetsFrom_ok_iff {index : Nat} {stage : Option Entity} {values : List Value} :
    (∃ found, (targetsFrom index stage values).result = .ok found) ↔
      (∀ value ∈ values, WellFormed value) ∧
        stage.toList.length + (values.filter marksStage).length ≤ 1 := by
  induction values generalizing index stage with
  | nil => cases stage <;> simp [targetsFrom]
  | cons value values ih =>
      rw [List.forall_mem_cons, ← target_ok_iff_wellFormed index]
      cases read : (target index value).result with
      | error error => simp [targetsFrom_of_error read]
      | ok entity =>
          cases marked : marksStage value with
          | false => simp [targetsFrom_sprite_ok_iff read marked, ih, marked]
          | true =>
              cases stage with
              | none =>
                  rw [targetsFrom_of_stage read marked, ih]
                  simp [marked, Nat.add_comm]
              | some first => simp [targetsFrom_of_second read marked, marked]

/-- Where the reading of elements stops, after some that were read and perhaps a stage before
them. -/
def Stops (index : Nat) (stage : Option Entity) (before : List Value) (value : Value)
    (error : LoadError) : Prop :=
  (∀ value ∈ before, WellFormed value) ∧
    stage.toList.length + (before.filter marksStage).length ≤ 1 ∧
    (ElementFault (index + before.length) value error ∨
      ∃ first second, error = .secondStage first second ∧ WellFormed value ∧
        StageNamed second value ∧
        (stage.map Entity.name = some first ∨ ∃ earlier ∈ before, StageNamed first earlier))

section Stopping

variable {index : Nat} {stage : Option Entity} {value bad : Value} {entity : Entity}
  {before : List Value} {error : LoadError}

theorem marksStage_of_named {name : String} (h : StageNamed name value) :
    marksStage value = true := by
  rw [marksStage, h.2]

theorem stageNamed_of_target_ok (h : (target index value).result = .ok entity)
    (marked : marksStage value = true) {name : String} :
    StageNamed name value ↔ entity.name = name := by
  rw [StageNamed, (fields_of_target_ok h).1, (fields_of_target_ok h).2, isStage_of_target_ok h,
    marked]
  simp

theorem stops_cons_sprite (h : (target index value).result = .ok entity)
    (unmarked : marksStage value = false) :
    Stops index stage (value :: before) bad error ↔ Stops (index + 1) stage before bad error := by
  have wellFormed : WellFormed value := (target_ok_iff_wellFormed index).mp ⟨entity, h⟩
  have other (name : String) : ¬ StageNamed name value := by
    intro named
    simp [marksStage_of_named named] at unmarked
  have place : index + (before.length + 1) = index + 1 + before.length := by omega
  simp [Stops, wellFormed, unmarked, other, place]

theorem stops_cons_stage (h : (target index value).result = .ok entity)
    (marked : marksStage value = true) :
    Stops index none (value :: before) bad error ↔
      Stops (index + 1) (some entity) before bad error := by
  have wellFormed : WellFormed value := (target_ok_iff_wellFormed index).mp ⟨entity, h⟩
  have named (name : String) : StageNamed name value ↔ entity.name = name :=
    stageNamed_of_target_ok h marked
  have place : index + (before.length + 1) = index + 1 + before.length := by omega
  simp [Stops, wellFormed, marked, named, place, Nat.add_comm 1]

theorem not_stops_cons_second (marked : marksStage value = true) {first : Entity} :
    ¬ Stops index (some first) (value :: before) bad error := by
  rintro ⟨_, single, _⟩
  simp only [Option.toList_some, List.filter_cons_of_pos marked,
    List.length_cons] at single
  omega

theorem stops_nil_iff :
    Stops index stage [] value error ↔ ElementFault index value error ∨
      ∃ first second, error = .secondStage first second ∧ WellFormed value ∧
        StageNamed second value ∧ stage.map Entity.name = some first := by
  cases stage <;> simp [Stops]

/-- The reading stops at the first of some elements or after it. -/
theorem exists_stops_cons_iff {rest : List Value} :
    (∃ before bad after, value :: rest = before ++ bad :: after ∧
        Stops index stage before bad error) ↔
      Stops index stage [] value error ∨ ∃ before bad after, rest = before ++ bad :: after ∧
        Stops index stage (value :: before) bad error := by
  constructor
  · rintro ⟨before, bad, after, eq, stops⟩
    cases before with
    | nil =>
        cases eq
        exact .inl stops
    | cons first before =>
        cases eq
        exact .inr ⟨before, bad, after, rfl, stops⟩
  · rintro (stops | ⟨before, bad, after, rfl, stops⟩)
    · exact ⟨[], value, rest, rfl, stops⟩
    · exact ⟨value :: before, bad, after, rfl, stops⟩

theorem targetsFrom_error_iff {values : List Value} :
    (targetsFrom index stage values).result = .error error ↔
      ∃ before bad after, values = before ++ bad :: after ∧
        Stops index stage before bad error := by
  induction values generalizing index stage with
  | nil => simp [targetsFrom]
  | cons value values ih =>
      have fault : _ ↔ ElementFault index value error := target_error_iff_fault
      rw [exists_stops_cons_iff, stops_nil_iff, ← fault]
      cases read : (target index value).result with
      | error found =>
          have malformed : ¬ WellFormed value := by
            rw [← target_ok_iff_wellFormed index, read]
            simp
          simp [targetsFrom_of_error read, Stops, malformed]
      | ok entity =>
          have wellFormed : WellFormed value := (target_ok_iff_wellFormed index).mp ⟨entity, read⟩
          cases marked : marksStage value with
          | false =>
              have other (name : String) : ¬ StageNamed name value := by
                intro named
                simp [marksStage_of_named named] at marked
              simp [targetsFrom_sprite_error_iff read marked, ih, stops_cons_sprite read marked,
                other]
          | true =>
              cases stage with
              | none => simp [targetsFrom_of_stage read marked, ih, stops_cons_stage read marked]
              | some first =>
                  have named (name : String) : StageNamed name value ↔ entity.name = name :=
                    stageNamed_of_target_ok read marked
                  simp [targetsFrom_of_second read marked, not_stops_cons_second marked, wellFormed,
                    named, eq_comm]

end Stopping

theorem targetsFrom_ok_iff_sound {values : List Value} :
    (∃ found, (targetsFrom 0 none values).result = .ok found) ↔ Sound values := by
  rw [targetsFrom_ok_iff, Option.toList_none, List.length_nil, Nat.zero_add]
  exact ⟨fun h => ⟨h.1, h.2⟩, fun h => ⟨h.1, h.2⟩⟩

theorem project_ok_iff {root : Value} :
    (∃ project, (Loading.project root).result = .ok project) ↔ Accepted root := by
  simp only [Accepted, ← Value.bind_array_iff, ← targetsFrom_ok_iff_sound]
  rw [Loading.project]
  cases (root.field? "targets").bind Value.array? with
  | none => simp
  | some values => simp [Traced.bind_ok_iff]

theorem project_error {root : Value} {error : LoadError}
    (h : (Loading.project root).result = .error error) : FirstFault root error := by
  rw [Loading.project] at h
  cases found : (root.field? "targets").bind Value.array? with
  | none =>
      rw [found] at h
      cases h
      apply FirstFault.noTargets
      intro values eq
      rw [← Value.bind_array_iff, found] at eq
      cases eq
  | some values =>
      rw [found] at h
      rw [Value.bind_array_iff] at found
      obtain failed | ⟨_, _, rest⟩ := Traced.bind_error_iff.mp h
      · obtain ⟨before, value, after, rfl, wellFormed, single, fault⟩ :=
          targetsFrom_error_iff.mp failed
        have sound : Sound before := ⟨wellFormed, by simpa using single⟩
        obtain fault | ⟨first, second, rfl, formed, later, none | ⟨stage, mem, earlier⟩⟩ := fault
        · rw [Nat.zero_add] at fault
          exact .element found sound fault
        · cases none
        · exact .secondStage found sound mem earlier formed later
      · cases rest

theorem project_error_of_stops {root value : Value} {before after : List Value} {error : LoadError}
    (found : root.field? "targets" = some (.array (before ++ value :: after)))
    (stops : Stops 0 none before value error) :
    (Loading.project root).result = .error error := by
  rw [← Value.bind_array_iff] at found
  rw [Loading.project, found]
  exact Traced.bind_error_iff.mpr
    (.inl (targetsFrom_error_iff.mpr ⟨before, value, after, rfl, stops⟩))

theorem project_error_of_fault {root : Value} {error : LoadError} (h : FirstFault root error) :
    (Loading.project root).result = .error error := by
  cases h with
  | noTargets missing =>
      simp only [ne_eq, ← Value.bind_array_iff] at missing
      rw [Loading.project]
      cases found : (root.field? "targets").bind Value.array? with
      | none => rfl
      | some values => exact absurd found (missing values)
  | element found sound fault =>
      refine project_error_of_stops found ⟨sound.wellFormed, ?_, .inl ?_⟩
      · simpa using sound.single
      · simpa using fault
  | secondStage found sound mem earlier wellFormed later =>
      refine project_error_of_stops found ⟨sound.wellFormed, ?_, .inr ?_⟩
      · simpa using sound.single
      · exact ⟨_, _, rfl, wellFormed, later, .inr ⟨_, mem, earlier⟩⟩

/-- A project is loaded exactly when it is well-formed, and an error is its first fault. A text is
loaded as the value that it holds. -/
theorem accepted_or_firstFault (root : Value) :
    ((∃ project, (Loading.project root).result = .ok project) ↔ Accepted root) ∧
      (∀ error, (Loading.project root).result = .error error ↔ FirstFault root error) ∧
      ∀ text, Json.parse text = .ok root → projectOfText text = Loading.project root := by
  refine ⟨project_ok_iff, fun error => ⟨project_error, project_error_of_fault⟩, ?_⟩
  intro text parsed
  rw [projectOfText, parsed]

/-- A second stage with a malformed list fails for the list. -/
theorem accepted_or_firstFault_of_two : ∃ text root error, Json.parse text = .ok root ∧
    error = .malformedEntry "t" .list "l" ∧ (projectOfText text).result = .error error ∧
    FirstFault root error ∧ ¬ Accepted root := by
  let stage : Value := .object [("name", .string "s"), ("isStage", .bool true)]
  let second : Value := .object [("name", .string "t"), ("isStage", .bool true),
    ("lists", .object [("l", .number (.unsigned 1))])]
  let root : Value := .object [("targets", .array [stage, second])]
  have parsed : Json.parse (r#"{"targets":[{"name":"s","isStage":true},"# ++
      r#"{"name":"t","isStage":true,"lists":{"l":1}}]}"#) = .ok root := by
    simp only [Json.parse, String.reduceAppend, String.reduceToList]
    rfl
  have failed : (Loading.project root).result = .error (.malformedEntry "t" .list "l") := rfl
  obtain ⟨accepted, faults, texts⟩ := accepted_or_firstFault root
  refine ⟨_, root, _, parsed, rfl, ?_, (faults _).mp failed, ?_⟩
  · rw [texts _ parsed, failed]
  · rw [← accepted, failed]
    simp

end SpriteScript.Loading

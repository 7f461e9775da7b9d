import SpriteScript.Proofs.Restating
import SpriteScript.Proofs.WrittenValues

/-!
What holds of every project that is loaded from a text. Its numbers are finite, its ids distinct,
and each current costume is the index of the file counted from one. So the project is equal to
itself, and where it is written all numbers are decimals.
-/

namespace SpriteScript

theorem Project.mem_of_select {project : Project} {only : Option String} {targets : List Entity}
    (selected : project.select only = .ok targets) :
    ∀ target ∈ targets, target ∈ project.targets := by
  intro target mem
  cases only with
  | none =>
      cases selected
      obtain stage | sprite := List.mem_append.mp mem
      · exact List.mem_of_find?_eq_some (Option.mem_toList.mp stage)
      · exact List.mem_of_mem_filter sprite
  | some name =>
      rw [select] at selected
      cases found : project.target? name with
      | none =>
          rw [found] at selected
          cases selected
      | some first =>
          rw [found] at selected
          cases selected
          rw [List.mem_singleton.mp mem]
          exact List.mem_of_find?_eq_some found

theorem Entity.same_self {entity : Entity} (finite : entity.Finite) : entity.same entity = true :=
  Matches.same ⟨rfl, rfl, rfl, rfl, rfl, rfl, rfl, rfl, rfl, rfl, rfl⟩ finite

namespace Loading

open Json (Value)

/-- What an element gives is finite, and its current costume is counted from one: the index of the
element saturates, and without an index it is the first. -/
structure WellRead (value : Value) (entity : Entity) : Prop where
  finite : entity.Finite
  chosen : ∀ k, value.field? "currentCostume" = some (.number (.unsigned k)) →
    entity.currentCostume.toNat = min (k.toNat + 1) (2 ^ 64 - 1)
  unchosen : (∀ k, value.field? "currentCostume" ≠ some (.number (.unsigned k))) →
    entity.currentCostume = 1
  counted : 1 ≤ entity.currentCostume

theorem currentCostume_of_loads {value : Value} {entity : Entity} (h : Loads value entity) :
    entity.currentCostume = currentCostume value := by
  obtain ⟨name, isStage, entries, _, _, _, rfl⟩ := target_ok_iff.mp (h 0)
  rfl

theorem one_le_currentCostume (value : Value) : 1 ≤ (currentCostume value).toNat := by
  by_cases chosen : ∃ k, value.field? "currentCostume" = some (.number (.unsigned k))
  · obtain ⟨k, chosen⟩ := chosen
    rw [currentCostume_of_chosen chosen]
    omega
  · rw [currentCostume_of_unchosen (not_exists.mp chosen)]
    decide

theorem wellRead_of_loads {value : Value} {entity : Entity} (proper : value.Proper)
    (h : Loads value entity) : WellRead value entity where
  finite := target_finite proper (h 0)
  chosen := by
    rw [currentCostume_of_loads h]
    exact fun _ chosen => currentCostume_of_chosen chosen
  unchosen := by
    rw [currentCostume_of_loads h]
    exact currentCostume_of_unchosen
  counted := by
    rw [currentCostume_of_loads h]
    exact one_le_currentCostume value

theorem wellRead_of_parse {text : String} {root : Value} {values : List Value}
    {targets : List Entity} {stages sprites : List (Value × Entity)}
    (parsed : Json.parse text = .ok root) (found : targets? root = some values)
    (arranged : Arranged values targets stages sprites) :
    List.Forall₂ WellRead (projectOrder values) targets := by
  rw [targets?, Value.bind_array_iff] at found
  cases (Json.parse_proper parsed).field found with
  | array proper =>
      exact arranged.forall₂ fun value mem entity h => wellRead_of_loads (proper value mem) h

end Loading

open Json (Value)
open Loading

theorem convertText_ok {text source : String} {project : Project} {only : Option String}
    (loaded : (projectOfText text).result = .ok project)
    (h : (convertText text only).result = .ok source) :
    ∃ targets, project.select only = .ok targets ∧
      source = Source.text (Source.targetPieces targets) := by
  obtain ⟨found, load, emitted⟩ := Traced.bind_ok_iff.mp h
  rw [Traced.mapError_ok_iff, loaded] at load
  cases load
  obtain ⟨targets, selected, joined⟩ :=
    Source.select_of_project (Traced.mapError_ok_iff.mp emitted)
  rw [← Source.text_targetPieces] at joined
  exact ⟨targets, selected, joined⟩

/-- Each target of a loaded project is well formed and the project is equal to itself. Whatever is
written of it, every value is a decimal, a quoted text, a truth value or a list of those, and no
constant of `Float` stands in the code. -/
theorem projectOfText_wellRead {text : String} {project : Project}
    (loaded : (projectOfText text).result = .ok project) :
    (∃ root values, Json.parse text = .ok root ∧ targets? root = some values ∧
      List.Forall₂ WellRead (projectOrder values) project.targets) ∧
    project.Same project ∧
    ∀ only source, (convertText text only).result = .ok source →
      ∃ targets, project.select only = .ok targets ∧
        source = Source.text (Source.targetPieces targets) ∧
        (∀ target ∈ targets, ∀ argument ∈ (Source.call target).arguments, argument.HasForm) ∧
        ¬ "Float::".toList.map .sign <:+: Source.tokens (Source.targetPieces targets) := by
  have read := loaded
  rw [projectOfText] at read
  cases parsed : Json.parse text with
  | error error =>
      rw [parsed] at read
      cases read
  | ok root =>
      rw [parsed] at read
      have finite := project_finite (Json.parse_proper parsed) read
      obtain ⟨values, stages, sprites, found, arranged⟩ := project_arranged read
      refine ⟨⟨root, values, rfl, found, wellRead_of_parse parsed found arranged⟩, ?_, ?_⟩
      · exact List.forall₂_same.mpr fun target mem => Entity.same_self (finite target mem)
      · intro only source converted
        obtain ⟨targets, selected, joined⟩ := convertText_ok loaded converted
        have written : ∀ target ∈ targets, target.Finite := fun target mem =>
          finite target (Project.mem_of_select selected target mem)
        exact ⟨targets, selected, joined,
          fun target mem => Source.arguments_hasForm (written target mem),
          (Source.targetPieces_noConstant written).absent⟩

/-- A stage whose costume index is the last one, with a variable of 1.5 and a list of -2 and a
text. -/
def saturated : Entity :=
  { Entity.stage "s" with
    costumes := [⟨"a", "b", .finite false 0x4000000000000000, "a.", "", .zero, .zero⟩]
    currentCostume := 0xFFFFFFFFFFFFFFFF
    entries := [("v", .scalar "n" (.number (.finite false 0x3FF8000000000000))),
      ("l", .list "m" [.number (.finite true 0x4000000000000000), .text "Float::NAN"])] }

theorem projectOfText_wellRead_saturated : ∃ text source,
    (projectOfText text).result = .ok ⟨[saturated]⟩ ∧
    (∃ root values, Json.parse text = .ok root ∧ targets? root = some values ∧
      List.Forall₂ WellRead (projectOrder values) [saturated]) ∧
    Project.Same ⟨[saturated]⟩ ⟨[saturated]⟩ ∧
    (convertText text none).result = .ok source ∧
    ∃ targets, source = Source.text (Source.targetPieces targets) ∧
      ¬ "Float::".toList.map .sign <:+: Source.tokens (Source.targetPieces targets) := by
  have loaded : (projectOfText (r#"{"targets":[{"name":"s","isStage":true,"# ++
      r#""costumes":[{"assetId":"a","name":"b","bitmapResolution":2}],"# ++
      r#""currentCostume":18446744073709551615,"variables":{"v":["n",1.5]},"# ++
      r#""lists":{"l":["m",[-2,"Float::NAN"]]}}]}"#)).result =
      .ok ⟨[saturated]⟩ := by decide +kernel
  have converted := convertText_of_loaded loaded (Source.project_singleton saturated)
  obtain ⟨formed, same, written⟩ := projectOfText_wellRead loaded
  obtain ⟨targets, _, joined, _, free⟩ := written none _ converted
  exact ⟨_, _, loaded, formed, same, converted, targets, joined, free⟩

end SpriteScript

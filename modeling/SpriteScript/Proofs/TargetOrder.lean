import Mathlib.Data.List.Forall2
import Mathlib.Data.List.Perm.Basic
import SpriteScript.Conversion
import SpriteScript.Proofs.LoadingSteps

/-!
The targets of a loaded project. Each element of the file is one target of the project: the stage
is the first, wherever it stands in the file, and the others follow by layer, those of one layer in
the order of the file. No target depends on another, so the source of a project is made of what
each element gives alone.
-/

namespace SpriteScript

namespace Loading

open Json (Value)

/-- The key that elements are sorted by: a whole number within 64 bits with a sign is its own
key, and all else counts as the greatest of them. -/
def layerKey (value : Value) : Int :=
  match value.field? "layerOrder" with
  | some (.number (.unsigned layer)) =>
      if layer.toNat ≤ 0x7FFFFFFFFFFFFFFF then layer.toNat else 0x7FFFFFFFFFFFFFFF
  | some (.number (.negative layer)) => layer.toInt
  | _ => 0x7FFFFFFFFFFFFFFF

/-- The elements in the order of the project: the stage, then the others, stably by layer. -/
def projectOrder (values : List Value) : List Value :=
  values.filter marksStage ++
    (values.filter (!marksStage ·)).mergeSort fun a b => layerKey a ≤ layerKey b

theorem layer_eq_layerKey (value : Value) : layer value = layerKey value := by
  unfold layer layerKey
  cases value.field? "layerOrder" with
  | none => rfl
  | some layer =>
      cases layer with
      | number number =>
          cases number with
          | unsigned layer =>
              simp only [Option.bind_some, Value.number?, Json.Number.signed?]
              by_cases fits : layer.toNat < 0x8000000000000000
              · rw [if_pos fits, if_pos (by omega), Option.getD_some]
              · rw [if_neg fits, if_neg (by omega), Option.getD_none]
          | negative layer => rfl
          | real layer => rfl
      | null | bool _ | string _ | array _ | object _ => rfl

theorem placeByLayer_append {sprite : Int × Entity} {below above : List (Int × Entity)}
    (hb : ∀ other ∈ below, other.1 < sprite.1) (ha : ∀ other ∈ above, sprite.1 ≤ other.1) :
    placeByLayer sprite (below ++ above) = below ++ sprite :: above := by
  induction below with
  | nil =>
      cases above with
      | nil => rfl
      | cons first above =>
          have le := ha first List.mem_cons_self
          simp [placeByLayer, le]
  | cons first below ih =>
      rw [List.forall_mem_cons] at hb
      have not_le : ¬ sprite.1 ≤ first.1 := by omega
      simp [placeByLayer, not_le, ih hb.2]

/-- Placing one target after the other is the stable sort by layer. -/
theorem foldr_placeByLayer (sprites : List (Int × Entity)) :
    sprites.foldr placeByLayer [] = sprites.mergeSort fun a b => a.1 ≤ b.1 := by
  have trans (a b c : Int × Entity) (hab : decide (a.1 ≤ b.1)) (hbc : decide (b.1 ≤ c.1)) :
      decide (a.1 ≤ c.1) := by
    simp only [decide_eq_true_eq] at *
    omega
  have total (a b : Int × Entity) : decide (a.1 ≤ b.1) || decide (b.1 ≤ a.1) := by
    simp only [Bool.or_eq_true, decide_eq_true_eq]
    omega
  induction sprites with
  | nil => simp
  | cons sprite sprites ih =>
      obtain ⟨below, above, sorted, rest, less⟩ := List.mergeSort_cons trans total sprite sprites
      have pairwise := List.pairwise_mergeSort trans total (sprite :: sprites)
      rw [sorted, List.pairwise_append, List.pairwise_cons] at pairwise
      rw [List.foldr_cons, ih, rest, sorted, placeByLayer_append]
      · intro other mem
        simpa using less other mem
      · intro other mem
        simpa using pairwise.2.1.1 other mem

def byLayer (a b : Value × Entity) : Bool :=
  layerKey a.1 ≤ layerKey b.1

theorem map_fst_byLayer (loaded : List (Value × Entity)) :
    (loaded.mergeSort byLayer).map Prod.fst =
      (loaded.map Prod.fst).mergeSort fun a b => layerKey a ≤ layerKey b :=
  List.map_mergeSort fun _ _ _ _ => rfl

theorem inLayerOrder_eq (loaded : List (Value × Entity)) :
    inLayerOrder (loaded.map fun pair => (layerKey pair.1, pair.2)) =
      (loaded.mergeSort byLayer).map Prod.snd := by
  have sorted : (loaded.mergeSort byLayer).map (fun pair => (layerKey pair.1, pair.2)) =
      (loaded.map fun pair => (layerKey pair.1, pair.2)).mergeSort fun a b => a.1 ≤ b.1 :=
    List.map_mergeSort fun _ _ _ _ => rfl
  rw [inLayerOrder, foldr_placeByLayer, ← sorted, List.map_map]
  rfl

/-- An element is read as an entity, at whatever place it stands. -/
def Loads (value : Value) (entity : Entity) : Prop :=
  ∀ index, (target index value).result = .ok entity

theorem loads_of_target {index : Nat} {value : Value} {entity : Entity}
    (h : (target index value).result = .ok entity) : Loads value entity := by
  intro place
  rw [target_ok_iff] at h ⊢
  exact h

/-- The elements with what they are read as. The stage is at most one of them, or the one that was
there before; the others come with their layers. -/
theorem targetsFrom_ok {index : Nat} {stage : Option Entity} {values : List Value}
    {result : Option Entity × List (Int × Entity)}
    (h : (targetsFrom index stage values).result = .ok result) :
    ∃ loaded : List (Value × Entity), loaded.map Prod.fst = values ∧
      (∀ pair ∈ loaded, Loads pair.1 pair.2) ∧
      result.1.toList = stage.toList ++ (loaded.filter (marksStage ·.1)).map Prod.snd ∧
      result.2 = (loaded.filter (!marksStage ·.1)).map fun pair => (layerKey pair.1, pair.2) := by
  induction values generalizing index stage result with
  | nil =>
      cases h
      exact ⟨[], rfl, by simp, by simp, rfl⟩
  | cons value values ih =>
      cases read : (target index value).result with
      | error error => cases h.symm.trans (targetsFrom_of_error read values)
      | ok entity =>
          have loads := loads_of_target read
          cases marked : marksStage value with
          | true =>
              cases stage with
              | some first => cases h.symm.trans (targetsFrom_of_second read marked first values)
              | none =>
                  rw [targetsFrom_of_stage read marked] at h
                  obtain ⟨loaded, rfl, all, stages, sprites⟩ := ih h
                  refine ⟨(value, entity) :: loaded, rfl, ?_, ?_, ?_⟩
                  · exact List.forall_mem_cons.mpr ⟨loads, all⟩
                  · simpa [marked] using stages
                  · simpa [marked] using sprites
          | false =>
              rw [targetsFrom_of_sprite read marked] at h
              cases others : (targetsFrom (index + 1) stage values).result with
              | error error =>
                  rw [others] at h
                  cases h
              | ok found =>
                  rw [others] at h
                  cases h
                  obtain ⟨loaded, rfl, all, stages, sprites⟩ := ih others
                  refine ⟨(value, entity) :: loaded, rfl, ?_, ?_, ?_⟩
                  · exact List.forall_mem_cons.mpr ⟨loads, all⟩
                  · simpa [marked] using stages
                  · simpa [marked, layer_eq_layerKey] using sprites

/-- How the targets of a project come from the elements of its file. -/
structure Arranged (values : List Value) (targets : List Entity)
    (stages sprites : List (Value × Entity)) : Prop where
  stages_eq : stages.map Prod.fst = values.filter marksStage
  sprites_eq : sprites.map Prod.fst =
    (values.filter (!marksStage ·)).mergeSort fun a b => layerKey a ≤ layerKey b
  targets_eq : (stages ++ sprites).map Prod.snd = targets
  loads : ∀ pair ∈ stages ++ sprites, Loads pair.1 pair.2
  one : stages.length ≤ 1

theorem project_arranged {root : Value} {project : Project}
    (h : (Loading.project root).result = .ok project) :
    ∃ values stages sprites, targets? root = some values ∧
      Arranged values project.targets stages sprites := by
  rw [Loading.project] at h
  cases found : (root.field? "targets").bind Value.array? with
  | none =>
      rw [found] at h
      cases h
  | some values =>
      rw [found] at h
      obtain ⟨⟨stage, sprites⟩, read, eq⟩ := Traced.bind_ok_iff.mp h
      obtain ⟨loaded, rfl, all, stages, sprites⟩ := targetsFrom_ok read
      cases eq
      simp only [Option.toList_none, List.nil_append] at stages
      refine ⟨_, loaded.filter (marksStage ·.1),
        (loaded.filter (!marksStage ·.1)).mergeSort byLayer, found, ?_⟩
      exact {
        stages_eq := by
          rw [List.filter_map]
          rfl
        sprites_eq := by
          rw [map_fst_byLayer, List.filter_map]
          rfl
        targets_eq := by
          dsimp only at sprites
          rw [List.map_append, sprites, inLayerOrder_eq, stages]
        loads := by
          intro pair mem
          rw [List.mem_append, List.mem_mergeSort, List.mem_filter, List.mem_filter] at mem
          exact all pair (mem.elim And.left And.left)
        one := by
          rw [← List.length_map Prod.snd, ← stages]
          cases stage <;> simp }

theorem Arranged.mem_values {values : List Value} {targets : List Entity}
    {stages sprites : List (Value × Entity)} (h : Arranged values targets stages sprites)
    {pair : Value × Entity} (mem : pair ∈ stages ++ sprites) : pair.1 ∈ values := by
  obtain mem | mem := List.mem_append.mp mem
  · have found : pair.1 ∈ stages.map Prod.fst := List.mem_map_of_mem mem
    rw [h.stages_eq] at found
    exact List.mem_of_mem_filter found
  · have found : pair.1 ∈ sprites.map Prod.fst := List.mem_map_of_mem mem
    rw [h.sprites_eq, List.mem_mergeSort] at found
    exact List.mem_of_mem_filter found

theorem Arranged.forall₂ {values : List Value} {targets : List Entity}
    {stages sprites : List (Value × Entity)} {R : Value → Entity → Prop}
    (h : Arranged values targets stages sprites)
    (each : ∀ value ∈ values, ∀ entity, Loads value entity → R value entity) :
    List.Forall₂ R (projectOrder values) targets := by
  rw [projectOrder, ← h.stages_eq, ← h.sprites_eq, ← h.targets_eq, ← List.map_append,
    List.forall₂_map_left_iff, List.forall₂_map_right_iff, List.forall₂_same]
  exact fun pair mem => each pair.1 (h.mem_values mem) pair.2 (h.loads pair mem)

theorem project_alone {root value : Value} {entity : Entity} (found : targets? root = some [value])
    (h : Loads value entity) : (Loading.project root).result = .ok ⟨[entity]⟩ := by
  rw [targets?] at found
  rw [Loading.project, found]
  cases marked : marksStage value with
  | true =>
      have read := targetsFrom_of_stage (h 0) marked []
      exact Traced.bind_ok_iff.mpr ⟨(some entity, []), read, rfl⟩
  | false =>
      have read : (targetsFrom 0 none [value]).result = _ := targetsFrom_of_sprite (h 0) marked []
      exact Traced.bind_ok_iff.mpr ⟨(none, [(layer value, entity)]), read, rfl⟩

end Loading

theorem Project.select_none {stages sprites : List Entity} (one : stages.length ≤ 1)
    (marked : ∀ target ∈ stages, target.isStage = true)
    (unmarked : ∀ target ∈ sprites, target.isStage = false) :
    (Project.mk (stages ++ sprites)).select none = .ok (stages ++ sprites) := by
  have kept : sprites.filter (!·.isStage) = sprites := by
    rw [List.filter_eq_self]
    intro target mem
    rw [unmarked target mem, Bool.not_false]
  cases stages with
  | nil =>
      have missing : sprites.find? (·.isStage) = none := by
        simpa [List.find?_eq_none] using unmarked
      simp [select, stage?, Project.sprites, missing, kept]
  | cons stage stages =>
      have single : stages = [] := by simpa using one
      have role := marked stage List.mem_cons_self
      simp [select, stage?, Project.sprites, single, role, kept]

theorem Source.chars_intercalate (separator : List Piece) (parts : List (List Piece)) :
    chars (separator.intercalate parts) = (chars separator).intercalate (parts.map chars) := by
  induction parts with
  | nil => rfl
  | cons part parts ih =>
      cases parts with
      | nil => simp
      | cons next parts =>
          rw [List.intercalate_cons_cons, List.map_cons, List.map_cons,
            List.intercalate_cons_cons, ← List.map_cons, ← ih]
          simp [chars]

theorem Source.text_targetPieces (targets : List Entity) :
    text (targetPieces targets) = "\n\n".intercalate (targets.map Source.entity) ++ "\n" := by
  have append (a b : List Piece) : chars (a ++ b) = chars a ++ chars b := List.flatMap_append
  have code (s : String) : chars [.code s] = s.toList := List.append_nil _
  have blocks : (targets.map Source.entity).map String.toList =
      (targets.map fun target => (call target).pieces).map chars := by
    simp [Source.entity, text]
  rw [← String.toList_inj, text, String.toList_ofList, String.toList_append,
    String.toList_intercalate, targetPieces, append, code, chars_intercalate, code, blocks]

theorem Traced.mapError_ok_iff {ε δ α : Type} {f : ε → δ} {computation : Traced ε α} {value : α} :
    (computation.mapError f).result = .ok value ↔ computation.result = .ok value := by
  rw [mapError]
  cases computation.result <;> simp [Except.mapError]

open Json (Value)
open Loading

theorem Source.project_of_select {project : Project} {only : Option String}
    {targets : List Entity} (selected : project.select only = .ok targets) :
    (Source.project project only).result =
      .ok ("\n\n".intercalate (targets.map Source.entity) ++ "\n") := by
  rw [Source.project, selected, ← text_targetPieces]
  rfl

theorem Source.select_of_project {project : Project} {only : Option String} {source : String}
    (h : (Source.project project only).result = .ok source) :
    ∃ targets, project.select only = .ok targets ∧
      source = "\n\n".intercalate (targets.map Source.entity) ++ "\n" := by
  cases selected : project.select only with
  | ok targets =>
      rw [Source.project_of_select selected] at h
      cases h
      exact ⟨targets, rfl, rfl⟩
  | error unknown =>
      rw [Source.project, selected] at h
      contradiction

theorem convertText_of_loaded {text source : String} {project : Project} {only : Option String}
    (loaded : (projectOfText text).result = .ok project)
    (emitted : (Source.project project only).result = .ok source) :
    (convertText text only).result = .ok source :=
  Traced.bind_ok_iff.mpr
    ⟨project, Traced.mapError_ok_iff.mpr loaded, Traced.mapError_ok_iff.mpr emitted⟩

theorem Loading.projectOrder_perm (values : List Value) : (projectOrder values).Perm values :=
  (List.Perm.append_left _ (List.mergeSort_perm _ _)).trans
    (List.filter_append_perm marksStage values)

theorem Loading.Arranged.select_none {values : List Value} {project : Project}
    {stages sprites : List (Value × Entity)}
    (h : Arranged values project.targets stages sprites) :
    project.select none = .ok project.targets := by
  have role : ∀ pair ∈ stages ++ sprites, pair.2.isStage = marksStage pair.1 :=
    fun pair mem => isStage_of_target_ok (h.loads pair mem 0)
  rw [List.forall_mem_append] at role
  obtain ⟨targets⟩ := project
  obtain rfl : _ = targets := h.targets_eq
  rw [List.map_append]
  apply Project.select_none
  · rw [List.length_map]
    exact h.one
  · intro target mem
    obtain ⟨pair, inStages, rfl⟩ := List.mem_map.mp mem
    have marked : pair.1 ∈ stages.map Prod.fst := List.mem_map_of_mem inStages
    rw [h.stages_eq, List.mem_filter] at marked
    rw [role.1 pair inStages, marked.2]
  · intro target mem
    obtain ⟨pair, inSprites, rfl⟩ := List.mem_map.mp mem
    have unmarked : pair.1 ∈ sprites.map Prod.fst := List.mem_map_of_mem inSprites
    rw [h.sprites_eq, List.mem_mergeSort, List.mem_filter] at unmarked
    rw [role.2 pair inSprites]
    simpa using unmarked.2

/-- What an element gives in a project of its own. -/
structure Alone (value : Value) (entity : Entity) : Prop where
  isStage : entity.isStage = marksStage value
  loads : ∀ root, targets? root = some [value] → (Loading.project root).result = .ok ⟨[entity]⟩
  emits : (Source.project ⟨[entity]⟩ none).result = .ok (Source.entity entity ++ "\n")
  converts : ∀ text root, Json.parse text = .ok root → targets? root = some [value] →
    (convertText text none).result = .ok (Source.entity entity ++ "\n")

theorem Source.project_singleton (entity : Entity) :
    (Source.project ⟨[entity]⟩ none).result = .ok (Source.entity entity ++ "\n") := by
  have selected : (Project.mk [entity]).select none = .ok [entity] := by
    cases role : entity.isStage <;> simp [Project.select, Project.stage?, Project.sprites, role]
  rw [project_of_select selected, List.map_singleton, String.intercalate_singleton]

theorem alone_of_loads {value : Value} {entity : Entity} (h : Loads value entity) :
    Alone value entity where
  isStage := isStage_of_target_ok (h 0)
  loads := fun _ found => project_alone found h
  emits := Source.project_singleton entity
  converts := by
    intro text root parsed found
    have loaded : (projectOfText text).result = .ok ⟨[entity]⟩ := by
      rw [projectOfText, parsed]
      exact project_alone found h
    exact convertText_of_loaded loaded (Source.project_singleton entity)

/-- The targets of a loaded project are the elements of its file, each read by itself: the stage
first and the others by layer. All of them are written, one block for each. -/
theorem targets_eq_projectOrder {text : String} {project : Project}
    (h : (projectOfText text).result = .ok project) :
    ∃ root values, Json.parse text = .ok root ∧ targets? root = some values ∧
      (values.filter marksStage).length ≤ 1 ∧ (projectOrder values).Perm values ∧
      List.Forall₂ Alone (projectOrder values) project.targets ∧
      project.select none = .ok project.targets ∧
      (convertText text none).result =
        .ok ("\n\n".intercalate (project.targets.map Source.entity) ++ "\n") := by
  have loaded := h
  rw [projectOfText] at h
  cases parsed : Json.parse text with
  | error error =>
      rw [parsed] at h
      cases h
  | ok root =>
      rw [parsed] at h
      obtain ⟨values, stages, sprites, found, arranged⟩ := project_arranged h
      have selected := arranged.select_none
      refine ⟨root, values, rfl, found, ?_, projectOrder_perm values, ?_, selected, ?_⟩
      · rw [← arranged.stages_eq, List.length_map]
        exact arranged.one
      · exact arranged.forall₂ fun _ _ _ => alone_of_loads
      · exact convertText_of_loaded loaded (Source.project_of_select selected)

/-- A stage in the middle, a tie and a target without a layer. -/
theorem targets_eq_projectOrder_mixed : ∃ text project,
    (projectOfText text).result = .ok project ∧
    project.targets = [.stage "s", .sprite "b", .sprite "a", .sprite "c"] ∧
    ∃ root values, Json.parse text = .ok root ∧ targets? root = some values ∧
      (values.filter marksStage).length ≤ 1 ∧ (projectOrder values).Perm values ∧
      List.Forall₂ Alone (projectOrder values) project.targets ∧
      project.select none = .ok project.targets ∧
      (convertText text none).result =
        .ok ("\n\n".intercalate (project.targets.map Source.entity) ++ "\n") := by
  have h : (projectOfText (r#"{"targets":[{"name":"c","isStage":false},"# ++
      r#"{"name":"b","isStage":false,"layerOrder":2},"# ++
      r#"{"name":"s","isStage":true},"# ++
      r#"{"name":"a","isStage":false,"layerOrder":2}]}"#)).result =
      .ok ⟨[.stage "s", .sprite "b", .sprite "a", .sprite "c"]⟩ := by decide +kernel
  exact ⟨_, _, h, rfl, targets_eq_projectOrder h⟩

end SpriteScript

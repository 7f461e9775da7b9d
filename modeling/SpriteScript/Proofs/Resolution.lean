import SpriteScript.Proofs.Keywords
import SpriteScript.Proofs.KeyedLaws
import SpriteScript.Proofs.TargetOrder
import SpriteScript.Proofs.VariableNames

/-!
Ids in a loaded project. A target sees its own entries and, unless it is the stage, the stage's
behind them; the first owner that has an id gives the variable, or hides the others when its entry
is of the other kind. The entry is found again in the owner's source, among the records of its
kind, at the place that the earlier entries of that kind leave to it. Nothing else matters: entries
under other ids and other sprites can change without changing what an id stands for.
-/

namespace SpriteScript

/-- How many entries of a kind stand in front of an id. -/
def Entity.countBefore (entity : Entity) (kind : Kind) (id : String) : Nat :=
  ((Keyed.values (entity.entries.takeWhile (·.1 ≠ id))).filter (·.kind = kind)).length

theorem Keyed.split_of_find? {κ β : Type} [DecidableEq κ] {key : κ} {value : β}
    {entries : Keyed κ β} (h : find? key entries = some value) :
    ∃ after, entries = entries.takeWhile (·.1 ≠ key) ++ (key, value) :: after := by
  induction entries with
  | nil => cases h
  | cons entry entries ih =>
      obtain ⟨k, old⟩ := entry
      by_cases eq : k = key
      · simp only [find?, eq, if_true, Option.some.injEq] at h
        exact ⟨entries, by simp [eq, h]⟩
      · simp only [find?, eq, if_false] at h
        obtain ⟨after, split⟩ := ih h
        refine ⟨after, ?_⟩
        rw [List.takeWhile_cons_of_pos (by simpa using eq), List.cons_append, ← split]

theorem Keyed.find?_eq_head? {κ β : Type} [DecidableEq κ] (key : κ) (entries : Keyed κ β) :
    find? key entries = (entries.filter (·.1 = key)).head?.map Prod.snd := by
  induction entries with
  | nil => rfl
  | cons entry entries ih =>
      by_cases eq : entry.1 = key
      · simp [find?, eq]
      · simp [find?, eq, ih]

theorem Entity.entriesOf_place {entity : Entity} {id : String} {entry : Entry}
    (h : entity.lookup id = some entry) :
    (entity.entriesOf entry.kind)[entity.countBefore entry.kind id]? = some entry := by
  obtain ⟨after, split⟩ := Keyed.split_of_find? h
  have entries : entity.entriesOf entry.kind =
      (Keyed.values (entity.entries.takeWhile (·.1 ≠ id))).filter (·.kind = entry.kind) ++
        entry :: (Keyed.values after).filter (·.kind = entry.kind) := by
    conv_lhs => rw [entriesOf, split]
    simp [Keyed.values]
  rw [entries, countBefore, List.getElem?_append_right (Nat.le_refl _), Nat.sub_self]
  rfl

/-- An entry is written as a record of its kind's group, at the place of the entry. -/
theorem Source.record_place {entity : Entity} {id : String} {entry : Entry}
    (h : entity.lookup id = some entry) :
    ∃ records, (call entity).under (groupKey entry.kind) = [.records records] ∧
      records[entity.countBefore entry.kind id]? = some (entryRecord entry) := by
  have place := Entity.entriesOf_place h
  have record : ((entity.entriesOf entry.kind).map entryRecord)[
      entity.countBefore entry.kind id]? = some (entryRecord entry) := by
    rw [List.getElem?_map, place, Option.map_some]
  refine ⟨_, ?_, record⟩
  rw [under_groupKey, if_neg]
  intro none
  rw [none] at record
  cases record

theorem Loading.select_of_loaded {text : String} {project : Project}
    (h : (projectOfText text).result = .ok project) :
    project.select none = .ok project.targets := by
  rw [projectOfText] at h
  cases parsed : Json.parse text with
  | error error =>
      rw [parsed] at h
      cases h
  | ok root =>
      rw [parsed] at h
      obtain ⟨_, _, _, _, arranged⟩ := project_arranged h
      exact arranged.select_none

namespace Project

theorem isStage_of_stage? {project : Project} {stage : Entity} (h : project.stage? = some stage) :
    stage.isStage = true :=
  List.find?_some h

theorem mem_sprites_iff {project : Project} {target : Entity} (mem : target ∈ project.targets) :
    target ∈ project.sprites ↔ target.isStage = false := by
  simp [sprites, mem]

/-- Where all targets are written, the stage is the only one of its role. -/
theorem stage?_eq_some_iff {project : Project} {target : Entity}
    (whole : project.select none = .ok project.targets) (mem : target ∈ project.targets) :
    project.stage? = some target ↔ target.isStage = true := by
  refine ⟨isStage_of_stage?, ?_⟩
  intro role
  have targets : project.stage?.toList ++ project.sprites = project.targets := Except.ok.inj whole
  rw [← targets, List.mem_append] at mem
  obtain stage | sprite := mem
  · simpa using stage
  · simp [sprites, role] at sprite

end Project

namespace Scope

theorem mem_targets_of_owner {project : Project} {entity owner : Entity}
    (mem : entity ∈ project.targets) (h : owner ∈ owners entity project.stage?) :
    owner ∈ project.targets := by
  have seen : owner = entity ∨ project.stage? = some owner := by
    rw [owners] at h
    split at h
    · exact .inl (List.mem_singleton.mp h)
    · simpa using h
  obtain rfl | stage := seen
  · exact mem
  · exact List.mem_of_find?_eq_some stage

/-- The mark tells the role of the owner, not that of the entity that asks. -/
theorem markFor_of_firstOwner {entity owner : Entity} {stage : Option Entity} {id : String}
    {entry : Entry} (role : ∀ target ∈ stage, target.isStage = true)
    (h : FirstOwner id (owners entity stage) owner entry) :
    markFor entity id = if owner.isStage then '$' else '@' := by
  obtain ⟨found, before, after, split, others⟩ := h
  cases asking : entity.isStage with
  | true =>
      -- the stage sees nothing but itself
      rw [owners, if_pos asking] at split
      obtain rfl : owner = entity := by
        have mem : owner ∈ [entity] := split ▸ List.mem_append_cons_self
        exact List.mem_singleton.mp mem
      simp [markFor, asking]
  | false =>
      rw [owners, asking, if_neg Bool.false_ne_true] at split
      cases before with
      | nil =>
          obtain ⟨rfl, -⟩ := List.cons.inj split
          simp [markFor, asking, found]
      | cons first before =>
          obtain ⟨rfl, rest⟩ := List.cons.inj split
          have own : entity.lookup id = none := others entity List.mem_cons_self
          have behind : owner ∈ stage := by
            have mem : owner ∈ stage.toList := rest ▸ List.mem_append_cons_self
            exact Option.mem_toList.mp mem
          simp [markFor, own, role owner behind]

/-- The one entry that decides is of one kind only. -/
theorem scalarName_or_listName_none (entity : Entity) (stage : Option Entity) (id : String) :
    scalarName entity stage id = none ∨ listName entity stage id = none := by
  cases scalar : scalarName entity stage id with
  | none => exact .inl rfl
  | some name =>
      obtain ⟨owner, entry, first, same, _⟩ := resolve_eq_some_iff.mp scalar
      refine .inr (resolve_eq_none_iff.mpr (.inr ⟨owner, entry, first, ?_⟩))
      rw [same]
      decide

/-- The same role and the same entries under one id. -/
structure SameAt (id : String) (a b : Entity) : Prop where
  role : a.isStage = b.isStage
  entries : a.entries.filter (·.1 = id) = b.entries.filter (·.1 = id)

/-- The same stages as far as one id goes; the sprites are any. -/
def SameStages (id : String) (a b : Project) : Prop :=
  List.Forall₂ (SameAt id) (a.targets.filter (·.isStage)) (b.targets.filter (·.isStage))

theorem SameAt.lookup {id : String} {a b : Entity} (h : SameAt id a b) :
    a.lookup id = b.lookup id := by
  rw [Entity.lookup, Entity.lookup, Keyed.find?_eq_head?, Keyed.find?_eq_head?, h.entries]

theorem SameStages.lookup {id : String} {a b : Project} (h : SameStages id a b) :
    a.stage?.bind (·.lookup id) = b.stage?.bind (·.lookup id) := by
  rw [Project.stage?, Project.stage?, ← List.head?_filter, ← List.head?_filter]
  rw [SameStages] at h
  generalize a.targets.filter (·.isStage) = stages, b.targets.filter (·.isStage) = others at h ⊢
  cases h with
  | nil => rfl
  | cons stage _ => exact stage.lookup

theorem resolve_congr {kind : Kind} {id : String} {a b : Entity} {p q : Project}
    (asking : SameAt id a b) (stages : SameStages id p q) :
    resolve kind a p.stage? id = resolve kind b q.stage? id := by
  rw [resolve, resolve, asking.role, asking.lookup, stages.lookup]

/-- What an id stands for in a target of a loaded project: when it stands for nothing, which
variable it is and where the owner's source has its record, that it is never a variable and a list
at once, and that nothing but the entries under the id in the target and the stage matters. -/
theorem resolve_loaded {text : String} {project : Project} {entity : Entity}
    (loaded : (Loading.projectOfText text).result = .ok project) (mem : entity ∈ project.targets)
    (kind : Kind) (id : String) :
    (resolve kind entity project.stage? id = none ↔
      (∀ owner ∈ owners entity project.stage?, owner.lookup id = none) ∨
        ∃ owner entry, FirstOwner id (owners entity project.stage?) owner entry ∧
          entry.kind ≠ kind) ∧
    (∀ owner entry, FirstOwner id (owners entity project.stage?) owner entry →
      entry.kind = kind →
      ∃ mark, resolve kind entity project.stage? id =
          some (String.ofList (mark :: (Identifier.ofName entry.name).toList)) ∧
        (mark = '@' ↔ owner ∈ project.sprites) ∧ (mark = '$' ↔ project.stage? = some owner) ∧
        (∃ written, project.select none = .ok written ∧ owner ∈ written) ∧
        ∃ records, (Source.call owner).under (Source.groupKey kind) = [.records records] ∧
          records[owner.countBefore kind id]? = some (Source.entryRecord entry)) ∧
    (scalarName entity project.stage? id = none ∨ listName entity project.stage? id = none) ∧
    ∀ entity' project', SameAt id entity entity' → SameStages id project project' →
      resolve kind entity' project'.stage? id = resolve kind entity project.stage? id := by
  have whole := Loading.select_of_loaded loaded
  refine ⟨resolve_eq_none_iff, ?_, ?_, ?_⟩
  · intro owner entry first same
    subst same
    have target : owner ∈ project.targets := by
      obtain ⟨before, after, split, _⟩ := first.first
      exact mem_targets_of_owner mem (split ▸ List.mem_append_cons_self)
    have mark := markFor_of_firstOwner (fun _ => Project.isStage_of_stage?) first
    refine ⟨markFor entity id, ?_, ?_, ?_, ⟨_, whole, target⟩, Source.record_place first.found⟩
    · rw [resolve_of_firstOwner first, entryName?, if_pos rfl]
    · rw [mark, Project.mem_sprites_iff target]
      cases owner.isStage <;> decide
    · rw [mark, Project.stage?_eq_some_iff whole target]
      cases owner.isStage <;> decide
  · exact scalarName_or_listName_none entity project.stage? id
  · intro entity' project' asking stages
    exact (resolve_congr asking stages).symm

/-- A stage with two variables. -/
def backdrop : Entity :=
  { Entity.stage "s" with
    entries := [("v", .scalar "score" Literal.zero), ("w", .scalar "total" Literal.zero)] }

/-- A sprite with a list under the id of one of the stage's variables. -/
def covering : Entity :=
  { Entity.sprite "a" with entries := [("v", .list "items" [])] }

/-- The sprite's list hides the stage's first variable and leaves the second. -/
theorem resolve_loaded_covering : ∃ text,
    (Loading.projectOfText text).result = .ok ⟨[backdrop, covering]⟩ ∧
    resolve .scalar covering (some backdrop) "v" = none ∧
    (∃ mark, resolve .scalar covering (some backdrop) "w" =
        some (String.ofList (mark :: "total".toList)) ∧ mark = '$' ∧
      ∃ records, (Source.call backdrop).under "variables" = [.records records] ∧
        records[1]? = some (Source.entryRecord (.scalar "total" Literal.zero))) ∧
    resolve .scalar (covering.declare "x" (.scalar "y" Literal.zero)) (some backdrop) "w" =
      resolve .scalar covering (some backdrop) "w" := by
  have loaded : (Loading.projectOfText (r#"{"targets":["# ++
      r#"{"name":"a","isStage":false,"lists":{"v":["items",[]]}},"# ++
      r#"{"name":"s","isStage":true,"# ++
      r#""variables":{"v":["score",0],"w":["total",0]}}]}"#)).result =
      .ok ⟨[backdrop, covering]⟩ := by decide +kernel
  have mem : covering ∈ [backdrop, covering] := by simp
  have own : FirstOwner "v" (owners covering (some backdrop)) covering (.list "items" []) :=
    ⟨rfl, [], [backdrop], rfl, by simp⟩
  have behind : FirstOwner "w" (owners covering (some backdrop)) backdrop
      (.scalar "total" Literal.zero) :=
    ⟨rfl, [covering], [], rfl, by decide⟩
  obtain ⟨unnamed, _, _, _⟩ := resolve_loaded loaded mem .scalar "v"
  obtain ⟨_, named, _, frame⟩ := resolve_loaded loaded mem .scalar "w"
  obtain ⟨mark, resolved, _, ofStage, _, record⟩ := named _ _ behind rfl
  refine ⟨_, loaded, unnamed.mpr (.inr ⟨covering, _, own, by decide⟩),
    ⟨mark, ?_, ofStage.mpr rfl, record⟩, ?_⟩
  · have kept : Identifier.ofName "total" = "total" := by decide +kernel
    rw [← kept]
    exact resolved
  · exact frame _ ⟨[backdrop, .sprite "b"]⟩ ⟨rfl, by decide⟩ (.cons ⟨rfl, rfl⟩ .nil)

end Scope

end SpriteScript

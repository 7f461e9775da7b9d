import SpriteScript.Project

/-!
Targets by their places. The stage, the sprites, a target of a given name and what is selected for
writing can be asked for as places in the list of targets. Those places hold the very targets that
the question without places gives, in the same order, and none of them comes twice.
-/

namespace SpriteScript.Project

theorem map_getElem?_findIdx? (targets : List Entity) (p : Entity → Bool) :
    (targets.findIdx? p).map (targets[·]?) = (targets.find? p).map some := by
  rw [List.find?_eq_bind_findIdx?_getElem?]
  cases found : targets.findIdx? p with
  | none => rfl
  | some index =>
      obtain ⟨inside, _⟩ := List.findIdx?_eq_some_iff_getElem.mp found
      simp [inside]

theorem map_getElem?_spriteIndices (project : Project) :
    project.spriteIndices.map (project.targets[·]?) = project.sprites.map some := by
  have own : (project.targets.zipIdx.filter (!·.1.isStage)).map (project.targets[·.2]?) =
      (project.targets.zipIdx.filter (!·.1.isStage)).map fun target => some target.1 := by
    apply List.map_congr_left
    intro target mem
    exact List.mem_zipIdx_iff_getElem?.mp (List.mem_filter.mp mem).1
  have sprites : project.sprites =
      (project.targets.zipIdx.filter (!·.1.isStage)).map Prod.fst := by
    rw [Project.sprites, ← List.zipIdx_map_fst 0 project.targets, List.filter_map,
      List.zipIdx_map_fst]
    rfl
  rw [spriteIndices, sprites, List.map_map, List.map_map]
  exact own

theorem mem_spriteIndices {project : Project} {place : Nat} :
    place ∈ project.spriteIndices ↔
      ∃ target, project.targets[place]? = some target ∧ target.isStage = false := by
  simp [spriteIndices, List.mem_zipIdx_iff_getElem?]

/-- The selected places hold the selected targets, in the same order; a name that matches no target
is refused alike. -/
theorem map_getElem?_selectIndices (project : Project) (only : Option String) :
    (project.selectIndices only).map (·.map (project.targets[·]?)) =
      (project.select only).map (·.map some) := by
  cases only with
  | none =>
      have stage : project.stageIndex?.toList.map (project.targets[·]?) =
          project.stage?.toList.map some := by
        rw [← Option.toList_map, ← Option.toList_map]
        exact congrArg Option.toList (map_getElem?_findIdx? project.targets _)
      rw [selectIndices, select, Except.map, Except.map, List.map_append, List.map_append, stage,
        map_getElem?_spriteIndices]
  | some name =>
      have place : (project.targetIndex? name).map (project.targets[·]?) =
          (project.target? name).map some := map_getElem?_findIdx? project.targets _
      rw [selectIndices, select]
      cases index : project.targetIndex? name with
      | none =>
          rw [index, Option.map_none, eq_comm, Option.map_eq_none_iff] at place
          rw [place]
          rfl
      | some found =>
          rw [index, Option.map_some, eq_comm, Option.map_eq_some_iff] at place
          obtain ⟨target, first, here⟩ := place
          rw [first]
          simp only [Except.map, List.map_cons, List.map_nil, here]

theorem spriteIndices_nodup (project : Project) : project.spriteIndices.Nodup := by
  have all : (project.targets.zipIdx.map Prod.snd).Nodup := by
    rw [List.zipIdx_map_snd]
    exact List.nodup_range'
  exact List.Nodup.sublist (List.filter_sublist.map Prod.snd) all

theorem selectIndices_nodup {project : Project} {only : Option String} {places : List Nat}
    (h : project.selectIndices only = .ok places) : places.Nodup := by
  cases only with
  | none =>
      cases h
      cases stage : project.stageIndex? with
      | none => exact project.spriteIndices_nodup
      | some index =>
          refine List.nodup_cons.mpr ⟨?_, project.spriteIndices_nodup⟩
          intro mem
          obtain ⟨inside, isStage, _⟩ := List.findIdx?_eq_some_iff_getElem.mp stage
          obtain ⟨target, here, role⟩ := mem_spriteIndices.mp mem
          rw [List.getElem?_eq_getElem inside, Option.some.injEq] at here
          rw [here, role] at isStage
          contradiction
  | some name =>
      rw [selectIndices] at h
      cases index : project.targetIndex? name with
      | none => rw [index] at h; contradiction
      | some place =>
          rw [index] at h
          cases h
          simp

end SpriteScript.Project

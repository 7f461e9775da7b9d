import SpriteScript.Proofs.Resolution
import SpriteScript.Proofs.Unambiguity

/-!
Asking for one target by its name. The letters of ASCII match in either case and the first target
that matches is taken, so a target is hidden by another one in front of it whose name differs only
in case: its block stands in the source of the whole project, but no name gives that block alone.
All other targets are found under their own names, and a name that matches none is refused.
-/

namespace SpriteScript

namespace Project

/-- The target is the first one whose name matches. -/
def IsFirst (project : Project) (name : String) (target : Entity) : Prop :=
  ∃ before after, project.targets = before ++ target :: after ∧
    sameName target.name name = true ∧ ∀ other ∈ before, sameName other.name name = false

variable {project : Project} {name : String} {target : Entity}

theorem sameName_self (name : String) : sameName name name = true :=
  beq_self_eq_true _

theorem target?_eq_some_iff : project.target? name = some target ↔ project.IsFirst name target := by
  rw [target?, List.find?_eq_some_iff_append]
  constructor
  · rintro ⟨same, before, after, place, different⟩
    exact ⟨before, after, place, same, by simpa using different⟩
  · rintro ⟨before, after, place, same, different⟩
    exact ⟨same, before, after, place, by simpa using different⟩

theorem target?_eq_none_iff :
    project.target? name = none ↔
      ∀ target ∈ project.targets, sameName target.name name = false := by
  simp [target?]

/-- Where a target of the front part matches, the first one that does stands there too. -/
theorem exists_isFirst {before after : List Entity} {other : Entity}
    (place : project.targets = before ++ after) (mem : other ∈ before)
    (same : sameName other.name name = true) : ∃ first ∈ before, project.IsFirst name first := by
  cases found : before.find? fun target => sameName target.name name with
  | none =>
      rw [List.find?_eq_none] at found
      exact absurd same (found other mem)
  | some first =>
      refine ⟨first, List.mem_of_find?_eq_some found, target?_eq_some_iff.mp ?_⟩
      rw [target?, place, List.find?_append, found, Option.some_or]

theorem IsFirst.select (h : project.IsFirst name target) :
    project.select (some name) = .ok [target] := by
  rw [Project.select, target?_eq_some_iff.mpr h]

theorem select_of_unmatched
    (h : ∀ target ∈ project.targets, sameName target.name name = false) :
    project.select (some name) = .error ⟨name⟩ := by
  rw [Project.select, target?_eq_none_iff.mpr h]

end Project

/-- The block of a target shows its name. -/
theorem Source.name_eq_of_entity_eq {a b : Entity} (h : Source.entity a = Source.entity b) :
    a.name = b.name := by
  have texts : text (targetPieces [a]) = text (targetPieces [b]) := by
    rw [text_targetPieces, text_targetPieces, List.map_singleton, List.map_singleton, h]
  have alike := (targets_alike_iff [a] [b]).mp texts
  rw [List.forall₂_cons] at alike
  exact alike.1.name

section

open Loading
open Project (sameName)

variable {text name : String} {project : Project} {target : Entity}

theorem convertText_of_isFirst (loaded : (projectOfText text).result = .ok project)
    (h : project.IsFirst name target) :
    (convertText text (some name)).result = .ok (Source.entity target ++ "\n") := by
  refine convertText_of_loaded loaded ((Source.project_of_select h.select).trans ?_)
  rw [List.map_singleton, String.intercalate_singleton]

theorem convertText_of_unmatched (loaded : (projectOfText text).result = .ok project)
    (h : ∀ target ∈ project.targets, sameName target.name name = false) :
    (convertText text (some name)).result = .error (.unknownTarget ⟨name⟩) := by
  refine Traced.bind_error_iff.mpr (.inr ⟨project, Traced.mapError_ok_iff.mpr loaded, ?_⟩)
  rw [Source.project, Project.select_of_unmatched h]
  rfl

/-- Asked for by its name, a target gives its own block of the whole source exactly when no target
in front of it has that name in other letters; otherwise the first such target gives its block. A
name that matches no target is an error. -/
theorem convertText_byName {text : String} {project : Project}
    (loaded : (projectOfText text).result = .ok project) :
    (convertText text none).result =
      .ok ("\n\n".intercalate (project.targets.map Source.entity) ++ "\n") ∧
    (∀ name target, project.IsFirst name target →
      (convertText text (some name)).result = .ok (Source.entity target ++ "\n")) ∧
    (∀ before target after, project.targets = before ++ target :: after →
      (∀ other ∈ before ++ after, other.name ≠ target.name) →
      ((convertText text (some target.name)).result = .ok (Source.entity target ++ "\n") ↔
        ∀ other ∈ before, sameName other.name target.name = false)) ∧
    ∀ name, (∀ target ∈ project.targets, sameName target.name name = false) →
      ∃ error, (convertText text (some name)).result = .error error ∧
        error.message = "Target '" ++ name ++ "' not found in project." := by
  refine ⟨?_, fun _ _ => convertText_of_isFirst loaded, ?_, ?_⟩
  · exact convertText_of_loaded loaded (Source.project_of_select (select_of_loaded loaded))
  · intro before target after place distinct
    constructor
    · intro own other mem
      rw [← Bool.not_eq_true]
      intro same
      obtain ⟨first, front, isFirst⟩ := Project.exists_isFirst place mem same
      have blocks := own.symm.trans (convertText_of_isFirst loaded isFirst)
      rw [Except.ok.injEq, String.append_left_inj] at blocks
      exact distinct first (List.mem_append_left after front)
        (Source.name_eq_of_entity_eq blocks).symm
    · intro different
      exact convertText_of_isFirst loaded
        ⟨before, after, place, Project.sameName_self _, different⟩
  · intro name unmatched
    exact ⟨_, convertText_of_unmatched loaded unmatched, rfl⟩

/-- Two sprites whose names differ in case only: the second one is hidden by the first. -/
theorem convertText_byName_cased : ∃ text project,
    (projectOfText text).result = .ok project ∧
    project.targets = [.stage "s", .sprite "cat", .sprite "Cat"] ∧
    (convertText text (some "S")).result = .ok (Source.entity (.stage "s") ++ "\n") ∧
    (convertText text (some "cat")).result = .ok (Source.entity (.sprite "cat") ++ "\n") ∧
    (convertText text (some "Cat")).result ≠ .ok (Source.entity (.sprite "Cat") ++ "\n") ∧
    ∃ error, (convertText text (some "dog")).result = .error error ∧
      error.message = "Target 'dog' not found in project." := by
  have loaded : (projectOfText (r#"{"targets":[{"name":"cat","isStage":false},"# ++
      r#"{"name":"s","isStage":true},"# ++
      r#"{"name":"Cat","isStage":false}]}"#)).result =
      .ok ⟨[.stage "s", .sprite "cat", .sprite "Cat"]⟩ := by decide +kernel
  obtain ⟨_, first, own, unmatched⟩ := convertText_byName loaded
  refine ⟨_, _, loaded, rfl, ?_, ?_, ?_, unmatched "dog" (by decide)⟩
  · exact first "S" _ ⟨[], [.sprite "cat", .sprite "Cat"], rfl, by decide, by simp⟩
  · exact (own [.stage "s"] _ [.sprite "Cat"] rfl (by decide)).mpr (by decide)
  · exact (own [.stage "s", .sprite "cat"] (.sprite "Cat") [] rfl (by decide)).not.mpr (by decide)

/-- The name of a target can be its own and still give another one. -/
theorem convertText_gives_other : ∃ text project before target after,
    (projectOfText text).result = .ok project ∧ project.targets = before ++ target :: after ∧
    (∀ other ∈ before ++ after, other.name ≠ target.name) ∧
    (convertText text (some target.name)).result ≠ .ok (Source.entity target ++ "\n") := by
  refine ⟨r#"{"targets":[{"name":"cat","isStage":false},"# ++
      r#"{"name":"Cat","isStage":false}]}"#,
    ⟨[.sprite "cat", .sprite "Cat"]⟩, [.sprite "cat"], .sprite "Cat", [], ?_⟩
  decide +kernel

end

end SpriteScript

import SpriteScript.Entity

/-!
A project is its targets. Targets are selected either all, the stage first, or by name, where
the letters of ASCII match in either case.
-/

namespace SpriteScript

/-- The targets of a project. A loaded project has its stage first and then the sprites in layer
order. -/
structure Project where
  targets : List Entity
deriving DecidableEq

structure UnknownTarget where
  name : String
deriving DecidableEq

def UnknownTarget.message (error : UnknownTarget) : String :=
  "Target '" ++ error.name ++ "' not found in project."

namespace Project

/-- Equality of names up to the case of ASCII letters. -/
def sameName (a b : String) : Bool :=
  a.toList.map Char.toLower == b.toList.map Char.toLower

def stage? (project : Project) : Option Entity :=
  project.targets.find? (·.isStage)

def sprites (project : Project) : List Entity :=
  project.targets.filter (!·.isStage)

def target? (project : Project) (name : String) : Option Entity :=
  project.targets.find? fun target => sameName target.name name

/-- The targets that are written: the stage and then the sprites, or the one of the given name. -/
def select (project : Project) : Option String → Except UnknownTarget (List Entity)
  | none => .ok (project.stage?.toList ++ project.sprites)
  | some name =>
    match project.target? name with
    | some target => .ok [target]
    | none => .error ⟨name⟩

def stageIndex? (project : Project) : Option Nat :=
  project.targets.findIdx? (·.isStage)

def spriteIndices (project : Project) : List Nat :=
  (project.targets.zipIdx.filter (!·.1.isStage)).map Prod.snd

def targetIndex? (project : Project) (name : String) : Option Nat :=
  project.targets.findIdx? fun target => sameName target.name name

/-- The places at which the selected targets stand in the project. -/
def selectIndices (project : Project) : Option String → Except UnknownTarget (List Nat)
  | none => .ok (project.stageIndex?.toList ++ project.spriteIndices)
  | some name =>
    match project.targetIndex? name with
    | some index => .ok [index]
    | none => .error ⟨name⟩

def modify (project : Project) (index : Nat) (f : Entity → Entity) : Project :=
  { project with targets := project.targets.modify index f }

def push (project : Project) (target : Entity) : Project :=
  { project with targets := project.targets ++ [target] }

end Project

end SpriteScript

import SpriteScript.Keyed
import SpriteScript.Literal

/-!
The state of one target of a project: a sprite or the stage, with its place, look, costumes and
the variables and lists it owns. The defaults are the state of a target about which nothing is
said, and they are written once, in the structure.
-/

namespace SpriteScript

inductive RotationStyle where
  | allAround
  | leftRight
  | dontRotate
deriving DecidableEq

namespace RotationStyle

def name : RotationStyle → String
  | allAround => "all around"
  | leftRight => "left-right"
  | dontRotate => "don't rotate"

def ofName? (name : String) : Option RotationStyle :=
  [allAround, leftRight, dontRotate].find? (·.name = name)

end RotationStyle

structure Costume where
  assetId : String
  name : String
  bitmapResolution : Binary64
  md5 : String
  dataFormat : String
  rotationCenterX : Binary64
  rotationCenterY : Binary64
deriving DecidableEq

/-- Equality with numbers compared as numbers. -/
def Costume.same (a b : Costume) : Bool :=
  a.assetId == b.assetId && a.name == b.name && a.bitmapResolution.same b.bitmapResolution &&
    a.md5 == b.md5 && a.dataFormat == b.dataFormat &&
    a.rotationCenterX.same b.rotationCenterX && a.rotationCenterY.same b.rotationCenterY

/-- The two kinds of things an id can stand for. -/
inductive Kind where
  | scalar
  | list
deriving DecidableEq

/-- What an id stands for: a variable with its value, or a list with its items. -/
inductive Entry where
  | scalar (name : String) (value : Literal)
  | list (name : String) (items : List Literal)
deriving DecidableEq

namespace Entry

def kind : Entry → Kind
  | scalar .. => .scalar
  | list .. => .list

def name : Entry → String
  | scalar name _ => name
  | list name _ => name

/-- A variable that is zero, or an empty list. -/
def isDefault : Entry → Bool
  | scalar _ value => value.same Literal.zero
  | list _ items => items.isEmpty

/-- Equality with numbers compared as numbers. -/
def same : Entry → Entry → Bool
  | scalar a v, scalar b w => a == b && v.same w
  | list a vs, list b ws =>
    a == b && vs.length == ws.length && (vs.zip ws).all fun (v, w) => v.same w
  | _, _ => false

end Entry

/-- A sprite or the stage. The current costume is counted from one. -/
structure Entity where
  name : String
  isStage : Bool
  x : Binary64 := .zero
  y : Binary64 := .zero
  direction : Binary64 := .ofNat 90
  visible : Bool := true
  size : Binary64 := .ofNat 100
  costumes : List Costume := []
  currentCostume : UInt64 := 1
  rotationStyle : RotationStyle := .allAround
  entries : Keyed String Entry := []
deriving DecidableEq

namespace Entity

def blank (name : String) (isStage : Bool) : Entity :=
  { name, isStage }

def sprite (name : String) : Entity :=
  blank name false

def stage (name : String) : Entity :=
  blank name true

def lookup (entity : Entity) (id : String) : Option Entry :=
  entity.entries.find? id

def entriesOf (entity : Entity) (kind : Kind) : List Entry :=
  entity.entries.values.filter (·.kind = kind)

def declare (entity : Entity) (id : String) (entry : Entry) : Entity :=
  { entity with entries := entity.entries.put id entry }

/-- Equality of states: numbers compare as numbers, and the order of the entries is no matter. -/
def same (a b : Entity) : Bool :=
  a.name == b.name && a.isStage == b.isStage && a.x.same b.x && a.y.same b.y &&
    a.direction.same b.direction && a.visible == b.visible && a.size.same b.size &&
    a.costumes.length == b.costumes.length &&
    ((a.costumes.zip b.costumes).all fun (c, d) => c.same d) &&
    a.currentCostume == b.currentCostume && a.rotationStyle = b.rotationStyle &&
    Keyed.agree Entry.same a.entries b.entries

end Entity

end SpriteScript

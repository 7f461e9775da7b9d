import SpriteScript.Json.Printer
import SpriteScript.Json.Reader
import SpriteScript.LoadError
import SpriteScript.Notice
import SpriteScript.Project

/-!
Loading a project from JSON. A target needs a name and must say whether it is the stage; all
else has a default, and a field of another type counts as absent. Values that a literal cannot
hold are replaced with a warning. The first fault ends the loading.
-/

namespace SpriteScript.Loading

open Json (Value)

abbrev Load (α : Type) := Traced LoadError α

def numberOr (default : Binary64) (key : String) (value : Value) : Binary64 :=
  ((value.field? key).bind Value.number?).elim default Json.Number.toBinary64

def textOf (key : String) (value : Value) : String :=
  ((value.field? key).bind Value.string?).getD ""

/-- The literal of a value. `null` becomes zero and a nested value its compact text. -/
def literal (target owner : String) : Value → Load Literal
  | .number value => pure (.number value.toBinary64)
  | .string value => pure (.text value)
  | .bool value => pure (.bool value)
  | .null => do
    Traced.note (.nullValue target owner)
    pure Literal.zero
  | value => do
    Traced.note (.nestedValue target owner)
    pure (.text value.compact)

def literals (target owner : String) : List Value → Load (List Literal)
  | [] => pure []
  | item :: rest => do
    let first ← literal target owner item
    let others ← literals target owner rest
    pure (first :: others)

/-- A declaration is an array that starts with a name and a value; more may follow. -/
def declaration (target : String) (kind : Kind) (id : String) : Value → Load (String × Value)
  | .array (.string name :: value :: _) => pure (name, value)
  | _ => Traced.fail (.malformedEntry target kind id)

def entry (target : String) (kind : Kind) (id : String) (value : Value) : Load Entry := do
  let (name, value) ← declaration target kind id value
  match kind with
  | .scalar => do
    let value ← literal target name value
    pure (.scalar name value)
  | .list =>
    match value with
    | .array items => do
      let items ← literals target name items
      pure (.list name items)
    | _ => Traced.fail (.malformedEntry target kind id)

def entriesInto (target : String) (kind : Kind) :
    Keyed String Entry → Keyed String Value → Load (Keyed String Entry)
  | entries, [] => pure entries
  | entries, (id, value) :: rest => do
    let new ← entry target kind id value
    entriesInto target kind (entries.put id new) rest

def declarations (key : String) (value : Value) : Keyed String Value :=
  ((value.field? key).bind Value.object?).getD []

/-- The costume that an object describes. Its file name is made of id and format when absent. -/
def costume (value : Value) : Costume :=
  let assetId := textOf "assetId" value
  let dataFormat := textOf "dataFormat" value
  { assetId
    name := textOf "name" value
    bitmapResolution := numberOr (.ofNat 1) "bitmapResolution" value
    md5 := ((value.field? "md5ext").bind Value.string?).getD (assetId ++ "." ++ dataFormat)
    dataFormat
    rotationCenterX := numberOr .zero "rotationCenterX" value
    rotationCenterY := numberOr .zero "rotationCenterY" value }

/-- The costumes of an array from a place on; what is no object is left out. -/
def costumesFrom (target : String) : Nat → List Value → Load (List Costume)
  | _, [] => pure []
  | index, .object fields :: rest => do
    let others ← costumesFrom target (index + 1) rest
    pure (costume (.object fields) :: others)
  | index, _ :: rest => do
    Traced.note (.skippedCostume target index)
    costumesFrom target (index + 1) rest

def styleNamed (target name : String) : Load RotationStyle :=
  match RotationStyle.ofName? name with
  | some style => pure style
  | none => do
    Traced.note (.unknownRotation target name)
    pure .allAround

def rotationStyle (target : String) (value : Value) : Load RotationStyle :=
  ((value.field? "rotationStyle").bind Value.string?).elim (pure .allAround) (styleNamed target)

/-- The current costume, counted from one. The file counts from zero; the largest number stays. -/
def currentCostume (value : Value) : UInt64 :=
  (((value.field? "currentCostume").bind Value.number?).bind Json.Number.unsigned?).elim 1
    fun index => if index = 0xFFFFFFFFFFFFFFFF then index else index + 1

def state (name : String) (isStage : Bool) (value : Value) : Load Entity := do
  let blank := Entity.blank name isStage
  let rotationStyle ← rotationStyle name value
  let scalars ← entriesInto name .scalar [] (declarations "variables" value)
  let entries ← entriesInto name .list scalars (declarations "lists" value)
  let costumes ← costumesFrom name 0 (((value.field? "costumes").bind Value.array?).getD [])
  pure { blank with
    x := numberOr blank.x "x" value
    y := numberOr blank.y "y" value
    direction := numberOr blank.direction "direction" value
    visible := ((value.field? "visible").map Value.truthy).getD blank.visible
    size := numberOr blank.size "size" value
    costumes
    currentCostume := currentCostume value
    rotationStyle
    entries }

def target (index : Nat) (value : Value) : Load Entity :=
  match (value.field? "name").bind Value.string? with
  | none => Traced.fail (.missingField index .name)
  | some name =>
    match (value.field? "isStage").bind Value.bool? with
    | none => Traced.fail (.missingField index .isStage)
    | some isStage => do
      Traced.note (.readingTarget name isStage)
      state name isStage value

/-- The layer of a target; one without a layer stands above all others. -/
def layer (value : Value) : Int :=
  (((value.field? "layerOrder").bind Value.number?).bind Json.Number.signed?).getD
    0x7FFFFFFFFFFFFFFF

/-- The stage, if there is one, and the other targets with their layers, in the order of the
file. -/
def targetsFrom (index : Nat) (stage : Option Entity) :
    List Value → Load (Option Entity × List (Int × Entity))
  | [] => pure (stage, [])
  | value :: rest => do
    let entity ← target index value
    if entity.isStage then
      match stage with
      | some first => Traced.fail (.secondStage first.name entity.name)
      | none => targetsFrom (index + 1) (some entity) rest
    else do
      let (stage, sprites) ← targetsFrom (index + 1) stage rest
      pure (stage, (layer value, entity) :: sprites)

def placeByLayer (sprite : Int × Entity) : List (Int × Entity) → List (Int × Entity)
  | [] => [sprite]
  | first :: rest =>
    if sprite.1 ≤ first.1 then sprite :: first :: rest else first :: placeByLayer sprite rest

/-- Puts targets in the order of their layers; those of one layer keep their order, since each is
placed after all that follow it. -/
def inLayerOrder (sprites : List (Int × Entity)) : List Entity :=
  (sprites.foldr placeByLayer []).map Prod.snd

def project (root : Value) : Load Project :=
  match (root.field? "targets").bind Value.array? with
  | none => Traced.fail .noTargets
  | some targets => do
    let (stage, sprites) ← targetsFrom 0 none targets
    pure ⟨stage.toList ++ inLayerOrder sprites⟩

def projectOfText (text : String) : Load Project :=
  match Json.parse text with
  | .error error => Traced.fail (.badText error)
  | .ok root => project root

end SpriteScript.Loading

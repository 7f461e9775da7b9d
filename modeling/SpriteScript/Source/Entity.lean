import SpriteScript.Notice
import SpriteScript.Project
import SpriteScript.Source.Call
import SpriteScript.Source.Literal

/-!
The source of entities and projects. An entity is a constructor call that names only what
differs from the defaults; a project is its targets' calls, a blank line apart.
-/

namespace SpriteScript.Source

def textField (key text : String) : Field :=
  ⟨key, [.quoted text]⟩

def numberField (key : String) (value : Binary64) : Field :=
  ⟨key, [.code (number value)]⟩

def costumeRecord (costume : Costume) : List Field :=
  [textField "asset_id" costume.assetId,
   textField "name" costume.name,
   numberField "bitmap_resolution" costume.bitmapResolution,
   textField "md5" costume.md5,
   textField "data_format" costume.dataFormat,
   numberField "rotation_center_x" costume.rotationCenterX,
   numberField "rotation_center_y" costume.rotationCenterY]

def entryValue : Entry → List Piece
  | .scalar _ value => scalarPieces value
  | .list _ items => sequencePieces items

/-- The record of an entry, without a value that is the default. -/
def entryRecord (entry : Entry) : List Field :=
  textField "name" entry.name ::
    if entry.isDefault then [] else [⟨"value", entryValue entry⟩]

/-- The argument of a number unless it has its default. -/
def numberArgument (key : String) (default value : Binary64) : List Argument :=
  if value.same default then [] else [⟨key, .inline [.code (number value)]⟩]

def recordsArgument (key : String) (records : List (List Field)) : List Argument :=
  if records.isEmpty then [] else [⟨key, .records records⟩]

/-- The keyword arguments of an entity: what differs from a blank one. Costumes are counted from
zero here. -/
def arguments (entity : Entity) : List Argument :=
  let blank := Entity.blank entity.name entity.isStage
  let index := entity.currentCostume.toNat - 1
  numberArgument "x" blank.x entity.x ++
  numberArgument "y" blank.y entity.y ++
  numberArgument "direction" blank.direction entity.direction ++
  (if entity.visible then [] else [⟨"visible", .inline [.code (bool entity.visible)]⟩]) ++
  numberArgument "size" blank.size entity.size ++
  (if index = 0 then [] else [⟨"current_costume", .inline [.code (Nat.repr index)]⟩]) ++
  recordsArgument "costumes" (entity.costumes.map costumeRecord) ++
  (if entity.rotationStyle = .allAround then []
    else [⟨"rotation_style", .inline [.quoted entity.rotationStyle.name]⟩]) ++
  recordsArgument "variables" ((entity.entriesOf .scalar).map entryRecord) ++
  recordsArgument "lists" ((entity.entriesOf .list).map entryRecord)

def call (entity : Entity) : Call where
  constructor := if entity.isStage then "Stage" else "Sprite"
  subject := entity.name
  arguments := arguments entity

def entity (entity : Entity) : String :=
  text (call entity).pieces

def entityNotice (entity : Entity) : Notice :=
  .emitting entity.isStage entity.name (arguments entity).length

def targetPieces (targets : List Entity) : List Piece :=
  List.intercalate [.code "\n\n"] (targets.map fun target => (call target).pieces) ++ [.code "\n"]

def project (project : Project) (only : Option String) : Traced UnknownTarget String := do
  let targets ← Traced.ofExcept (project.select only)
  ⟨targets.map entityNotice, .ok (text (targetPieces targets))⟩

end SpriteScript.Source

import SpriteScript.Identifier
import SpriteScript.Project

/-!
Which variable of the source an id stands for. A sprite sees its own entries, as instance
variables, and behind them the stage's, as globals; the stage sees only its own. An own entry of
the other kind hides the stage's.
-/

namespace SpriteScript.Scope

/-- The name of the object that statements are run on. -/
def self : String := "self"

def entryName? (mark : Char) (kind : Kind) (entry : Entry) : Option String :=
  if entry.kind = kind then
    some (String.ofList (mark :: (Identifier.ofName entry.name).toList))
  else none

/-- The variable that an id stands for in an entity, given the stage. -/
def resolve (kind : Kind) (entity : Entity) (stage : Option Entity) (id : String) :
    Option String :=
  if entity.isStage then (entity.lookup id).bind (entryName? '$' kind)
  else
    match entity.lookup id with
    | some entry => entryName? '@' kind entry
    | none => (stage.bind (·.lookup id)).bind (entryName? '$' kind)

def scalarName (entity : Entity) (stage : Option Entity) (id : String) : Option String :=
  resolve .scalar entity stage id

def listName (entity : Entity) (stage : Option Entity) (id : String) : Option String :=
  resolve .list entity stage id

end SpriteScript.Scope

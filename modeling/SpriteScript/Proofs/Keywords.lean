import SpriteScript.Proofs.Unambiguity

/-!
What stands under a keyword of a target's call. Every keyword is written at most once, so what is
found under it is nothing or one content: the index of the costume counted from zero, the records
of the costumes, and those of the entries of each kind.
-/

namespace SpriteScript.Source

/-- The contents of the arguments under a keyword, in order. -/
def Call.under (call : Call) (key : String) : List Content :=
  (call.arguments.filter (·.key = key)).map Argument.content

/-- The keyword that the entries of a kind are written under. -/
def groupKey : Kind → String
  | .scalar => "variables"
  | .list => "lists"

theorem under_currentCostume (entity : Entity) :
    (call entity).under "current_costume" =
      if entity.currentCostume.toNat - 1 = 0 then []
      else [.inline [.code (Nat.repr (entity.currentCostume.toNat - 1))]] := by
  simp only [Call.under, call, arguments, List.filter_append, filter_numberArgument,
    filter_recordsArgument, filter_optional, String.reduceEq, if_true, if_false, List.append_nil,
    List.nil_append]
  split <;> rfl

theorem content_recordsArgument (key : String) (records : List (List Field)) :
    (recordsArgument key records).map Argument.content =
      if records = [] then [] else [.records records] := by
  cases records <;> rfl

theorem under_costumes (entity : Entity) :
    (call entity).under "costumes" =
      if entity.costumes.map costumeRecord = [] then []
      else [.records (entity.costumes.map costumeRecord)] := by
  simp only [Call.under, call, arguments, List.filter_append, filter_numberArgument,
    filter_recordsArgument, filter_optional, String.reduceEq, if_true, if_false, List.append_nil,
    List.nil_append, content_recordsArgument]

theorem under_groupKey (entity : Entity) (kind : Kind) :
    (call entity).under (groupKey kind) =
      if (entity.entriesOf kind).map entryRecord = [] then []
      else [.records ((entity.entriesOf kind).map entryRecord)] := by
  have scalars : (arguments entity).filter (·.key = "variables") =
      recordsArgument "variables" ((entity.entriesOf .scalar).map entryRecord) := by
    simp only [arguments, List.filter_append, filter_numberArgument, filter_recordsArgument,
      filter_optional, String.reduceEq, if_true, if_false, List.append_nil, List.nil_append]
  have lists : (arguments entity).filter (·.key = "lists") =
      recordsArgument "lists" ((entity.entriesOf .list).map entryRecord) := by
    simp only [arguments, List.filter_append, filter_numberArgument, filter_recordsArgument,
      filter_optional, String.reduceEq, if_true, if_false, List.append_nil, List.nil_append]
  rw [← content_recordsArgument (groupKey kind)]
  cases kind with
  | scalar => exact congrArg (List.map Argument.content) scalars
  | list => exact congrArg (List.map Argument.content) lists

end SpriteScript.Source

/-!
Progress lines with a bar.
-/

namespace SpriteScript.Command

/-- A bar of the given width that is filled in proportion, rounded. -/
def progressBar (step total width : Nat) : String :=
  let filled := (step * width + total / 2) / total
  "[" ++ String.ofList ((List.range width).map fun i => if i < filled then '=' else '-') ++ "]"

def progressLine (step total : Nat) (label : String) : String :=
  "[Convert] " ++ label ++ "... (" ++ Nat.repr step ++ "/" ++ Nat.repr total ++ ") " ++
    progressBar step total 14 ++ "\n"

end SpriteScript.Command

/-!
Lists of values under keys, in the order in which the keys first came. Putting a value under a
key that is present replaces it in place.
-/

namespace SpriteScript

/-- Values under keys, oldest key first. -/
abbrev Keyed (κ β : Type) := List (κ × β)

namespace Keyed

variable {κ β : Type}

def keys (entries : Keyed κ β) : List κ :=
  entries.map Prod.fst

def values (entries : Keyed κ β) : List β :=
  entries.map Prod.snd

variable [DecidableEq κ]

def find? (key : κ) : Keyed κ β → Option β
  | [] => none
  | (k, value) :: rest => if k = key then some value else find? key rest

/-- The list with `value` under `key`: in the key's place if it has one, else at the end. -/
def put (key : κ) (value : β) : Keyed κ β → Keyed κ β
  | [] => [(key, value)]
  | (k, old) :: rest => if k = key then (k, value) :: rest else (k, old) :: put key value rest

/-- Whether two lists hold agreeing values under the same keys, in any order. -/
def agree (same : β → β → Bool) (a b : Keyed κ β) : Bool :=
  a.length == b.length &&
    a.all fun (key, value) => (find? key b).any (same value)

end Keyed

end SpriteScript

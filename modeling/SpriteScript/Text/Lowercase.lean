import SpriteScript.Text.CaseTable

/-!
The lowercase of a text. A capital sigma at the end of a word has its own lowercase letter, so
the neighbours are looked at: a cased letter before it and none after it, passing over marks and
the like on both sides.
-/

namespace SpriteScript.Text

/-- The lowercase of a single character outside the two special cases. -/
def lowerSimple (c : Char) : Char :=
  if c.toNat < 128 then c.toLower
  else
    match capitalRuns.find? fun run =>
        run.first ≤ c.toNat && c.toNat ≤ run.last && (c.toNat - run.first) % run.step == 0 with
    | some run => Char.ofNat (c.toNat + run.shift).toNat
    | none => c

def isIgnorable (c : Char) : Bool :=
  inRuns ignorableRuns c.toNat

def isCased (c : Char) : Bool :=
  inRuns casedRuns c.toNat

def meetsCased (neighbours : List Char) : Bool :=
  match neighbours.dropWhile isIgnorable with
  | [] => false
  | c :: _ => isCased c

/-- The lowercase of a character between the characters before it, nearest first, and those after
it. -/
def lowerChar (before : List Char) (c : Char) (after : List Char) : List Char :=
  if c = 'Σ' then (if meetsCased before && !meetsCased after then ['ς'] else ['σ'])
  else if c = 'İ' then ['i', '\u0307']
  else [lowerSimple c]

def lowerFrom (before : List Char) : List Char → List Char
  | [] => []
  | c :: rest => lowerChar before c rest ++ lowerFrom (c :: before) rest

def lowercase (text : String) : String :=
  String.ofList (lowerFrom [] text.toList)

end SpriteScript.Text

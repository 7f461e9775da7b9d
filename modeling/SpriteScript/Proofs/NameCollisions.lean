import Mathlib.Data.List.Forall2
import SpriteScript.Proofs.VariableNames

/-!
Ids that stand for the same variable. The mark of a variable tells at which level the entry was
found, among the entity's own entries or behind them among the stage's. The identifier tells the
display name up to its signs: the ASCII characters that are neither letters nor digits all become
underscores, and all other characters are kept in their places.
-/

namespace SpriteScript

namespace Identifier

/-- An ASCII character that is neither a letter nor a digit; the underscore is one. -/
def isSign (c : Char) : Bool :=
  c.toNat < 128 && !c.isAlphanum

/-- Names of one length that have, at every place, the same character or two signs. -/
structure Alike (a b : String) : Prop where
  length : a.toList.length = b.toList.length
  places : ∀ i (ha : i < a.toList.length) (hb : i < b.toList.length),
    a.toList[i] = b.toList[i] ∨ (isSign a.toList[i] = true ∧ isSign b.toList[i] = true)

theorem part_eq (c : Char) : part c = if isSign c then '_' else c := by
  by_cases underscore : c = '_'
  · rw [underscore]
    decide
  · by_cases ascii : c.toNat < 128
    · cases letter : c.isAlphanum <;>
        simp [part, isPart, isSign, underscore, letter, ascii]
    · simp [part, isPart, isSign, ascii, Nat.le_of_not_lt ascii]

theorem part_eq_part_iff (c d : Char) :
    part c = part d ↔ c = d ∨ (isSign c = true ∧ isSign d = true) := by
  -- what is kept is never the underscore, which is itself a sign
  have kept {c : Char} (h : isSign c = false) : c ≠ '_' := by
    rintro rfl
    exact absurd h (by decide)
  by_cases same : c = d
  · simp [same]
  · rw [part_eq, part_eq]
    cases hc : isSign c with
    | true =>
        cases hd : isSign d with
        | true => simp
        | false => simp [same, (kept hd).symm]
    | false =>
        cases hd : isSign d with
        | true => simp [same, kept hc]
        | false => simp [same]

theorem ofName_eq_iff (a b : String) : ofName a = ofName b ↔ Alike a b := by
  rw [ofName, ofName, String.ofList_inj, ← List.forall₂_eq_eq_eq, List.forall₂_map_left_iff,
    List.forall₂_map_right_iff, List.forall₂_iff_get]
  simp only [part_eq_part_iff, List.get_eq_getElem]
  constructor
  · intro same
    exact ⟨same.1, same.2⟩
  · intro alike
    exact ⟨alike.length, alike.places⟩

end Identifier

namespace Scope

/-- The places where an entity looks for an id, one after the other. -/
inductive Level where
  | own
  | stage
deriving DecidableEq

/-- The level at which an entity finds an id, and the entry there. The stage's entries are looked at
only by an entity that is no stage and does not have the id itself. -/
inductive FoundAt (entity : Entity) (stage : Option Entity) (id : String) :
    Level → Entry → Prop where
  | own {entry : Entry} (found : entity.lookup id = some entry) : FoundAt entity stage id .own entry
  | stage {owner : Entity} {entry : Entry} (sprite : entity.isStage = false)
      (missing : entity.lookup id = none) (behind : stage = some owner)
      (found : owner.lookup id = some entry) : FoundAt entity stage id .stage entry

theorem entryName?_eq_some_iff {mark : Char} {kind : Kind} {entry : Entry} {name : String} :
    entryName? mark kind entry = some name ↔
      entry.kind = kind ∧ name = String.ofList (mark :: (Identifier.ofName entry.name).toList) := by
  rw [entryName?, Option.ite_none_right_eq_some, Option.some.injEq, eq_comm (b := name)]

/-- The mark of what an entity finds at a level. -/
def Level.mark (entity : Entity) : Level → Char
  | own => if entity.isStage then '$' else '@'
  | stage => '$'

section

variable {entity : Entity} {stage : Option Entity} {id id' : String} {level level' : Level}
  {entry entry' : Entry}

theorem exists_foundAt {kind : Kind} {name : String}
    (h : resolve kind entity stage id = some name) :
    ∃ level entry, FoundAt entity stage id level entry ∧ entry.kind = kind ∧
      name = String.ofList (level.mark entity :: (Identifier.ofName entry.name).toList) := by
  rw [resolve] at h
  split at h
  · next role =>
    obtain ⟨entry, found, named⟩ := Option.bind_eq_some_iff.mp h
    obtain ⟨same, rfl⟩ := entryName?_eq_some_iff.mp named
    exact ⟨.own, entry, .own found, same, by rw [Level.mark, if_pos role]⟩
  · next role =>
    have sprite : entity.isStage = false := Bool.eq_false_iff.mpr role
    split at h
    · next entry found =>
      obtain ⟨same, rfl⟩ := entryName?_eq_some_iff.mp h
      exact ⟨.own, entry, .own found, same, by rw [Level.mark, if_neg role]⟩
    · next missing =>
      obtain ⟨entry, behind, named⟩ := Option.bind_eq_some_iff.mp h
      obtain ⟨owner, given, found⟩ := Option.bind_eq_some_iff.mp behind
      obtain ⟨same, rfl⟩ := entryName?_eq_some_iff.mp named
      exact ⟨.stage, entry, .stage sprite missing given found, same, rfl⟩

/-- The stage finds nothing behind itself, so the mark tells the level. -/
theorem mark_eq_mark_iff (h : FoundAt entity stage id level entry)
    (h' : FoundAt entity stage id' level' entry') :
    level.mark entity = level'.mark entity ↔ level = level' := by
  cases h with
  | own _ =>
      cases h' with
      | own _ => simp
      | stage sprite _ _ _ => simp [Level.mark, sprite]
  | stage sprite _ _ _ =>
      cases h' with
      | own _ => simp [Level.mark, sprite]
      | stage _ _ _ _ => simp

/-- Two ids stand for the same variable exactly when their entries are found at one level and have
names that are alike. So what is found at different levels never collides, nor do names that differ
in a letter, a digit or a character outside ASCII, and what has one name at one level always does,
whatever the kinds. -/
theorem resolve_eq_resolve_iff {kind kind' : Kind} {name name' : String}
    (h : resolve kind entity stage id = some name)
    (h' : resolve kind' entity stage id' = some name') :
    ∃ level entry level' entry',
      (FoundAt entity stage id level entry ∧ entry.kind = kind) ∧
      (FoundAt entity stage id' level' entry' ∧ entry'.kind = kind') ∧
      (name = name' ↔ level = level' ∧ Identifier.Alike entry.name entry'.name) ∧
      (level ≠ level' → name ≠ name') ∧
      (∀ i (hi : i < entry.name.toList.length) (hi' : i < entry'.name.toList.length),
        entry.name.toList[i] ≠ entry'.name.toList[i] →
        (Identifier.isSign entry.name.toList[i] = false ∨
          Identifier.isSign entry'.name.toList[i] = false) → name ≠ name') ∧
      (level = level' → entry.name = entry'.name → name = name') := by
  obtain ⟨level, entry, found, kinds, rfl⟩ := exists_foundAt h
  obtain ⟨level', entry', found', kinds', rfl⟩ := exists_foundAt h'
  have collide : String.ofList (level.mark entity :: (Identifier.ofName entry.name).toList) =
      String.ofList (level'.mark entity :: (Identifier.ofName entry'.name).toList) ↔
        level = level' ∧ Identifier.Alike entry.name entry'.name := by
    rw [String.ofList_inj, List.cons.injEq, String.toList_inj, mark_eq_mark_iff found found',
      Identifier.ofName_eq_iff]
  refine ⟨level, entry, level', entry', ⟨found, kinds⟩, ⟨found', kinds'⟩, collide, ?_, ?_, ?_⟩
  · exact fun differ same => differ (collide.mp same).1
  · intro i hi hi' differ kept same
    obtain equal | ⟨sign, sign'⟩ := (collide.mp same).2.places i hi hi'
    · exact differ equal
    · simp [sign, sign'] at kept
  · intro sameLevel sameName
    refine collide.mpr ⟨sameLevel, ?_⟩
    rw [sameName]
    exact ⟨rfl, fun i _ _ => .inl rfl⟩

end

/-- A sprite whose variable and list have different names of one identifier. -/
def shelf : Entity :=
  { Entity.sprite "s" with
    entries := [("v", .scalar "né (1)" Literal.zero), ("w", .list "né_-1." [])] }

/-- A stage with a variable named like the sprite's. -/
def hall : Entity :=
  (Entity.stage "h").declare "x" (.scalar "né (1)" Literal.zero)

/-- The variable and the list of the sprite collide; the stage's variable is apart from them. -/
theorem resolve_eq_resolve_iff_shelf :
    resolve .scalar shelf (some hall) "v" = some "@né__1_" ∧
      resolve .list shelf (some hall) "w" = some "@né__1_" ∧
      resolve .scalar shelf (some hall) "x" = some "$né__1_" ∧
      (∃ level entry level' entry', FoundAt shelf (some hall) "v" level entry ∧
        FoundAt shelf (some hall) "w" level' entry' ∧ level = level' ∧
        Identifier.Alike entry.name entry'.name) ∧
      ∃ level entry level' entry', FoundAt shelf (some hall) "v" level entry ∧
        FoundAt shelf (some hall) "x" level' entry' ∧
        ¬(level = level' ∧ Identifier.Alike entry.name entry'.name) := by
  have v : resolve .scalar shelf (some hall) "v" = some "@né__1_" := by decide +kernel
  have w : resolve .list shelf (some hall) "w" = some "@né__1_" := by decide +kernel
  have x : resolve .scalar shelf (some hall) "x" = some "$né__1_" := by decide +kernel
  obtain ⟨level, entry, level', entry', first, second, same, _⟩ := resolve_eq_resolve_iff v w
  obtain ⟨near, score, far, other, third, fourth, apart, _⟩ := resolve_eq_resolve_iff v x
  exact ⟨v, w, x, ⟨level, entry, level', entry', first.1, second.1, same.mp rfl⟩,
    near, score, far, other, third.1, fourth.1, fun both => absurd (apart.mpr both) (by decide)⟩

end Scope

end SpriteScript

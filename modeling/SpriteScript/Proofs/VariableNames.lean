import SpriteScript.Proofs.FileNames
import SpriteScript.Scope

/-!
The variables that ids stand for. An id is looked for in the owners that an entity sees, nearest
first, and the first entry alone decides. Its variable is a mark and the identifier of its display
name; all characters of it can stand in a variable, but the first one can be a digit or missing,
and then the result is no variable of the source language.
-/

namespace SpriteScript.Scope

/-- The owners whose entries an entity sees, nearest first. -/
def owners (entity : Entity) (stage : Option Entity) : List Entity :=
  if entity.isStage then [entity] else entity :: stage.toList

/-- The first of some owners that has an id, and its entry. -/
structure FirstOwner (id : String) (owners : List Entity) (owner : Entity) (entry : Entry) :
    Prop where
  found : owner.lookup id = some entry
  first : ∃ before after, owners = before ++ owner :: after ∧
    ∀ other ∈ before, other.lookup id = none

/-- The mark of an id's variable: what a sprite owns is an instance variable, all else global. -/
def markFor (entity : Entity) (id : String) : Char :=
  if entity.isStage = false ∧ (entity.lookup id).isSome then '@' else '$'

theorem markFor_cases (entity : Entity) (id : String) :
    markFor entity id = '@' ∨ markFor entity id = '$' := by
  rw [markFor]
  split
  · exact .inl rfl
  · exact .inr rfl

theorem resolve_eq (kind : Kind) (entity : Entity) (stage : Option Entity) (id : String) :
    resolve kind entity stage id =
      ((owners entity stage).findSome? (·.lookup id)).bind
        (entryName? (markFor entity id) kind) := by
  cases role : entity.isStage with
  | true =>
      cases own : entity.lookup id <;> simp [resolve, owners, markFor, role, own]
  | false =>
      cases own : entity.lookup id with
      | some entry => simp [resolve, owners, markFor, role, own]
      | none => cases stage <;> simp [resolve, owners, markFor, role, own]

theorem firstOwner_iff {id : String} {owners : List Entity} {entry : Entry} :
    owners.findSome? (·.lookup id) = some entry ↔ ∃ owner, FirstOwner id owners owner entry := by
  rw [List.findSome?_eq_some_iff]
  constructor
  · rintro ⟨before, owner, after, split, found, others⟩
    exact ⟨owner, found, before, after, split, others⟩
  · rintro ⟨owner, found, before, after, split, others⟩
    exact ⟨before, owner, after, split, found, others⟩

theorem resolve_of_firstOwner {entity owner : Entity} {stage : Option Entity} {id : String}
    {entry : Entry} (h : FirstOwner id (owners entity stage) owner entry) (kind : Kind) :
    resolve kind entity stage id = entryName? (markFor entity id) kind entry := by
  rw [resolve_eq, firstOwner_iff.mpr ⟨owner, h⟩, Option.bind_some]

theorem resolve_eq_some_iff {kind : Kind} {entity : Entity} {stage : Option Entity} {id : String}
    {name : String} :
    resolve kind entity stage id = some name ↔
      ∃ owner entry, FirstOwner id (owners entity stage) owner entry ∧ entry.kind = kind ∧
        name = String.ofList (markFor entity id :: (Identifier.ofName entry.name).toList) := by
  constructor
  · intro h
    rw [resolve_eq, Option.bind_eq_some_iff] at h
    obtain ⟨entry, found, named⟩ := h
    obtain ⟨owner, first⟩ := firstOwner_iff.mp found
    obtain ⟨same, named⟩ := Option.ite_none_right_eq_some.mp named
    exact ⟨owner, entry, first, same, (Option.some.inj named).symm⟩
  · rintro ⟨owner, entry, first, same, rfl⟩
    rw [resolve_of_firstOwner first, entryName?, if_pos same]

theorem resolve_eq_none_iff {kind : Kind} {entity : Entity} {stage : Option Entity}
    {id : String} :
    resolve kind entity stage id = none ↔
      (∀ owner ∈ owners entity stage, owner.lookup id = none) ∨
        ∃ owner entry, FirstOwner id (owners entity stage) owner entry ∧ entry.kind ≠ kind := by
  cases found : (owners entity stage).findSome? (·.lookup id) with
  | none =>
      have none := List.findSome?_eq_none_iff.mp found
      rw [resolve_eq, found]
      exact iff_of_true rfl (.inl none)
  | some entry =>
      obtain ⟨owner, first⟩ := firstOwner_iff.mp found
      rw [resolve_of_firstOwner first]
      constructor
      · intro unnamed
        refine .inr ⟨owner, entry, first, ?_⟩
        intro same
        rw [entryName?, if_pos same] at unnamed
        cases unnamed
      · rintro (none | ⟨owner, other, second, different⟩)
        · rw [List.findSome?_eq_none_iff.mpr none] at found
          cases found
        · have same := (firstOwner_iff.mpr ⟨owner, second⟩).symm.trans found
          rw [entryName?, if_neg (Option.some.inj same ▸ different)]

/-- ASCII letters, the underscore and every character outside ASCII. -/
def startsVariable (c : Char) : Bool :=
  c.isAlpha || c == '_' || 128 ≤ c.toNat

def continuesVariable (c : Char) : Bool :=
  startsVariable c || c.isDigit

/-- Whether a text is the token of an instance variable or a global one. -/
def isVariable (name : String) : Bool :=
  match name.toList with
  | mark :: first :: rest =>
    (mark == '@' || mark == '$') && startsVariable first && rest.all continuesVariable
  | _ => false

theorem continuesVariable_eq (c : Char) : continuesVariable c = Identifier.isPart c := by
  simp only [continuesVariable, startsVariable, Identifier.isPart, Char.isAlphanum]
  cases c.isAlpha <;> cases c.isDigit <;> simp

theorem continuesVariable_part (c : Char) : continuesVariable (Identifier.part c) = true := by
  rw [continuesVariable_eq]
  exact FileName.isPart_part c

theorem startsVariable_of_isDigit {c : Char} (h : c.isDigit = true) : startsVariable c = false := by
  obtain ⟨low, high⟩ := Char.isDigit_iff_toNat.mp h
  have nine : '9'.toNat = 57 := rfl
  have underscore : c ≠ '_' := by
    rintro rfl
    contradiction
  have letter : c.isAlpha = false := by
    apply Bool.eq_false_iff.mpr
    intro alpha
    obtain upper | lower := Bool.or_eq_true_iff.mp alpha
    · have capital : 65 ≤ c.toNat := (of_decide_eq_true upper).1
      omega
    · have small : 97 ≤ c.toNat := of_decide_eq_true (Bool.and_eq_true_iff.mp lower).1
      omega
  have ascii : ¬ 128 ≤ c.toNat := by omega
  simp [startsVariable, letter, underscore, ascii]

/-- A digit is the one character that is kept but cannot be the first. -/
theorem startsVariable_part (c : Char) :
    startsVariable (Identifier.part c) = true ↔ c.isDigit = false := by
  cases digit : c.isDigit with
  | true =>
      have kept : Identifier.part c = c := by
        simp [Identifier.part, Identifier.isPart, Char.isAlphanum, digit]
      simp [kept, startsVariable_of_isDigit digit]
  | false =>
      by_cases kept : Identifier.isPart c = true
      · have starts : startsVariable c = true := by
          rw [← continuesVariable_eq] at kept
          simpa [continuesVariable, digit] using kept
        simp [Identifier.part, kept, starts]
      · simp [Identifier.part, kept, startsVariable]

theorem toList_ofName (name : String) :
    (Identifier.ofName name).toList = name.toList.map Identifier.part := by
  rw [Identifier.ofName, String.toList_ofList]

theorem isVariable_ofName_iff {mark : Char} (marked : mark = '@' ∨ mark = '$') (name : String) :
    isVariable (String.ofList (mark :: (Identifier.ofName name).toList)) = true ↔
      ∃ first rest, name.toList = first :: rest ∧ first.isDigit = false := by
  have sigil : (mark == '@' || mark == '$') = true := by simpa using marked
  rw [isVariable, String.toList_ofList, toList_ofName]
  cases name.toList with
  | nil => simp
  | cons first rest => simp [sigil, startsVariable_part, continuesVariable_part]

/-- What an id stands for is a mark and characters that can stand in a variable. It is a variable
exactly when the display name of the entry is not empty and does not start with a digit. -/
theorem resolve_isVariable_iff {kind : Kind} {entity : Entity} {stage : Option Entity}
    {id name : String} (h : resolve kind entity stage id = some name) :
    ∃ owner entry, FirstOwner id (owners entity stage) owner entry ∧ entry.kind = kind ∧
      (∃ mark rest, name.toList = mark :: rest ∧ (mark = '@' ∨ mark = '$') ∧
        ∀ c ∈ rest, continuesVariable c = true) ∧
      (isVariable name = true ↔
        ∃ first rest, entry.name.toList = first :: rest ∧ first.isDigit = false) := by
  obtain ⟨owner, entry, first, same, rfl⟩ := resolve_eq_some_iff.mp h
  have marked := markFor_cases entity id
  refine ⟨owner, entry, first, same, ⟨_, _, String.toList_ofList, marked, ?_⟩,
    isVariable_ofName_iff marked entry.name⟩
  rw [toList_ofName]
  intro c mem
  obtain ⟨d, _, rfl⟩ := List.mem_map.mp mem
  exact continuesVariable_part d

/-- A sprite with a variable of the given display name. -/
def naming (name : String) : Entity :=
  (Entity.sprite "s").declare "v" (.scalar name Literal.zero)

theorem resolve_isVariable_iff_accented :
    resolve .scalar (naming "é (1)") none "v" = some "@é__1_" ∧
      ∃ owner entry, FirstOwner "v" (owners (naming "é (1)") none) owner entry ∧
        (isVariable "@é__1_" = true ↔
          ∃ first rest, entry.name.toList = first :: rest ∧ first.isDigit = false) := by
  have resolved : resolve .scalar (naming "é (1)") none "v" = some "@é__1_" := by decide +kernel
  obtain ⟨owner, entry, first, _, _, token⟩ := resolve_isVariable_iff resolved
  exact ⟨resolved, owner, entry, first, token⟩

/-- A name that starts with a digit and an empty one. -/
theorem resolve_not_variable :
    (∃ name, resolve .scalar (naming "1st") none "v" = some name ∧ isVariable name = false) ∧
      ∃ name, resolve .scalar (naming "") none "v" = some name ∧ isVariable name = false :=
  ⟨⟨"@1st", by decide +kernel, by decide +kernel⟩, ⟨"@", by decide +kernel, by decide +kernel⟩⟩

end SpriteScript.Scope

import Mathlib.Data.List.Permutation
import Mathlib.Logic.Relation
import SpriteScript.Proofs.Agreement
import SpriteScript.Proofs.TargetOrder

/-!
Saying the same target in another way. The keys of a target may stand in any order; a key that is
not read may be added, changed or left out, and so may one whose value is the default or has a type
that is not read. What is loaded then matches, and the source and all notices stay the same. The
least that can be said of a target is its name and its role; it is written as a bare call.
-/

namespace SpriteScript

namespace Loading

open Json (Value)

/-- The keys of a target that may be absent. -/
inductive OptionalKey where
  | x
  | y
  | direction
  | size
  | visible
  | currentCostume
  | rotationStyle
  | costumes
  | scalars
  | lists
  | layerOrder

namespace OptionalKey

def text : OptionalKey → String
  | x => "x"
  | y => "y"
  | direction => "direction"
  | size => "size"
  | visible => "visible"
  | currentCostume => "currentCostume"
  | rotationStyle => "rotationStyle"
  | costumes => "costumes"
  | scalars => "variables"
  | lists => "lists"
  | layerOrder => "layerOrder"

def all : List OptionalKey :=
  [x, y, direction, size, visible, currentCostume, rotationStyle, costumes, scalars, lists,
    layerOrder]

/-- Whether a value says what holds without it. -/
def IsDefault (key : OptionalKey) (value : Value) : Prop :=
  match key with
  | x | y => ∃ number, value = .number number ∧ number.toBinary64.same .zero = true
  | direction => ∃ number, value = .number number ∧ number.toBinary64.same (.ofNat 90) = true
  | size => ∃ number, value = .number number ∧ number.toBinary64.same (.ofNat 100) = true
  | visible => value = .bool true
  | currentCostume => value = .number (.unsigned 0)
  | rotationStyle => value = .string "all around"
  | costumes => value = .array []
  | scalars | lists => value = .object []
  | layerOrder => False

/-- Whether a value has a type that does not count under a key. Any value tells whether a target is
visible. -/
def Mistyped (key : OptionalKey) (value : Value) : Prop :=
  match key with
  | x | y | direction | size => ∀ number, value ≠ .number number
  | visible => False
  | currentCostume => ∀ index, value ≠ .number (.unsigned index)
  | rotationStyle => ∀ name, value ≠ .string name
  | costumes => ∀ items, value ≠ .array items
  | scalars | lists => ∀ fields, value ≠ .object fields
  | layerOrder =>
      (∀ layer, value ≠ .number (.negative layer)) ∧
        ∀ layer, value = .number (.unsigned layer) → 0x8000000000000000 ≤ layer.toNat

end OptionalKey

/-- The keys of a target that are read. -/
def readKeys : List String :=
  "name" :: "isStage" :: OptionalKey.all.map OptionalKey.text

/-- Whether a field may be left out. -/
def Ignorable (key : String) (value : Value) : Prop :=
  key ∉ readKeys ∨
    ∃ optional : OptionalKey, optional.text = key ∧
      (optional.IsDefault value ∨ optional.Mistyped value)

/-- One change to the fields of a target. -/
inductive Restates : Keyed String Value → Keyed String Value → Prop where
  | reorder {fields fields' : Keyed String Value} (perm : fields.Perm fields') :
      Restates fields fields'
  | insert {before after : Keyed String Value} {key : String} {value : Value}
      (absent : key ∉ (before ++ after).keys) (ignorable : Ignorable key value) :
      Restates (before ++ after) (before ++ (key, value) :: after)
  | delete {before after : Keyed String Value} {key : String} {value : Value}
      (ignorable : Ignorable key value) :
      Restates (before ++ (key, value) :: after) (before ++ after)
  | change {before after : Keyed String Value} {key : String} {old new : Value}
      (unread : key ∉ readKeys) :
      Restates (before ++ (key, old) :: after) (before ++ (key, new) :: after)

/-- Any number of changes to an element that is an object, or none. -/
inductive Restated : Value → Value → Prop where
  | refl (value : Value) : Restated value value
  | object {fields fields' : Keyed String Value}
      (changes : Relation.ReflTransGen Restates fields fields') :
      Restated (.object fields) (.object fields')

/-- Whether what stands under a key, if anything, may be left out. -/
def Neutral (key : String) (found : Option Value) : Prop :=
  ∀ value ∈ found, Ignorable key value

def Agrees (key : String) (a b : Option Value) : Prop :=
  a = b ∨ Neutral key a ∧ Neutral key b

theorem Agrees.trans {key : String} {a b c : Option Value} (hab : Agrees key a b)
    (hbc : Agrees key b c) : Agrees key a c := by
  obtain rfl | ⟨ha, hb⟩ := hab
  · exact hbc
  · obtain rfl | ⟨_, hc⟩ := hbc
    · exact .inr ⟨ha, hb⟩
    · exact .inr ⟨ha, hc⟩

theorem Agrees.symm {key : String} {a b : Option Value} (h : Agrees key a b) : Agrees key b a :=
  h.imp Eq.symm And.symm

theorem nodup_keys_middle {before after : Keyed String Value} {key : String} {value : Value} :
    (Keyed.keys (before ++ (key, value) :: after)).Nodup ↔
      key ∉ Keyed.keys (before ++ after) ∧ (Keyed.keys (before ++ after)).Nodup := by
  rw [← List.nodup_cons, Keyed.keys_append, Keyed.keys_cons, Keyed.keys_append]
  exact List.perm_middle.nodup_iff

theorem agrees_middle {before after : Keyed String Value} {key : String} {value : Value}
    (absent : key ∉ (before ++ after).keys) (ignorable : Ignorable key value) (other : String) :
    Agrees other (Keyed.find? other (before ++ (key, value) :: after))
      (Keyed.find? other (before ++ after)) := by
  rw [Keyed.find?_middle absent]
  split
  · next eq =>
    subst eq
    rw [Keyed.find?_eq_none_iff.mpr absent]
    exact .inr ⟨by simpa [Neutral] using ignorable, by simp [Neutral]⟩
  · exact .inl rfl

/-- A change keeps keys distinct, and whatever it does to a field does not matter. -/
theorem restates_agrees {fields fields' : Keyed String Value} (nodup : fields.keys.Nodup)
    (h : Restates fields fields') :
    fields'.keys.Nodup ∧ ∀ key, Agrees key (fields.find? key) (fields'.find? key) := by
  cases h with
  | reorder perm =>
      refine ⟨(perm.map Prod.fst).nodup_iff.mp nodup, ?_⟩
      intro key
      exact .inl (Keyed.find?_perm nodup perm key)
  | insert absent ignorable =>
      refine ⟨nodup_keys_middle.mpr ⟨absent, nodup⟩, ?_⟩
      intro key
      exact (agrees_middle absent ignorable key).symm
  | delete ignorable =>
      rw [nodup_keys_middle] at nodup
      exact ⟨nodup.2, agrees_middle nodup.1 ignorable⟩
  | change unread =>
      rw [nodup_keys_middle] at nodup
      refine ⟨nodup_keys_middle.mpr nodup, ?_⟩
      intro key
      exact (agrees_middle nodup.1 (.inl unread) key).trans
        (agrees_middle nodup.1 (.inl unread) key).symm

theorem changes_agree {fields fields' : Keyed String Value} (nodup : fields.keys.Nodup)
    (h : Relation.ReflTransGen Restates fields fields') :
    fields'.keys.Nodup ∧ ∀ key, Agrees key (fields.find? key) (fields'.find? key) := by
  induction h with
  | refl => exact ⟨nodup, fun _ => .inl rfl⟩
  | tail _ step ih =>
      obtain ⟨nodup', last⟩ := restates_agrees ih.1 step
      exact ⟨nodup', fun key => (ih.2 key).trans (last key)⟩

theorem restated_agrees {v w : Value} (proper : v.Proper) (h : Restated v w) (key : String) :
    Agrees key (v.field? key) (w.field? key) := by
  cases h with
  | refl => exact .inl rfl
  | object changes =>
      cases proper with
      | object nodup _ => exact (changes_agree nodup changes).2 key

theorem OptionalKey.text_mem_readKeys (key : OptionalKey) : key.text ∈ readKeys := by
  cases key <;> decide

theorem OptionalKey.text_injective {a b : OptionalKey} (h : a.text = b.text) : a = b := by
  cases a <;> cases b <;> first | rfl | exact absurd h (by decide)

theorem ignorable_optional {key : OptionalKey} {value : Value} (h : Ignorable key.text value) :
    key.IsDefault value ∨ key.Mistyped value := by
  obtain unread | ⟨optional, eq, ignored⟩ := h
  · exact absurd key.text_mem_readKeys unread
  · rwa [OptionalKey.text_injective eq] at ignored

/-- What is read from a field that does not matter is what is read without it. -/
theorem read_eq {α : Type} (key : OptionalKey) {f : Option Value → α} {a b : Option Value}
    (ignores : ∀ value, key.IsDefault value ∨ key.Mistyped value → f (some value) = f none)
    (h : Agrees key.text a b) : f a = f b := by
  have neutral {found : Option Value} (h : Neutral key.text found) : f found = f none := by
    cases found with
    | none => rfl
    | some value => exact ignores value (ignorable_optional (h value rfl))
  obtain rfl | ⟨ha, hb⟩ := h
  · rfl
  · rw [neutral ha, neutral hb]

theorem required_eq {key : String} (required : key = "name" ∨ key = "isStage") {a b : Option Value}
    (h : Agrees key a b) : a = b := by
  have needed (value : Value) : ¬ Ignorable key value := by
    rintro (unread | ⟨optional, eq, _⟩)
    · obtain rfl | rfl := required <;> exact unread (by decide)
    · obtain rfl | rfl := required <;> cases optional <;> exact absurd eq (by decide)
  have absent {found : Option Value} (h : Neutral key found) : found = none := by
    cases found with
    | none => rfl
    | some value => exact absurd (h value rfl) (needed value)
  obtain rfl | ⟨ha, hb⟩ := h
  · rfl
  · rw [absent ha, absent hb]

section Fields

variable {v w : Value} (agree : ∀ key, Agrees key (v.field? key) (w.field? key))
include agree

theorem number_numberOr_eq (key : OptionalKey) {default : Binary64}
    (ignores : ∀ value, key.IsDefault value ∨ key.Mistyped value →
      (∃ number, value = .number number ∧ number.toBinary64.same default = true) ∨
        ∀ number, value ≠ .number number) :
    Source.number (numberOr default key.text v) = Source.number (numberOr default key.text w) := by
  refine read_eq key (f := fun found =>
    Source.number ((found.bind Value.number?).elim default Json.Number.toBinary64)) ?_
    (agree key.text)
  intro value ignored
  obtain ⟨number, rfl, same⟩ | other := ignores value ignored
  · exact (Source.number_eq_iff _ _).mpr (.inl same)
  · cases value with
    | number number => exact absurd rfl (other number)
    | null | bool _ | string _ | array _ | object _ => rfl

theorem visible_eq :
    ((v.field? "visible").map Value.truthy).getD true =
      ((w.field? "visible").map Value.truthy).getD true := by
  refine read_eq .visible (f := fun found => (found.map Value.truthy).getD true) ?_
    (agree "visible")
  rintro value (rfl | impossible)
  · rfl
  · cases impossible

theorem currentCostume_eq : currentCostume v = currentCostume w := by
  refine read_eq .currentCostume (f := fun found =>
    ((found.bind Value.number?).bind Json.Number.unsigned?).elim (1 : UInt64) fun index =>
      if index = 0xFFFFFFFFFFFFFFFF then index else index + 1) ?_ (agree "currentCostume")
  rintro value (rfl | other)
  · rfl
  · cases value with
    | number number =>
        cases number with
        | unsigned index => exact absurd rfl (other index)
        | negative _ | real _ => rfl
    | null | bool _ | string _ | array _ | object _ => rfl

theorem rotationStyle_eq (name : String) : rotationStyle name v = rotationStyle name w := by
  refine read_eq .rotationStyle (f := fun found =>
    (found.bind Value.string?).elim (pure .allAround) (styleNamed name)) ?_
    (agree "rotationStyle")
  rintro value (rfl | other)
  · rfl
  · cases value with
    | string style => exact absurd rfl (other style)
    | null | bool _ | number _ | array _ | object _ => rfl

theorem costumeItems_eq :
    ((v.field? "costumes").bind Value.array?).getD [] =
      ((w.field? "costumes").bind Value.array?).getD [] := by
  refine read_eq .costumes (f := fun found => (found.bind Value.array?).getD []) ?_
    (agree "costumes")
  rintro value (rfl | other)
  · rfl
  · cases value with
    | array items => exact absurd rfl (other items)
    | null | bool _ | number _ | string _ | object _ => rfl

theorem declarations_eq (key : OptionalKey)
    (ignores : ∀ value, key.IsDefault value ∨ key.Mistyped value →
      value = .object [] ∨ ∀ fields, value ≠ .object fields) :
    declarations key.text v = declarations key.text w := by
  refine read_eq key (f := fun found => (found.bind Value.object?).getD []) ?_ (agree key.text)
  intro value ignored
  obtain rfl | other := ignores value ignored
  · rfl
  · cases value with
    | object fields => exact absurd rfl (other fields)
    | null | bool _ | number _ | string _ | array _ => rfl

theorem layer_eq : layer v = layer w := by
  refine read_eq .layerOrder (f := fun found =>
    ((found.bind Value.number?).bind Json.Number.signed?).getD 0x7FFFFFFFFFFFFFFF) ?_
    (agree "layerOrder")
  rintro value (impossible | ⟨negative, large⟩)
  · cases impossible
  · cases value with
    | number number =>
        cases number with
        | unsigned layer =>
            have tooLarge : ¬ layer.toNat < 0x8000000000000000 := Nat.not_lt.mpr (large layer rfl)
            simp only [Option.bind_some, Value.number?, Json.Number.signed?, if_neg tooLarge,
              Option.bind_none]
        | negative layer => exact absurd rfl (negative layer)
        | real _ => rfl
    | null | bool _ | string _ | array _ | object _ => rfl

theorem state_agree (name : String) (isStage : Bool) :
    Traced.Agree Entity.Matches (state name isStage v) (state name isStage w) := by
  have scalars : declarations "variables" v = declarations "variables" w :=
    declarations_eq agree .scalars fun _ => id
  have lists : declarations "lists" v = declarations "lists" w :=
    declarations_eq agree .lists fun _ => id
  unfold state
  rw [rotationStyle_eq agree, scalars, lists, costumeItems_eq agree]
  refine .bind (.refl _) ?_
  rintro style _ rfl
  refine .bind (.refl _) ?_
  rintro scalars _ rfl
  refine .bind (.refl _) ?_
  rintro entries _ rfl
  refine .bind (.refl _) ?_
  rintro costumes _ rfl
  refine .pure ?_
  simp only [Entity.blank]
  exact {
    name := rfl
    isStage := rfl
    x := number_numberOr_eq agree .x fun _ => id
    y := number_numberOr_eq agree .y fun _ => id
    direction := number_numberOr_eq agree .direction fun _ => id
    visible := visible_eq agree
    size := number_numberOr_eq agree .size fun _ => id
    costumes := rfl
    currentCostume := currentCostume_eq agree
    rotationStyle := rfl
    entries := rfl }

theorem target_agree (index : Nat) :
    Traced.Agree Entity.Matches (target index v) (target index w) := by
  unfold target
  rw [required_eq (.inl rfl) (agree "name"), required_eq (.inr rfl) (agree "isStage")]
  cases (w.field? "name").bind Value.string? with
  | none => exact .fail _
  | some name =>
      cases (w.field? "isStage").bind Value.bool? with
      | none => exact .fail _
      | some isStage => exact .bind (.refl _) fun _ _ _ => state_agree agree name isStage

end Fields

def Layered (a b : Int × Entity) : Prop :=
  a.1 = b.1 ∧ a.2.Matches b.2

theorem placeByLayer_rel {a b : Int × Entity} {as bs : List (Int × Entity)} (h : Layered a b)
    (rest : List.Forall₂ Layered as bs) :
    List.Forall₂ Layered (placeByLayer a as) (placeByLayer b bs) := by
  induction rest with
  | nil => exact .cons h .nil
  | @cons c d as bs related rest ih =>
      rw [placeByLayer, placeByLayer, h.1, related.1]
      split
      · exact .cons h (.cons related rest)
      · exact .cons related ih

theorem inLayerOrder_rel {as bs : List (Int × Entity)} (h : List.Forall₂ Layered as bs) :
    List.Forall₂ Entity.Matches (inLayerOrder as) (inLayerOrder bs) := by
  have sorted : List.Forall₂ Layered (as.foldr placeByLayer []) (bs.foldr placeByLayer []) := by
    induction h with
    | nil => exact .nil
    | cons related _ ih => exact placeByLayer_rel related ih
  rw [inLayerOrder, inLayerOrder, List.forall₂_map_left_iff, List.forall₂_map_right_iff]
  exact sorted.imp fun _ _ => And.right

theorem targetsFrom_agree {vs ws : List Value}
    (h : List.Forall₂ (fun v w => ∀ key, Agrees key (v.field? key) (w.field? key)) vs ws)
    (index : Nat) {stage stage' : Option Entity} (hs : Option.Rel Entity.Matches stage stage') :
    Traced.Agree (fun a b => Option.Rel Entity.Matches a.1 b.1 ∧ List.Forall₂ Layered a.2 b.2)
      (targetsFrom index stage vs) (targetsFrom index stage' ws) := by
  induction h generalizing index stage stage' with
  | nil => exact .pure ⟨hs, .nil⟩
  | cons agree _ ih =>
      refine .bind (target_agree agree index) ?_
      intro a b related
      rw [related.isStage]
      cases b.isStage with
      | true =>
          cases hs with
          | none => exact ih (index + 1) (.some related)
          | some first =>
              simp only [if_true, first.name, related.name]
              exact .fail _
      | false =>
          refine .bind (ih (index + 1) hs) ?_
          intro found found' rest
          exact .pure ⟨rest.1, .cons ⟨layer_eq agree, related⟩ rest.2⟩

theorem project_agree {root root' : Value} {vs ws : List Value} (found : targets? root = some vs)
    (found' : targets? root' = some ws)
    (h : List.Forall₂ (fun v w => ∀ key, Agrees key (v.field? key) (w.field? key)) vs ws) :
    Traced.Agree (fun p q : Project => List.Forall₂ Entity.Matches p.targets q.targets)
      (Loading.project root) (Loading.project root') := by
  rw [targets?] at found found'
  rw [Loading.project, Loading.project, found, found']
  refine .bind (targetsFrom_agree h 0 .none) ?_
  rintro ⟨stage, sprites⟩ ⟨stage', sprites'⟩ ⟨stages, others⟩
  refine .pure (List.rel_append ?_ (inLayerOrder_rel others))
  cases stages with
  | none => exact .nil
  | some matched => exact .cons matched .nil

theorem project_finite {root : Value} {project : Project} (proper : root.Proper)
    (h : (Loading.project root).result = .ok project) :
    ∀ target ∈ project.targets, target.Finite := by
  obtain ⟨values, stages, sprites, found, arranged⟩ := project_arranged h
  rw [targets?, Value.bind_array_iff] at found
  intro target mem
  rw [← arranged.targets_eq] at mem
  obtain ⟨pair, inPairs, rfl⟩ := List.mem_map.mp mem
  cases proper.field found with
  | array proper =>
      exact target_finite (proper pair.1 (arranged.mem_values inPairs))
        (arranged.loads pair inPairs 0)

theorem entityOf_absent {value : Value} (absent : ∀ key : OptionalKey, value.field? key.text = none)
    (name : String) (isStage : Bool) :
    entityOf name isStage value [] = Entity.blank name isStage := by
  have x : value.field? "x" = none := absent .x
  have y : value.field? "y" = none := absent .y
  have direction : value.field? "direction" = none := absent .direction
  have size : value.field? "size" = none := absent .size
  have visible : value.field? "visible" = none := absent .visible
  have current : value.field? "currentCostume" = none := absent .currentCostume
  have rotation : value.field? "rotationStyle" = none := absent .rotationStyle
  have costumes : value.field? "costumes" = none := absent .costumes
  simp only [entityOf, Entity.blank, numberOr, styleOf, currentCostume, costumesOf, x, y, direction,
    size, visible, current, rotation, costumes, Option.bind_none, Option.map_none, Option.getD_none,
    Option.elim_none, List.filterMap_nil]

theorem declarations_absent {key : String} {value : Value} (h : value.field? key = none) :
    declarations key value = [] := by
  rw [declarations, h]
  rfl

theorem loads_bare {fields : Keyed String Value} {name : String} {isStage : Bool}
    (h : fields.Perm [("name", .string name), ("isStage", .bool isStage)]) :
    Loads (.object fields) (Entity.blank name isStage) := by
  intro index
  have absent (key : OptionalKey) : (Value.object fields).field? key.text = none := by
    obtain rfl | rfl := List.perm_pair.mp h <;> cases key <;> rfl
  have scalars : declarations "variables" (.object fields) = [] :=
    declarations_absent (absent .scalars)
  have lists : declarations "lists" (.object fields) = [] := declarations_absent (absent .lists)
  have entries : (entriesOf name (.object fields)).result = .ok [] := by
    rw [entriesOf, scalars, lists]
    rfl
  rw [target_ok_iff]
  refine ⟨name, isStage, [], ?_, ?_, entries, (entityOf_absent absent name isStage).symm⟩
  · obtain rfl | rfl := List.perm_pair.mp h <;> rfl
  · obtain rfl | rfl := List.perm_pair.mp h <;> rfl

end Loading

namespace Source

theorem numberArgument_self (key : String) {value : Binary64} (finite : value.isFinite = true) :
    numberArgument key value value = [] := by
  rw [numberArgument, Binary64.same_self finite]
  rfl

theorem arguments_blank (name : String) (isStage : Bool) :
    arguments (Entity.blank name isStage) = [] := by
  have zero (key : String) := numberArgument_self key (rfl : Binary64.zero.isFinite = true)
  have direction :=
    numberArgument_self "direction" (Binary64.isFinite_ofNat (by decide : 90 < 2 ^ 64))
  have size := numberArgument_self "size" (Binary64.isFinite_ofNat (by decide : 100 < 2 ^ 64))
  simp only [arguments, Entity.blank, zero, direction, size]
  rfl

theorem entity_blank (name : String) (isStage : Bool) :
    Source.entity (Entity.blank name isStage) =
      (if isStage then "Stage" else "Sprite") ++ ".new(" ++ quote name ++ ")" := by
  have bare : call (Entity.blank name isStage) =
      ⟨if isStage then "Stage" else "Sprite", name, []⟩ := by
    rw [call, arguments_blank]
    rfl
  rw [Source.entity, bare, ← String.toList_inj]
  simp [Call.pieces, Call.head, Call.opening, Call.lines, punctuate, text, chars, Piece.chars,
    quote]

end Source

open Json (Value)
open Loading

/-- Equality of projects: the same targets, compared as states. -/
def Project.Same (p q : Project) : Prop :=
  List.Forall₂ (fun a b => a.same b = true) p.targets q.targets

section Texts

variable {text text' : String} {root root' : Value} {values values' : List Value}
  (parsed : Json.parse text = .ok root) (parsed' : Json.parse text' = .ok root')
  (found : targets? root = some values) (found' : targets? root' = some values')
  (restated : List.Forall₂ Restated values values')
include parsed parsed' found found' restated

theorem projectOfText_agree :
    Traced.Agree (fun p q : Project => List.Forall₂ Entity.Matches p.targets q.targets)
      (projectOfText text) (projectOfText text') := by
  rw [projectOfText, projectOfText, parsed, parsed']
  refine project_agree found found' ?_
  rw [targets?, Value.bind_array_iff] at found
  cases (Json.parse_proper parsed).field found with
  | array proper =>
      exact forall₂_imp_mem restated fun v mem w _ h => restated_agrees (proper v mem) h

theorem projectOfText_same :
    Outcome Project.Same (projectOfText text).result (projectOfText text').result := by
  refine (projectOfText_agree parsed parsed' found found' restated).outcome.imp ?_
  intro p q loaded matched
  rw [projectOfText, parsed] at loaded
  have finite := project_finite (Json.parse_proper parsed) loaded
  exact forall₂_imp_mem matched fun a mem b _ m => m.same (finite a mem)

theorem convertText_eq (only : Option String) : convertText text only = convertText text' only := by
  apply Traced.Agree.eq
  have agree := projectOfText_agree parsed parsed' found found' restated
  refine (agree.mapError ConversionError.loading).bind ?_
  intro p q matched
  rw [Source.project_eq matched only]
  exact .refl _

end Texts

/-- Restating the targets of a project changes neither what is loaded nor what is written, nor any
notice; and a target of which only the name and the role are stated is blank. -/
theorem convertText_restated :
    (∀ {text text' : String} {root root' : Value} {values values' : List Value},
      Json.parse text = .ok root → Json.parse text' = .ok root' →
      targets? root = some values → targets? root' = some values' →
      List.Forall₂ Restated values values' →
      (projectOfText text).notices = (projectOfText text').notices ∧
        Outcome Project.Same (projectOfText text).result (projectOfText text').result ∧
        ∀ only, convertText text only = convertText text' only) ∧
    ∀ (fields : Keyed String Value) (name : String) (isStage : Bool),
      fields.Perm [("name", .string name), ("isStage", .bool isStage)] →
      let entity := if isStage then Entity.stage name else Entity.sprite name
      Loads (.object fields) entity ∧
        Source.entity entity =
          (if isStage then "Stage" else "Sprite") ++ ".new(" ++ Source.quote name ++ ")" := by
  constructor
  · intro text text' root root' values values' parsed parsed' found found' restated
    exact ⟨(projectOfText_agree parsed parsed' found found' restated).notices,
      projectOfText_same parsed parsed' found found' restated,
      convertText_eq parsed parsed' found found' restated⟩
  · intro fields name isStage perm
    have eq : (if isStage then Entity.stage name else Entity.sprite name) =
        Entity.blank name isStage := by cases isStage <;> rfl
    simp only [eq]
    exact ⟨loads_bare perm, Source.entity_blank name isStage⟩

/-- A zero, a size that is no number and a key that is not read are left out, a default is stated
and the keys change their places. -/
theorem convertText_restated_sprite :
    let value : Value := .object [("name", .string "a"), ("isStage", .bool false),
      ("x", .number (.unsigned 0)), ("size", .null), ("k", .bool false)]
    let value' : Value := .object [("visible", .bool true), ("isStage", .bool false),
      ("name", .string "a")]
    ∃ text text' root root', Json.parse text = .ok root ∧ Json.parse text' = .ok root' ∧
      targets? root = some [value] ∧ targets? root' = some [value'] ∧ Restated value value' ∧
      Outcome Project.Same (projectOfText text).result (projectOfText text').result ∧
      ∀ only, convertText text only = convertText text' only := by
  intro value value'
  have parsed : Json.parse (r#"{"targets":[{"name":"a","isStage":false,"x":0,"# ++
      r#""size":null,"k":false}]}"#) = .ok (.object [("targets", .array [value])]) := by
    simp only [Json.parse, String.reduceAppend, String.reduceToList]
    rfl
  have parsed' : Json.parse (r#"{"targets":[{"visible":true,"isStage":false,"# ++
      r#""name":"a"}]}"#) = .ok (.object [("targets", .array [value'])]) := by
    simp only [Json.parse, String.reduceAppend, String.reduceToList]
    rfl
  have zero : Ignorable "x" (.number (.unsigned 0)) :=
    .inr ⟨.x, rfl, .inl ⟨_, rfl, by decide +kernel⟩⟩
  have null : Ignorable "size" .null := .inr ⟨.size, rfl, .inr (by rintro _ ⟨⟩)⟩
  have unread : Ignorable "k" (.bool false) := .inl (by decide)
  have shown : Ignorable "visible" (.bool true) := .inr ⟨.visible, rfl, .inl rfl⟩
  let bare : Keyed String Value := [("name", .string "a"), ("isStage", .bool false)]
  let last : Keyed String Value := [("k", .bool false)]
  have first : Restates (bare ++ ("x", _) :: ("size", .null) :: last)
      (bare ++ ("size", .null) :: last) := .delete zero
  have second : Restates (bare ++ ("size", .null) :: last) (bare ++ last) := .delete null
  have third : Restates (bare ++ last) (bare ++ []) := .delete unread
  have fourth : Restates ([] ++ bare) ([] ++ ("visible", _) :: bare) := .insert (by decide) shown
  have restated : Restated value value' := by
    refine .object (.head first (.head second (.head third (.head fourth (.single ?_)))))
    exact .reorder (.cons _ (.swap _ _ _))
  obtain ⟨_, outcome, converted⟩ :=
    convertText_restated.1 parsed parsed' rfl rfl (.cons restated .nil)
  exact ⟨_, _, _, _, parsed, parsed', rfl, rfl, restated, outcome, converted⟩

end SpriteScript

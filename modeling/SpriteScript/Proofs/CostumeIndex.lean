import SpriteScript.Proofs.Keywords
import SpriteScript.Proofs.LoadingSteps

/-!
Which costume the index of a target names. The index is kept as the file gives it, while elements
that are no objects are left out of the costumes; so the index names the chosen element's costume
exactly when no element in front of it was left out, and is too great by the number of those that
were.
-/

namespace SpriteScript

def Json.Value.isObject : Json.Value → Bool
  | object _ => true
  | _ => false

/-- The current costume counted from zero, as it is written. -/
def Entity.costumeIndex (entity : Entity) : Nat :=
  entity.currentCostume.toNat - 1

namespace Loading

open Json (Value)

/-- The place that the costume of the element at `k` has among the costumes that are read. -/
def costumePlace (elements : List Value) (k : Nat) : Nat :=
  (elements.take k).countP Value.isObject

/-- How many elements in front of the one at `k` are left out. -/
def skippedBefore (elements : List Value) (k : Nat) : Nat :=
  (elements.take k).countP (!·.isObject)

theorem length_costumesOf (elements : List Value) :
    (costumesOf elements).length = elements.countP Value.isObject := by
  induction elements with
  | nil => rfl
  | cons element elements ih =>
      cases element with
      | object fields =>
          rw [List.countP_cons_of_pos rfl, ← ih]
          rfl
      | null | bool _ | number _ | string _ | array _ =>
          rw [List.countP_cons_of_neg Bool.false_ne_true, ← ih]
          rfl

theorem costumesOf_place {elements : List Value} {k : Nat} {fields : List (String × Value)}
    (h : elements[k]? = some (.object fields)) :
    (costumesOf elements)[costumePlace elements k]? = some (costume (.object fields)) := by
  obtain ⟨inside, element⟩ := List.getElem?_eq_some_iff.mp h
  have split : elements = elements.take k ++ .object fields :: elements.drop (k + 1) := by
    rw [← element, ← List.drop_eq_getElem_cons inside, List.take_append_drop]
  have read : costumesOf elements = costumesOf (elements.take k) ++
      costume (.object fields) :: costumesOf (elements.drop (k + 1)) := by
    conv_lhs => rw [split, costumesOf, List.filterMap_append]
    rfl
  rw [read, costumePlace, ← length_costumesOf, List.getElem?_append_right (Nat.le_refl _),
    Nat.sub_self]
  rfl

theorem costumePlace_add_skippedBefore {elements : List Value} {k : Nat}
    (inside : k < elements.length) :
    costumePlace elements k + skippedBefore elements k = k := by
  have counts := List.length_eq_countP_add_countP Value.isObject (l := elements.take k)
  rw [List.length_take, Nat.min_eq_left (Nat.le_of_lt inside)] at counts
  simpa [costumePlace, skippedBefore] using counts.symm

theorem skippedBefore_eq_zero_iff {elements : List Value} {k : Nat} :
    skippedBefore elements k = 0 ↔ ∀ element ∈ elements.take k, element.isObject = true := by
  simp [skippedBefore, List.countP_eq_zero]

theorem costumeIndex_of_chosen {value : Value} {k : UInt64}
    (chosen : value.field? "currentCostume" = some (.number (.unsigned k))) :
    (currentCostume value).toNat - 1 = min k.toNat 0xFFFFFFFFFFFFFFFE := by
  rw [currentCostume_of_chosen chosen]
  omega

/-- The index names the costume of the chosen element exactly when all elements in front of it
are objects; else it is too great by the number of those that are left out. -/
theorem costumeIndex_eq_place_iff {index : Nat} {value : Value} {entity : Entity} {k : UInt64}
    {elements : List Value} {fields : List (String × Value)}
    (loaded : (target index value).result = .ok entity)
    (chosen : value.field? "currentCostume" = some (.number (.unsigned k)))
    (listed : value.field? "costumes" = some (.array elements))
    (element : elements[k.toNat]? = some (.object fields)) :
    entity.costumes[costumePlace elements k.toNat]? = some (costume (.object fields)) ∧
      (Source.call entity).under "costumes" =
        [.records (entity.costumes.map Source.costumeRecord)] ∧
      (Source.call entity).under "current_costume" =
        (if entity.costumeIndex = 0 then []
          else [.inline [.code (Nat.repr entity.costumeIndex)]]) ∧
      entity.costumeIndex = min k.toNat 0xFFFFFFFFFFFFFFFE ∧
      (k ≠ 0xFFFFFFFFFFFFFFFF →
        entity.costumeIndex =
            costumePlace elements k.toNat + skippedBefore elements k.toNat ∧
          (entity.costumeIndex = costumePlace elements k.toNat ↔
            ∀ element ∈ elements.take k.toNat, element.isObject = true)) := by
  obtain ⟨name, isStage, entries, _, _, _, rfl⟩ := target_ok_iff.mp loaded
  have inside : k.toNat < elements.length := (List.getElem?_eq_some_iff.mp element).1
  have costumes : (entityOf name isStage value entries).costumes = costumesOf elements := by
    simp only [entityOf, listed, Option.bind_some, Value.array?, Option.getD_some]
  have shown : (entityOf name isStage value entries).costumeIndex =
      min k.toNat 0xFFFFFFFFFFFFFFFE := costumeIndex_of_chosen chosen
  have place := costumesOf_place element
  have nonempty : (costumesOf elements).map Source.costumeRecord ≠ [] := by
    intro none
    rw [List.map_eq_nil_iff] at none
    simp [none] at place
  rw [Source.under_costumes, Source.under_currentCostume, costumes, if_neg nonempty]
  refine ⟨place, rfl, rfl, shown, ?_⟩
  intro below
  have sum := costumePlace_add_skippedBefore inside
  have index : (entityOf name isStage value entries).costumeIndex = k.toNat := by
    have bound := k.toNat_lt
    have last : k.toNat ≠ 0xFFFFFFFFFFFFFFFF := fun eq => below (UInt64.toNat_inj.mp eq)
    omega
  rw [← skippedBefore_eq_zero_iff]
  omega

/-- A sprite of three costumes, with an element that is no object behind the first of them. -/
def interrupted (chosen : UInt64) : Value :=
  .object [("name", .string "a"), ("isStage", .bool false),
    ("currentCostume", .number (.unsigned chosen)),
    ("costumes", .array [.object [("name", .string "b")], .string "bogus",
      .object [("name", .string "c")], .object [("name", .string "d")]])]

theorem costumeIndex_eq_place_iff_interrupted :
    ∃ entity, (target 0 (interrupted 2)).result = .ok entity ∧
      entity.costumes[1]? = some (costume (.object [("name", .string "c")])) ∧
      entity.costumeIndex = 1 + 1 := by
  have loaded : ∃ entity, (target 0 (interrupted 2)).result = .ok entity := ⟨_, rfl⟩
  obtain ⟨entity, loaded⟩ := loaded
  obtain ⟨named, _, _, _, shift⟩ := costumeIndex_eq_place_iff loaded rfl rfl rfl
  exact ⟨entity, loaded, named, (shift (by decide)).1⟩

/-- The index 2 of the file chooses the costume `c`, but the index that is kept names `d`. -/
theorem costumeIndex_names_other :
    ∃ entity elements fields, (target 0 (interrupted 2)).result = .ok entity ∧
      (interrupted 2).field? "currentCostume" = some (.number (.unsigned 2)) ∧
      (interrupted 2).field? "costumes" = some (.array elements) ∧
      elements[2]? = some (.object fields) ∧
      entity.costumes[entity.costumeIndex]? ≠ some (costume (.object fields)) :=
  ⟨_, _, _, rfl, rfl, rfl, rfl, by decide +kernel⟩

end Loading

end SpriteScript

import SpriteScript.Proofs.LoadingSteps
import SpriteScript.Proofs.ParsedValues

/-!
What is read from a proper value: all numbers of the entity are finite and its ids are distinct.
Each number is one of the value or a default, and an id that is declared twice keeps one entry.
-/

namespace SpriteScript

def Literal.Finite : Literal → Prop
  | number value => value.isFinite = true
  | _ => True

structure Costume.Finite (costume : Costume) : Prop where
  bitmapResolution : costume.bitmapResolution.isFinite = true
  rotationCenterX : costume.rotationCenterX.isFinite = true
  rotationCenterY : costume.rotationCenterY.isFinite = true

def Entry.Finite : Entry → Prop
  | scalar _ value => value.Finite
  | list _ items => ∀ item ∈ items, item.Finite

/-- Entries with finite numbers under distinct ids. -/
structure Keyed.Finite (entries : Keyed String Entry) : Prop where
  finite : ∀ entry ∈ entries, entry.2.Finite
  nodup : entries.keys.Nodup

/-- Entities with finite numbers and distinct ids. -/
structure Entity.Finite (entity : Entity) : Prop where
  x : entity.x.isFinite = true
  y : entity.y.isFinite = true
  direction : entity.direction.isFinite = true
  size : entity.size.isFinite = true
  costumes : ∀ costume ∈ entity.costumes, costume.Finite
  entries : Keyed.Finite entity.entries

theorem Binary64.isFinite_ofNat {n : Nat} (h : n < 2 ^ 64) : (ofNat n).isFinite = true :=
  isFinite_ofRatio h false

namespace Json.Value

theorem Proper.field {value found : Value} {key : String} (h : value.Proper)
    (at_key : value.field? key = some found) : found.Proper := by
  cases h with
  | object nodup proper => exact proper (key, found) (Keyed.mem_of_find? at_key)
  | null | bool _ | number _ | string _ | array _ => cases at_key

theorem Proper.items {value : Value} {key : String} (h : value.Proper) :
    ∀ item ∈ ((value.field? key).bind array?).getD [], item.Proper := by
  cases found : value.field? key with
  | none => simp
  | some items =>
      cases h.field found with
      | array proper => exact proper
      | null | bool _ | number _ | string _ | object _ => simp [array?]

end Json.Value

namespace Loading

open Json (Value)

theorem declarations_proper {value : Value} (h : value.Proper) (key : String) :
    ∀ field ∈ declarations key value, field.2.Proper := by
  rw [declarations]
  cases found : value.field? key with
  | none => simp
  | some fields =>
      cases h.field found with
      | object nodup proper => exact proper
      | null | bool _ | number _ | string _ | array _ => simp [Value.object?]

theorem numberOr_finite {default : Binary64} (proper : default.isFinite = true) {value : Value}
    (h : value.Proper) (key : String) : (numberOr default key value).isFinite = true := by
  rw [numberOr]
  cases found : value.field? key with
  | none => exact proper
  | some number =>
      cases h.field found with
      | number finite => exact finite
      | null | bool _ | string _ | array _ | object _ => exact proper

theorem literalOf_finite {value : Value} (h : value.Proper) : (literalOf value).Finite := by
  cases h with
  | number finite => exact finite
  | null => exact (rfl : Binary64.zero.isFinite = true)
  | bool _ | string _ | array _ | object _ => trivial

theorem costume_finite {value : Value} (h : value.Proper) : (costume value).Finite where
  bitmapResolution := numberOr_finite (Binary64.isFinite_ofNat (by decide)) h _
  rotationCenterX := numberOr_finite rfl h _
  rotationCenterY := numberOr_finite rfl h _

theorem costumesOf_finite {values : List Value} (h : ∀ value ∈ values, value.Proper) :
    ∀ costume ∈ costumesOf values, costume.Finite := by
  intro costume mem
  obtain ⟨value, inValues, eq⟩ := List.mem_filterMap.mp mem
  cases value with
  | object fields =>
      cases eq
      exact costume_finite (h _ inValues)
  | null | bool _ | number _ | string _ | array _ => cases eq

theorem declaredAs_finite {kind : Kind} {value : Value} {new : Entry}
    (h : DeclaredAs kind value new) (proper : value.Proper) : new.Finite := by
  cases h with
  | scalar name value more =>
      cases proper with
      | array proper => exact literalOf_finite (proper value (by simp))
  | list name items more =>
      cases proper with
      | array proper =>
          cases proper (.array items) (by simp) with
          | array proper =>
              intro literal mem
              obtain ⟨item, inItems, rfl⟩ := List.mem_map.mp mem
              exact literalOf_finite (proper item inItems)

theorem put_finite {entries : Keyed String Entry} (h : Keyed.Finite entries) (id : String)
    {new : Entry} (finite : new.Finite) : Keyed.Finite (entries.put id new) where
  finite := by
    intro entry mem
    obtain rfl | old := Keyed.mem_of_mem_put mem
    · exact finite
    · exact h.finite entry old
  nodup := Keyed.nodup_put h.nodup id new

theorem entriesInto_finite {target : String} {kind : Kind} {entries all : Keyed String Entry}
    {declared : Keyed String Value} (h : Keyed.Finite entries)
    (proper : ∀ field ∈ declared, field.2.Proper)
    (ok : (entriesInto target kind entries declared).result = .ok all) : Keyed.Finite all := by
  induction declared generalizing entries with
  | nil =>
      cases ok
      exact h
  | cons field declared ih =>
      rw [List.forall_mem_cons] at proper
      obtain ⟨new, read, rest⟩ := Traced.bind_ok_iff.mp ok
      exact ih (put_finite h _ (declaredAs_finite (entry_ok_iff.mp read) proper.1)) proper.2 rest

theorem entriesOf_finite {name : String} {value : Value} {entries : Keyed String Entry}
    (h : value.Proper) (ok : (entriesOf name value).result = .ok entries) :
    Keyed.Finite entries := by
  obtain ⟨scalars, first, second⟩ := Traced.bind_ok_iff.mp ok
  have none : Keyed.Finite [] := ⟨by simp, List.nodup_nil⟩
  have scalarsFinite := entriesInto_finite none (declarations_proper h "variables") first
  exact entriesInto_finite scalarsFinite (declarations_proper h "lists") second

theorem target_finite {index : Nat} {value : Value} {entity : Entity} (h : value.Proper)
    (ok : (target index value).result = .ok entity) : entity.Finite := by
  obtain ⟨name, isStage, entries, _, _, read, rfl⟩ := target_ok_iff.mp ok
  have direction : (Binary64.ofNat 90).isFinite = true := Binary64.isFinite_ofNat (by decide)
  have size : (Binary64.ofNat 100).isFinite = true := Binary64.isFinite_ofNat (by decide)
  exact {
    x := numberOr_finite rfl h "x"
    y := numberOr_finite rfl h "y"
    direction := by
      simp only [entityOf, Entity.blank]
      exact numberOr_finite direction h "direction"
    size := by
      simp only [entityOf, Entity.blank]
      exact numberOr_finite size h "size"
    costumes := costumesOf_finite h.items
    entries := entriesOf_finite h read }

end Loading

end SpriteScript

import SpriteScript.Conversion
import SpriteScript.Proofs.LoadedEntities
import SpriteScript.Proofs.Unambiguity

/-!
Computations and entities that agree. Two computations agree when they leave the same notices and
both fail with the same error or both give results that are related. Two entities match when they
differ at most in how the zero of a number is signed; then they are equal as states, once their
numbers are finite, and have the same source and the same notices.
-/

namespace SpriteScript

/-- The same error, or related results. -/
inductive Outcome {ε α β : Type} (R : α → β → Prop) : Except ε α → Except ε β → Prop where
  | ok {x : α} {y : β} (related : R x y) : Outcome R (.ok x) (.ok y)
  | error (error : ε) : Outcome R (.error error) (.error error)

theorem Outcome.imp {ε α β : Type} {R S : α → β → Prop} {a : Except ε α} {b : Except ε β}
    (h : Outcome R a b) (imp : ∀ x y, a = .ok x → R x y → S x y) : Outcome S a b := by
  cases h with
  | ok related => exact .ok (imp _ _ rfl related)
  | error error => exact .error error

/-- The same notices, and the same error or related results. -/
structure Traced.Agree {ε α β : Type} (R : α → β → Prop) (a : Traced ε α) (b : Traced ε β) :
    Prop where
  notices : a.notices = b.notices
  outcome : Outcome R a.result b.result

namespace Traced.Agree

variable {ε δ α β γ ι : Type} {R : α → β → Prop} {S : γ → ι → Prop}

theorem pure {x : α} {y : β} (h : R x y) :
    Agree R (Pure.pure x : Traced ε α) (Pure.pure y : Traced ε β) :=
  ⟨rfl, .ok h⟩

theorem fail (error : ε) : Agree R (Traced.fail error) (Traced.fail error) :=
  ⟨rfl, .error error⟩

theorem refl (a : Traced ε α) : Agree Eq a a := by
  refine ⟨rfl, ?_⟩
  cases a.result with
  | ok value => exact .ok rfl
  | error error => exact .error error

theorem eq {a b : Traced ε α} (h : Agree Eq a b) : a = b := by
  obtain ⟨notices, result⟩ := a
  obtain ⟨notices', result'⟩ := b
  obtain ⟨rfl, outcome⟩ := h
  cases outcome with
  | ok related => rw [related]
  | error error => rfl

theorem bind {a : Traced ε α} {b : Traced ε β} {f : α → Traced ε γ} {g : β → Traced ε ι}
    (h : Agree R a b) (next : ∀ x y, R x y → Agree S (f x) (g y)) :
    Agree S (a >>= f) (b >>= g) := by
  obtain ⟨notices, result⟩ := a
  obtain ⟨notices', result'⟩ := b
  obtain ⟨rfl, outcome⟩ := h
  cases outcome with
  | ok related =>
      obtain ⟨rest, outcome⟩ := next _ _ related
      exact ⟨congrArg (notices ++ ·) rest, outcome⟩
  | error error => exact ⟨rfl, .error error⟩

theorem mapError {a : Traced ε α} {b : Traced ε β} (h : Agree R a b) (f : ε → δ) :
    Agree R (a.mapError f) (b.mapError f) := by
  obtain ⟨notices, result⟩ := a
  obtain ⟨notices', result'⟩ := b
  obtain ⟨rfl, outcome⟩ := h
  cases outcome with
  | ok related => exact ⟨rfl, .ok related⟩
  | error error => exact ⟨rfl, .error (f error)⟩

end Traced.Agree

/-- Entities that are equal but for the texts that their numbers share. -/
structure Entity.Matches (a b : Entity) : Prop where
  name : a.name = b.name
  isStage : a.isStage = b.isStage
  x : Source.number a.x = Source.number b.x
  y : Source.number a.y = Source.number b.y
  direction : Source.number a.direction = Source.number b.direction
  visible : a.visible = b.visible
  size : Source.number a.size = Source.number b.size
  costumes : a.costumes = b.costumes
  currentCostume : a.currentCostume = b.currentCostume
  rotationStyle : a.rotationStyle = b.rotationStyle
  entries : a.entries = b.entries

theorem Binary64.same_of_number_eq {v w : Binary64} (finite : v.isFinite = true)
    (h : Source.number v = Source.number w) : v.same w = true := by
  refine ((Source.number_eq_iff v w).mp h).resolve_right ?_
  rintro ⟨rfl, _⟩
  cases finite

theorem Binary64.same_self {v : Binary64} (finite : v.isFinite = true) : v.same v = true :=
  same_of_number_eq finite rfl

theorem Literal.same_self {literal : Literal} (finite : literal.Finite) :
    literal.same literal = true := by
  cases literal with
  | number value => exact Binary64.same_self finite
  | text value => exact beq_self_eq_true value
  | bool value => exact beq_self_eq_true value

theorem Costume.same_self {costume : Costume} (finite : costume.Finite) :
    costume.same costume = true := by
  simp [Costume.same, Binary64.same_self finite.bitmapResolution,
    Binary64.same_self finite.rotationCenterX, Binary64.same_self finite.rotationCenterY]

theorem all_zip_self {α : Type} {same : α → α → Bool} {xs : List α}
    (h : ∀ x ∈ xs, same x x = true) : ((xs.zip xs).all fun (x, y) => same x y) = true := by
  induction xs with
  | nil => rfl
  | cons x xs ih =>
      rw [List.forall_mem_cons] at h
      simpa [h.1] using ih h.2

theorem Entry.same_self {entry : Entry} (finite : entry.Finite) : entry.same entry = true := by
  cases entry with
  | scalar name value => simp [same, Literal.same_self finite]
  | list name items => simp [same, all_zip_self fun item mem => Literal.same_self (finite item mem)]

theorem Keyed.agree_self {entries : Keyed String Entry} (h : Keyed.Finite entries) :
    agree Entry.same entries entries = true := by
  rw [agree, beq_self_eq_true, Bool.true_and, List.all_eq_true]
  rintro ⟨id, entry⟩ mem
  simp only [find?_of_mem h.nodup mem]
  exact Entry.same_self (h.finite (id, entry) mem)

namespace Entity.Matches

variable {a b : Entity}

theorem same (h : a.Matches b) (finite : a.Finite) : a.same b = true := by
  have costumes := all_zip_self fun costume mem => Costume.same_self (finite.costumes costume mem)
  simp only [Entity.same, ← h.name, ← h.isStage, ← h.visible, ← h.costumes, ← h.currentCostume,
    ← h.rotationStyle, ← h.entries, Binary64.same_of_number_eq finite.x h.x,
    Binary64.same_of_number_eq finite.y h.y,
    Binary64.same_of_number_eq finite.direction h.direction,
    Binary64.same_of_number_eq finite.size h.size, Keyed.agree_self finite.entries, costumes,
    beq_self_eq_true, decide_true, Bool.and_self]

theorem alike (h : a.Matches b) : a.Alike b := by
  have literals (value : Literal) : value.Alike value := by cases value <;> rfl
  have entries (entry : Entry) : entry.Alike entry := by
    cases entry with
    | scalar name value => exact ⟨rfl, literals value⟩
    | list name items => exact ⟨rfl, List.forall₂_same.mpr fun item _ => literals item⟩
  have sameEntries (kind : Kind) : a.entriesOf kind = b.entriesOf kind := by
    rw [Entity.entriesOf, Entity.entriesOf, h.entries]
  exact {
    isStage := h.isStage
    name := h.name
    x := h.x
    y := h.y
    direction := h.direction
    visible := h.visible
    size := h.size
    currentCostume := by rw [h.currentCostume]
    costumes := by
      rw [h.costumes]
      exact List.forall₂_same.mpr fun _ _ => ⟨rfl, rfl, rfl, rfl, rfl, rfl, rfl⟩
    rotationStyle := h.rotationStyle
    scalars := by
      rw [sameEntries]
      exact List.forall₂_same.mpr fun entry _ => entries entry
    lists := by
      rw [sameEntries]
      exact List.forall₂_same.mpr fun entry _ => entries entry }

end Entity.Matches

theorem find?_rel {α β : Type} {R : α → β → Prop} {p : α → Bool} {q : β → Bool} {xs : List α}
    {ys : List β} (h : List.Forall₂ R xs ys) (agree : ∀ x y, R x y → p x = q y) :
    Option.Rel R (xs.find? p) (ys.find? q) := by
  induction h with
  | nil => exact .none
  | @cons x y xs ys related _ ih =>
      rw [List.find?_cons, List.find?_cons, agree x y related]
      cases q y with
      | true => exact .some related
      | false => exact ih

theorem Project.select_rel {p q : Project}
    (h : List.Forall₂ Entity.Matches p.targets q.targets) (only : Option String) :
    Outcome (List.Forall₂ Entity.Matches) (p.select only) (q.select only) := by
  cases only with
  | none =>
      have stage : Option.Rel Entity.Matches p.stage? q.stage? := find?_rel h fun _ _ m => m.isStage
      have sprites : List.Forall₂ Entity.Matches p.sprites q.sprites :=
        List.rel_filter (fun _ _ m => by simp [m.isStage]) h
      refine .ok (List.rel_append ?_ sprites)
      generalize p.stage? = first, q.stage? = second at stage
      cases stage with
      | none => exact .nil
      | some matched => exact .cons matched .nil
  | some name =>
      have found : Option.Rel Entity.Matches (p.target? name) (q.target? name) :=
        find?_rel h fun _ _ m => by rw [m.name]
      simp only [select]
      generalize p.target? name = first, q.target? name = second at found
      cases found with
      | none => exact .error _
      | some matched => exact .ok (.cons matched .nil)

theorem Source.entityNotice_eq {a b : Entity} (h : a.Alike b) :
    entityNotice a = entityNotice b := by
  rw [entityNotice, entityNotice, h.isStage, h.name, arguments_eq h]

theorem Source.project_eq {p q : Project} (h : List.Forall₂ Entity.Matches p.targets q.targets)
    (only : Option String) : Source.project p only = Source.project q only := by
  have selected := Project.select_rel h only
  rw [Source.project, Source.project]
  generalize p.select only = first, q.select only = second at selected
  cases selected with
  | error error => rfl
  | @ok ts us matched =>
      have alike := matched.imp fun _ _ => Entity.Matches.alike
      have notices : ts.map entityNotice = us.map entityNotice :=
        map_eq_map_iff.mpr (alike.imp fun _ _ => entityNotice_eq)
      simp only [Traced.ofExcept, bind, Traced.andThen, notices,
        (targets_alike_iff ts us).mpr alike]

end SpriteScript

import Mathlib.Data.List.Forall2

/-!
Cutting a list at marks. A list whose parts each begin with a mark, and hold no other, can be cut
in one way only; so a sequence of such parts is known from its concatenation. Lines are cut at
their line feeds in this way, calls at their first lines, arguments and records at their openings
and items at their commas.
-/

namespace SpriteScript

variable {α β : Type}

/-- A list that begins with a mark and holds no other one. -/
def Block (mark : α → Prop) (block : List α) : Prop :=
  ∃ head tail, block = head :: tail ∧ mark head ∧ ∀ x ∈ tail, ¬ mark x

variable {mark : α → Prop}

/-- What stands between a mark and the next one, or the end. -/
theorem unmarked_append_inj {xs ys rest rest' : List α} (hx : ∀ x ∈ xs, ¬ mark x)
    (hy : ∀ y ∈ ys, ¬ mark y) (hr : ∀ r ∈ rest.head?, mark r) (hs : ∀ r ∈ rest'.head?, mark r)
    (h : xs ++ rest = ys ++ rest') : xs = ys ∧ rest = rest' := by
  induction xs generalizing ys with
  | nil =>
      cases ys with
      | nil => exact ⟨rfl, h⟩
      | cons y ys =>
          have first : mark y := hr y (by simp_all)
          exact absurd first (hy y List.mem_cons_self)
  | cons x xs ih =>
      cases ys with
      | nil =>
          have first : mark x := hs x (by simp only [List.nil_append] at h; simp [← h])
          exact absurd first (hx x List.mem_cons_self)
      | cons y ys =>
          simp only [List.cons_append, List.cons.injEq] at h
          obtain ⟨rfl, rest⟩ := ih (fun z hz => hx z (List.mem_cons_of_mem _ hz))
            (fun z hz => hy z (List.mem_cons_of_mem _ hz)) h.2
          exact ⟨by rw [h.1], rest⟩

/-- The part in front of the first mark and the part behind it. -/
theorem append_mark_inj {first : α} {xs ys rest rest' : List α} (hx : first ∉ xs)
    (hy : first ∉ ys) (h : xs ++ first :: rest = ys ++ first :: rest') :
    xs = ys ∧ rest = rest' := by
  have unmarked {zs : List α} (hz : first ∉ zs) : ∀ z ∈ zs, ¬ z = first :=
    fun z hm eq => hz (eq ▸ hm)
  have cut := unmarked_append_inj (unmarked hx) (unmarked hy) (by simp) (by simp) h
  simpa using cut

theorem Block.head_flatten {blocks : List (List α)} (h : ∀ b ∈ blocks, Block mark b) :
    ∀ x ∈ blocks.flatten.head?, mark x := by
  cases blocks with
  | nil => simp
  | cons block blocks =>
      obtain ⟨head, tail, rfl, marked, _⟩ := h block List.mem_cons_self
      simpa using marked

theorem Block.flatten_inj {blocks blocks' : List (List α)} (h : ∀ b ∈ blocks, Block mark b)
    (h' : ∀ b ∈ blocks', Block mark b) (eq : blocks.flatten = blocks'.flatten) :
    blocks = blocks' := by
  induction blocks generalizing blocks' with
  | nil =>
      cases blocks' with
      | nil => rfl
      | cons block _ =>
          obtain ⟨head, tail, rfl, _⟩ := h' block List.mem_cons_self
          simp at eq
  | cons block blocks ih =>
      obtain ⟨head, tail, rfl, _, unmarked⟩ := h block List.mem_cons_self
      cases blocks' with
      | nil => simp at eq
      | cons block' blocks' =>
          obtain ⟨head', tail', rfl, _, unmarked'⟩ := h' block' List.mem_cons_self
          have rest := fun b hb => h b (List.mem_cons_of_mem _ hb)
          have rest' := fun b hb => h' b (List.mem_cons_of_mem _ hb)
          simp only [List.flatten_cons, List.cons_append, List.cons.injEq] at eq
          obtain ⟨rfl, tails⟩ := eq
          obtain ⟨rfl, others⟩ := unmarked_append_inj unmarked unmarked'
            (Block.head_flatten rest) (Block.head_flatten rest') tails
          rw [ih rest rest' others]

/-- The form in which parts are met: as images of elements. -/
theorem Block.flatMap_inj {f : β → List α} {xs ys : List β} (h : ∀ x ∈ xs, Block mark (f x))
    (h' : ∀ y ∈ ys, Block mark (f y)) (eq : xs.flatMap f = ys.flatMap f) :
    xs.map f = ys.map f := by
  have blocks {zs : List β} (hz : ∀ z ∈ zs, Block mark (f z)) :
      ∀ b ∈ zs.map f, Block mark b := by
    simpa using hz
  exact Block.flatten_inj (blocks h) (blocks h') (by simpa only [List.flatMap_def] using eq)

theorem map_eq_map_iff {f : α → β} {xs ys : List α} :
    xs.map f = ys.map f ↔ List.Forall₂ (fun x y => f x = f y) xs ys := by
  rw [← List.forall₂_eq_eq_eq, List.forall₂_map_left_iff, List.forall₂_map_right_iff]

theorem forall₂_imp_mem {R S : α → α → Prop} {xs ys : List α}
    (h : List.Forall₂ R xs ys) (imp : ∀ x ∈ xs, ∀ y ∈ ys, R x y → S x y) :
    List.Forall₂ S xs ys := by
  induction h with
  | nil => exact .nil
  | cons head tail ih =>
      refine .cons (imp _ List.mem_cons_self _ List.mem_cons_self head) (ih ?_)
      intro x hx y hy
      exact imp x (List.mem_cons_of_mem _ hx) y (List.mem_cons_of_mem _ hy)

end SpriteScript

import Mathlib.Data.List.Nodup
import Mathlib.Data.List.Perm.Basic
import SpriteScript.Keyed

/-!
Laws of keyed lists. Putting a value keeps keys distinct, and in a list of distinct keys what is
found under a key depends neither on the order of the list nor on the other keys.
-/

namespace SpriteScript.Keyed

variable {κ β : Type}

@[simp] theorem keys_cons (entry : κ × β) (entries : Keyed κ β) :
    keys (entry :: entries) = entry.1 :: keys entries := rfl

@[simp] theorem keys_append (a b : Keyed κ β) : keys (a ++ b) = keys a ++ keys b :=
  List.map_append

theorem key_mem_keys {key : κ} {value : β} {entries : Keyed κ β} (mem : (key, value) ∈ entries) :
    key ∈ keys entries :=
  List.mem_map_of_mem mem

variable [DecidableEq κ]

theorem find?_eq_none_iff {key : κ} {entries : Keyed κ β} :
    find? key entries = none ↔ key ∉ keys entries := by
  induction entries with
  | nil => simp [find?, keys]
  | cons entry entries ih =>
      by_cases eq : entry.1 = key
      · simp [find?, eq]
      · simp [find?, eq, Ne.symm eq, ih]

theorem mem_of_find? {key : κ} {value : β} {entries : Keyed κ β}
    (h : find? key entries = some value) : (key, value) ∈ entries := by
  induction entries with
  | nil => cases h
  | cons entry entries ih =>
      obtain ⟨k, old⟩ := entry
      by_cases eq : k = key
      · simp only [find?, eq, if_true, Option.some.injEq] at h
        simp [eq, h]
      · simp only [find?, eq, if_false] at h
        exact List.mem_cons_of_mem _ (ih h)

theorem find?_of_mem {key : κ} {value : β} {entries : Keyed κ β} (nodup : (keys entries).Nodup)
    (mem : (key, value) ∈ entries) : find? key entries = some value := by
  induction entries with
  | nil => cases mem
  | cons entry entries ih =>
      rw [keys_cons, List.nodup_cons] at nodup
      obtain eq | later := List.mem_cons.mp mem
      · simp [← eq, find?]
      · have other : entry.1 ≠ key := by
          rintro rfl
          exact nodup.1 (key_mem_keys later)
        simp [find?, other, ih nodup.2 later]

theorem find?_perm {a b : Keyed κ β} (nodup : (keys a).Nodup) (perm : a.Perm b) (key : κ) :
    find? key a = find? key b := by
  cases found : find? key b with
  | none =>
      rw [find?_eq_none_iff] at found ⊢
      rwa [keys, (perm.map Prod.fst).mem_iff]
  | some value => exact find?_of_mem nodup (perm.mem_iff.mpr (mem_of_find? found))

/-- In a list of distinct keys an entry hides nothing but itself. -/
theorem find?_middle {before after : Keyed κ β} {k : κ} {value : β}
    (absent : k ∉ keys (before ++ after)) (key : κ) :
    find? key (before ++ (k, value) :: after) =
      if k = key then some value else find? key (before ++ after) := by
  induction before with
  | nil => rfl
  | cons entry before ih =>
      rw [List.cons_append, keys_cons, List.mem_cons, not_or] at absent
      by_cases eq : entry.1 = key
      · have other : k ≠ key := by
          rintro rfl
          exact absent.1 eq.symm
        simp [find?, eq, other]
      · simp [find?, eq, ih absent.2]

theorem find?_put (key other : κ) (value : β) (entries : Keyed κ β) :
    find? other (put key value entries) =
      if key = other then some value else find? other entries := by
  induction entries with
  | nil => rfl
  | cons entry entries ih =>
      obtain ⟨k, old⟩ := entry
      by_cases eq : k = key
      · subst eq
        by_cases same : k = other <;> simp [put, find?, same]
      · by_cases same : k = other
        · subst same
          simp [put, find?, eq, Ne.symm eq]
        · simp [put, find?, eq, same, ih]

theorem mem_of_mem_put {key : κ} {value : β} {entries : Keyed κ β} {entry : κ × β}
    (h : entry ∈ put key value entries) : entry = (key, value) ∨ entry ∈ entries := by
  induction entries with
  | nil => exact .inl (List.mem_singleton.mp h)
  | cons first entries ih =>
      obtain ⟨k, old⟩ := first
      by_cases eq : k = key
      · simp only [put, eq, if_true, List.mem_cons] at h
        exact h.imp_right (List.mem_cons_of_mem _)
      · simp only [put, eq, if_false, List.mem_cons] at h
        obtain rfl | later := h
        · exact .inr List.mem_cons_self
        · exact (ih later).imp_right (List.mem_cons_of_mem _)

theorem keys_put (key : κ) (value : β) (entries : Keyed κ β) :
    keys (put key value entries) =
      if key ∈ keys entries then keys entries else keys entries ++ [key] := by
  induction entries with
  | nil => rfl
  | cons entry entries ih =>
      obtain ⟨k, old⟩ := entry
      by_cases eq : k = key
      · simp [put, eq]
      · by_cases mem : key ∈ keys entries <;> simp [put, eq, Ne.symm eq, ih, mem]

theorem nodup_put {entries : Keyed κ β} (h : (keys entries).Nodup) (key : κ) (value : β) :
    (keys (put key value entries)).Nodup := by
  rw [keys_put]
  split
  · exact h
  · next absent => exact List.Nodup.append h (List.nodup_singleton key) (by simpa using absent)

end SpriteScript.Keyed

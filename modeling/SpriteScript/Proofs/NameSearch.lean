import SpriteScript.Proofs.FileNames

/-!
The search for a file name as it runs: one candidate after the other is put among the taken names,
until one was not there before. Candidates of one base differ in lowercase, so a search passes over
each taken name once at most and ends. What it gives out is the name that `allocate` gives.
-/

namespace SpriteScript.FileName

/-- A search from candidate `n` on: after how many tries it ends, the name it gives out, and the
names that are taken then. Every try takes its candidate; a name that was there already changes
nothing and the search goes on. -/
inductive Search (base : List Char) :
    (n : Nat) → (taken : Finset String) → (tries : Nat) → (file : String) →
      (after : Finset String) → Prop where
  | found {n : Nat} {taken : Finset String}
      (free : Text.lowercase (candidate base n) ∉ taken) :
      Search base n taken 1 (candidate base n) (insert (Text.lowercase (candidate base n)) taken)
  | further {n : Nat} {taken : Finset String} {tries : Nat} {file : String}
      {after : Finset String} (used : Text.lowercase (candidate base n) ∈ taken)
      (rest : Search base (n + 1) (insert (Text.lowercase (candidate base n)) taken) tries file
        after) :
      Search base n taken (tries + 1) file after

namespace Search

variable {base : List Char} {taken : Finset String}

/-- A search has one course, so one that ends cannot also go on for ever. -/
theorem unique {n tries tries' : Nat} {file file' : String} {after after' : Finset String}
    (h : Search base n taken tries file after) (h' : Search base n taken tries' file' after') :
    tries = tries' ∧ file = file' ∧ after = after' := by
  induction h generalizing tries' with
  | found free =>
      cases h' with
      | found _ => exact ⟨rfl, rfl, rfl⟩
      | further used _ => exact absurd used free
  | further used _ ih =>
      cases h' with
      | found free => exact absurd used free
      | further _ rest =>
          obtain ⟨rfl, same⟩ := ih rest
          exact ⟨rfl, same⟩

/-- A search that starts at a taken candidate or at the first free one comes to the latter. -/
theorem of_free {n k last : Nat} (reach : n + k = last)
    (free : Text.lowercase (candidate base last) ∉ taken)
    (used : ∀ m < last, Text.lowercase (candidate base m) ∈ taken) :
    Search base n taken (k + 1) (candidate base last)
      (insert (Text.lowercase (candidate base last)) taken) := by
  induction k generalizing n with
  | zero =>
      obtain rfl := reach
      exact .found free
  | succ k ih =>
      have first := used n (by omega)
      refine .further first ?_
      rw [Finset.insert_eq_self.mpr first]
      exact ih (by omega)

end Search

/-- The search for the file name of a target ends, with one try more at most than names are taken,
and gives out what `allocate` does. That name was free and is the one name that is taken in
addition; all candidates in front of it were taken. -/
theorem allocate_search (name : String) (taken : List String) :
    ∃ n ≤ taken.toFinset.card,
      (∀ tries file after, Search (base name) 0 taken.toFinset tries file after ↔
        tries = n + 1 ∧ file = (allocate name taken).1 ∧
          after = (allocate name taken).2.toFinset) ∧
      (allocate name taken).1 = candidate (base name) n ∧
      Text.lowercase (allocate name taken).1 ∉ taken ∧
      (∀ file, file ∈ (allocate name taken).2 ↔
        file = Text.lowercase (allocate name taken).1 ∨ file ∈ taken) ∧
      ∀ m < n, Text.lowercase (candidate (base name) m) ∈ taken := by
  obtain ⟨n, first, free, used⟩ := fresh_first name taken
  have search : Search (base name) 0 taken.toFinset (n + 1) (allocate name taken).1
      (allocate name taken).2.toFinset := by
    rw [allocate, first, List.toFinset_cons]
    exact .of_free n.zero_add (fun mem => free (List.mem_toFinset.mp mem))
      fun m less => List.mem_toFinset.mpr (used m less)
  refine ⟨n, le_card_of_taken used, ?_, first, ?_, ?_, used⟩
  · intro tries file after
    constructor
    · exact fun other => other.unique search
    · rintro ⟨rfl, rfl, rfl⟩
      exact search
  · rw [allocate, first]
    exact free
  · exact fun file => List.mem_cons

end SpriteScript.FileName

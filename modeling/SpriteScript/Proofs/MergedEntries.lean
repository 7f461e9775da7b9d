import SpriteScript.Proofs.KeyedLaws
import SpriteScript.Proofs.Keywords
import SpriteScript.Proofs.LoadingSteps

/-!
How the variables and the lists of a target become its entries. The lists are put over the
variables one by one: a list whose id a variable has takes the variable's place, every other list
goes to the end. So the entries are known from the two groups as a whole, whatever ids they share,
and so are the groups that are written.
-/

namespace SpriteScript

namespace Keyed

variable {κ β : Type} [DecidableEq κ]

/-- The list with entries put into it one after the other. -/
def putAll (base : Keyed κ β) : Keyed κ β → Keyed κ β
  | [] => base
  | entry :: rest => putAll (base.put entry.1 entry.2) rest

/-- The entries of `base` with the values that `new` has for their keys. -/
def revised (base new : Keyed κ β) : Keyed κ β :=
  base.map fun entry => (entry.1, (find? entry.1 new).getD entry.2)

/-- The entries of `new` under keys that `base` lacks. -/
def added (base new : Keyed κ β) : Keyed κ β :=
  new.filter (·.1 ∉ keys base)

section Laws

variable {base new : Keyed κ β} {key : κ} {value : β}

theorem put_of_notMem (absent : key ∉ keys base) : put key value base = base ++ [(key, value)] := by
  induction base with
  | nil => rfl
  | cons entry base ih =>
      rw [keys_cons, List.mem_cons, not_or] at absent
      simp [put, Ne.symm absent.1, ih absent.2]

theorem revised_cons_of_notMem (absent : key ∉ keys base) :
    revised base ((key, value) :: new) = revised base new := by
  apply List.map_congr_left
  intro entry mem
  have other : key ≠ entry.1 := by
    rintro rfl
    exact absent (key_mem_keys mem)
  rw [find?, if_neg other]

theorem revised_cons (entry : κ × β) :
    revised (entry :: base) new =
      (entry.1, (find? entry.1 new).getD entry.2) :: revised base new := rfl

/-- A value that is put and never replaced stands where the key was. -/
theorem revised_put (nodup : (keys base).Nodup) (once : key ∉ keys new) (mem : key ∈ keys base) :
    revised (put key value base) new = revised base ((key, value) :: new) := by
  induction base with
  | nil => cases mem
  | cons entry base ih =>
      obtain ⟨k, old⟩ := entry
      rw [keys_cons, List.nodup_cons] at nodup
      by_cases eq : k = key
      · subst eq
        have last : find? k new = none := find?_eq_none_iff.mpr once
        rw [put, if_pos rfl, revised_cons, revised_cons, revised_cons_of_notMem nodup.1]
        simp [find?, last]
      · have later : key ∈ keys base := by simpa [Ne.symm eq] using mem
        rw [put, if_neg eq, revised_cons, revised_cons, ih nodup.2 later]
        simp [find?, Ne.symm eq]

/-- Values that are put go to the places of their keys, and new keys to the end, in order. -/
theorem putAll_eq (nodup : (keys base).Nodup) (nodup' : (keys new).Nodup) :
    putAll base new = revised base new ++ added base new := by
  induction new generalizing base with
  | nil => simp [putAll, revised, added, find?]
  | cons entry new ih =>
      obtain ⟨key, value⟩ := entry
      rw [keys_cons, List.nodup_cons] at nodup'
      rw [putAll, ih (nodup_put nodup key value) nodup'.2]
      by_cases mem : key ∈ keys base
      · rw [revised_put nodup nodup'.1 mem]
        simp [added, keys_put, mem]
      · have last : find? key new = none := find?_eq_none_iff.mpr nodup'.1
        have rest : new.filter (fun entry => entry.1 ∉ keys base ++ [key]) =
            new.filter (fun entry => entry.1 ∉ keys base) := by
          apply List.filter_congr
          intro entry inNew
          have other : entry.1 ≠ key := by
            rintro rfl
            exact nodup'.1 (key_mem_keys inNew)
          simp [other]
        rw [revised_cons_of_notMem mem, added, keys_put, if_neg mem, rest, put_of_notMem mem]
        simp [revised, added, last, mem]

theorem keys_putAll (nodup : (keys base).Nodup) (nodup' : (keys new).Nodup) :
    keys (putAll base new) = keys base ++ (keys new).filter (· ∉ keys base) := by
  rw [putAll_eq nodup nodup', keys_append]
  simp [keys, revised, added, List.filter_map, Function.comp_def]

theorem nodup_putAll (nodup : (keys base).Nodup) : (keys (putAll base new)).Nodup := by
  induction new generalizing base with
  | nil => exact nodup
  | cons entry new ih => exact ih (nodup_put nodup entry.1 entry.2)

theorem mem_of_mem_putAll {entry : κ × β} (h : entry ∈ putAll base new) :
    entry ∈ base ∨ entry ∈ new := by
  induction new generalizing base with
  | nil => exact .inl h
  | cons first new ih =>
      obtain inBase | later := ih h
      · obtain rfl | mem := mem_of_mem_put inBase
        · exact .inr List.mem_cons_self
        · exact .inl mem
      · exact .inr (List.mem_cons_of_mem _ later)

/-- What is put last under a key is found there. -/
theorem find?_putAll (nodup : (keys new).Nodup) :
    find? key (putAll base new) = (find? key new).or (find? key base) := by
  induction new generalizing base with
  | nil => rfl
  | cons entry new ih =>
      rw [keys_cons, List.nodup_cons] at nodup
      rw [putAll, ih nodup.2, find?_put, find?]
      by_cases eq : entry.1 = key
      · have last : find? key new = none := by
          rw [← eq]
          exact find?_eq_none_iff.mpr nodup.1
        simp [eq, last]
      · simp [eq]

variable {p : β → Bool}

theorem filter_putAll (nodup : (keys base).Nodup) (nodup' : (keys new).Nodup) :
    (values (putAll base new)).filter p =
      (values (revised base new)).filter p ++ (values (added base new)).filter p := by
  rw [putAll_eq nodup nodup', values, List.map_append, List.filter_append]
  rfl

theorem forall_values_added {P : β → Prop} (h : ∀ entry ∈ new, P entry.2) :
    ∀ value ∈ values (added base new), P value := by
  intro value mem
  obtain ⟨entry, inAdded, rfl⟩ := List.mem_map.mp mem
  exact h entry (List.mem_of_mem_filter inAdded)

/-- What takes the places of other entries stands in the order of those places. -/
theorem filter_putAll_new (nodup : (keys base).Nodup) (nodup' : (keys new).Nodup)
    (old : ∀ entry ∈ base, p entry.2 = false) (fresh : ∀ entry ∈ new, p entry.2 = true) :
    (values (putAll base new)).filter p =
      (keys base).filterMap (find? · new) ++ values (added base new) := by
  rw [filter_putAll nodup nodup', List.filter_eq_self.mpr (forall_values_added fresh)]
  congr 1
  clear nodup
  induction base with
  | nil => rfl
  | cons entry base ih =>
      rw [List.forall_mem_cons] at old
      have rest := ih old.2
      simp only [values, revised_cons, List.map_cons, keys_cons, List.filterMap_cons] at rest ⊢
      cases found : find? entry.1 new with
      | none => simp [old.1, rest]
      | some value =>
          have marked : p value = true := fresh _ (mem_of_find? found)
          simp [marked, rest]

/-- What was there first keeps its order, less the entries whose places are taken. -/
theorem filter_putAll_old (nodup : (keys base).Nodup) (nodup' : (keys new).Nodup)
    (old : ∀ entry ∈ base, p entry.2 = true) (fresh : ∀ entry ∈ new, p entry.2 = false) :
    (values (putAll base new)).filter p = values (base.filter (·.1 ∉ keys new)) := by
  have none : (values (added base new)).filter p = [] :=
    List.filter_eq_nil_iff.mpr (forall_values_added fun entry mem => by simp [fresh entry mem])
  rw [filter_putAll nodup nodup', none, List.append_nil]
  clear nodup none
  induction base with
  | nil => rfl
  | cons entry base ih =>
      rw [List.forall_mem_cons] at old
      have rest := ih old.2
      simp only [values, revised_cons, List.map_cons] at rest ⊢
      cases found : find? entry.1 new with
      | none =>
          have absent := find?_eq_none_iff.mp found
          simp [old.1, absent, rest]
      | some value =>
          have taken := key_mem_keys (mem_of_find? found)
          have unmarked : p value = false := fresh _ (mem_of_find? found)
          simp [unmarked, taken, rest]

end Laws

end Keyed

/-- The contents under the keyword of a group: none for a group without entries. -/
def Source.groupOf (entries : List Entry) : List Content :=
  if entries = [] then [] else [.records (entries.map entryRecord)]

theorem Source.under_groupKey_eq (entity : Entity) (kind : Kind) :
    (call entity).under (groupKey kind) = groupOf (entity.entriesOf kind) := by
  simp only [under_groupKey, groupOf, List.map_eq_nil_iff]

namespace Loading

open Json (Value)

/-- What declarations of a kind are read as, one by one and under their ids. -/
def ReadAs (kind : Kind) (declared : Keyed String Value) (entries : Keyed String Entry) : Prop :=
  List.Forall₂ (fun field entry => entry.1 = field.1 ∧ DeclaredAs kind field.2 entry.2)
    declared entries

/-- An entity that has the entries of variables, with those of lists put over them. The groups that
are written lose just the variables whose ids are taken. -/
structure Merged (scalars lists : Keyed String Entry) (entity : Entity) : Prop where
  distinct : entity.entries.keys.Nodup
  keys : entity.entries.keys = scalars.keys ++ lists.keys.filter (· ∉ scalars.keys)
  lookup : ∀ id, entity.lookup id = (lists.find? id).or (scalars.find? id)
  scalarGroup : (Source.call entity).under "variables" =
    Source.groupOf (Keyed.values (scalars.filter (·.1 ∉ lists.keys)))
  listGroup : (Source.call entity).under "lists" =
    Source.groupOf (scalars.keys.filterMap (lists.find? ·) ++
      Keyed.values (lists.filter (·.1 ∉ scalars.keys)))

theorem ReadAs.keys {kind : Kind} {declared : Keyed String Value} {entries : Keyed String Entry}
    (h : ReadAs kind declared entries) : entries.keys = declared.keys := by
  induction h with
  | nil => rfl
  | cons first _ ih => rw [Keyed.keys_cons, Keyed.keys_cons, first.1, ih]

theorem kind_of_declaredAs {kind : Kind} {value : Value} {entry : Entry}
    (h : DeclaredAs kind value entry) : entry.kind = kind := by
  cases h <;> rfl

theorem ReadAs.kind {kind : Kind} {declared : Keyed String Value} {entries : Keyed String Entry}
    (h : ReadAs kind declared entries) : ∀ entry ∈ entries, entry.2.kind = kind := by
  induction h with
  | nil => simp
  | cons first _ ih => exact List.forall_mem_cons.mpr ⟨kind_of_declaredAs first.2, ih⟩

theorem ReadAs.exists_of_mem {kind : Kind} {declared : Keyed String Value}
    {entries : Keyed String Entry} (h : ReadAs kind declared entries) {entry : String × Entry}
    (mem : entry ∈ entries) :
    ∃ field ∈ declared, field.1 = entry.1 ∧ DeclaredAs kind field.2 entry.2 := by
  induction h with
  | nil => cases mem
  | cons first _ ih =>
      obtain rfl | later := List.mem_cons.mp mem
      · exact ⟨_, List.mem_cons_self, first.1.symm, first.2⟩
      · obtain ⟨field, found, same, read⟩ := ih later
        exact ⟨field, List.mem_cons_of_mem _ found, same, read⟩

theorem entriesInto_readAs {target : String} {kind : Kind} {base all : Keyed String Entry}
    {declared : Keyed String Value}
    (h : (entriesInto target kind base declared).result = .ok all) :
    ∃ new, ReadAs kind declared new ∧ all = base.putAll new := by
  induction declared generalizing base with
  | nil =>
      cases h
      exact ⟨[], .nil, rfl⟩
  | cons field declared ih =>
      obtain ⟨id, value⟩ := field
      obtain ⟨entry, read, rest⟩ := Traced.bind_ok_iff.mp h
      obtain ⟨new, others, rfl⟩ := ih rest
      exact ⟨(id, entry) :: new, .cons ⟨rfl, entry_ok_iff.mp read⟩ others, rfl⟩

theorem entriesOf_readAs {name : String} {value : Value} {entries : Keyed String Entry}
    (h : (entriesOf name value).result = .ok entries)
    (distinct : (declarations "variables" value).keys.Nodup) :
    ∃ scalars lists, ReadAs .scalar (declarations "variables" value) scalars ∧
      ReadAs .list (declarations "lists" value) lists ∧ entries = scalars.putAll lists := by
  obtain ⟨_, first, second⟩ := Traced.bind_ok_iff.mp h
  obtain ⟨scalars, readScalars, rfl⟩ := entriesInto_readAs first
  obtain ⟨lists, readLists, rfl⟩ := entriesInto_readAs second
  have none : (Keyed.keys ([] : Keyed String Entry)).Nodup := List.nodup_nil
  have alone : Keyed.putAll [] scalars = scalars := by
    rw [Keyed.putAll_eq none (readScalars.keys ▸ distinct)]
    simp [Keyed.revised, Keyed.added, Keyed.keys]
  exact ⟨scalars, lists, readScalars, readLists, by rw [alone]⟩

theorem merged_of_putAll {scalars lists : Keyed String Entry} {entity : Entity}
    (entries : entity.entries = scalars.putAll lists) (scalarIds : scalars.keys.Nodup)
    (listIds : lists.keys.Nodup) (scalarKind : ∀ entry ∈ scalars, entry.2.kind = .scalar)
    (listKind : ∀ entry ∈ lists, entry.2.kind = .list) : Merged scalars lists entity where
  distinct := by
    rw [entries]
    exact Keyed.nodup_putAll scalarIds
  keys := by
    rw [entries]
    exact Keyed.keys_putAll scalarIds listIds
  lookup := by
    intro id
    rw [Entity.lookup, entries]
    exact Keyed.find?_putAll listIds
  scalarGroup := by
    have kept : entity.entriesOf .scalar = Keyed.values (scalars.filter (·.1 ∉ lists.keys)) := by
      rw [Entity.entriesOf, entries]
      apply Keyed.filter_putAll_old scalarIds listIds
      · intro entry mem
        simp [scalarKind entry mem]
      · intro entry mem
        simp [listKind entry mem]
    rw [← kept]
    exact Source.under_groupKey_eq entity .scalar
  listGroup := by
    have placed : entity.entriesOf .list = scalars.keys.filterMap (lists.find? ·) ++
        Keyed.values (lists.filter (·.1 ∉ scalars.keys)) := by
      rw [Entity.entriesOf, entries]
      apply Keyed.filter_putAll_new scalarIds listIds
      · intro entry mem
        simp [scalarKind entry mem]
      · intro entry mem
        simp [listKind entry mem]
    rw [← placed]
    exact Source.under_groupKey_eq entity .list

/-- The entries of a loaded target are those of its variables with its lists put over them. -/
theorem entries_merged {index : Nat} {value : Value} {entity : Entity}
    (loaded : (target index value).result = .ok entity)
    (scalarIds : (declarations "variables" value).keys.Nodup)
    (listIds : (declarations "lists" value).keys.Nodup) :
    ∃ scalars lists, ReadAs .scalar (declarations "variables" value) scalars ∧
      ReadAs .list (declarations "lists" value) lists ∧ Merged scalars lists entity := by
  obtain ⟨name, isStage, entries, _, _, read, rfl⟩ := target_ok_iff.mp loaded
  obtain ⟨scalars, lists, readScalars, readLists, merged⟩ := entriesOf_readAs read scalarIds
  refine ⟨scalars, lists, readScalars, readLists, ?_⟩
  rw [← readScalars.keys] at scalarIds
  rw [← readLists.keys] at listIds
  exact merged_of_putAll merged scalarIds listIds readScalars.kind readLists.kind

/-- A sprite of three variables and three lists that share two ids, in opposite orders. -/
def colliding : Value :=
  .object [("name", .string "s"), ("isStage", .bool false),
    ("variables", .object [("a", .array [.string "x", .number (.unsigned 1)]),
      ("b", .array [.string "y", .string "2"]), ("c", .array [.string "z", .null])]),
    ("lists", .object [("d", .array [.string "l", .array []]),
      ("c", .array [.string "m", .array [.bool true]]),
      ("a", .array [.string "n", .array [.string "q"]])])]

theorem entries_merged_colliding : ∃ entity scalars lists,
    (target 0 colliding).result = .ok entity ∧
    ReadAs .scalar (declarations "variables" colliding) scalars ∧
    ReadAs .list (declarations "lists" colliding) lists ∧ Merged scalars lists entity ∧
    entity.entries.keys = ["a", "b", "c", "d"] ∧
    entity.entriesOf .scalar = [.scalar "y" (.text "2")] ∧
    entity.entriesOf .list = [.list "n" [.text "q"], .list "m" [.bool true], .list "l" []] := by
  have loaded : (target 0 colliding).result = .ok _ := rfl
  obtain ⟨scalars, lists, readScalars, readLists, merged⟩ :=
    entries_merged loaded (by decide) (by decide)
  exact ⟨_, scalars, lists, loaded, readScalars, readLists, merged, rfl, rfl, rfl⟩

end Loading

end SpriteScript

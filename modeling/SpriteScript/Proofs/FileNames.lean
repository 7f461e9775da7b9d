import Mathlib.Data.Finset.Card
import Mathlib.Data.List.DropRight
import SpriteScript.FileName

/-!
The names that targets get for their files. Numbered candidates of one base differ in lowercase,
whatever lowercase makes of the base: it turns the base into equally many letters in front of
every number and leaves the number alone. So the search for a candidate that is not taken ends
with the first one, and names that are given out one after the other differ in lowercase.
-/

namespace SpriteScript

namespace Text

/-- How many letters the lowercase of a text has. -/
def lowerWidth : List Char → Nat
  | [] => 0
  | c :: rest => (if c = 'İ' then 2 else 1) + lowerWidth rest

theorem length_lowerChar (before : List Char) (c : Char) (after : List Char) :
    (lowerChar before c after).length = if c = 'İ' then 2 else 1 := by
  rw [lowerChar]
  by_cases sigma : c = 'Σ'
  · have undotted : c ≠ 'İ' := by
      rw [sigma]
      decide
    rw [if_pos sigma, if_neg undotted]
    split <;> rfl
  · rw [if_neg sigma]
    split <;> rfl

/-- What follows a text can change the letters of its lowercase but not how many there are. -/
theorem lowerFrom_append (before front rest : List Char) :
    ∃ head, head.length = lowerWidth front ∧
      lowerFrom before (front ++ rest) = head ++ lowerFrom (front.reverse ++ before) rest := by
  induction front generalizing before with
  | nil => exact ⟨[], rfl, rfl⟩
  | cons c front ih =>
      obtain ⟨head, length, lower⟩ := ih (c :: before)
      refine ⟨lowerChar before c (front ++ rest) ++ head, ?_, ?_⟩
      · rw [List.length_append, length_lowerChar, length, lowerWidth]
      · rw [List.cons_append, lowerFrom, lower, List.append_assoc, List.reverse_cons,
          List.append_assoc, List.singleton_append]

theorem lowerFrom_of_lower {text : List Char} (before : List Char)
    (lower : ∀ c ∈ text, c.toNat < 128 ∧ c.toLower = c) : lowerFrom before text = text := by
  induction text generalizing before with
  | nil => rfl
  | cons c rest ih =>
      obtain ⟨ascii, same⟩ := lower c List.mem_cons_self
      have sigma : c ≠ 'Σ' := by
        rintro rfl
        contradiction
      have dotted : c ≠ 'İ' := by
        rintro rfl
        contradiction
      rw [lowerFrom, lowerChar, if_neg sigma, if_neg dotted, lowerSimple, if_pos ascii, same,
        ih _ fun c mem => lower c (List.mem_cons_of_mem _ mem), List.singleton_append]

end Text

namespace FileName

/-- What tells the candidates of one base apart. -/
def mark : Nat → List Char
  | 0 => []
  | n + 1 => '_' :: Nat.toDigits 10 (n + 2)

theorem candidate_toList (base : List Char) (n : Nat) :
    (candidate base n).toList = base ++ (mark n ++ ".rb".toList) := by
  cases n with
  | zero => rw [candidate, mark, String.toList_ofList, List.nil_append]
  | succ n => rw [candidate, mark, String.toList_ofList, List.append_assoc]

theorem mark_injective : Function.Injective mark := by
  intro m n same
  cases m with
  | zero =>
      cases n with
      | zero => rfl
      | succ n => exact absurd same (by simp [mark])
  | succ m =>
      cases n with
      | zero => exact absurd same (by simp [mark])
      | succ n =>
          have digits : Nat.toDigits 10 (m + 2) = Nat.toDigits 10 (n + 2) := (List.cons.inj same).2
          have numbers := congrArg (Nat.ofDigitChars 10 · 0) digits
          simp only [Nat.ofDigitChars_ten_toDigits] at numbers
          omega

theorem mem_mark {n : Nat} {c : Char} (h : c ∈ mark n) : c = '_' ∨ c.isDigit = true := by
  cases n with
  | zero => exact absurd h List.not_mem_nil
  | succ n =>
      rw [mark, List.mem_cons] at h
      exact h.imp_right fun digit => Nat.isDigit_of_mem_toDigits (by decide) (by decide) digit

theorem lower_of_isDigit {c : Char} (h : c.isDigit = true) : c.toNat < 128 ∧ c.toLower = c := by
  obtain ⟨low, high⟩ := Char.isDigit_iff_toNat.mp h
  have nine : '9'.toNat = 57 := rfl
  have capital : 'A'.val.toNat = 65 := rfl
  have code : c.val.toNat = c.toNat := rfl
  have small : ¬(c.val ≥ 'A'.val ∧ c.val ≤ 'Z'.val) := by
    rw [ge_iff_le, UInt32.le_iff_toNat_le, UInt32.le_iff_toNat_le]
    omega
  exact ⟨by omega, dif_neg small⟩

theorem lowercase_candidate_injective (base : List Char) :
    Function.Injective fun n => Text.lowercase (candidate base n) := by
  have ending (n : Nat) : ∀ c ∈ mark n ++ ".rb".toList, c.toNat < 128 ∧ c.toLower = c := by
    intro c mem
    rw [List.mem_append] at mem
    obtain number | extension := mem
    · obtain rfl | digit := mem_mark number
      · decide
      · exact lower_of_isDigit digit
    · have letter : c = '.' ∨ c = 'r' ∨ c = 'b' := by simpa using extension
      obtain rfl | rfl | rfl := letter <;> decide
  intro m n same
  obtain ⟨head, length, lower⟩ := Text.lowerFrom_append [] base (mark m ++ ".rb".toList)
  obtain ⟨head', length', lower'⟩ := Text.lowerFrom_append [] base (mark n ++ ".rb".toList)
  rw [Text.lowerFrom_of_lower _ (ending m)] at lower
  rw [Text.lowerFrom_of_lower _ (ending n)] at lower'
  simp only [Text.lowercase, candidate_toList, lower, lower', String.ofList_inj] at same
  have marks := (List.append_inj same (length.trans length'.symm)).2
  exact mark_injective (List.append_cancel_right marks)

/-- There are at least as many taken names as candidates passed over, since these differ. -/
theorem le_card_of_taken {base : List Char} {taken : List String} {n : Nat}
    (used : ∀ m < n, Text.lowercase (candidate base m) ∈ taken) : n ≤ taken.toFinset.card := by
  have passed : (Finset.range n).image (fun m => Text.lowercase (candidate base m)) ⊆
      taken.toFinset := by
    intro file mem
    obtain ⟨m, below, rfl⟩ := Finset.mem_image.mp mem
    exact List.mem_toFinset.mpr (used m (Finset.mem_range.mp below))
  calc
    n = ((Finset.range n).image fun m => Text.lowercase (candidate base m)).card := by
      rw [Finset.card_image_of_injective _ (lowercase_candidate_injective base),
        Finset.card_range]
    _ ≤ taken.toFinset.card := Finset.card_le_card passed

/-- The search ends at the first candidate that is not taken. -/
theorem fresh_first (name : String) (taken : List String) :
    ∃ n, fresh name taken = candidate (base name) n ∧
      Text.lowercase (candidate (base name) n) ∉ taken ∧
      ∀ m < n, Text.lowercase (candidate (base name) m) ∈ taken := by
  have search : ((List.range (taken.length + 1)).map (candidate (base name))).find?
      (fun file => !taken.contains (Text.lowercase file)) =
      ((List.range (taken.length + 1)).find? fun n =>
        !taken.contains (Text.lowercase (candidate (base name) n))).map (candidate (base name)) :=
    List.find?_map
  simp only [fresh, search]
  cases found : (List.range (taken.length + 1)).find? fun n =>
      !taken.contains (Text.lowercase (candidate (base name) n)) with
  | some n =>
      obtain ⟨free, _, before⟩ := List.find?_range_eq_some.mp found
      refine ⟨n, rfl, by simpa using free, fun m less => ?_⟩
      simpa using before m less
  | none =>
      -- All candidates would be taken, but there are more of them than taken names.
      have all : ∀ m < taken.length + 1, Text.lowercase (candidate (base name) m) ∈ taken := by
        intro m less
        simpa using List.find?_range_eq_none.mp found m less
      have many := le_card_of_taken all
      have few := taken.toFinset_card_le
      omega

/-- The names that targets get one after the other. -/
def allocateAll (taken : List String) : List String → List String
  | [] => []
  | name :: names =>
    let (file, taken) := allocate name taken
    file :: allocateAll taken names

theorem length_allocateAll (taken names : List String) :
    (allocateAll taken names).length = names.length := by
  induction names generalizing taken with
  | nil => rfl
  | cons name names ih => rw [allocateAll, List.length_cons, ih, List.length_cons]

theorem lowercase_allocateAll (taken names : List String) :
    ((allocateAll taken names).map Text.lowercase).Nodup ∧
      ∀ file ∈ allocateAll taken names, Text.lowercase file ∉ taken := by
  induction names generalizing taken with
  | nil => exact ⟨List.nodup_nil, fun _ mem => absurd mem List.not_mem_nil⟩
  | cons name names ih =>
      obtain ⟨n, first, free, _⟩ := fresh_first name taken
      obtain ⟨distinct, apart⟩ := ih (Text.lowercase (fresh name taken) :: taken)
      rw [← first] at free
      rw [allocateAll]
      constructor
      · rw [List.map_cons, List.nodup_cons]
        refine ⟨fun mem => ?_, distinct⟩
        obtain ⟨file, later, same⟩ := List.mem_map.mp mem
        exact apart file later (same ▸ List.mem_cons_self)
      · intro file mem
        obtain rfl | later := List.mem_cons.mp mem
        · exact free
        · exact fun used => apart file later (List.mem_cons_of_mem _ used)

/-- A text that can stand in front of a mark: parts of identifiers, none of them an underscore at
an end. -/
structure IsBase (chars : List Char) : Prop where
  nonempty : chars ≠ []
  parts : ∀ c ∈ chars, Identifier.isPart c = true
  head : chars.head? ≠ some '_'
  last : chars.getLast? ≠ some '_'

/-- A base, a number if the base alone is taken, and the extension. -/
def IsName (file : String) : Prop :=
  ∃ base number, file.toList = base ++ number ++ ".rb".toList ∧ IsBase base ∧
    (number = [] ∨ ∃ n, 2 ≤ n ∧ number = '_' :: Nat.toDigits 10 n)

theorem isPart_part (c : Char) : Identifier.isPart (Identifier.part c) = true := by
  rw [Identifier.part]
  split
  · assumption
  · decide

theorem head?_dropUnderscores (text : List Char) :
    (text.dropWhile (· == '_')).head? ≠ some '_' := by
  intro underscore
  have stopped := List.head?_dropWhile_not (· == '_') text
  simp [underscore] at stopped

theorem head?_trimUnderscores (text : List Char) : (trimUnderscores text).head? ≠ some '_' := by
  obtain ⟨rest, whole⟩ : trimUnderscores text <+: text.dropWhile (· == '_') :=
    List.rdropWhile_prefix _ _
  cases trimmed : trimUnderscores text with
  | nil => simp
  | cons c chars =>
      have first := head?_dropUnderscores text
      rw [← whole, trimmed] at first
      exact first

theorem getLast?_trimUnderscores (text : List Char) :
    (trimUnderscores text).getLast? ≠ some '_' := by
  rw [trimUnderscores, List.getLast?_reverse]
  exact head?_dropUnderscores _

theorem mem_of_mem_trimUnderscores {text : List Char} {c : Char} (h : c ∈ trimUnderscores text) :
    c ∈ text := by
  have kept : trimUnderscores text <+: text.dropWhile (· == '_') := List.rdropWhile_prefix _ _
  exact (List.dropWhile_suffix _).subset (kept.subset h)

theorem base_isBase (name : String) : IsBase (base name) := by
  rw [base]
  split
  · have letters : "target".toList.all Identifier.isPart = true := by decide
    exact ⟨by decide, List.all_eq_true.mp letters, by decide, by decide⟩
  · next nonempty =>
    refine ⟨nonempty, ?_, head?_trimUnderscores _, getLast?_trimUnderscores _⟩
    intro c mem
    obtain ⟨c, _, rfl⟩ := List.mem_map.mp (mem_of_mem_trimUnderscores mem)
    exact isPart_part c

theorem isName_allocateAll (taken names : List String) :
    ∀ file ∈ allocateAll taken names, IsName file := by
  induction names generalizing taken with
  | nil => exact fun _ mem => absurd mem List.not_mem_nil
  | cons name names ih =>
      intro file mem
      obtain rfl | later := List.mem_cons.mp mem
      · obtain ⟨n, first, _⟩ := fresh_first name taken
        refine ⟨base name, mark n, ?_, base_isBase name, ?_⟩
        · rw [List.append_assoc, ← candidate_toList, ← first]
        · cases n with
          | zero => exact .inl rfl
          | succ n => exact .inr ⟨n + 2, by omega, rfl⟩
      · exact ih _ file later

namespace IsName

variable {file : String}

/-- In front of the extension stand parts of identifiers. -/
theorem body (h : IsName file) :
    ∃ body, file.toList = body ++ ".rb".toList ∧ ∀ c ∈ body, Identifier.isPart c = true := by
  obtain ⟨base, number, whole, isBase, numbered⟩ := h
  refine ⟨base ++ number, whole, fun c mem => ?_⟩
  obtain early | late := List.mem_append.mp mem
  · exact isBase.parts c early
  · obtain rfl | ⟨n, _, rfl⟩ := numbered
    · contradiction
    · obtain rfl | digit := List.mem_cons.mp late
      · decide
      · have digit := Nat.isDigit_of_mem_toDigits (by decide) (by decide) digit
        simp [Identifier.isPart, Char.isAlphanum, digit]

theorem notMem (h : IsName file) {c : Char} (other : Identifier.isPart c = false)
    (plain : c ∉ ".rb".toList) : c ∉ file.toList := by
  obtain ⟨body, whole, parts⟩ := h.body
  rw [whole, List.mem_append, not_or]
  refine ⟨fun mem => ?_, plain⟩
  rw [parts c mem] at other
  contradiction

/-- The name has one dot, so it never leads upwards. -/
theorem no_dots (h : IsName file) : ¬['.', '.'] <:+: file.toList := by
  intro dots
  obtain ⟨body, whole, parts⟩ := h.body
  have none : body.count '.' = 0 := by
    rw [List.count_eq_zero]
    intro mem
    exact absurd (parts '.' mem) (by decide)
  have two := dots.sublist.count_le '.'
  have one : (".rb".toList).count '.' = 1 := by decide
  rw [whole, List.count_append, none, one] at two
  exact absurd two (by decide)

end IsName

end FileName

end SpriteScript

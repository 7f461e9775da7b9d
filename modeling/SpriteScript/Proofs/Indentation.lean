import SpriteScript.Proofs.SourceLines

/-!
How the lines of a target's source are indented and separated. A line that ends with an opening
bracket moves the lines behind it two columns in, a line that starts with a closing one moves
itself out again, and commas stand between the lines of one level. Each line of a call is shown to
fit the margin that the line in front of it leaves; what holds of all lines follows by counting
along the run.
-/

namespace SpriteScript.Source

open Token

def isOpening (c : Char) : Bool :=
  c = '[' || c = '{'

def isClosing (c : Char) : Bool :=
  c = ']' || c = '}'

/-- Whether a line ends with an opening bracket. -/
def isOpener (row : List Char) : Bool :=
  row.getLast?.any isOpening

/-- Whether a line starts, behind its indentation, with a closing bracket. -/
def isCloser (row : List Char) : Bool :=
  (row.dropWhile (· = ' ')).head?.any isClosing

/-- The number of blanks that a line starts with. -/
def indent (row : List Char) : Nat :=
  (row.takeWhile (· = ' ')).length

/-- The openers in front of the line at `i`, less the closers below the first line up to it. -/
def depthAt (rows : List (List Char)) (i : Nat) : Int :=
  (rows.take i).countP isOpener - (rows.take (i + 1)).tail.countP isCloser

/-- Lines below a first one that are indented by their depth and separated within it. -/
structure Laid (column : Nat) (rows : List (List Char)) : Prop where
  indented : ∀ i row, 1 ≤ i → rows[i]? = some row →
    row ≠ [] ∧ (indent row : Int) = column + 2 * depthAt rows i ∧ 0 ≤ depthAt rows i
  settled : depthAt rows (rows.length - 1) = 0
  separated : ∀ i row next, rows[i]? = some row → rows[i + 1]? = some next →
    isOpener row = false → (row.getLast? = some ',' ↔ isCloser next = false)

/-- What a line does to the layout. -/
structure Outline where
  indent : Nat
  opens : Bool
  closes : Bool
  comma : Bool

def outline (row : List Char) : Outline :=
  ⟨indent row, isOpener row, isCloser row, row.getLast? = some ','⟩

/-- Where the next line belongs: its column unless it closes a bracket, and whether a comma stands
in front of it. Behind an opening bracket no comma is called for. -/
structure Margin where
  column : Nat
  comma : Option Bool

/-- The margin that a line leaves. -/
def Outline.margin (line : Outline) : Margin :=
  if line.opens then ⟨line.indent + 2, none⟩ else ⟨line.indent, some line.comma⟩

/-- Whether a line fits a margin: a closing one stands two columns out and needs no comma in front
of it, all others need one. -/
def Margin.Fits (margin : Margin) (line : Outline) : Prop :=
  line.indent + (if line.closes then 2 else 0) = margin.column ∧
    ∀ comma ∈ margin.comma, comma = !line.closes

/-- Lines that fit one after the other, from one margin to another. -/
inductive Runs : Margin → List Outline → Margin → Prop where
  | nil (margin : Margin) : Runs margin [] margin
  | cons {margin last : Margin} {line : Outline} {rest : List Outline}
      (fits : margin.Fits line) (run : Runs line.margin rest last) :
      Runs margin (line :: rest) last

namespace Runs

variable {start middle last : Margin} {lines rest : List Outline}

theorem append (first : Runs start lines middle) (second : Runs middle rest last) :
    Runs start (lines ++ rest) last := by
  induction first with
  | nil => exact second
  | cons fits _ ih => exact .cons fits (ih second)

theorem singleton {line : Outline} (fits : start.Fits line) : Runs start [line] line.margin :=
  .cons fits (.nil _)

/-- Along a run the column of a line is known from the brackets in front of it. -/
theorem column_of_getElem? (run : Runs start lines last) {i : Nat} {line : Outline}
    (at_i : lines[i]? = some line) :
    line.indent + 2 * (lines.take (i + 1)).countP (·.closes) =
      start.column + 2 * (lines.take i).countP (·.opens) := by
  induction run generalizing i with
  | nil => cases at_i
  | @cons margin _ first rest fits _ ih =>
      have place := fits.1
      cases i with
      | zero =>
          obtain rfl : first = line := by simpa using at_i
          cases closes : first.closes <;> simp [closes] at place ⊢ <;> omega
      | succ i =>
          have later := ih (i := i) (by simpa using at_i)
          cases closes : first.closes <;> cases opens : first.opens <;>
            simp [closes, opens, Outline.margin] at place later ⊢ <;> omega

theorem comma_of_getElem? (run : Runs start lines last) {i : Nat} {line next : Outline}
    (at_i : lines[i]? = some line) (behind : lines[i + 1]? = some next)
    (unopened : line.opens = false) : line.comma = !next.closes := by
  induction run generalizing i with
  | nil => cases at_i
  | cons _ run ih =>
      cases i with
      | succ i => exact ih (by simpa using at_i) (by simpa using behind)
      | zero =>
          obtain rfl := Option.some.inj at_i
          cases run with
          | nil => cases behind
          | cons fits _ =>
              obtain rfl := Option.some.inj behind
              exact fits.2 _ (by simp [Outline.margin, unopened])

theorem fits_head (run : Runs start lines last) {line : Outline} (first : lines[0]? = some line) :
    start.Fits line := by
  cases run with
  | nil => cases first
  | cons fits _ =>
      obtain rfl := Option.some.inj first
      exact fits

theorem margin_getLast (run : Runs start lines last) {line : Outline}
    (final : lines.getLast? = some line) : line.margin = last := by
  induction run with
  | nil => cases final
  | cons _ run ih =>
      cases run with
      | nil =>
          obtain rfl := Option.some.inj final
          rfl
      | cons _ _ => exact ih (by simpa using final)

end Runs

/-- What a line of a call does to the layout. -/
def Line.outline (column : Nat) (line : Line) : Outline :=
  Source.outline (spell (Call.row column line))

theorem spell_row (column : Nat) (line : Line) :
    spell (Call.row column line) =
      List.replicate (column + 2 * line.depth) ' ' ++ chars line.pieces := by
  rw [Call.row, spell_append, ← chars_eq_spell, ← spell_map_sign (List.replicate _ ' '),
    List.map_replicate]

theorem blank_of_mem_replicate (n : Nat) : ∀ c ∈ List.replicate n ' ', decide (c = ' ') = true := by
  intro c mem
  rw [List.eq_of_mem_replicate mem]
  rfl

theorem chars_cons (piece : Piece) (pieces : List Piece) :
    chars (piece :: pieces) = piece.chars ++ chars pieces :=
  List.flatMap_cons

theorem chars_append (pieces pieces' : List Piece) :
    chars (pieces ++ pieces') = chars pieces ++ chars pieces' :=
  List.flatMap_append

/-- The layout of a line is known from its depth and its two ends. -/
theorem outline_of_ends {pieces : List Piece} {first last : Char}
    (head : (chars pieces).head? = some first) (tail : (chars pieces).getLast? = some last)
    (flush : first ≠ ' ') (column depth : Nat) :
    Line.outline column ⟨depth, pieces⟩ =
      ⟨column + 2 * depth, isOpening last, isClosing first, last = ','⟩ := by
  have blank := blank_of_mem_replicate (column + 2 * depth)
  obtain ⟨rest, text⟩ := List.head?_eq_some_iff.mp head
  have ends : (spell (Call.row column ⟨depth, pieces⟩)).getLast? = some last := by
    rw [spell_row, List.getLast?_append, tail]
    rfl
  have margin : indent (spell (Call.row column ⟨depth, pieces⟩)) = column + 2 * depth := by
    rw [indent, spell_row, List.takeWhile_append_of_pos blank, text]
    simp [flush]
  have start : (spell (Call.row column ⟨depth, pieces⟩)).dropWhile (· = ' ') = first :: rest := by
    rw [spell_row, List.dropWhile_append_of_pos blank, text]
    simp [flush]
  rw [Line.outline, outline, isOpener, isCloser, margin, start, ends]
  simp

/-- Whether a value can stand at the end of a line without being taken for an opening bracket or a
separator. -/
def EndsPlainly (value : List Piece) : Prop :=
  ∀ c ∈ (chars value).getLast?, isOpening c = false ∧ c ≠ ','

theorem outline_key {key : String} {rest : List Piece} {last : Char} (tidy : TidyKey key)
    (tail : (chars rest).getLast? = some last) (column depth : Nat) :
    Line.outline column ⟨depth, .code key :: rest⟩ =
      ⟨column + 2 * depth, isOpening last, false, last = ','⟩ := by
  obtain ⟨nonempty, all⟩ := tidyKey_iff.mp tidy
  obtain ⟨first, others, letters⟩ := List.exists_cons_of_ne_nil nonempty
  have letter : isKeyChar first = true := all first (by simp [letters])
  have flush : first ≠ ' ' := by
    rintro rfl
    exact absurd letter (by decide)
  have unclosed : isClosing first = false := by
    rw [isClosing, Bool.or_eq_false_iff, decide_eq_false_iff_not, decide_eq_false_iff_not]
    constructor <;> rintro rfl <;> exact absurd letter (by decide)
  rw [← unclosed]
  apply outline_of_ends _ _ flush
  · simp [chars_cons, Piece.chars, letters]
  · simp [chars_cons, List.getLast?_append, tail]

/-- The marks at the ends of lines. -/
def IsMark (mark : String) : Prop :=
  mark = "," ∨ mark = ")" ∨ mark = ""

theorem getLast?_item (value : List Piece) (mark : String) :
    (chars (.code ": " :: value ++ [.code mark])).getLast? =
      some (mark.toList.getLast?.getD ((chars value).getLast?.getD ' ')) := by
  have whole : chars (.code ": " :: value ++ [.code mark]) =
      [':', ' '] ++ chars value ++ mark.toList := by
    simp [chars, Piece.chars]
  rw [whole, List.getLast?_append, List.getLast?_append]
  cases mark.toList.getLast? <;> cases (chars value).getLast? <;> rfl

theorem outline_item {key : String} {value : List Piece} {mark : String} (tidy : TidyKey key)
    (plain : EndsPlainly value) (marks : IsMark mark) (column depth : Nat) :
    Line.outline column ⟨depth, .code key :: .code ": " :: value ++ [.code mark]⟩ =
      ⟨column + 2 * depth, false, false, mark = ","⟩ := by
  rw [List.cons_append, outline_key tidy (getLast?_item value mark)]
  obtain rfl | rfl | rfl := marks
  · rfl
  · rfl
  · cases ends : (chars value).getLast? with
    | none => rfl
    | some last =>
        obtain ⟨unopened, other⟩ := plain last ends
        simp [unopened, other]

theorem outline_closing {bracket mark : String} {first : Char} (single : bracket.toList = [first])
    (closing : isClosing first = true) (marks : IsMark mark) (column depth : Nat) :
    Line.outline column ⟨depth, [.code bracket, .code mark]⟩ =
      ⟨column + 2 * depth, false, true, mark = ","⟩ := by
  have whole : chars [.code bracket, .code mark] = first :: mark.toList := by
    simp [chars, Piece.chars, single]
  have tail : (chars [.code bracket, .code mark]).getLast? =
      some (mark.toList.getLast?.getD first) := by
    rw [whole, List.getLast?_cons]
  have sides : first = ']' ∨ first = '}' := by simpa [isClosing] using closing
  have flush : first ≠ ' ' := by obtain rfl | rfl := sides <;> decide
  rw [outline_of_ends (congrArg List.head? whole) tail flush, closing]
  obtain rfl | rfl | rfl := marks
  · rfl
  · rfl
  · obtain rfl | rfl := sides <;> rfl

/-- Whether a line that closes nothing can stand at a column. -/
def Margin.Open (margin : Margin) (column : Nat) : Prop :=
  margin.column = column ∧ ∀ comma ∈ margin.comma, comma = true

theorem Margin.Open.fits {margin : Margin} {line : Outline} (h : margin.Open line.indent)
    (unclosed : line.closes = false) : margin.Fits line := by
  refine ⟨?_, ?_⟩
  · simp [unclosed, h.1]
  · simpa [unclosed] using h.2

theorem open_comma (column : Nat) : Margin.Open ⟨column, some true⟩ column := by
  simp [Margin.Open]

/-- Blocks with separators between them run on when each of them does. -/
theorem runs_punctuate {α : Type} {f : α × Piece → List Outline} {final : String} {column : Nat}
    {xs : List α} (other : final ≠ ",")
    (block : ∀ x ∈ xs, ∀ mark, mark = "," ∨ mark = final → ∀ margin : Margin, margin.Open column →
      Runs margin (f (x, .code mark)) ⟨column, some (mark = ",")⟩)
    (nonempty : xs ≠ []) {margin : Margin} (start : margin.Open column) :
    Runs margin ((punctuate (.code ",") (.code final) xs).flatMap f) ⟨column, some false⟩ := by
  induction xs generalizing margin with
  | nil => exact absurd rfl nonempty
  | cons x xs ih =>
      rw [List.forall_mem_cons] at block
      cases xs with
      | nil =>
          have run := block.1 final (.inr rfl) margin start
          simpa [punctuate, other] using run
      | cons y xs =>
          have run := block.1 "," (.inl rfl) margin start
          rw [punctuate, List.flatMap_cons]
          exact run.append (ih block.2 (List.cons_ne_nil y xs) (open_comma column))

/-- A bracket around such blocks, or around nothing, runs on as a block of its own. -/
theorem runs_bracketed {α : Type} {f : α × Piece → List Outline} {column : Nat} {xs : List α}
    (block : ∀ x ∈ xs, ∀ mark, mark = "," ∨ mark = "" → ∀ margin : Margin,
      margin.Open (column + 2) → Runs margin (f (x, .code mark)) ⟨column + 2, some (mark = ",")⟩)
    (comma : Bool) {margin : Margin} (start : margin.Open column) :
    Runs margin (⟨column, true, false, false⟩ ::
        (punctuate (.code ",") (.code "") xs).flatMap f ++ [⟨column, false, true, comma⟩])
      ⟨column, some comma⟩ := by
  refine .cons (start.fits rfl) ?_
  cases xs with
  | nil => exact .singleton ⟨rfl, by simp [Outline.margin]⟩
  | cons x xs =>
      have inside : Margin.Open ⟨column + 2, none⟩ (column + 2) := by simp [Margin.Open]
      have run := runs_punctuate (by decide) block (List.cons_ne_nil x xs) inside
      exact run.append (.singleton ⟨rfl, by simp⟩)

theorem runs_record {fields : List Field} {mark : String} {column : Nat}
    (tidy : ∀ field ∈ fields, field.Tidy) (plain : ∀ field ∈ fields, EndsPlainly field.value)
    (marks : IsMark mark) {margin : Margin} (start : margin.Open (column + 2)) :
    Runs margin ((recordLines fields (.code mark)).map (Line.outline column))
      ⟨column + 2, some (mark = ",")⟩ := by
  have brace : (chars [.code r"{"]).head? = some '{' := rfl
  have first : Line.outline column ⟨1, [.code r"{"]⟩ = ⟨column + 2, true, false, false⟩ :=
    outline_of_ends brace rfl (by decide) column 1
  have last : Line.outline column ⟨1, [.code r"}", .code mark]⟩ =
      ⟨column + 2, false, true, mark = ","⟩ :=
    outline_closing rfl rfl marks column 1
  simp only [recordLines, List.cons_append, List.map_cons, List.map_append, List.map_map, first,
    last, List.map_nil]
  rw [List.map_eq_flatMap]
  apply runs_bracketed _ _ start
  intro field mem mark marks margin start
  have line : (field.line (.code mark)).outline column =
      ⟨column + 2 + 2, false, false, mark = ","⟩ :=
    outline_item (tidy field mem).1 (plain field mem) (marks.imp_right .inr) column 2
  simp only [Function.comp_apply, line]
  exact .singleton (start.fits rfl)

def Content.EndsPlainly : Content → Prop
  | inline value => Source.EndsPlainly value
  | records items => ∀ item ∈ items, ∀ field ∈ item, Source.EndsPlainly field.value

theorem runs_argument {argument : Argument} {mark : String} {column : Nat} (tidy : argument.Tidy)
    (plain : argument.content.EndsPlainly) (marks : IsMark mark) {margin : Margin}
    (start : margin.Open column) :
    Runs margin ((argument.lines (.code mark)).map (Line.outline column))
      ⟨column, some (mark = ",")⟩ := by
  obtain ⟨key, content⟩ := argument
  cases content with
  | inline value =>
      have line := outline_item tidy.1 plain marks column 0
      simp only [Argument.lines, List.map_cons, List.map_nil, line]
      exact .singleton (start.fits rfl)
  | records items =>
      have bracket : (chars [.code ": ["]).getLast? = some '[' := rfl
      have first : Line.outline column ⟨0, [.code key, .code ": ["]⟩ =
          ⟨column, true, false, false⟩ :=
        outline_key tidy.1 bracket column 0
      have last : Line.outline column ⟨0, [.code "]", .code mark]⟩ =
          ⟨column, false, true, mark = ","⟩ :=
        outline_closing rfl rfl marks column 0
      simp only [Argument.lines, List.cons_append, List.map_cons, List.map_append,
        List.map_flatMap, first, last, List.map_nil]
      apply runs_bracketed _ _ start
      intro item mem mark marks margin start
      exact runs_record (tidy.2 item mem) (plain item mem) (marks.imp_right .inr) start

/-- The lines of a call run from its head, which ends with a comma, back to its column. -/
theorem runs_call {call : Call} (tidy : call.Tidy)
    (plain : ∀ argument ∈ call.arguments, argument.content.EndsPlainly)
    (nonempty : call.arguments ≠ []) :
    Runs ⟨call.column, some true⟩ (call.lines.map (Line.outline call.column))
      ⟨call.column, some false⟩ := by
  rw [Call.lines, List.map_flatMap]
  apply runs_punctuate (by decide) _ nonempty (open_comma call.column)
  intro argument mem mark marks margin start
  exact runs_argument (tidy.2 argument mem) (plain argument mem) (marks.imp_right .inl) start

theorem endsPlainly_of_getLast? {value : List Piece} {last : Char}
    (h : (chars value).getLast? = some last) (unopened : isOpening last = false)
    (other : last ≠ ',') : EndsPlainly value := by
  intro c mem
  obtain rfl : last = c := Option.some.inj (h.symm.trans mem)
  exact ⟨unopened, other⟩

theorem code_endsPlainly {p : Char → Bool} {s : String} (h : ∀ c ∈ s.toList, p c = true)
    (special : p '[' = false ∧ p '{' = false ∧ p ',' = false) : EndsPlainly [.code s] := by
  intro c mem
  have letter : p c = true := h c (by simpa [chars, Piece.chars] using List.mem_of_getLast? mem)
  obtain ⟨square, brace, comma⟩ := special
  have other {d : Char} (hd : p d = false) : c ≠ d := by
    rintro rfl
    rw [letter] at hd
    contradiction
  simp [isOpening, other square, other brace, other comma]

theorem number_endsPlainly (value : Binary64) : EndsPlainly [.code (number value)] := by
  refine code_endsPlainly (p := isNumeral) ?_ (by decide)
  rw [number, String.toList_ofList]
  exact fun c mem => isNumeral_of_mem mem

theorem quoted_endsPlainly (value : String) : EndsPlainly [.quoted value] := by
  have last : (chars [.quoted value]).getLast? = some '"' := by
    simp [chars, Piece.chars, quoteChars, List.getLast?_cons]
  exact endsPlainly_of_getLast? last (by decide) (by decide)

theorem bool_endsPlainly (value : Bool) : EndsPlainly [.code (bool value)] := by
  have last : (chars [.code (bool value)]).getLast? = some 'e' := by
    cases value <;> rfl
  exact endsPlainly_of_getLast? last (by decide) (by decide)

theorem repr_endsPlainly (n : Nat) : EndsPlainly [.code (Nat.repr n)] := by
  refine code_endsPlainly (p := Char.isDigit) ?_ (by decide)
  rw [Nat.toList_repr]
  exact fun c mem => Nat.isDigit_of_mem_toDigits (by decide) (by decide) mem

theorem scalar_endsPlainly (value : Literal) : EndsPlainly (scalarPieces value) := by
  cases value with
  | number v => exact number_endsPlainly v
  | text s => exact quoted_endsPlainly s
  | bool b => exact bool_endsPlainly b

theorem sequence_endsPlainly (items : List Literal) : EndsPlainly (sequencePieces items) := by
  have last : (chars (sequencePieces items)).getLast? = some ']' := by
    rw [sequencePieces, chars_append, List.getLast?_append]
    rfl
  exact endsPlainly_of_getLast? last (by decide) (by decide)

theorem costumeRecord_endsPlainly (costume : Costume) :
    ∀ field ∈ costumeRecord costume, EndsPlainly field.value := by
  simp only [costumeRecord, List.forall_mem_cons, textField, numberField]
  exact ⟨quoted_endsPlainly _, quoted_endsPlainly _, number_endsPlainly _, quoted_endsPlainly _,
    quoted_endsPlainly _, number_endsPlainly _, number_endsPlainly _, by simp⟩

theorem entryRecord_endsPlainly (entry : Entry) :
    ∀ field ∈ entryRecord entry, EndsPlainly field.value := by
  have value : EndsPlainly (entryValue entry) := by
    cases entry with
    | scalar name value => exact scalar_endsPlainly value
    | list name items => exact sequence_endsPlainly items
  rw [entryRecord, List.forall_mem_cons]
  exact ⟨quoted_endsPlainly _, optional_forall value⟩

theorem arguments_endPlainly (entity : Entity) :
    ∀ argument ∈ arguments entity, argument.content.EndsPlainly := by
  have costumes : (Content.records (entity.costumes.map costumeRecord)).EndsPlainly := by
    simpa [Content.EndsPlainly] using fun costume _ => costumeRecord_endsPlainly costume
  have entries (kind : Kind) :
      (Content.records ((entity.entriesOf kind).map entryRecord)).EndsPlainly := by
    simpa [Content.EndsPlainly] using fun entry _ => entryRecord_endsPlainly entry
  simp only [arguments, numberArgument, recordsArgument, List.forall_mem_append, and_assoc]
  exact ⟨optional_forall (number_endsPlainly _), optional_forall (number_endsPlainly _),
    optional_forall (number_endsPlainly _), optional_forall (bool_endsPlainly _),
    optional_forall (number_endsPlainly _), optional_forall (repr_endsPlainly _),
    optional_forall costumes, optional_forall (quoted_endsPlainly _),
    optional_forall (entries .scalar), optional_forall (entries .list)⟩

section Laid

variable {column : Nat} {head : List Char} {below : List (List Char)}

theorem depthAt_succ (flat : isOpener head = false) (i : Nat) :
    depthAt (head :: below) (i + 1) =
      (below.take i).countP isOpener - (below.take (i + 1)).countP isCloser := by
  rw [depthAt, List.take_succ_cons, List.countP_cons_of_neg (by simp [flat]), List.take_succ_cons,
    List.tail_cons]

theorem indent_of_runs {last : Margin} (flat : isOpener head = false)
    (run : Runs ⟨column, some true⟩ (below.map outline) last) {i : Nat} {row : List Char}
    (at_i : below[i]? = some row) :
    (indent row : Int) = column + 2 * depthAt (head :: below) (i + 1) := by
  have outlined : (below.map outline)[i]? = some (outline row) := by simp [at_i]
  have counts := run.column_of_getElem? outlined
  rw [← List.map_take, ← List.map_take, List.countP_map, List.countP_map] at counts
  have place : indent row + 2 * (below.take (i + 1)).countP isCloser =
      column + 2 * (below.take i).countP isOpener := counts
  rw [depthAt_succ flat]
  omega

theorem laid_of_runs (flat : isOpener head = false) (comma : head.getLast? = some ',')
    (run : Runs ⟨column, some true⟩ (below.map outline) ⟨column, some false⟩)
    (inside : ∀ row ∈ below, row ≠ [] ∧ column ≤ indent row) : Laid column (head :: below) where
  indented := by
    intro i row positive at_i
    obtain ⟨i, rfl⟩ := Nat.exists_eq_add_of_le' positive
    rw [List.getElem?_cons_succ] at at_i
    have place := indent_of_runs flat run at_i
    obtain ⟨nonempty, bound⟩ := inside row (List.mem_of_getElem? at_i)
    refine ⟨nonempty, place, ?_⟩
    omega
  settled := by
    cases last : below.getLast? with
    | none =>
        rw [List.getLast?_eq_none_iff.mp last] at run
        cases run
    | some row =>
        obtain ⟨init, rfl⟩ := List.getLast?_eq_some_iff.mp last
        have margin : (outline row).margin = ⟨column, some false⟩ :=
          run.margin_getLast (by simp)
        have back : indent row = column := by
          cases opens : isOpener row <;> simp_all [outline, Outline.margin]
        have final : (init ++ [row])[init.length]? = some row := by simp
        have place := indent_of_runs flat run final
        rw [List.length_cons, List.length_append, List.length_singleton, Nat.add_sub_cancel]
        omega
  separated := by
    intro i row next at_i behind unopened
    rw [List.getElem?_cons_succ] at behind
    cases i with
    | zero =>
        obtain rfl : head = row := by simpa using at_i
        have outlined : (below.map outline)[0]? = some (outline next) := by simp [behind]
        have closed : isCloser next = false := by
          simpa [outline] using (run.fits_head outlined).2
        simp [comma, closed]
    | succ i =>
        rw [List.getElem?_cons_succ] at at_i
        have first : (below.map outline)[i]? = some (outline row) := by simp [at_i]
        have second : (below.map outline)[i + 1]? = some (outline next) := by simp [behind]
        have mark : decide (row.getLast? = some ',') = !isCloser next :=
          run.comma_of_getElem? first second unopened
        cases closed : isCloser next <;> simpa [closed] using mark

end Laid

theorem le_indent_row (column : Nat) (line : Line) :
    column ≤ indent (spell (Call.row column line)) := by
  rw [indent, spell_row, List.takeWhile_append_of_pos (blank_of_mem_replicate _),
    List.length_append, List.length_replicate]
  omega

theorem punctuate_concat {α β : Type} (between last : β) (xs : List α) (x : α) :
    punctuate between last (xs ++ [x]) = xs.map (·, between) ++ [(x, last)] := by
  induction xs with
  | nil => rfl
  | cons y xs ih =>
      cases xs with
      | nil => rfl
      | cons z xs =>
          rw [List.cons_append, List.cons_append, punctuate, ← List.cons_append, ih]
          rfl

theorem lines_concat (argument : Argument) (mark : Piece) :
    ∃ front pieces, argument.lines mark = front ++ [⟨0, pieces ++ [mark]⟩] := by
  obtain ⟨key, content⟩ := argument
  cases content with
  | inline value => exact ⟨[], .code key :: .code ": " :: value, rfl⟩
  | records items => exact ⟨_, [.code "]"], rfl⟩

/-- A call ends with its closing bracket. -/
theorem pieces_concat (call : Call) : ∃ front, call.pieces = front ++ [.code ")"] := by
  obtain none | ⟨init, argument, all⟩ := List.eq_nil_or_concat' call.arguments
  · refine ⟨[.code call.opening, .quoted call.subject], ?_⟩
    simp [Call.pieces, Call.head, Call.lines, none, punctuate]
  · obtain ⟨front, pieces, last⟩ := lines_concat argument (.code ")")
    have lines : ∃ others, call.lines = others ++ [⟨0, pieces ++ [.code ")"]⟩] := by
      simp only [Call.lines, all, punctuate_concat, List.flatMap_append, List.flatMap_singleton,
        last, ← List.append_assoc]
      exact ⟨_, rfl⟩
    obtain ⟨others, lines⟩ := lines
    rw [Call.pieces, lines, List.flatMap_append, List.flatMap_singleton, Call.linePieces,
      ← List.cons_append, ← List.cons_append, ← List.append_assoc, ← List.append_assoc]
    exact ⟨_, rfl⟩

theorem getLast?_afterOpening (call : Call) :
    (chars call.afterOpening).getLast? =
      some (if call.arguments.isEmpty then ')' else ',') := by
  rw [Call.afterOpening, chars_cons, List.getLast?_append]
  cases call.arguments.isEmpty <;> rfl

theorem laid_singleton (column : Nat) (head : List Char) : Laid column [head] where
  indented := by
    intro i row positive at_i
    rw [List.getElem?_eq_none positive] at at_i
    cases at_i
  settled := rfl
  separated := by
    intro i row next _ behind
    cases behind

/-- The layout of a target whose texts hold no line feed: every line below the first stands at the
column of the arguments, two columns further for each open bracket, and commas separate the lines
of one level. -/
theorem laid_entity {entity : Entity} (oneLine : ∀ text ∈ entity.texts, '\n' ∉ text.toList) :
    Laid (if entity.isStage then 10 else 11) (lines (Source.entity entity)) ∧
      (Source.entity entity).toList.getLast? = some ')' := by
  constructor
  · rw [lines_entity oneLine, rows_call, ← column_call]
    by_cases none : (call entity).arguments = []
    · have below : (call entity).lines = [] := by rw [Call.lines, none]; rfl
      rw [below]
      exact laid_singleton _ _
    · have comma : ((call entity).opening.toList ++
          chars (call entity).afterOpening).getLast? = some ',' := by
        rw [List.getLast?_append, getLast?_afterOpening, List.isEmpty_eq_false_iff.mpr none]
        rfl
      apply laid_of_runs _ comma
      · rw [List.map_map]
        exact runs_call (call_tidy entity) (arguments_endPlainly entity) none
      · intro row mem
        obtain ⟨line, _, rfl⟩ := List.mem_map.mp mem
        have bound := le_indent_row (call entity).column line
        refine ⟨?_, bound⟩
        intro empty
        rw [empty, column_call] at bound
        cases role : entity.isStage <;> simp [role, indent] at bound
      · rw [isOpener, comma]
        decide
  · obtain ⟨front, pieces⟩ := pieces_concat (call entity)
    rw [Source.entity, text, String.toList_ofList, pieces, chars_append, List.getLast?_append]
    rfl

theorem laid_entity_bracketed :
    (∀ text ∈ bracketed.texts, '\n' ∉ text.toList) ∧
      Laid 11 (lines (Source.entity bracketed)) ∧
      (Source.entity bracketed).toList.getLast? = some ')' := by
  have oneLine : ∀ text ∈ bracketed.texts, '\n' ∉ text.toList := by decide
  exact ⟨oneLine, laid_entity oneLine⟩

end SpriteScript.Source

import SpriteScript.Proofs.SourceStructure

/-!
The lines of a target's source. Where no text of the target holds a line feed, cutting the source
at its line feeds gives back the rows of its call: the head and the lines below it, each behind
its indentation. The role of a target shows in these rows only through the name of the
constructor, and through the column that this name leaves to the arguments.
-/

namespace SpriteScript.Source

open Token

/-- The lines of a source, without their line feeds. -/
def lines (source : String) : List (List Char) :=
  source.toList.splitOn '\n'

/-- Rows that each follow a line feed are rows with line feeds between them. -/
theorem flatMap_feed (row : List Char) (rows : List (List Char)) :
    (row :: rows).flatMap ('\n' :: ·) = '\n' :: List.intercalate ['\n'] (row :: rows) := by
  induction rows generalizing row with
  | nil => simp
  | cons next rows ih =>
      rw [List.flatMap_cons, ih next, List.intercalate_cons_cons]
      simp

theorem spell_append (ts us : List Token) : spell (ts ++ us) = spell ts ++ spell us :=
  List.flatMap_append

theorem spell_flatMap_feed (rows : List (List Token)) :
    spell (rows.flatMap (sign '\n' :: ·)) = (rows.map spell).flatMap ('\n' :: ·) := by
  induction rows with
  | nil => rfl
  | cons row rows ih => rw [List.flatMap_cons, spell_append, spell_sign, ih]; rfl

theorem chars_call (call : Call) :
    chars call.pieces = List.intercalate ['\n'] (call.rows.map spell) := by
  have feeds := congrArg spell (tokens_call call)
  rw [spell_sign, spell_flatMap_feed, ← chars_eq_spell, Call.rows, List.map_cons,
    flatMap_feed] at feeds
  exact List.tail_eq_of_cons_eq feeds

theorem feed_notMem_escape {s : List Char} (h : '\n' ∉ s) : '\n' ∉ escape s := by
  induction s with
  | nil => exact h
  | cons c s ih =>
      rw [List.mem_cons, not_or] at h
      by_cases quote : c = '"'
      · simp [quote, escape_quote, ih h.2]
      · simp [escape_other quote, h.1, ih h.2]

theorem feed_notMem_spell {ts : List Token} (inline : ∀ t ∈ ts, t.isInline = true)
    (oneLine : ∀ text, quoted text ∈ ts → '\n' ∉ text.toList) : '\n' ∉ spell ts := by
  intro mem
  obtain ⟨t, inTokens, mem⟩ := List.mem_flatMap.mp mem
  cases t with
  | sign c =>
      obtain rfl : '\n' = c := by simpa [Token.chars] using mem
      exact absurd (inline _ inTokens) (by decide)
  | quoted text =>
      have none := feed_notMem_escape (oneLine text inTokens)
      simp [Token.chars, quoteChars, none] at mem

theorem mem_tokens_of_mem_row {call : Call} {row : List Token} (mem : row ∈ call.rows) {t : Token}
    (inRow : t ∈ row) (other : t ≠ sign '\n') : t ∈ tokens call.pieces := by
  have all : t ∈ sign '\n' :: tokens call.pieces := by
    rw [tokens_call]
    exact List.mem_flatMap.mpr ⟨row, mem, List.mem_cons_of_mem _ inRow⟩
  exact (List.mem_cons.mp all).resolve_left other

/-- The lines of a source are the rows of its call. -/
theorem lines_entity {entity : Entity} (oneLine : ∀ text ∈ entity.texts, '\n' ∉ text.toList) :
    lines (Source.entity entity) = (call entity).rows.map spell := by
  have rows : ∀ row ∈ (call entity).rows.map spell, '\n' ∉ row := by
    intro row mem
    obtain ⟨ts, inCall, rfl⟩ := List.mem_map.mp mem
    apply feed_notMem_spell (Call.rows_inline (call_tidy entity) ts inCall)
    intro text inRow
    have written := quoted_mem_tokens (mem_tokens_of_mem_row inCall inRow (by simp))
    rw [quotes_entity] at written
    obtain own | ⟨style, rfl⟩ := mem_quotedTexts written
    · exact oneLine text own
    · cases style <;> decide
  rw [lines, Source.entity, text, String.toList_ofList, chars_call]
  exact List.splitOn_intercalate '\n' rows (by simp [Call.rows])

theorem spell_row_succ (column : Nat) (line : Line) :
    spell (Call.row (column + 1) line) = ' ' :: spell (Call.row column line) := by
  have indent : column + 1 + 2 * line.depth = column + 2 * line.depth + 1 := by omega
  rw [Call.row, Call.row, indent, List.replicate_succ, List.cons_append, spell_sign]

/-- What follows the opening on the first line of a call. -/
def Call.afterOpening (call : Call) : List Piece :=
  [.quoted call.subject, .code (if call.arguments.isEmpty then ")" else ",")]

theorem rows_call (call : Call) :
    call.rows.map spell = (call.opening.toList ++ chars call.afterOpening) ::
      call.lines.map fun line => spell (Call.row call.column line) := by
  have head : spell (tokens call.head) = call.opening.toList ++ chars call.afterOpening := by
    rw [← chars_eq_spell]
    rfl
  rw [Call.rows, List.map_cons, List.map_map, head]
  rfl

/-- The role of a target decides nothing but the constructor. -/
theorem call_role (entity : Entity) (isStage : Bool) :
    call { entity with isStage } =
      { call entity with constructor := if isStage then "Stage" else "Sprite" } := by
  have arguments : arguments { entity with isStage } = arguments entity := by
    simp only [arguments, Entity.blank]
    rfl
  rw [call, arguments]
  rfl

theorem opening_call (entity : Entity) :
    (call entity).opening = if entity.isStage then "Stage.new(" else "Sprite.new(" := by
  cases role : entity.isStage <;> simp [call, Call.opening, role]

theorem column_call (entity : Entity) :
    (call entity).column = if entity.isStage then 10 else 11 := by
  rw [Call.column, opening_call]
  cases entity.isStage <;> decide

theorem lines_role {entity : Entity} (oneLine : ∀ text ∈ entity.texts, '\n' ∉ text.toList)
    (isStage : Bool) :
    lines (Source.entity { entity with isStage }) =
      ((if isStage then "Stage.new(" else "Sprite.new(").toList ++
          chars (call entity).afterOpening) ::
        (call entity).lines.map fun line =>
          spell (Call.row (if isStage then 10 else 11) line) := by
  have rows : lines (Source.entity { entity with isStage }) = _ := lines_entity oneLine
  rw [rows, rows_call, opening_call, column_call, call_role]
  rfl

/-- The source of a stage is that of the sprite with the same state under another constructor, with
one blank less in front of every line below the first. -/
theorem lines_stage_sprite {entity : Entity}
    (oneLine : ∀ text ∈ entity.texts, '\n' ∉ text.toList) :
    ∃ first rest,
      lines (Source.entity { entity with isStage := false }) =
        ("Sprite.new(".toList ++ first) :: rest.map (' ' :: ·) ∧
      lines (Source.entity { entity with isStage := true }) =
        ("Stage.new(".toList ++ first) :: rest := by
  refine ⟨chars (call entity).afterOpening,
    (call entity).lines.map fun line => spell (Call.row 10 line), ?_, lines_role oneLine true⟩
  have below (line : Line) : spell (Call.row 11 line) = ' ' :: spell (Call.row 10 line) :=
    spell_row_succ 10 line
  have sprite := lines_role oneLine false
  simp only [Bool.false_eq_true, if_false, below] at sprite
  rw [sprite, List.map_map]
  rfl

/-- A sprite whose texts look like brackets, separators and lines of a call. -/
def bracketed : Entity :=
  { Entity.sprite "Stage.new(" with
    visible := false
    costumes := [⟨r"{", r"}", .zero, "],", " ]", .zero, .zero⟩]
    entries := [("l", .list "value: [" [.text "[", .text ",", .bool true]),
      ("v", .scalar r" }" (.text r"{"))] }

theorem lines_stage_sprite_bracketed :
    (∀ text ∈ bracketed.texts, '\n' ∉ text.toList) ∧
    ∃ first rest,
      lines (Source.entity { bracketed with isStage := false }) =
        ("Sprite.new(".toList ++ first) :: rest.map (' ' :: ·) ∧
      lines (Source.entity { bracketed with isStage := true }) =
        ("Stage.new(".toList ++ first) :: rest := by
  have oneLine : ∀ text ∈ bracketed.texts, '\n' ∉ text.toList := by decide
  exact ⟨oneLine, lines_stage_sprite oneLine⟩

end SpriteScript.Source

import SpriteScript.Proofs.Blocks
import SpriteScript.Proofs.Tokens
import SpriteScript.Source.Call

/-!
Reading the layout of calls back. The source of some calls is cut at its line feeds into rows, the
rows at the unindented ones into calls, the lines of a call at the keys in its column into
arguments, and the lines of a group at the opening braces into records. What is left of an
argument or a field is its key and the tokens of its value.
-/

namespace SpriteScript.Source

open Token

/-- Code that stays on its line and inside no quotes. -/
def Token.isInline : Token → Bool
  | sign c => c != '"' && c != '\\' && c != '\n'
  | quoted _ => true

/-- The characters of keys. -/
def isKeyChar (c : Char) : Bool :=
  c.isAlphanum || c == '_'

def TidyKey (key : String) : Prop :=
  (!key.toList.isEmpty && key.toList.all isKeyChar) = true

instance (key : String) : Decidable (TidyKey key) :=
  inferInstanceAs (Decidable (_ = true))

theorem tidyKey_iff {key : String} :
    TidyKey key ↔ key.toList ≠ [] ∧ ∀ c ∈ key.toList, isKeyChar c = true := by
  simp [TidyKey]

def Inline (pieces : List Piece) : Prop :=
  ∀ t ∈ tokens pieces, t.isInline = true

def Field.Tidy (field : Field) : Prop :=
  TidyKey field.key ∧ Inline field.value

def Content.Tidy : Content → Prop
  | inline value => Inline value
  | records items => ∀ item ∈ items, ∀ field ∈ item, field.Tidy

def Argument.Tidy (argument : Argument) : Prop :=
  TidyKey argument.key ∧ argument.content.Tidy

def Call.Tidy (call : Call) : Prop :=
  TidyKey call.constructor ∧ ∀ argument ∈ call.arguments, argument.Tidy

def Field.Alike (a b : Field) : Prop :=
  a.key = b.key ∧ tokens a.value = tokens b.value

def Content.Alike : Content → Content → Prop
  | inline a, inline b => tokens a = tokens b
  | records a, records b => List.Forall₂ (List.Forall₂ Field.Alike) a b
  | _, _ => False

def Argument.Alike (a b : Argument) : Prop :=
  a.key = b.key ∧ a.content.Alike b.content

/-- Two calls have the same keys and the same tokens under them. -/
structure Call.Alike (a b : Call) : Prop where
  constructor : a.constructor = b.constructor
  subject : a.subject = b.subject
  arguments : List.Forall₂ Argument.Alike a.arguments b.arguments

section Punctuate

variable {α β γ : Type} {between last : β}

theorem length_punctuate (xs : List α) : (punctuate between last xs).length = xs.length := by
  fun_induction punctuate between last xs <;> simp_all

theorem mem_punctuate {xs : List α} {x : α} {mark : β}
    (h : (x, mark) ∈ punctuate between last xs) : x ∈ xs ∧ (mark = between ∨ mark = last) := by
  fun_induction punctuate between last xs with
  | case1 => simp at h
  | case2 y => simp_all
  | case3 y z rest ih =>
      rw [List.mem_cons] at h
      obtain h | h := h
      · simp_all
      · exact ⟨List.mem_cons_of_mem _ (ih h).1, (ih h).2⟩

/-- The mark of an element depends only on how many follow it. -/
theorem punctuate_map_inj {f : α × β → γ} {xs ys : List α}
    (h : (punctuate between last xs).map f = (punctuate between last ys).map f) :
    List.Forall₂ (fun x y => ∃ mark, f (x, mark) = f (y, mark)) xs ys := by
  induction xs generalizing ys with
  | nil =>
      have empty := congrArg List.length h
      simp only [List.length_map, length_punctuate, List.length_nil] at empty
      rw [List.eq_nil_of_length_eq_zero empty.symm]
      exact .nil
  | cons x xs ih =>
      have length := congrArg List.length h
      simp only [List.length_map, length_punctuate] at length
      match xs, ys with
      | _, [] => simp at length
      | [], [y] =>
          simp only [punctuate, List.map_cons, List.cons.injEq] at h
          exact .cons ⟨last, h.1⟩ .nil
      | [], y :: y' :: ys => simp at length
      | x' :: xs, [y] => simp at length
      | x' :: xs, y :: y' :: ys =>
          simp only [punctuate, List.map_cons, List.cons.injEq] at h
          exact .cons ⟨between, h.1⟩ (ih h.2)

end Punctuate

def Line.content (line : Line) : Nat × List Token :=
  (line.depth, tokens line.pieces)

theorem keyed_tokens (key : String) (value : List Piece) (mark : Piece) :
    tokens (.code key :: .code ": " :: value ++ [mark]) =
      key.toList.map sign ++ sign ':' :: sign ' ' :: (tokens value ++ mark.tokens) := by
  simp [Piece.tokens]

theorem colon_notMem_key {key : String} (h : TidyKey key) : sign ':' ∉ key.toList.map sign := by
  simp only [List.mem_map, sign.injEq, exists_eq_right]
  intro mem
  exact absurd ((tidyKey_iff.mp h).2 _ mem) (by decide)

theorem keyed_inj {key key' : String} {value value' : List Piece} {mark : Piece}
    (hk : TidyKey key) (hk' : TidyKey key')
    (h : tokens (.code key :: .code ": " :: value ++ [mark]) =
      tokens (.code key' :: .code ": " :: value' ++ [mark])) :
    key = key' ∧ tokens value = tokens value' := by
  rw [keyed_tokens, keyed_tokens] at h
  obtain ⟨keys, rest⟩ := append_mark_inj (colon_notMem_key hk) (colon_notMem_key hk') h
  rw [List.map_inj_right (fun _ _ => sign.inj), String.toList_inj] at keys
  rw [List.cons.injEq, List.append_left_inj] at rest
  exact ⟨keys, rest.2⟩

theorem field_alike {a b : Field} {mark : Piece} (ha : a.Tidy) (hb : b.Tidy)
    (h : (a.line mark).content = (b.line mark).content) : a.Alike b :=
  keyed_inj ha.1 hb.1 (congrArg Prod.snd h)

theorem record_alike {a b : List Field} {mark : Piece} (ha : ∀ field ∈ a, field.Tidy)
    (hb : ∀ field ∈ b, field.Tidy)
    (h : (recordLines a mark).map Line.content = (recordLines b mark).map Line.content) :
    List.Forall₂ Field.Alike a b := by
  simp only [recordLines, List.map_append, List.map_cons, List.append_left_inj, List.cons.injEq,
    true_and, List.map_map] at h
  refine forall₂_imp_mem (punctuate_map_inj h) ?_
  intro x hx y hy eq
  obtain ⟨mark, eq⟩ := eq
  exact field_alike (ha x hx) (hb y hy) eq

theorem record_block (fields : List Field) (mark : Piece) :
    Block (fun row => row = (1, [sign '{'])) ((recordLines fields mark).map Line.content) := by
  refine ⟨(1, [sign '{']), _, rfl, rfl, ?_⟩
  intro row mem
  simp only [List.append_eq, List.map_append, List.map_map, List.mem_append, List.mem_map,
    List.map_cons, List.map_nil, List.mem_singleton] at mem
  obtain ⟨field, _, rfl⟩ | rfl := mem
  · simp [Line.content, Field.line]
  · simp [Line.content, Piece.tokens]

theorem records_alike {a b : List (List Field)} (ha : ∀ item ∈ a, ∀ field ∈ item, field.Tidy)
    (hb : ∀ item ∈ b, ∀ field ∈ item, field.Tidy)
    (h : ((punctuate (.code ",") (.code "") a).flatMap
        fun (item, mark) => recordLines item mark).map Line.content =
      ((punctuate (.code ",") (.code "") b).flatMap
        fun (item, mark) => recordLines item mark).map Line.content) :
    List.Forall₂ (List.Forall₂ Field.Alike) a b := by
  rw [List.map_flatMap, List.map_flatMap] at h
  have items := Block.flatMap_inj (fun item _ => record_block item.1 item.2)
    (fun item _ => record_block item.1 item.2) h
  refine forall₂_imp_mem (punctuate_map_inj items) ?_
  intro x hx y hy eq
  obtain ⟨mark, eq⟩ := eq
  exact record_alike (ha x hx) (hb y hy) eq

theorem argument_alike {a b : Argument} {mark : Piece} (ha : a.Tidy) (hb : b.Tidy)
    (h : (a.lines mark).map Line.content = (b.lines mark).map Line.content) : a.Alike b := by
  obtain ⟨key, content⟩ := a
  obtain ⟨key', content'⟩ := b
  have length := congrArg List.length h
  cases content with
  | inline value =>
      cases content' with
      | inline value' =>
          simp only [Argument.lines, List.map_cons, List.cons.injEq] at h
          exact keyed_inj ha.1 hb.1 (congrArg Prod.snd h.1)
      | records items' => simp [Argument.lines] at length
  | records items =>
      cases content' with
      | inline value' => simp [Argument.lines] at length
      | records items' =>
          simp only [Argument.lines, List.cons_append, List.map_cons, List.map_append,
            List.cons.injEq, List.append_left_inj] at h
          refine ⟨?_, records_alike ha.2 hb.2 h.2⟩
          have keys := congrArg Prod.snd h.1
          simp only [Line.content, tokens_cons, Piece.tokens, List.append_left_inj] at keys
          rwa [List.map_inj_right (fun _ _ => sign.inj), String.toList_inj] at keys

def StartsWithKey (row : List Token) : Prop :=
  ∃ c, row.head? = some (sign c) ∧ isKeyChar c = true

theorem startsWithKey_key {key : String} (h : TidyKey key) (rest : List Token) :
    StartsWithKey (key.toList.map sign ++ rest) := by
  obtain ⟨nonempty, all⟩ := tidyKey_iff.mp h
  cases list : key.toList with
  | nil => exact absurd list nonempty
  | cons c cs => exact ⟨c, rfl, all c (by simp [list])⟩

/-- A key in the column of the arguments. -/
def StartsArgument (row : Nat × List Token) : Prop :=
  row.1 = 0 ∧ StartsWithKey row.2

theorem depth_of_mem_recordLines {fields : List Field} {mark : Piece} {line : Line}
    (h : line ∈ recordLines fields mark) : line.depth ≠ 0 := by
  simp only [recordLines, List.cons_append, List.mem_cons, List.mem_append, List.mem_map,
    List.not_mem_nil, or_false] at h
  obtain rfl | ⟨field, _, rfl⟩ | rfl := h <;> simp [Field.line]

theorem argument_block {argument : Argument} (tidy : argument.Tidy) (mark : Piece) :
    Block StartsArgument ((argument.lines mark).map Line.content) := by
  obtain ⟨key, content⟩ := argument
  cases content with
  | inline value =>
      refine ⟨_, [], rfl, ?_, by simp⟩
      rw [Line.content, keyed_tokens]
      exact ⟨rfl, startsWithKey_key tidy.1 _⟩
  | records items =>
      refine ⟨_, _, rfl, ?_, ?_⟩
      · exact ⟨rfl, startsWithKey_key tidy.1 _⟩
      · rintro row mem ⟨depth, c, head, key⟩
        simp only [List.append_eq, List.map_append, List.mem_append, List.mem_map,
          List.mem_flatMap, List.mem_singleton] at mem
        obtain ⟨line, ⟨item, _, mem⟩, rfl⟩ | ⟨line, rfl, rfl⟩ := mem
        · exact depth_of_mem_recordLines mem depth
        · obtain rfl : ']' = c := by simpa [Line.content, Piece.tokens] using head
          exact absurd key (by decide)

theorem inline_nil : Inline [] := by
  simp [Inline]

theorem inline_cons {piece : Piece} {pieces : List Piece} :
    Inline (piece :: pieces) ↔ (∀ t ∈ piece.tokens, t.isInline = true) ∧ Inline pieces := by
  simp only [Inline, tokens_cons, List.mem_append, or_imp, forall_and]

theorem inline_append {pieces pieces' : List Piece} :
    Inline (pieces ++ pieces') ↔ Inline pieces ∧ Inline pieces' := by
  simp only [Inline, tokens_append, List.mem_append, or_imp, forall_and]

theorem sign_inline {p : Char → Bool} {c : Char} (h : p c = true)
    (special : p '"' = false ∧ p '\\' = false ∧ p '\n' = false) : (sign c).isInline = true := by
  obtain ⟨quote, backslash, feed⟩ := special
  simp only [isInline, Bool.and_eq_true, bne_iff_ne, ne_eq]
  refine ⟨⟨?_, ?_⟩, ?_⟩ <;> rintro rfl <;> simp_all

theorem code_inline {p : Char → Bool} {s : String} (h : ∀ c ∈ s.toList, p c = true)
    (special : p '"' = false ∧ p '\\' = false ∧ p '\n' = false) : Inline [.code s] := by
  refine inline_cons.mpr ⟨?_, inline_nil⟩
  simp only [Piece.tokens, List.mem_map, forall_exists_index, and_imp, forall_apply_eq_imp_iff₂]
  exact fun c mem => sign_inline (h c mem) special

/-- A line without line feeds that does not begin with a blank. -/
structure Line.Tidy (line : Line) : Prop where
  inline : Inline line.pieces
  flush : ∀ t ∈ (tokens line.pieces).head?, t ≠ sign ' '

theorem line_tidy {start : String} {rest : List Piece} (depth : Nat)
    (hs : ∀ t ∈ (Piece.code start).tokens, t.isInline = true ∧ t ≠ sign ' ')
    (nonempty : (Piece.code start).tokens ≠ []) (hr : Inline rest) :
    Line.Tidy ⟨depth, .code start :: rest⟩ where
  inline := inline_cons.mpr ⟨fun t mem => (hs t mem).1, hr⟩
  flush := by
    intro t mem
    rw [tokens_cons, List.head?_append_of_ne_nil _ nonempty] at mem
    exact (hs t (List.mem_of_mem_head? mem)).2

theorem key_line_tidy {key : String} {rest : List Piece} (depth : Nat) (tidy : TidyKey key)
    (hr : Inline rest) : Line.Tidy ⟨depth, .code key :: rest⟩ := by
  obtain ⟨nonempty, all⟩ := tidyKey_iff.mp tidy
  refine line_tidy depth ?_ (by simpa [Piece.tokens] using nonempty) hr
  simp only [Piece.tokens, List.mem_map, forall_exists_index, and_imp,
    forall_apply_eq_imp_iff₂]
  intro c mem
  have key := all c mem
  refine ⟨sign_inline key (by decide), ?_⟩
  rintro ⟨⟩
  exact absurd key (by decide)

theorem inline_singleton {piece : Piece} (h : ∀ t ∈ piece.tokens, t.isInline = true) :
    Inline [piece] :=
  inline_cons.mpr ⟨h, inline_nil⟩

theorem keyed_line_tidy {key : String} {value : List Piece} {mark : Piece} (depth : Nat)
    (tidy : TidyKey key) (hv : Inline value) (hm : ∀ t ∈ mark.tokens, t.isInline = true) :
    Line.Tidy ⟨depth, .code key :: .code ": " :: value ++ [mark]⟩ :=
  key_line_tidy depth tidy
    (inline_cons.mpr ⟨by decide, inline_append.mpr ⟨hv, inline_singleton hm⟩⟩)

theorem inline_of_mem_punctuate {α : Type} {between last : String} {xs : List α} {x : α}
    {mark : Piece} (h : (x, mark) ∈ punctuate (.code between) (.code last) xs)
    (hb : ∀ t ∈ (Piece.code between).tokens, t.isInline = true)
    (hl : ∀ t ∈ (Piece.code last).tokens, t.isInline = true) :
    ∀ t ∈ mark.tokens, t.isInline = true := by
  obtain rfl | rfl := (mem_punctuate h).2
  · exact hb
  · exact hl

theorem recordLines_tidy {fields : List Field} {mark : Piece} (tidy : ∀ field ∈ fields, field.Tidy)
    (hm : ∀ t ∈ mark.tokens, t.isInline = true) : ∀ line ∈ recordLines fields mark, line.Tidy := by
  intro line mem
  simp only [recordLines, List.cons_append, List.mem_cons, List.mem_append, List.mem_map,
    List.not_mem_nil, or_false] at mem
  obtain rfl | ⟨⟨field, mark'⟩, mem, rfl⟩ | rfl := mem
  · exact line_tidy 1 (by decide) (by decide) inline_nil
  · have tidy := tidy field (mem_punctuate mem).1
    exact keyed_line_tidy 2 tidy.1 tidy.2 (inline_of_mem_punctuate mem (by decide) (by decide))
  · exact line_tidy 1 (by decide) (by decide) (inline_singleton hm)

theorem Argument.lines_tidy {argument : Argument} {mark : Piece} (tidy : argument.Tidy)
    (hm : ∀ t ∈ mark.tokens, t.isInline = true) : ∀ line ∈ argument.lines mark, line.Tidy := by
  obtain ⟨key, content⟩ := argument
  intro line mem
  cases content with
  | inline value =>
      rw [List.mem_singleton.mp mem]
      exact keyed_line_tidy 0 tidy.1 tidy.2 hm
  | records items =>
      simp only [Argument.lines, List.cons_append, List.mem_cons, List.mem_append,
        List.mem_flatMap, List.not_mem_nil, or_false] at mem
      obtain rfl | ⟨⟨item, mark'⟩, mem, line⟩ | rfl := mem
      · exact key_line_tidy 0 tidy.1 (inline_singleton (by decide))
      · exact recordLines_tidy (tidy.2 item (mem_punctuate mem).1)
          (inline_of_mem_punctuate mem (by decide) (by decide)) _ line
      · exact line_tidy 0 (by decide) (by decide) (inline_singleton hm)

theorem Call.lines_tidy {call : Call} (tidy : call.Tidy) : ∀ line ∈ call.lines, line.Tidy := by
  intro line mem
  simp only [Call.lines, List.mem_flatMap] at mem
  obtain ⟨⟨argument, mark⟩, mem, line⟩ := mem
  exact Argument.lines_tidy (tidy.2 argument (mem_punctuate mem).1)
    (inline_of_mem_punctuate mem (by decide) (by decide)) _ line

/-- The tokens of a line with its indentation. -/
def Call.row (column : Nat) (line : Line) : List Token :=
  List.replicate (column + 2 * line.depth) (sign ' ') ++ tokens line.pieces

def Call.rows (call : Call) : List (List Token) :=
  tokens call.head :: call.lines.map (Call.row call.column)

theorem tokens_linePieces (column : Nat) (line : Line) :
    tokens (Call.linePieces column line) = sign '\n' :: Call.row column line := by
  simp [Call.linePieces, Call.row, Piece.tokens]

theorem tokens_call (call : Call) :
    sign '\n' :: tokens call.pieces = call.rows.flatMap (sign '\n' :: ·) := by
  have below (lines : List Line) : tokens (lines.flatMap (Call.linePieces call.column)) =
      (lines.map (Call.row call.column)).flatMap (sign '\n' :: ·) := by
    induction lines with
    | nil => rfl
    | cons line lines ih =>
        simp only [List.flatMap_cons, tokens_append, tokens_linePieces, List.map_cons, ih]
  simp only [Call.pieces, tokens_append, below, Call.rows, List.flatMap_cons, List.cons_append]

theorem row_content {column : Nat} {a b : Line} (ha : a.Tidy) (hb : b.Tidy)
    (h : Call.row column a = Call.row column b) : a.content = b.content := by
  have blank (n : Nat) : ∀ t ∈ List.replicate n (sign ' '), ¬ t ≠ sign ' ' := by
    intro t mem
    rw [List.eq_of_mem_replicate mem]
    exact not_not.mpr rfl
  obtain ⟨indent, content⟩ := unmarked_append_inj (blank _) (blank _) ha.flush hb.flush h
  have depth := congrArg List.length indent
  simp only [List.length_replicate] at depth
  exact Prod.ext (show a.depth = b.depth by omega) content

theorem rows_content {column : Nat} {as bs : List Line} (ha : ∀ line ∈ as, line.Tidy)
    (hb : ∀ line ∈ bs, line.Tidy) (h : as.map (Call.row column) = bs.map (Call.row column)) :
    as.map Line.content = bs.map Line.content := by
  rw [map_eq_map_iff] at h ⊢
  exact forall₂_imp_mem h fun a ma b mb eq => row_content (ha a ma) (hb b mb) eq

theorem arguments_alike {a b : Call} (ha : a.Tidy) (hb : b.Tidy)
    (h : a.lines.map Line.content = b.lines.map Line.content) :
    List.Forall₂ Argument.Alike a.arguments b.arguments := by
  have block {call : Call} (tidy : call.Tidy) :
      ∀ marked ∈ punctuate (.code ",") (.code ")") call.arguments,
        Block StartsArgument ((marked.1.lines marked.2).map Line.content) :=
    fun marked mem => argument_block (tidy.2 _ (mem_punctuate mem).1) _
  rw [Call.lines, Call.lines, List.map_flatMap, List.map_flatMap] at h
  have marked := Block.flatMap_inj (block ha) (block hb) h
  refine forall₂_imp_mem (punctuate_map_inj marked) ?_
  intro x hx y hy eq
  obtain ⟨mark, eq⟩ := eq
  exact argument_alike (ha.2 x hx) (hb.2 y hy) eq

theorem tokens_head (call : Call) :
    ∃ rest, tokens call.head = call.opening.toList.map sign ++ quoted call.subject :: rest := by
  simp only [Call.head, tokens_cons, Piece.tokens]
  exact ⟨_, rfl⟩

theorem call_alike {a b : Call} (ha : a.Tidy) (hb : b.Tidy) (h : a.rows = b.rows) :
    a.Alike b := by
  simp only [Call.rows, List.cons.injEq] at h
  obtain ⟨head, below⟩ := h
  obtain ⟨rest, ra⟩ := tokens_head a
  obtain ⟨rest', rb⟩ := tokens_head b
  rw [ra, rb] at head
  have code (s : String) : ∀ t ∈ s.toList.map sign, ¬ ∃ value, t = quoted value := by
    simp
  obtain ⟨opening, first⟩ := unmarked_append_inj (code _) (code _) (by simp) (by simp) head
  rw [List.map_inj_right (fun _ _ => sign.inj), String.toList_inj] at opening
  have column : a.column = b.column := congrArg String.length opening
  rw [column] at below
  refine ⟨?_, ?_, arguments_alike ha hb
    (rows_content (Call.lines_tidy ha) (Call.lines_tidy hb) below)⟩
  · simpa [Call.opening, ← String.toList_inj] using opening
  · simpa using (List.cons.inj first).1

/-- Calls a blank line apart. -/
def document (calls : List Call) : List Piece :=
  List.intercalate [.code "\n\n"] (calls.map Call.pieces) ++ [.code "\n"]

/-- The rows of a call with the blank line, or the end of the source, behind it. -/
def Call.rowsWithEnd (call : Call) : List (List Token) :=
  call.rows ++ [[]]

theorem tokens_document (call : Call) (calls : List Call) :
    sign '\n' :: tokens (document (call :: calls)) =
      ((call :: calls).flatMap Call.rowsWithEnd).flatMap (sign '\n' :: ·) := by
  have feed : Piece.tokens (.code "\n") = [sign '\n'] := rfl
  have feeds : Piece.tokens (.code "\n\n") = [sign '\n', sign '\n'] := rfl
  induction calls generalizing call with
  | nil =>
      simp only [document, List.map_cons, List.map_nil, List.intercalate_singleton, tokens_append,
        tokens_cons, tokens_nil, feed, List.append_nil, List.flatMap_cons, List.flatMap_nil,
        Call.rowsWithEnd, List.flatMap_append, ← tokens_call, List.cons_append]
  | cons next calls ih =>
      have rest := ih next
      simp only [document, List.map_cons, List.intercalate_cons_cons, tokens_append,
        tokens_cons, tokens_nil, feed, feeds] at rest ⊢
      rw [List.flatMap_cons, List.flatMap_append, ← rest]
      simp [Call.rowsWithEnd, ← tokens_call]

theorem tokens_head_parts (call : Call) :
    ∃ mark, (mark = .code ")" ∨ mark = .code ",") ∧
      tokens call.head =
        tokens [.code call.constructor, .code ".new(", .quoted call.subject, mark] := by
  refine ⟨.code (if call.arguments.isEmpty then ")" else ","), ?_, ?_⟩
  · cases call.arguments.isEmpty <;> simp
  · simp [Call.head, Call.opening, Piece.tokens]

theorem Call.head_inline {call : Call} (tidy : call.Tidy) : Inline call.head := by
  obtain ⟨mark, kinds, parts⟩ := tokens_head_parts call
  have mark_inline : ∀ t ∈ mark.tokens, t.isInline = true := by
    obtain rfl | rfl := kinds <;> decide
  have rest : Inline [.code ".new(", .quoted call.subject, mark] := by
    refine inline_cons.mpr ⟨by decide, inline_cons.mpr ⟨?_, inline_singleton mark_inline⟩⟩
    simp [Piece.tokens, isInline]
  rw [Inline, parts]
  exact (key_line_tidy 0 tidy.1 rest).inline

theorem Call.rows_inline {call : Call} (tidy : call.Tidy) :
    ∀ row ∈ call.rows, ∀ t ∈ row, t.isInline = true := by
  intro row mem
  simp only [Call.rows, List.mem_cons, List.mem_map] at mem
  obtain rfl | ⟨line, mem, rfl⟩ := mem
  · exact Call.head_inline tidy
  · intro t mem'
    simp only [Call.row, List.mem_append] at mem'
    obtain blank | mem' := mem'
    · rw [List.eq_of_mem_replicate blank]
      decide
    · exact (Call.lines_tidy tidy line mem).inline t mem'

theorem Call.head_startsWithKey {call : Call} (tidy : call.Tidy) :
    StartsWithKey (tokens call.head) := by
  obtain ⟨mark, _, parts⟩ := tokens_head_parts call
  rw [parts]
  exact startsWithKey_key tidy.1 _

/-- Only the first row of a call is not indented. -/
theorem Call.rows_block {call : Call} (tidy : call.Tidy) :
    Block StartsWithKey call.rowsWithEnd := by
  refine ⟨_, _, rfl, Call.head_startsWithKey tidy, ?_⟩
  rintro row mem ⟨c, head, key⟩
  simp only [List.append_eq, List.mem_append, List.mem_map, List.mem_singleton] at mem
  obtain ⟨line, _, rfl⟩ | rfl := mem
  · have column : call.column + 2 * line.depth = call.column + 2 * line.depth - 1 + 1 := by
      have opening : call.column = call.constructor.length + 5 := by
        rw [Call.column, Call.opening, String.length_append]
        rfl
      omega
    rw [Call.row, column, List.replicate_succ] at head
    obtain rfl : ' ' = c := by simpa using head
    exact absurd key (by decide)
  · simp at head

theorem feed_block {row : List Token} (inline : ∀ t ∈ row, t.isInline = true) :
    Block (fun t => t = sign '\n') (sign '\n' :: row) := by
  refine ⟨_, row, rfl, rfl, ?_⟩
  rintro t mem rfl
  exact absurd (inline _ mem) (by decide)

theorem Call.rowsWithEnd_inline {calls : List Call} (tidy : ∀ call ∈ calls, call.Tidy) :
    ∀ row ∈ calls.flatMap Call.rowsWithEnd, ∀ t ∈ row, t.isInline = true := by
  intro row mem
  simp only [List.mem_flatMap, Call.rowsWithEnd, List.mem_append, List.mem_singleton] at mem
  obtain ⟨call, mem, rows | rfl⟩ := mem
  · exact Call.rows_inline (tidy call mem) row rows
  · simp

theorem isPlain_of_isInline {t : Token} (h : t.isInline = true) : t.isPlain = true := by
  cases t with
  | sign c =>
      simp only [isInline, Bool.and_eq_true] at h
      simpa only [isPlain, Bool.and_eq_true] using h.1
  | quoted value => rfl

theorem document_plain {calls : List Call} (tidy : ∀ call ∈ calls, call.Tidy) :
    ∀ t ∈ tokens (document calls), t.isPlain = true := by
  cases calls with
  | nil => decide
  | cons call calls =>
      intro t mem
      have mem := List.mem_cons_of_mem (sign '\n') mem
      rw [tokens_document, List.mem_flatMap] at mem
      obtain ⟨row, rows, mem⟩ := mem
      rw [List.mem_cons] at mem
      obtain rfl | mem := mem
      · decide
      · exact isPlain_of_isInline (Call.rowsWithEnd_inline tidy row rows t mem)

theorem document_cons_ne_nil {call : Call} (calls : List Call) (tidy : call.Tidy) :
    tokens (document (call :: calls)) ≠ tokens (document []) := by
  intro h
  have first := tokens_document call calls
  simp only [h, List.flatMap_cons, Call.rowsWithEnd, Call.rows, List.cons_append,
    List.cons.injEq, true_and, List.append_assoc] at first
  obtain ⟨c, head, key⟩ := Call.head_startsWithKey tidy
  have start := congrArg List.head? first
  rw [List.head?_append, head] at start
  obtain rfl : '\n' = c := by simpa [document, Piece.tokens] using start
  exact absurd key (by decide)

/-- Tidy calls are known from the text of their document. -/
theorem calls_alike {as bs : List Call} (ha : ∀ call ∈ as, call.Tidy)
    (hb : ∀ call ∈ bs, call.Tidy) (h : text (document as) = text (document bs)) :
    List.Forall₂ Call.Alike as bs := by
  have same := tokens_eq_of_text_eq (document_plain ha) (document_plain hb) h
  match as, bs with
  | [], [] => exact .nil
  | [], b :: bs => exact absurd same.symm (document_cons_ne_nil bs (hb b List.mem_cons_self))
  | a :: as, [] => exact absurd same (document_cons_ne_nil as (ha a List.mem_cons_self))
  | a :: as, b :: bs =>
      have lines := congrArg (sign '\n' :: ·) same
      simp only [tokens_document] at lines
      have rows := Block.flatMap_inj
        (fun row mem => feed_block (Call.rowsWithEnd_inline ha row mem))
        (fun row mem => feed_block (Call.rowsWithEnd_inline hb row mem)) lines
      rw [List.map_inj_right (fun _ _ => List.tail_eq_of_cons_eq)] at rows
      have calls := Block.flatMap_inj (fun call mem => Call.rows_block (ha call mem))
        (fun call mem => Call.rows_block (hb call mem)) rows
      refine forall₂_imp_mem (map_eq_map_iff.mp calls) ?_
      intro x hx y hy eq
      exact call_alike (ha x hx) (hb y hy) (List.append_cancel_right eq)

end SpriteScript.Source

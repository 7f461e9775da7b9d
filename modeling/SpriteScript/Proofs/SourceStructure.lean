import SpriteScript.Proofs.LiteralScan
import SpriteScript.Proofs.Unambiguity

/-!
The structure of a project's source does not depend on its texts. When the backslashes of all
texts come in pairs in front of quotes and at ends, a scan of the source finds just the texts that
are written, in order, and what is left without them is the same as for the project whose texts
are all empty: no name can close a call, add an argument or hide a line.
-/

namespace SpriteScript

def Literal.texts : Literal → List String
  | text value => [value]
  | _ => []

def Costume.texts (costume : Costume) : List String :=
  [costume.assetId, costume.name, costume.md5, costume.dataFormat]

def Entry.texts : Entry → List String
  | scalar name value => name :: value.texts
  | list name items => name :: items.flatMap Literal.texts

/-- The texts that a target is made of. Ids are not among them: they are not written. -/
def Entity.texts (entity : Entity) : List String :=
  entity.name :: entity.costumes.flatMap Costume.texts ++ entity.entries.values.flatMap Entry.texts

/-- The texts that the source of a target quotes, in order: its own ones, variables before lists,
and the name of its rotation style unless that is the default. -/
def Entity.quotedTexts (entity : Entity) : List String :=
  entity.name :: entity.costumes.flatMap Costume.texts ++
    (if entity.rotationStyle = .allAround then [] else [entity.rotationStyle.name]) ++
    (entity.entriesOf .scalar).flatMap Entry.texts ++ (entity.entriesOf .list).flatMap Entry.texts

def Literal.emptied : Literal → Literal
  | text _ => text ""
  | value => value

def Costume.emptied (costume : Costume) : Costume :=
  { costume with assetId := "", name := "", md5 := "", dataFormat := "" }

def Entry.emptied : Entry → Entry
  | scalar _ value => scalar "" value.emptied
  | list _ items => list "" (items.map Literal.emptied)

/-- The target with every text replaced by the empty one. -/
def Entity.emptied (entity : Entity) : Entity :=
  { entity with
    name := ""
    costumes := entity.costumes.map Costume.emptied
    entries := entity.entries.map fun (id, entry) => (id, entry.emptied) }

def Project.emptied (project : Project) : Project :=
  ⟨project.targets.map Entity.emptied⟩

theorem Project.select_emptied {project : Project} {targets : List Entity}
    (selected : project.select none = .ok targets) :
    project.emptied.select none = .ok (targets.map Entity.emptied) := by
  have role : (fun target : Entity => target.isStage) ∘ Entity.emptied = fun target =>
      target.isStage := rfl
  have other : (fun target : Entity => !target.isStage) ∘ Entity.emptied = fun target =>
      !target.isStage := rfl
  simp only [select, Except.ok.injEq] at selected ⊢
  rw [← selected]
  simp only [stage?, sprites, emptied, List.find?_map, List.filter_map, role, other,
    Option.toList_map, List.map_append]

namespace Source

open Token

def Piece.quotes : Piece → List String
  | code _ => []
  | quoted text => [text]

def quotes (pieces : List Piece) : List String :=
  pieces.flatMap Piece.quotes

@[simp] theorem quotes_nil : quotes [] = [] := rfl

@[simp] theorem quotes_code (text : String) (pieces : List Piece) :
    quotes (.code text :: pieces) = quotes pieces := rfl

@[simp] theorem quotes_quoted (text : String) (pieces : List Piece) :
    quotes (.quoted text :: pieces) = text :: quotes pieces := rfl

@[simp] theorem quotes_append (pieces pieces' : List Piece) :
    quotes (pieces ++ pieces') = quotes pieces ++ quotes pieces' :=
  List.flatMap_append

theorem quotes_flatMap {α : Type} (f : α → List Piece) (xs : List α) :
    quotes (xs.flatMap f) = xs.flatMap fun x => quotes (f x) :=
  List.flatMap_assoc

theorem quotes_intercalate (separator : String) (parts : List (List Piece)) :
    quotes (List.intercalate [.code separator] parts) = parts.flatMap quotes := by
  induction parts with
  | nil => rfl
  | cons part parts ih =>
      cases parts with
      | nil => simp
      | cons next parts =>
          rw [List.intercalate_cons_cons, List.flatMap_cons, ← ih]
          simp

theorem contents_tokens (pieces : List Piece) :
    (tokens pieces).flatMap contents = (quotes pieces).map fun text => escape text.toList := by
  induction pieces with
  | nil => rfl
  | cons piece pieces ih =>
      cases piece with
      | code text =>
          have none : (Piece.code text).tokens.flatMap contents = [] := by
            simp [Piece.tokens, contents, List.flatMap_eq_nil_iff]
          rw [tokens_cons, List.flatMap_append, none, quotes_code]
          exact ih
      | quoted text => simpa [Piece.tokens, contents] using ih

theorem quoted_mem_tokens {text : String} {pieces : List Piece} (h : quoted text ∈ tokens pieces) :
    text ∈ quotes pieces := by
  obtain ⟨piece, mem, token⟩ := List.mem_flatMap.mp h
  refine List.mem_flatMap.mpr ⟨piece, mem, ?_⟩
  cases piece with
  | code code => simp [Piece.tokens] at token
  | quoted text => simpa [Piece.tokens, Piece.quotes] using token

theorem tokens_scannable {pieces : List Piece} (plain : ∀ t ∈ tokens pieces, t.isPlain = true)
    (even : ∀ text ∈ quotes pieces, EvenRuns text.toList) :
    ∀ t ∈ tokens pieces, t.IsScannable := by
  intro t mem
  cases t with
  | sign c => exact plain _ mem
  | quoted text => exact even text (quoted_mem_tokens mem)

def Content.quotes : Content → List String
  | inline value => Source.quotes value
  | records items =>
    items.flatMap fun fields => fields.flatMap fun field => Source.quotes field.value

theorem flatMap_punctuate {α β γ : Type} {between last : β} {f : α × β → List γ} {g : α → List γ}
    (hb : ∀ x, f (x, between) = g x) (hl : ∀ x, f (x, last) = g x) (xs : List α) :
    (punctuate between last xs).flatMap f = xs.flatMap g := by
  fun_induction punctuate between last xs with
  | case1 => rfl
  | case2 x => simp [hl]
  | case3 x y rest ih => rw [List.flatMap_cons, hb, ih, ← List.flatMap_cons]

theorem quotes_recordLines (fields : List Field) (mark : String) :
    (recordLines fields (.code mark)).flatMap (fun line => quotes line.pieces) =
      fields.flatMap fun field => quotes field.value := by
  have line (field : Field) (mark : String) :
      quotes (field.line (.code mark)).pieces = quotes field.value := by
    simp [Field.line]
  simp only [recordLines, List.cons_append, List.flatMap_cons, List.flatMap_append,
    List.flatMap_map, quotes_code, quotes_nil, List.nil_append, List.flatMap_nil, List.append_nil]
  exact flatMap_punctuate (fun field => line field _) (fun field => line field _) fields

theorem quotes_argumentLines (argument : Argument) (mark : String) :
    (argument.lines (.code mark)).flatMap (fun line => quotes line.pieces) =
      argument.content.quotes := by
  obtain ⟨key, content⟩ := argument
  cases content with
  | inline value => simp [Argument.lines, Content.quotes]
  | records items =>
      simp only [Argument.lines, Content.quotes, List.cons_append, List.flatMap_cons,
        List.flatMap_append, List.flatMap_assoc, quotes_code, quotes_nil, List.nil_append,
        List.flatMap_nil, List.append_nil]
      exact flatMap_punctuate (fun item => quotes_recordLines item _)
        (fun item => quotes_recordLines item _) items

theorem quotes_call (call : Call) :
    quotes call.pieces =
      call.subject :: call.arguments.flatMap fun argument => argument.content.quotes := by
  have line (line : Line) : quotes (Call.linePieces call.column line) = quotes line.pieces := rfl
  simp only [Call.pieces, Call.head, Call.lines, quotes_append, quotes_code, quotes_quoted,
    quotes_nil, quotes_flatMap, line, List.flatMap_assoc, List.singleton_append]
  rw [flatMap_punctuate (fun argument => quotes_argumentLines argument _)
    (fun argument => quotes_argumentLines argument _)]

theorem quotes_document (calls : List Call) :
    quotes (document calls) = calls.flatMap fun call => quotes call.pieces := by
  simp [document, quotes_intercalate, List.flatMap_map]

theorem quotes_scalar (value : Literal) : quotes (scalarPieces value) = value.texts := by
  cases value <;> rfl

theorem quotes_sequence (items : List Literal) :
    quotes (sequencePieces items) = items.flatMap Literal.texts := by
  simp [sequencePieces, quotes_intercalate, List.flatMap_map, quotes_scalar]

theorem quotes_costumeRecord (costume : Costume) :
    (costumeRecord costume).flatMap (fun field => quotes field.value) = costume.texts := rfl

/-- A value that is left out holds no text. -/
theorem quotes_entryRecord (entry : Entry) :
    (entryRecord entry).flatMap (fun field => quotes field.value) = entry.texts := by
  cases entry with
  | scalar name value =>
      by_cases default : (Entry.scalar name value).isDefault = true
      · cases value with
        | number value =>
            simp [entryRecord, textField, default, Entry.texts, Entry.name, Literal.texts]
        | text value => simp [Entry.isDefault, Literal.same, Literal.zero] at default
        | bool value => simp [Entry.isDefault, Literal.same, Literal.zero] at default
      · simp [entryRecord, textField, default, Entry.texts, Entry.name, entryValue, quotes_scalar]
  | list name items =>
      cases items with
      | nil => rfl
      | cons item items =>
          simp [entryRecord, textField, Entry.isDefault, Entry.texts, Entry.name, entryValue,
            quotes_sequence]

theorem quotes_numberArgument (key : String) (default value : Binary64) :
    (numberArgument key default value).flatMap (fun argument => argument.content.quotes) = [] := by
  cases same : value.same default <;> simp [numberArgument, same, Content.quotes]

theorem quotes_recordsArgument {α : Type} (key : String) (xs : List α) {record : α → List Field}
    {texts : α → List String}
    (h : ∀ x, (record x).flatMap (fun field => quotes field.value) = texts x) :
    (recordsArgument key (xs.map record)).flatMap (fun argument => argument.content.quotes) =
      xs.flatMap texts := by
  cases xs with
  | nil => rfl
  | cons x xs => simp [recordsArgument, Content.quotes, List.flatMap_map, h]

theorem quotes_entity (entity : Entity) : quotes (call entity).pieces = entity.quotedTexts := by
  have visible : (if entity.visible then []
      else [(⟨"visible", .inline [.code (bool entity.visible)]⟩ : Argument)]).flatMap
        (fun argument => argument.content.quotes) = [] := by
    cases entity.visible <;> rfl
  have index (n : Nat) : (if n = 0 then []
      else [(⟨"current_costume", .inline [.code (Nat.repr n)]⟩ : Argument)]).flatMap
        (fun argument => argument.content.quotes) = [] := by
    by_cases zero : n = 0 <;> simp [zero, Content.quotes]
  have rotation : (if entity.rotationStyle = .allAround then []
      else [(⟨"rotation_style", .inline [.quoted entity.rotationStyle.name]⟩ : Argument)]).flatMap
        (fun argument => argument.content.quotes) =
      if entity.rotationStyle = .allAround then [] else [entity.rotationStyle.name] := by
    cases entity.rotationStyle <;> rfl
  rw [quotes_call]
  simp only [call, arguments, List.flatMap_append, quotes_numberArgument, visible, index, rotation,
    quotes_recordsArgument _ _ quotes_costumeRecord, quotes_recordsArgument _ _ quotes_entryRecord,
    List.nil_append, Entity.quotedTexts, List.cons_append]

theorem mem_quotedTexts {entity : Entity} {text : String} (h : text ∈ entity.quotedTexts) :
    text ∈ entity.texts ∨ ∃ style : RotationStyle, text = style.name := by
  have entries (kind : Kind) (mem : text ∈ (entity.entriesOf kind).flatMap Entry.texts) :
      text ∈ entity.texts := by
    obtain ⟨entry, inKind, mem⟩ := List.mem_flatMap.mp mem
    have inEntries := List.mem_of_mem_filter inKind
    exact List.mem_append_right _ (List.mem_flatMap.mpr ⟨entry, inEntries, mem⟩)
  simp only [Entity.quotedTexts, List.mem_append] at h
  obtain ((own | rotation) | scalars) | lists := h
  · exact .inl (List.mem_append_left _ own)
  · by_cases default : entity.rotationStyle = .allAround
    · simp [default] at rotation
    · rw [if_neg default, List.mem_singleton] at rotation
      exact .inr ⟨entity.rotationStyle, rotation⟩
  · exact .inl (entries .scalar scalars)
  · exact .inl (entries .list lists)

theorem evenRuns_quotedTexts {entity : Entity}
    (even : ∀ text ∈ entity.texts, EvenRuns text.toList) :
    ∀ text ∈ entity.quotedTexts, EvenRuns text.toList := by
  intro text mem
  obtain own | ⟨style, rfl⟩ := mem_quotedTexts mem
  · exact even text own
  · cases style <;> decide

def Piece.hollow : Piece → Piece
  | code text => code text
  | quoted _ => quoted ""

def Field.hollow (field : Field) : Field :=
  ⟨field.key, field.value.map Piece.hollow⟩

def Content.hollow : Content → Content
  | inline value => inline (value.map Piece.hollow)
  | records items => records (items.map (List.map Field.hollow))

def Argument.hollow (argument : Argument) : Argument :=
  ⟨argument.key, argument.content.hollow⟩

def Line.hollow (line : Line) : Line :=
  ⟨line.depth, line.pieces.map Piece.hollow⟩

/-- The same call around empty texts. -/
def Call.hollow (call : Call) : Call :=
  ⟨call.constructor, "", call.arguments.map Argument.hollow⟩

theorem tokens_hollow (pieces : List Piece) :
    (tokens pieces).map Token.hollow = tokens (pieces.map Piece.hollow) := by
  induction pieces with
  | nil => rfl
  | cons piece pieces ih =>
      rw [tokens_cons, List.map_append, List.map_cons, tokens_cons, ih]
      cases piece <;> simp [Piece.hollow, Piece.tokens, Token.hollow]

/-- Marks depend on places only, so they stay when the elements change. -/
theorem punctuate_map {α β γ : Type} (between last : β) (f : α → γ) (xs : List α) :
    punctuate between last (xs.map f) =
      (punctuate between last xs).map fun marked => (f marked.1, marked.2) := by
  fun_induction punctuate between last xs with
  | case1 | case2 => rfl
  | case3 x y rest ih =>
      simp only [List.map_cons] at ih ⊢
      rw [punctuate, ih]

theorem flatMap_punctuate_congr {α β : Type} {between last : String}
    {f g : α × Piece → List β} (same : ∀ x mark, f (x, .code mark) = g (x, .code mark))
    (xs : List α) :
    (punctuate (.code between) (.code last) xs).flatMap f =
      (punctuate (.code between) (.code last) xs).flatMap g := by
  apply List.flatMap_congr
  rintro ⟨x, mark⟩ mem
  obtain rfl | rfl := (mem_punctuate mem).2
  · exact same x between
  · exact same x last

theorem recordLines_hollow (fields : List Field) (mark : String) :
    (recordLines fields (.code mark)).map Line.hollow =
      recordLines (fields.map Field.hollow) (.code mark) := by
  have line (field : Field) (mark : String) :
      (field.line (.code mark)).hollow = field.hollow.line (.code mark) := by
    simp [Field.line, Line.hollow, Field.hollow, Piece.hollow]
  have below : (punctuate (.code ",") (.code "") fields).flatMap
        (fun marked => [(marked.1.line marked.2).hollow]) =
      (punctuate (.code ",") (.code "") fields).flatMap fun marked =>
        [marked.1.hollow.line marked.2] :=
    flatMap_punctuate_congr (fun field mark => congrArg ([·]) (line field mark)) fields
  rw [← List.map_eq_flatMap, ← List.map_eq_flatMap] at below
  simp only [recordLines, List.cons_append, List.map_cons, List.map_append, List.map_map,
    punctuate_map, Function.comp_def, below]
  rfl

theorem argumentLines_hollow (argument : Argument) (mark : String) :
    (argument.lines (.code mark)).map Line.hollow = argument.hollow.lines (.code mark) := by
  obtain ⟨key, content⟩ := argument
  cases content with
  | inline value =>
      simp [Argument.lines, Argument.hollow, Content.hollow, Line.hollow, Piece.hollow]
  | records items =>
      have below : (punctuate (.code ",") (.code "") items).flatMap
            (fun marked => (recordLines marked.1 marked.2).map Line.hollow) =
          (punctuate (.code ",") (.code "") items).flatMap fun marked =>
            recordLines (marked.1.map Field.hollow) marked.2 :=
        flatMap_punctuate_congr recordLines_hollow items
      simp only [Argument.lines, Argument.hollow, Content.hollow, List.cons_append, List.map_cons,
        List.map_append, List.map_flatMap, punctuate_map, List.flatMap_map, below]
      rfl

theorem pieces_hollow (call : Call) : call.pieces.map Piece.hollow = call.hollow.pieces := by
  have line (column : Nat) (line : Line) : (Call.linePieces column line).map Piece.hollow =
      Call.linePieces column line.hollow := by
    simp [Call.linePieces, Line.hollow, Piece.hollow]
  have lines : call.lines.map Line.hollow = call.hollow.lines := by
    rw [Call.lines, Call.lines, Call.hollow, punctuate_map, List.map_flatMap, List.flatMap_map]
    exact flatMap_punctuate_congr argumentLines_hollow call.arguments
  have column : call.hollow.column = call.column := rfl
  have head : call.head.map Piece.hollow = call.hollow.head := by
    simp [Call.head, Call.hollow, Call.opening, Piece.hollow]
  rw [Call.pieces, Call.pieces, List.map_append, List.map_flatMap, head, ← lines, column,
    List.flatMap_map]
  simp only [line]

theorem intercalate_hollow (separator : String) (parts : List (List Piece)) :
    (List.intercalate [.code separator] parts).map Piece.hollow =
      List.intercalate [.code separator] (parts.map (List.map Piece.hollow)) := by
  induction parts with
  | nil => rfl
  | cons part parts ih =>
      cases parts with
      | nil => simp
      | cons next parts =>
          simp only [List.intercalate_cons_cons, List.map_append, ih, List.map_cons, List.map_nil,
            Piece.hollow]

theorem document_hollow (calls : List Call) :
    (document calls).map Piece.hollow = document (calls.map Call.hollow) := by
  rw [document, List.map_append, intercalate_hollow, List.map_map]
  simp [document, pieces_hollow, Piece.hollow, Function.comp_def]

theorem scalar_hollow (value : Literal) :
    (scalarPieces value.emptied).map Piece.hollow = (scalarPieces value).map Piece.hollow := by
  cases value <;> rfl

theorem sequence_hollow (items : List Literal) :
    (sequencePieces (items.map Literal.emptied)).map Piece.hollow =
      (sequencePieces items).map Piece.hollow := by
  simp only [sequencePieces, List.cons_append, List.map_cons, List.map_append, intercalate_hollow,
    List.map_map, Function.comp_def, scalar_hollow]

theorem costumeRecord_hollow (costume : Costume) :
    (costumeRecord costume.emptied).map Field.hollow =
      (costumeRecord costume).map Field.hollow := rfl

theorem isDefault_emptied (entry : Entry) : entry.emptied.isDefault = entry.isDefault := by
  cases entry with
  | scalar name value => cases value <;> rfl
  | list name items => cases items <;> rfl

theorem entryRecord_hollow (entry : Entry) :
    (entryRecord entry.emptied).map Field.hollow = (entryRecord entry).map Field.hollow := by
  have value : (entryValue entry.emptied).map Piece.hollow =
      (entryValue entry).map Piece.hollow := by
    cases entry with
    | scalar name value => exact scalar_hollow value
    | list name items => exact sequence_hollow items
  rw [entryRecord, entryRecord, isDefault_emptied]
  cases entry.isDefault <;> simp [textField, Field.hollow, Piece.hollow, value]

theorem recordsArgument_hollow (key : String) (records : List (List Field)) :
    (recordsArgument key records).map Argument.hollow =
      recordsArgument key (records.map (List.map Field.hollow)) := by
  cases records <;> rfl

theorem entriesOf_emptied (entity : Entity) (kind : Kind) :
    entity.emptied.entriesOf kind = (entity.entriesOf kind).map Entry.emptied := by
  have kept : (fun entry : Entry => decide (entry.kind = kind)) ∘ Entry.emptied =
      fun entry => decide (entry.kind = kind) := by
    funext entry
    cases entry <;> rfl
  have values : entity.emptied.entries.values = entity.entries.values.map Entry.emptied := by
    simp [Entity.emptied, Keyed.values, Function.comp_def]
  rw [Entity.entriesOf, Entity.entriesOf, values, List.filter_map, kept]

theorem arguments_hollow (entity : Entity) :
    (arguments entity.emptied).map Argument.hollow = (arguments entity).map Argument.hollow := by
  have costumes : entity.emptied.costumes = entity.costumes.map Costume.emptied := rfl
  simp only [arguments, List.map_append, recordsArgument_hollow, entriesOf_emptied, costumes,
    List.map_map, Function.comp_def, costumeRecord_hollow, entryRecord_hollow]
  rfl

theorem call_hollow (entity : Entity) : (call entity.emptied).hollow = (call entity).hollow := by
  rw [call, Call.hollow, arguments_hollow]
  rfl

theorem scan_targets {targets : List Entity}
    (even : ∀ target ∈ targets, ∀ text ∈ target.texts, EvenRuns text.toList) :
    scan (text (targetPieces targets)) =
      .between ((targets.flatMap Entity.quotedTexts).map fun text => escape text.toList)
        (chars (document (targets.map fun target => (call target).hollow))) := by
  have tidy : ∀ c ∈ targets.map call, c.Tidy := by
    simpa using fun target _ => call_tidy target
  have texts : quotes (document (targets.map call)) = targets.flatMap Entity.quotedTexts := by
    simp only [quotes_document, List.flatMap_map, quotes_entity]
  have scannable := tokens_scannable (document_plain tidy) (by
    intro text mem
    rw [texts, List.mem_flatMap] at mem
    obtain ⟨target, inTargets, mem⟩ := mem
    exact evenRuns_quotedTexts (even target inTargets) text mem)
  rw [targetPieces_eq_document, scan_text scannable, contents_tokens, texts, tokens_hollow,
    document_hollow, ← chars_eq_spell, List.map_map]
  rfl

theorem evenRuns_emptied (entity : Entity) :
    ∀ text ∈ entity.emptied.texts, EvenRuns text.toList := by
  have literal (value : Literal) : ∀ text ∈ value.emptied.texts, text = "" := by
    cases value <;> simp [Literal.emptied, Literal.texts]
  have costume (costume : Costume) : ∀ text ∈ costume.emptied.texts, text = "" := by
    simp [Costume.emptied, Costume.texts]
  have entry (entry : Entry) : ∀ text ∈ entry.emptied.texts, text = "" := by
    cases entry with
    | scalar name value => simpa [Entry.emptied, Entry.texts] using literal value
    | list name items =>
        simpa [Entry.emptied, Entry.texts] using fun text item _ mem => literal item text mem
  intro text mem
  have empty : text = "" := by
    simp only [Entity.emptied, Entity.texts, Keyed.values, List.map_map, List.mem_append,
      List.mem_cons, List.mem_flatMap, List.mem_map] at mem
    obtain (rfl | ⟨_, ⟨_, _, rfl⟩, mem⟩) | ⟨_, ⟨_, _, rfl⟩, mem⟩ := mem
    · rfl
    · exact costume _ text mem
    · exact entry _ text mem
  rw [empty]
  decide

/-- The source of a project whose texts have even runs of backslashes: a scan ends outside all
literals, the literals are the quoted texts in order, and the rest does not depend on them. -/
theorem scan_project {project : Project} {targets : List Entity}
    (selected : project.select none = .ok targets)
    (even : ∀ target ∈ targets, ∀ text ∈ target.texts, EvenRuns text.toList) :
    ∃ source bare, (Source.project project none).result = .ok source ∧
      (Source.project project.emptied none).result = .ok bare ∧
      (scan source).mode = .code ∧
      (scan source).literals =
        (targets.flatMap Entity.quotedTexts).map (fun text => escape text.toList) ∧
      (scan source).skeleton = (scan bare).skeleton := by
  have emitted {project : Project} {targets : List Entity}
      (selected : project.select none = .ok targets) :
      (Source.project project none).result = .ok (text (targetPieces targets)) := by
    rw [Source.project, selected]
    rfl
  refine ⟨_, _, emitted selected, emitted (Project.select_emptied selected), ?_⟩
  have bare : ∀ target ∈ targets.map Entity.emptied, ∀ text ∈ target.texts,
      EvenRuns text.toList := by
    simpa using fun target _ => evenRuns_emptied target
  rw [scan_targets even, scan_targets bare, List.map_map]
  refine ⟨rfl, rfl, ?_⟩
  simp only [Scan.between, Function.comp_def, call_hollow]

/-- A stage whose name ends the call and starts another, with single backslashes in front of
letters and pairs of them in front of quotes and at the end. -/
def hostileStage : Entity :=
  { Entity.stage "\")\nSprite.new(\"x" with
    rotationStyle := .leftRight
    costumes := [⟨"C:\\new", "\\\\\"", .zero, "]", "\\\\", .zero, .zero⟩]
    entries := [("l", .list "y: 0)" [.text "\", \"", .bool true]), ("v", .scalar "" (.text "#"))] }

theorem scan_project_hostile :
    (Project.mk [hostileStage]).select none = .ok [hostileStage] ∧
    (∀ target ∈ [hostileStage], ∀ text ∈ target.texts, EvenRuns text.toList) ∧
    ∃ source bare, (Source.project ⟨[hostileStage]⟩ none).result = .ok source ∧
      (Source.project (Project.emptied ⟨[hostileStage]⟩) none).result = .ok bare ∧
      (scan source).mode = .code ∧
      (scan source).literals =
        ([hostileStage].flatMap Entity.quotedTexts).map (fun text => escape text.toList) ∧
      (scan source).skeleton = (scan bare).skeleton := by
  have even : ∀ target ∈ [hostileStage], ∀ text ∈ target.texts, EvenRuns text.toList := by decide
  exact ⟨rfl, even, scan_project rfl even⟩

end Source

end SpriteScript

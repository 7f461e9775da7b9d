import SpriteScript.Proofs.Layout
import SpriteScript.Proofs.NumberText
import SpriteScript.Source.Entity

/-!
What the source of a project tells about it. Two projects have the same source exactly when their
written targets are alike: equal in all that is shown, with numbers shown by their text and
entries in order within each kind. Ids, the order of variables among lists and what no text of a
number shows are lost; nothing else is, whatever the texts hold.
-/

namespace SpriteScript

def Literal.Alike : Literal → Literal → Prop
  | number a, number b => Source.number a = Source.number b
  | text a, text b => a = b
  | bool a, bool b => a = b
  | _, _ => False

structure Costume.Alike (a b : Costume) : Prop where
  assetId : a.assetId = b.assetId
  name : a.name = b.name
  bitmapResolution : Source.number a.bitmapResolution = Source.number b.bitmapResolution
  md5 : a.md5 = b.md5
  dataFormat : a.dataFormat = b.dataFormat
  rotationCenterX : Source.number a.rotationCenterX = Source.number b.rotationCenterX
  rotationCenterY : Source.number a.rotationCenterY = Source.number b.rotationCenterY

def Entry.Alike : Entry → Entry → Prop
  | scalar name value, scalar name' value' => name = name' ∧ value.Alike value'
  | list name items, list name' items' =>
      name = name' ∧ List.Forall₂ Literal.Alike items items'
  | _, _ => False

/-- Entities that differ in nothing that is shown. -/
structure Entity.Alike (a b : Entity) : Prop where
  isStage : a.isStage = b.isStage
  name : a.name = b.name
  x : Source.number a.x = Source.number b.x
  y : Source.number a.y = Source.number b.y
  direction : Source.number a.direction = Source.number b.direction
  visible : a.visible = b.visible
  size : Source.number a.size = Source.number b.size
  currentCostume : max a.currentCostume.toNat 1 = max b.currentCostume.toNat 1
  costumes : List.Forall₂ Costume.Alike a.costumes b.costumes
  rotationStyle : a.rotationStyle = b.rotationStyle
  scalars : List.Forall₂ Entry.Alike (a.entriesOf .scalar) (b.entriesOf .scalar)
  lists : List.Forall₂ Entry.Alike (a.entriesOf .list) (b.entriesOf .list)

namespace Source

open Token

theorem scalarPieces_eq {a b : Literal} (h : a.Alike b) : scalarPieces a = scalarPieces b := by
  cases a <;> cases b <;> simp_all [Literal.Alike, scalarPieces]

theorem code_tokens_inj {s t : String} (h : tokens [.code s] = tokens [.code t]) : s = t := by
  simpa [Piece.tokens, List.map_inj_right (fun _ _ => sign.inj), String.toList_inj] using h

theorem quoted_tokens_inj {s t : String} (h : tokens [.quoted s] = tokens [.quoted t]) :
    s = t := by
  simpa [Piece.tokens] using h

theorem notMem_tokens_number {c : Char} (h : isNumeral c = false) (value : Binary64) :
    sign c ∉ tokens [.code (number value)] := by
  simpa [Piece.tokens, number] using notMem_numberChars h value

theorem quoted_notMem_tokens_code (value s : String) : quoted value ∉ tokens [.code s] := by
  simp [Piece.tokens]

theorem number_tokens_ne_bool (value : Binary64) (b : Bool) :
    tokens [.code (number value)] ≠ tokens [.code (bool b)] := by
  intro h
  have letter : ∀ b, sign 'e' ∈ tokens [.code (bool b)] := by decide
  exact notMem_tokens_number (by decide) value (h ▸ letter b)

theorem literal_alike {a b : Literal}
    (h : tokens (scalarPieces a) = tokens (scalarPieces b)) : a.Alike b := by
  cases a with
  | number v =>
      cases b with
      | number w => exact code_tokens_inj h
      | text t => exact absurd (h ▸ List.mem_cons_self) (quoted_notMem_tokens_code t (number v))
      | bool b => exact absurd h (number_tokens_ne_bool v b)
  | text s =>
      cases b with
      | number w =>
          exact absurd (h.symm ▸ List.mem_cons_self) (quoted_notMem_tokens_code s (number w))
      | text t => exact quoted_tokens_inj h
      | bool b =>
          exact absurd (h.symm ▸ List.mem_cons_self) (quoted_notMem_tokens_code s (bool b))
  | bool a =>
      cases b with
      | number w => exact absurd h.symm (number_tokens_ne_bool w a)
      | text t => exact absurd (h ▸ List.mem_cons_self) (quoted_notMem_tokens_code t (bool a))
      | bool b =>
          have inj : ∀ a b, bool a = bool b → a = b := by decide
          exact inj a b (code_tokens_inj h)

theorem comma_notMem_literal (value : Literal) : sign ',' ∉ tokens (scalarPieces value) := by
  cases value with
  | number v => exact notMem_tokens_number (by decide) v
  | text s => simp [scalarPieces, Piece.tokens]
  | bool b => revert b; decide

/-- An item with the comma in front of it. -/
def itemTokens (value : Literal) : List Token :=
  sign ',' :: sign ' ' :: tokens (scalarPieces value)

theorem tokens_items (value : Literal) (values : List Literal) :
    sign ',' :: sign ' ' ::
        tokens (List.intercalate [.code ", "] ((value :: values).map scalarPieces)) =
      (value :: values).flatMap itemTokens := by
  have comma : Piece.tokens (.code ", ") = [sign ',', sign ' '] := rfl
  induction values generalizing value with
  | nil => simp [itemTokens]
  | cons next values ih =>
      have rest := ih next
      rw [List.map_cons, List.map_cons] at *
      rw [List.intercalate_cons_cons, List.flatMap_cons, ← rest]
      simp [itemTokens, comma]

theorem item_block (value : Literal) : Block (fun t => t = sign ',') (itemTokens value) := by
  refine ⟨_, _, rfl, rfl, ?_⟩
  rintro t mem rfl
  rw [List.mem_cons] at mem
  obtain eq | mem := mem
  · cases eq
  · exact comma_notMem_literal value mem

theorem sequence_alike {as bs : List Literal} (ha : as ≠ []) (hb : bs ≠ [])
    (h : tokens (sequencePieces as) = tokens (sequencePieces bs)) :
    List.Forall₂ Literal.Alike as bs := by
  obtain ⟨a, as, rfl⟩ := List.exists_cons_of_ne_nil ha
  obtain ⟨b, bs, rfl⟩ := List.exists_cons_of_ne_nil hb
  simp only [sequencePieces, tokens_append, tokens_cons, List.append_left_inj,
    List.append_right_inj] at h
  have items := congrArg (fun ts => sign ',' :: sign ' ' :: ts) h
  simp only [tokens_items] at items
  have same := Block.flatMap_inj (fun a _ => item_block a) (fun b _ => item_block b) items
  refine (map_eq_map_iff.mp same).imp ?_
  intro x y eq
  simp only [itemTokens, List.cons.injEq, true_and] at eq
  exact literal_alike eq

theorem same_iff_number_eq {default : Binary64} (proper : default ≠ .nan) (value : Binary64) :
    value.same default = true ↔ number value = number default := by
  rw [number_eq_iff]
  exact ⟨.inl, fun h => h.resolve_right fun nans => proper nans.2⟩

theorem zero_ne_nan : Binary64.zero ≠ .nan := by
  simp [Binary64.zero]

theorem costume_alike {a b : Costume}
    (h : List.Forall₂ Field.Alike (costumeRecord a) (costumeRecord b)) : a.Alike b := by
  simp only [costumeRecord, textField, numberField, List.forall₂_cons, Field.Alike,
    true_and] at h
  obtain ⟨assetId, name, bitmapResolution, md5, dataFormat, rotationCenterX, rotationCenterY,
    _⟩ := h
  exact ⟨quoted_tokens_inj assetId, quoted_tokens_inj name, code_tokens_inj bitmapResolution,
    quoted_tokens_inj md5, quoted_tokens_inj dataFormat, code_tokens_inj rotationCenterX,
    code_tokens_inj rotationCenterY⟩

theorem costumeRecord_eq {a b : Costume} (h : a.Alike b) : costumeRecord a = costumeRecord b := by
  simp only [costumeRecord, textField, numberField, h.assetId, h.name, h.bitmapResolution, h.md5,
    h.dataFormat, h.rotationCenterX, h.rotationCenterY]

theorem isDefault_scalar_iff (name : String) (value : Literal) :
    (Entry.scalar name value).isDefault = true ↔ value.Alike Literal.zero := by
  cases value with
  | number v =>
      change v.same Binary64.zero = true ↔ number v = number Binary64.zero
      exact same_iff_number_eq zero_ne_nan v
  | text s => simp [Entry.isDefault, Literal.same, Literal.zero, Literal.Alike]
  | bool b => simp [Entry.isDefault, Literal.same, Literal.zero, Literal.Alike]

theorem literal_alike_of_zero {a b : Literal} (ha : a.Alike Literal.zero)
    (hb : b.Alike Literal.zero) : a.Alike b := by
  cases a <;> cases b <;> simp_all [Literal.Alike, Literal.zero]

/-- A part that is left out in one place is left out in the other. -/
theorem optional_forall₂ {α : Type} {R : α → α → Prop} {p q : Prop} [Decidable p] [Decidable q]
    {a b : α} (h : List.Forall₂ R (if p then [] else [a]) (if q then [] else [b])) :
    (p ∧ q) ∨ (¬ p ∧ ¬ q ∧ R a b) := by
  by_cases hp : p <;> by_cases hq : q <;> simp_all

/-- Entries of one kind are told apart by their records: a record without a value is that of the
default of the kind. -/
theorem entry_alike {a b : Entry} (kind : a.kind = b.kind)
    (h : List.Forall₂ Field.Alike (entryRecord a) (entryRecord b)) : a.Alike b := by
  rw [entryRecord, entryRecord, List.forall₂_cons] at h
  obtain ⟨⟨_, name⟩, value⟩ := h
  have name := quoted_tokens_inj name
  have value := optional_forall₂ value
  cases a with
  | scalar n v =>
      cases b with
      | scalar m w =>
          refine ⟨name, ?_⟩
          obtain ⟨hv, hw⟩ | ⟨_, _, value⟩ := value
          · exact literal_alike_of_zero ((isDefault_scalar_iff n v).mp hv)
              ((isDefault_scalar_iff m w).mp hw)
          · exact literal_alike value.2
      | list m ws => cases kind
  | list n vs =>
      cases b with
      | scalar m w => cases kind
      | list m ws =>
          refine ⟨name, ?_⟩
          simp only [Entry.isDefault, List.isEmpty_iff] at value
          obtain ⟨rfl, rfl⟩ | ⟨hv, hw, value⟩ := value
          · exact .nil
          · exact sequence_alike hv hw value.2

theorem entryRecord_eq {a b : Entry} (h : a.Alike b) : entryRecord a = entryRecord b := by
  cases a with
  | scalar n v =>
      cases b with
      | scalar m w =>
          obtain ⟨rfl, value⟩ := h
          have default : (Entry.scalar n v).isDefault = (Entry.scalar n w).isDefault := by
            rw [Bool.eq_iff_iff, isDefault_scalar_iff, isDefault_scalar_iff]
            cases v <;> cases w <;> simp_all [Literal.Alike, Literal.zero]
          simp only [entryRecord, Entry.name, default, entryValue, scalarPieces_eq value]
      | list m ws => exact h.elim
  | list n vs =>
      cases b with
      | scalar m w => exact h.elim
      | list m ws =>
          obtain ⟨rfl, items⟩ := h
          have pieces : vs.map scalarPieces = ws.map scalarPieces :=
            map_eq_map_iff.mpr (items.imp fun _ _ => scalarPieces_eq)
          have default : (Entry.list n vs).isDefault = (Entry.list n ws).isDefault := by
            cases items <;> rfl
          simp only [entryRecord, Entry.name, default, entryValue, sequencePieces, pieces]

theorem filter_optional {p : Prop} [Decidable p] (key key' : String) (content : Content) :
    (if p then [] else [(⟨key, content⟩ : Argument)]).filter (·.key = key') =
      if key = key' then if p then [] else [⟨key, content⟩] else [] := by
  by_cases hp : p <;> by_cases hk : key = key' <;> simp [hp, hk]

theorem filter_numberArgument (key key' : String) (default value : Binary64) :
    (numberArgument key default value).filter (·.key = key') =
      if key = key' then numberArgument key default value else [] :=
  filter_optional key key' _

theorem filter_recordsArgument (key key' : String) (records : List (List Field)) :
    (recordsArgument key records).filter (·.key = key') =
      if key = key' then recordsArgument key records else [] :=
  filter_optional key key' _

theorem forall₂_filter_key {as bs : List Argument} (h : List.Forall₂ Argument.Alike as bs)
    (key : String) :
    List.Forall₂ Argument.Alike (as.filter (·.key = key)) (bs.filter (·.key = key)) :=
  List.rel_filter (fun _ _ alike => by simp [alike.1]) h

theorem numberArgument_alike {key : String} {default v w : Binary64} (proper : default ≠ .nan)
    (h : List.Forall₂ Argument.Alike (numberArgument key default v)
      (numberArgument key default w)) : number v = number w := by
  obtain ⟨hv, hw⟩ | ⟨_, _, value⟩ := optional_forall₂ h
  · rw [(same_iff_number_eq proper v).mp hv, (same_iff_number_eq proper w).mp hw]
  · exact code_tokens_inj value.2

theorem numberArgument_eq {key : String} {default v w : Binary64} (proper : default ≠ .nan)
    (h : number v = number w) : numberArgument key default v = numberArgument key default w := by
  have same : v.same default = w.same default := by
    rw [Bool.eq_iff_iff, same_iff_number_eq proper, same_iff_number_eq proper, h]
  rw [numberArgument, numberArgument, same, h]

theorem recordsArgument_alike {key : String} {as bs : List (List Field)}
    (h : List.Forall₂ Argument.Alike (recordsArgument key as) (recordsArgument key bs)) :
    List.Forall₂ (List.Forall₂ Field.Alike) as bs := by
  simp only [recordsArgument, List.isEmpty_iff] at h
  obtain ⟨rfl, rfl⟩ | ⟨_, _, records⟩ := optional_forall₂ h
  · exact .nil
  · exact records.2

theorem repr_injective {m n : Nat} (h : Nat.repr m = Nat.repr n) : m = n := by
  rw [← String.toList_inj, Nat.toList_repr, Nat.toList_repr] at h
  exact Decimal.digits_injective h

theorem direction_ne_nan : Binary64.ofNat 90 ≠ .nan := by
  decide +kernel

theorem size_ne_nan : Binary64.ofNat 100 ≠ .nan := by
  decide +kernel

theorem costumes_alike {a b : Entity}
    (h : List.Forall₂ Argument.Alike (recordsArgument "costumes" (a.costumes.map costumeRecord))
      (recordsArgument "costumes" (b.costumes.map costumeRecord))) :
    List.Forall₂ Costume.Alike a.costumes b.costumes := by
  have records := recordsArgument_alike h
  rw [List.forall₂_map_left_iff, List.forall₂_map_right_iff] at records
  exact records.imp fun _ _ => costume_alike

theorem entries_alike {a b : Entity} {kind : Kind} {key : String}
    (h : List.Forall₂ Argument.Alike (recordsArgument key ((a.entriesOf kind).map entryRecord))
      (recordsArgument key ((b.entriesOf kind).map entryRecord))) :
    List.Forall₂ Entry.Alike (a.entriesOf kind) (b.entriesOf kind) := by
  have records := recordsArgument_alike h
  rw [List.forall₂_map_left_iff, List.forall₂_map_right_iff] at records
  refine forall₂_imp_mem records ?_
  intro x hx y hy alike
  simp only [Entity.entriesOf, List.mem_filter, decide_eq_true_eq] at hx hy
  exact entry_alike (hx.2.trans hy.2.symm) alike

/-- Each argument stands under a key of its own, so it can be looked for by the key. -/
theorem entity_alike {a b : Entity} (stage : a.isStage = b.isStage) (name : a.name = b.name)
    (h : List.Forall₂ Argument.Alike (arguments a) (arguments b)) : a.Alike b := by
  have under := forall₂_filter_key h
  have x := under "x"
  have y := under "y"
  have direction := under "direction"
  have visible := under "visible"
  have size := under "size"
  have current := under "current_costume"
  have costumes := under "costumes"
  have rotation := under "rotation_style"
  have scalars := under "variables"
  have lists := under "lists"
  simp only [arguments, Entity.blank, List.filter_append, filter_numberArgument,
    filter_recordsArgument, filter_optional, String.reduceEq, if_true, if_false,
    List.append_nil, List.nil_append]
    at x y direction visible size current costumes rotation scalars lists
  exact {
    isStage := stage
    name := name
    x := numberArgument_alike zero_ne_nan x
    y := numberArgument_alike zero_ne_nan y
    direction := numberArgument_alike direction_ne_nan direction
    visible := by
      obtain ⟨ha, hb⟩ | ⟨ha, hb, _⟩ := optional_forall₂ visible
      · rw [ha, hb]
      · rw [Bool.not_eq_true] at ha hb
        rw [ha, hb]
    size := numberArgument_alike size_ne_nan size
    currentCostume := by
      obtain ⟨ha, hb⟩ | ⟨ha, hb, index⟩ := optional_forall₂ current
      · omega
      · have index := repr_injective (code_tokens_inj index.2)
        omega
    costumes := costumes_alike costumes
    rotationStyle := by
      obtain ⟨ha, hb⟩ | ⟨ha, hb, style⟩ := optional_forall₂ rotation
      · rw [ha, hb]
      · have injective : ∀ s t : RotationStyle, s.name = t.name → s = t := by
          intro s t
          cases s <;> cases t <;> decide
        exact injective _ _ (quoted_tokens_inj style.2)
    scalars := entries_alike scalars
    lists := entries_alike lists }

theorem arguments_eq {a b : Entity} (h : a.Alike b) : arguments a = arguments b := by
  have index : a.currentCostume.toNat - 1 = b.currentCostume.toNat - 1 := by
    have := h.currentCostume
    omega
  have costumes := map_eq_map_iff.mpr (h.costumes.imp fun _ _ => costumeRecord_eq)
  have scalars := map_eq_map_iff.mpr (h.scalars.imp fun _ _ => entryRecord_eq)
  have lists := map_eq_map_iff.mpr (h.lists.imp fun _ _ => entryRecord_eq)
  simp only [arguments, Entity.blank, numberArgument_eq zero_ne_nan h.x,
    numberArgument_eq zero_ne_nan h.y, numberArgument_eq direction_ne_nan h.direction, h.visible,
    numberArgument_eq size_ne_nan h.size, index, h.rotationStyle,
    costumes, scalars, lists]

theorem call_eq {a b : Entity} (h : a.Alike b) : call a = call b := by
  rw [call, call, h.isStage, h.name, arguments_eq h]

theorem number_inline (value : Binary64) : Inline [.code (number value)] := by
  refine code_inline (p := isNumeral) ?_ (by decide)
  rw [number, String.toList_ofList]
  exact fun c mem => isNumeral_of_mem mem

theorem quoted_inline (value : String) : Inline [.quoted value] :=
  inline_singleton (by simp [Piece.tokens, isInline])

theorem bool_inline (value : Bool) : Inline [.code (bool value)] :=
  inline_singleton (by revert value; decide)

theorem repr_inline (n : Nat) : Inline [.code (Nat.repr n)] := by
  refine code_inline (p := Char.isDigit) ?_ (by decide)
  rw [Nat.toList_repr]
  exact fun c mem => Nat.isDigit_of_mem_toDigits (by decide) (by decide) mem

theorem scalar_inline (value : Literal) : Inline (scalarPieces value) := by
  cases value with
  | number v => exact number_inline v
  | text s => exact quoted_inline s
  | bool b => exact bool_inline b

theorem sequence_inline (values : List Literal) : Inline (sequencePieces values) := by
  have items : Inline (List.intercalate [.code ", "] (values.map scalarPieces)) := by
    cases values with
    | nil => exact inline_nil
    | cons value values =>
        intro t mem
        have mem := List.mem_cons_of_mem (sign ',') (List.mem_cons_of_mem (sign ' ') mem)
        rw [tokens_items, List.mem_flatMap] at mem
        obtain ⟨item, _, mem⟩ := mem
        simp only [itemTokens, List.mem_cons] at mem
        obtain rfl | rfl | mem := mem
        · decide
        · decide
        · exact scalar_inline item t mem
  exact inline_append.mpr ⟨inline_cons.mpr ⟨by decide, items⟩, inline_singleton (by decide)⟩

theorem textField_tidy {key : String} (tidy : TidyKey key) (value : String) :
    (textField key value).Tidy :=
  ⟨tidy, quoted_inline value⟩

theorem numberField_tidy {key : String} (tidy : TidyKey key) (value : Binary64) :
    (numberField key value).Tidy :=
  ⟨tidy, number_inline value⟩

theorem costumeRecord_tidy (costume : Costume) : ∀ field ∈ costumeRecord costume, field.Tidy := by
  simp only [costumeRecord, List.forall_mem_cons]
  exact ⟨textField_tidy (by decide) _, textField_tidy (by decide) _,
    numberField_tidy (by decide) _, textField_tidy (by decide) _, textField_tidy (by decide) _,
    numberField_tidy (by decide) _, numberField_tidy (by decide) _, by simp⟩

theorem optional_forall {α : Type} {P : α → Prop} {p : Prop} [Decidable p] {a : α} (h : P a) :
    ∀ b ∈ (if p then [] else [a]), P b := by
  by_cases hp : p <;> simp [hp, h]

theorem entryRecord_tidy (entry : Entry) : ∀ field ∈ entryRecord entry, field.Tidy := by
  have value : Inline (entryValue entry) := by
    cases entry with
    | scalar name value => exact scalar_inline value
    | list name items => exact sequence_inline items
  have key : TidyKey "value" := by decide
  rw [entryRecord, List.forall_mem_cons]
  exact ⟨textField_tidy (by decide) _, optional_forall ⟨key, value⟩⟩

theorem optional_tidy {p : Prop} [Decidable p] {key : String} {content : Content}
    (hk : TidyKey key) (hc : content.Tidy) :
    ∀ argument ∈ (if p then [] else [(⟨key, content⟩ : Argument)]), argument.Tidy :=
  optional_forall ⟨hk, hc⟩

theorem arguments_tidy (entity : Entity) : ∀ argument ∈ arguments entity, argument.Tidy := by
  have costumes : (Content.records (entity.costumes.map costumeRecord)).Tidy := by
    simpa [Content.Tidy] using fun costume _ => costumeRecord_tidy costume
  have entries (kind : Kind) :
      (Content.records ((entity.entriesOf kind).map entryRecord)).Tidy := by
    simpa [Content.Tidy] using fun entry _ => entryRecord_tidy entry
  simp only [arguments, numberArgument, recordsArgument, List.forall_mem_append, and_assoc]
  exact ⟨optional_tidy (by decide) (number_inline _), optional_tidy (by decide) (number_inline _),
    optional_tidy (by decide) (number_inline _), optional_tidy (by decide) (bool_inline _),
    optional_tidy (by decide) (number_inline _), optional_tidy (by decide) (repr_inline _),
    optional_tidy (by decide) costumes, optional_tidy (by decide) (quoted_inline _),
    optional_tidy (by decide) (entries .scalar), optional_tidy (by decide) (entries .list)⟩

theorem call_tidy (entity : Entity) : (call entity).Tidy := by
  refine ⟨?_, arguments_tidy entity⟩
  cases stage : entity.isStage <;> simp only [call, stage] <;> decide

theorem targetPieces_eq_document (targets : List Entity) :
    targetPieces targets = document (targets.map call) := by
  rw [targetPieces, document, List.map_map]
  rfl

theorem alike_of_call_alike {a b : Entity} (h : (call a).Alike (call b)) : a.Alike b := by
  refine entity_alike ?_ h.subject h.arguments
  have constructor := h.constructor
  cases ha : a.isStage <;> cases hb : b.isStage <;> simp [call, ha, hb] at constructor ⊢

theorem targets_alike_iff (ts us : List Entity) :
    text (targetPieces ts) = text (targetPieces us) ↔ List.Forall₂ Entity.Alike ts us := by
  rw [targetPieces_eq_document, targetPieces_eq_document]
  constructor
  · intro h
    have tidy (targets : List Entity) : ∀ c ∈ targets.map call, c.Tidy := by
      simpa using fun target _ => call_tidy target
    have calls := calls_alike (tidy ts) (tidy us) h
    rw [List.forall₂_map_left_iff, List.forall₂_map_right_iff] at calls
    exact calls.imp fun _ _ => alike_of_call_alike
  · intro h
    rw [map_eq_map_iff.mpr (h.imp fun _ _ => call_eq)]

end Source

/-- Two projects have the same source exactly when the targets that are written are alike, in the
same order. -/
theorem source_eq_iff_alike (p q : Project) :
    ∃ ts us s t, p.select none = .ok ts ∧ q.select none = .ok us ∧
      (Source.project p none).result = .ok s ∧ (Source.project q none).result = .ok t ∧
      (s = t ↔ List.Forall₂ Entity.Alike ts us) :=
  ⟨_, _, _, _, rfl, rfl, rfl, rfl, Source.targets_alike_iff _ _⟩

end SpriteScript

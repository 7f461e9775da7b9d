import SpriteScript.Proofs.Blocks
import SpriteScript.Proofs.Tokens

/-!
Scanning source for double-quoted literals, as a reader of the source does: inside a literal a
backslash takes the next character with it, and the first quote that is not taken closes the
literal. Quoting puts a backslash before every quote of a text but leaves the text's own
backslashes alone. So a quoted text is scanned as one literal when its backslashes come in pairs
wherever a quote or the end follows them; then a scan of plain code and such texts finds the
texts, in order, and nothing of them outside their quotes.
-/

namespace SpriteScript.Source

/-- Where a scan stands: in code, in a literal, or in a literal behind a backslash that takes the
next character. -/
inductive ScanMode where
  | code
  | literal
  | taken
deriving DecidableEq

/-- What a scan has found: the contents of the literals that are closed, the content of the one
that is open, and the source without those contents. -/
structure Scan where
  mode : ScanMode
  literals : List (List Char)
  opened : List Char
  skeleton : List Char
deriving DecidableEq

namespace Scan

/-- A scan outside all literals. -/
def between (literals : List (List Char)) (skeleton : List Char) : Scan :=
  ⟨.code, literals, [], skeleton⟩

def step (scan : Scan) (c : Char) : Scan :=
  match scan.mode with
  | .code =>
    { scan with
      mode := if c = '"' then .literal else .code
      skeleton := scan.skeleton ++ [c] }
  | .literal =>
    if c = '"' then between (scan.literals ++ [scan.opened]) (scan.skeleton ++ [c])
    else
      { scan with
        mode := if c = '\\' then .taken else .literal
        opened := scan.opened ++ [c] }
  | .taken => { scan with mode := .literal, opened := scan.opened ++ [c] }

def run (scan : Scan) (source : List Char) : Scan :=
  source.foldl step scan

@[simp] theorem run_nil (scan : Scan) : scan.run [] = scan := rfl

@[simp] theorem run_cons (scan : Scan) (c : Char) (source : List Char) :
    scan.run (c :: source) = (scan.step c).run source := rfl

theorem run_append (scan : Scan) (source rest : List Char) :
    scan.run (source ++ rest) = (scan.run source).run rest :=
  List.foldl_append

end Scan

def scan (source : String) : Scan :=
  (Scan.between [] []).run source.toList

/-- Every maximal run of backslashes that a quote or the end follows has an even length. -/
def EvenRuns (text : List Char) : Prop :=
  ∀ before n after, text = before ++ (List.replicate n '\\' ++ after) →
    before.getLast? ≠ some '\\' → (after = [] ∨ after.head? = some '"') → n % 2 = 0

/-- Whether the runs of a text are even when `n` backslashes stand in front of it. -/
def evenFrom : Nat → List Char → Bool
  | n, [] => n % 2 == 0
  | n, c :: rest =>
    if c = '\\' then evenFrom (n + 1) rest
    else (c != '"' || n % 2 == 0) && evenFrom 0 rest

/-- A run does not reach across another character. -/
theorem evenRuns_of_append {front text : List Char} {c : Char} (other : c ≠ '\\')
    (h : EvenRuns (front ++ c :: text)) : EvenRuns text := by
  intro before n after eq maximal follows
  refine h (front ++ c :: before) n after ?_ ?_ follows
  · rw [eq, List.append_assoc, List.cons_append]
  · rw [List.getLast?_append, List.getLast?_cons]
    cases last : before.getLast? with
    | none => simpa using other
    | some d => simpa [last] using maximal

theorem replicate_append_cons (n : Nat) (c : Char) (text : List Char) :
    List.replicate n c ++ c :: text = List.replicate (n + 1) c ++ text := by
  rw [List.replicate_succ', List.append_assoc, List.singleton_append]

theorem evenFrom_of_evenRuns {n : Nat} {text : List Char}
    (h : EvenRuns (List.replicate n '\\' ++ text)) : evenFrom n text = true := by
  induction text generalizing n with
  | nil =>
      have even := h [] n [] rfl (by simp) (.inl rfl)
      simpa [evenFrom] using even
  | cons c text ih =>
      by_cases backslash : c = '\\'
      · subst backslash
        rw [replicate_append_cons] at h
        simpa [evenFrom] using ih h
      · have rest : evenFrom 0 text = true := ih (evenRuns_of_append backslash h)
        have first : c = '"' → n % 2 = 0 := by
          rintro rfl
          exact h [] n _ rfl (by simp) (.inr rfl)
        simp only [evenFrom, if_neg backslash, rest, Bool.and_true, Bool.or_eq_true, bne_iff_ne,
          ne_eq, beq_iff_eq]
        exact Classical.or_iff_not_imp_left.mpr fun quote => first (not_not.mp quote)

theorem eq_nil_of_append_replicate {front rest : List Char} {n : Nat}
    (h : front ++ rest = List.replicate n '\\') (maximal : front.getLast? ≠ some '\\') :
    front = [] := by
  cases last : front.getLast? with
  | none => exact List.getLast?_eq_none_iff.mp last
  | some c =>
      have mem : c ∈ List.replicate n '\\' :=
        h ▸ List.mem_append_left rest (List.mem_of_getLast? last)
      rw [List.eq_of_mem_replicate mem] at last
      exact absurd last maximal

/-- The run in front of a text is the one that its first other character ends. -/
theorem run_eq_of_replicate {n m : Nat} {rest after : List Char}
    (hr : ∀ c ∈ rest.head?, c ≠ '\\') (ha : after = [] ∨ after.head? = some '"')
    (h : List.replicate n '\\' ++ rest = List.replicate m '\\' ++ after) :
    n = m ∧ rest = after := by
  have backslashes (k : Nat) : ∀ c ∈ List.replicate k '\\', ¬ c ≠ '\\' := by
    intro c mem
    rw [List.eq_of_mem_replicate mem]
    exact not_not.mpr rfl
  have follows : ∀ c ∈ after.head?, c ≠ '\\' := by
    obtain rfl | head := ha
    · simp
    · simp [head]
  obtain ⟨runs, rest⟩ := unmarked_append_inj (backslashes n) (backslashes m) hr follows h
  exact ⟨by simpa using congrArg List.length runs, rest⟩

theorem evenRuns_of_evenFrom {n : Nat} {text : List Char} (h : evenFrom n text = true) :
    EvenRuns (List.replicate n '\\' ++ text) := by
  induction text generalizing n with
  | nil =>
      intro before m after eq maximal follows
      rw [List.append_nil] at eq
      obtain rfl := eq_nil_of_append_replicate eq.symm maximal
      rw [List.nil_append, ← List.append_nil (List.replicate n _)] at eq
      obtain ⟨rfl, _⟩ := run_eq_of_replicate (by simp) follows eq
      simpa [evenFrom] using h
  | cons c text ih =>
      by_cases backslash : c = '\\'
      · subst backslash
        rw [replicate_append_cons]
        exact ih (by simpa [evenFrom] using h)
      · simp only [evenFrom, if_neg backslash, Bool.and_eq_true, Bool.or_eq_true, bne_iff_ne,
          ne_eq, beq_iff_eq] at h
        intro before m after eq maximal follows
        obtain ⟨front, rfl, rest⟩ | ⟨front, run, rest⟩ := List.append_eq_append_iff.mp eq
        · -- The run stands at `c` or behind it.
          cases front with
          | nil =>
              have none : List.replicate 0 '\\' ++ c :: text = List.replicate m '\\' ++ after :=
                rest
              obtain ⟨rfl, _⟩ := run_eq_of_replicate (by simpa using backslash) follows none
              rfl
          | cons d front =>
              obtain ⟨rfl, behind⟩ := List.cons.inj rest
              refine ih h.2 front m after behind ?_ follows
              intro last
              rw [List.getLast?_append, List.getLast?_cons, last] at maximal
              exact maximal rfl
        · -- The run is the one in front of `c`.
          obtain rfl := eq_nil_of_append_replicate run.symm maximal
          rw [List.nil_append] at run
          rw [← run] at rest
          obtain ⟨rfl, rfl⟩ := run_eq_of_replicate (by simpa using backslash) follows rest.symm
          obtain quote := follows.resolve_left (by simp)
          exact h.1.resolve_left fun other => other (by simpa using quote)

theorem evenRuns_iff {text : List Char} : EvenRuns text ↔ evenFrom 0 text = true :=
  ⟨fun h => evenFrom_of_evenRuns (n := 0) h, fun h => evenRuns_of_evenFrom h⟩

instance (text : List Char) : Decidable (EvenRuns text) :=
  decidable_of_iff (evenFrom 0 text = true) evenRuns_iff.symm

namespace Scan

/-- The mode of a scan inside a literal behind a run of `n` backslashes: every second one takes the
next character. -/
def modeAfter (n : Nat) : ScanMode :=
  if n % 2 = 0 then .literal else .taken

theorem step_backslash (n : Nat) (literals : List (List Char)) (opened skeleton : List Char) :
    step ⟨modeAfter n, literals, opened, skeleton⟩ '\\' =
      ⟨modeAfter (n + 1), literals, opened ++ ['\\'], skeleton⟩ := by
  obtain even | odd := Nat.mod_two_eq_zero_or_one n
  · have next : (n + 1) % 2 = 1 := by omega
    simp [modeAfter, even, next, step]
  · have next : (n + 1) % 2 = 0 := by omega
    simp [modeAfter, odd, next, step]

theorem step_other {c : Char} (quote : c ≠ '"') (backslash : c ≠ '\\') (n : Nat)
    (literals : List (List Char)) (opened skeleton : List Char) :
    step ⟨modeAfter n, literals, opened, skeleton⟩ c =
      ⟨modeAfter 0, literals, opened ++ [c], skeleton⟩ := by
  obtain even | odd := Nat.mod_two_eq_zero_or_one n
  · simp [modeAfter, even, step, quote, backslash]
  · simp [modeAfter, odd, step]

/-- The scan stays inside the literal up to the end of the escaped text, and leaves no backslash
there that could take the closing quote. -/
theorem run_escape {n : Nat} {text : List Char} (even : evenFrom n text = true)
    (literals : List (List Char)) (opened skeleton : List Char) :
    run ⟨modeAfter n, literals, opened, skeleton⟩ (escape text) =
      ⟨.literal, literals, opened ++ escape text, skeleton⟩ := by
  induction text generalizing n opened with
  | nil =>
      have even : n % 2 = 0 := by simpa [evenFrom] using even
      simp [escape, modeAfter, even]
  | cons c text ih =>
      by_cases backslash : c = '\\'
      · subst backslash
        rw [escape_other (by decide), run_cons, step_backslash,
          ih (by simpa [evenFrom] using even), List.append_assoc, List.singleton_append]
      · simp only [evenFrom, if_neg backslash, Bool.and_eq_true, Bool.or_eq_true, bne_iff_ne,
          ne_eq, beq_iff_eq] at even
        by_cases quote : c = '"'
        · subst quote
          have paired : n % 2 = 0 := even.1.resolve_left (not_not.mpr rfl)
          have taken : (⟨modeAfter n, literals, opened, skeleton⟩ : Scan).run ['\\', '"'] =
              ⟨modeAfter 0, literals, opened ++ ['\\', '"'], skeleton⟩ := by
            simp [modeAfter, paired, step]
          have written : escape ('"' :: text) = ['\\', '"'] ++ escape text := escape_quote text
          rw [written, run_append, taken, ih even.2, List.append_assoc]
        · rw [escape_other quote, run_cons, step_other quote backslash, ih even.2,
            List.append_assoc, List.singleton_append]

theorem run_quoted {text : List Char} (even : EvenRuns text) (literals : List (List Char))
    (skeleton : List Char) :
    (between literals skeleton).run (quoteChars text) =
      between (literals ++ [escape text]) (skeleton ++ ['"', '"']) := by
  have inside := run_escape (evenRuns_iff.mp even) literals [] (skeleton ++ ['"'])
  rw [quoteChars, List.cons_append, run_cons, run_append]
  change ((run ⟨modeAfter 0, literals, [], skeleton ++ ['"']⟩ (escape text)).run ['"']) = _
  rw [inside]
  simp [step, between]

end Scan

namespace Token

/-- The contents of the literals that a token is written as. -/
def contents : Token → List (List Char)
  | sign _ => []
  | quoted value => [escape value.toList]

/-- The same token around an empty text. -/
def hollow : Token → Token
  | sign c => .sign c
  | quoted _ => .quoted ""

/-- Whether a token is scanned as it was written. -/
def IsScannable : Token → Prop
  | sign c => (sign c).isPlain = true
  | quoted value => EvenRuns value.toList

end Token

theorem Scan.run_token {t : Token} (h : t.IsScannable) (literals : List (List Char))
    (skeleton : List Char) :
    (between literals skeleton).run t.chars =
      between (literals ++ t.contents) (skeleton ++ t.hollow.chars) := by
  cases t with
  | sign c =>
      have quote : c ≠ '"' := by
        rintro rfl
        simp [Token.IsScannable, Token.isPlain] at h
      simp [Token.chars, Token.contents, Token.hollow, step, between, quote]
  | quoted value => exact run_quoted h literals skeleton

theorem Scan.run_spell {ts : List Token} (h : ∀ t ∈ ts, t.IsScannable)
    (literals : List (List Char)) (skeleton : List Char) :
    (between literals skeleton).run (spell ts) =
      between (literals ++ ts.flatMap Token.contents)
        (skeleton ++ spell (ts.map Token.hollow)) := by
  induction ts generalizing literals skeleton with
  | nil => simp [spell]
  | cons t ts ih =>
      rw [List.forall_mem_cons] at h
      have first : spell (t :: ts) = t.chars ++ spell ts := rfl
      rw [first, run_append, run_token h.1, ih h.2]
      simp [spell]

/-- A scan of plain code and texts with even runs finds just the texts. -/
theorem scan_text {pieces : List Piece} (h : ∀ t ∈ tokens pieces, t.IsScannable) :
    scan (text pieces) =
      .between ((tokens pieces).flatMap Token.contents)
        (spell ((tokens pieces).map Token.hollow)) := by
  rw [scan, text, String.toList_ofList, chars_eq_spell, Scan.run_spell h]
  rfl

end SpriteScript.Source

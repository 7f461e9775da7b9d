import SpriteScript.Source.Piece

/-!
Source text as characters of code and whole quoted texts. A backslash at the end of a text makes
its closing quote look like an escaped one, so a quoted text alone cannot be told from a longer
one. Over the whole source it can: where two readings part, one is inside a text and the other is
outside, every further quote swaps the two, and a source ends outside for both.
-/

namespace SpriteScript.Source

/-- A character of code, or a quoted text as a whole. -/
inductive Token where
  | sign (c : Char)
  | quoted (value : String)
deriving DecidableEq

namespace Token

def chars : Token → List Char
  | sign c => [c]
  | quoted value => quoteChars value.toList

/-- Code holds neither quotes nor backslashes. -/
def isPlain : Token → Bool
  | sign c => c != '"' && c != '\\'
  | quoted _ => true

end Token

def Piece.tokens : Piece → List Token
  | code text => text.toList.map .sign
  | quoted text => [.quoted text]

def tokens (pieces : List Piece) : List Token :=
  pieces.flatMap Piece.tokens

@[simp] theorem tokens_nil : tokens [] = [] := rfl

@[simp] theorem tokens_cons (piece : Piece) (pieces : List Piece) :
    tokens (piece :: pieces) = piece.tokens ++ tokens pieces := rfl

@[simp] theorem tokens_append (pieces pieces' : List Piece) :
    tokens (pieces ++ pieces') = tokens pieces ++ tokens pieces' :=
  List.flatMap_append

/-- The characters that a sequence of tokens is written as. -/
def spell (ts : List Token) : List Char :=
  ts.flatMap Token.chars

theorem spell_map_sign (cs : List Char) : spell (cs.map .sign) = cs := by
  induction cs with
  | nil => rfl
  | cons c cs ih => simpa [spell, Token.chars] using ih

theorem chars_eq_spell (pieces : List Piece) : chars pieces = spell (tokens pieces) := by
  induction pieces with
  | nil => rfl
  | cons piece pieces ih =>
      have first : piece.chars = spell piece.tokens := by
        cases piece with
        | code text => exact (spell_map_sign text.toList).symm
        | quoted text => simp [spell, Piece.tokens, Piece.chars, Token.chars]
      simp only [chars, spell, tokens_cons, List.flatMap_cons, List.flatMap_append] at ih first ⊢
      rw [ih, first]

theorem spell_quoted (value : String) (ts : List Token) :
    spell (.quoted value :: ts) = '"' :: (escape value.toList ++ '"' :: spell ts) := by
  simp [spell, Token.chars, quoteChars]

theorem spell_sign (c : Char) (ts : List Token) : spell (.sign c :: ts) = c :: spell ts := by
  simp [spell, Token.chars]

theorem escape_quote (s : List Char) : escape ('"' :: s) = '\\' :: '"' :: escape s := by
  rw [escape, if_pos rfl]

theorem escape_other {c : Char} (h : c ≠ '"') (s : List Char) :
    escape (c :: s) = c :: escape s := by
  rw [escape, if_neg h]

theorem escape_cons_ne_quote (c : Char) (s rest rest' : List Char) :
    escape (c :: s) ++ rest ≠ '"' :: rest' := by
  intro h
  by_cases quote : c = '"'
  · rw [quote, escape_quote, List.cons_append, List.cons.injEq] at h
    exact absurd h.1 (by decide)
  · rw [escape_other quote, List.cons_append, List.cons.injEq] at h
    exact quote h.1

/-- A reading that is inside a text and one that is outside never meet again: the one outside
passes only plain code, so the next quote opens a text for it and closes one for the other. -/
theorem inside_ne_outside (s : List Char) (ts us : List Token)
    (hts : ∀ t ∈ ts, t.isPlain = true) (hus : ∀ t ∈ us, t.isPlain = true) :
    escape s ++ '"' :: spell ts ≠ spell us := by
  intro h
  match us with
  | [] => simp [spell] at h
  | .sign c :: us =>
      have plain := hus _ List.mem_cons_self
      simp only [Token.isPlain, Bool.and_eq_true, bne_iff_ne, ne_eq] at plain
      rw [spell_sign] at h
      cases s with
      | nil =>
          simp only [escape, List.nil_append, List.cons.injEq] at h
          exact plain.1 h.1.symm
      | cons d s =>
          by_cases quote : d = '"'
          · rw [quote, escape_quote, List.cons_append, List.cons.injEq] at h
            exact plain.2 h.1.symm
          · rw [escape_other quote, List.cons_append, List.cons.injEq] at h
            exact inside_ne_outside s ts us hts
              (fun t ht => hus t (List.mem_cons_of_mem _ ht)) h.2
  | .quoted value :: us =>
      rw [spell_quoted] at h
      cases s with
      | nil =>
          simp only [escape, List.nil_append, List.cons.injEq, true_and] at h
          exact inside_ne_outside value.toList us ts
            (fun t ht => hus t (List.mem_cons_of_mem _ ht)) hts h.symm
      | cons d s => exact escape_cons_ne_quote d s _ _ h
termination_by ts.length + us.length

/-- A quote cannot be an escaped one for one reading and a closing one for the other. -/
theorem escaped_ne_closing (s t : List Char) {ts us : List Token}
    (hts : ∀ t ∈ ts, t.isPlain = true) (hus : ∀ t ∈ us, t.isPlain = true) :
    '"' :: (escape s ++ '"' :: spell ts) ≠ escape t ++ '"' :: spell us := by
  intro h
  cases t with
  | nil => exact inside_ne_outside s ts us hts hus (List.tail_eq_of_cons_eq h)
  | cons d t => exact escape_cons_ne_quote d t _ _ h.symm

theorem escape_append_inj {s t : List Char} {ts us : List Token}
    (hts : ∀ t ∈ ts, t.isPlain = true) (hus : ∀ t ∈ us, t.isPlain = true)
    (h : escape s ++ '"' :: spell ts = escape t ++ '"' :: spell us) :
    s = t ∧ spell ts = spell us := by
  induction s generalizing t with
  | nil =>
      cases t with
      | nil => exact ⟨rfl, List.tail_eq_of_cons_eq h⟩
      | cons d t => exact absurd h.symm (escape_cons_ne_quote d t _ _)
  | cons c s ih =>
      cases t with
      | nil => exact absurd h (escape_cons_ne_quote c s _ _)
      | cons d t =>
          by_cases hc : c = '"' <;> by_cases hd : d = '"'
          · simp only [hc, hd, escape_quote, List.cons_append, List.cons.injEq, true_and] at h
            obtain ⟨rfl, rest⟩ := ih h
            exact ⟨by rw [hc, hd], rest⟩
          · simp only [hc, escape_quote, escape_other hd, List.cons_append, List.cons.injEq] at h
            exact absurd h.2 (escaped_ne_closing s t hts hus)
          · simp only [hd, escape_quote, escape_other hc, List.cons_append, List.cons.injEq] at h
            exact absurd h.2.symm (escaped_ne_closing t s hus hts)
          · simp only [escape_other hc, escape_other hd, List.cons_append, List.cons.injEq] at h
            obtain ⟨rfl, rest⟩ := ih h.2
            exact ⟨by rw [h.1], rest⟩

theorem sign_ne_quoted {c : Char} (plain : (Token.sign c).isPlain = true) (value : String)
    (ts us : List Token) : spell (.sign c :: ts) ≠ spell (.quoted value :: us) := by
  intro h
  rw [spell_sign, spell_quoted, List.cons.injEq] at h
  simp [Token.isPlain, h.1] at plain

theorem spell_injective {ts us : List Token} (hts : ∀ t ∈ ts, t.isPlain = true)
    (hus : ∀ t ∈ us, t.isPlain = true) (h : spell ts = spell us) : ts = us := by
  induction ts generalizing us with
  | nil =>
      cases us with
      | nil => rfl
      | cons u us => cases u <;> simp [spell, Token.chars, quoteChars] at h
  | cons t ts ih =>
      have rest := fun u hu => hts u (List.mem_cons_of_mem _ hu)
      cases us with
      | nil => cases t <;> simp [spell, Token.chars, quoteChars] at h
      | cons u us =>
          have rest' := fun t ht => hus t (List.mem_cons_of_mem _ ht)
          cases t with
          | sign c =>
              cases u with
              | sign d =>
                  rw [spell_sign, spell_sign, List.cons.injEq] at h
                  rw [h.1, ih rest rest' h.2]
              | quoted value => exact absurd h (sign_ne_quoted (hts _ List.mem_cons_self) _ _ _)
          | quoted value =>
              cases u with
              | sign d => exact absurd h.symm (sign_ne_quoted (hus _ List.mem_cons_self) _ _ _)
              | quoted value' =>
                  rw [spell_quoted, spell_quoted, List.cons.injEq] at h
                  obtain ⟨same, h⟩ := escape_append_inj rest rest' h.2
                  rw [String.toList_inj.mp same, ih rest rest' h]

/-- Pieces whose code is plain are read back from their text. -/
theorem tokens_eq_of_text_eq {pieces pieces' : List Piece}
    (plain : ∀ t ∈ tokens pieces, t.isPlain = true)
    (plain' : ∀ t ∈ tokens pieces', t.isPlain = true) (h : text pieces = text pieces') :
    tokens pieces = tokens pieces' := by
  rw [text, text, String.ofList_inj, chars_eq_spell, chars_eq_spell] at h
  exact spell_injective plain plain' h

end SpriteScript.Source

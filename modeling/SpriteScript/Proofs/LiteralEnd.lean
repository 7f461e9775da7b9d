import SpriteScript.Proofs.LiteralScan

/-!
Where the scan of a quoted text leaves the literal. Every quote of the text comes with a backslash
in front of it, but behind an odd run of the text's own backslashes that one is taken itself, and
the literal closes too early. An odd run at the end takes the closing quote, and the literal stays
open. So even runs are all that keeps a text inside its literal, and nothing less does.
-/

namespace SpriteScript.Source

namespace Scan

/-- The place of the character behind which a scan first stands in code. -/
def closing? (scan : Scan) : List Char → Option Nat
  | [] => none
  | c :: rest =>
    if (scan.step c).mode = .code then some 0
    else ((scan.step c).closing? rest).map (· + 1)

variable {scan next : Scan} {c : Char}

theorem closing?_cons_of_code (h : (scan.step c).mode = .code) (rest : List Char) :
    scan.closing? (c :: rest) = some 0 := by
  rw [closing?, if_pos h]

/-- One character inside the literal only moves the place of its end. -/
theorem closing?_cons_eq_succ_iff (h : scan.step c = next) (inside : next.mode ≠ .code)
    (rest : List Char) (n : Nat) :
    scan.closing? (c :: rest) = some (n + 1) ↔ next.closing? rest = some n := by
  rw [closing?, h, if_neg inside, Option.map_eq_some_iff]
  simp

theorem modeAfter_ne_code (n : Nat) : modeAfter n ≠ .code := by
  rw [modeAfter]
  split <;> simp

variable (literals : List (List Char)) (opened skeleton : List Char)

/-- A quote closes the literal behind an even run and is taken behind an odd one. -/
theorem closing?_quote (n : Nat) :
    closing? ⟨modeAfter n, literals, opened, skeleton⟩ ['"'] = some 0 ↔ n % 2 = 0 := by
  obtain even | odd := Nat.mod_two_eq_zero_or_one n
  · simp [modeAfter, even, closing?, step, between]
  · simp [modeAfter, odd, closing?, step]

/-- The literal around an escaped text closes just behind the text if the runs of the text are
even, and only then. -/
theorem closing?_escape_iff (n : Nat) (text : List Char) :
    closing? ⟨modeAfter n, literals, opened, skeleton⟩ (escape text ++ ['"']) =
      some (escape text).length ↔ evenFrom n text = true := by
  induction text generalizing n opened with
  | nil =>
      rw [escape, List.nil_append, List.length_nil, closing?_quote, evenFrom, beq_iff_eq]
  | cons c text ih =>
      by_cases backslash : c = '\\'
      · subst backslash
        have next := step_backslash n literals opened skeleton
        rw [escape_other (by decide), List.cons_append, List.length_cons,
          closing?_cons_eq_succ_iff next (modeAfter_ne_code _), ih, evenFrom, if_pos rfl]
      · rw [evenFrom, if_neg backslash]
        by_cases quote : c = '"'
        · subst quote
          rw [escape_quote, List.cons_append, List.cons_append, List.length_cons, List.length_cons]
          obtain even | odd := Nat.mod_two_eq_zero_or_one n
          · -- The written backslash takes the quote.
            have taken : step ⟨modeAfter n, literals, opened, skeleton⟩ '\\' =
                ⟨.taken, literals, opened ++ ['\\'], skeleton⟩ := by
              simp [modeAfter, even, step]
            have inside : step ⟨.taken, literals, opened ++ ['\\'], skeleton⟩ '"' =
                ⟨modeAfter 0, literals, opened ++ ['\\'] ++ ['"'], skeleton⟩ := rfl
            rw [closing?_cons_eq_succ_iff taken ScanMode.noConfusion,
              closing?_cons_eq_succ_iff inside (modeAfter_ne_code 0), ih]
            simp [even]
          · -- The written backslash is taken, so the quote closes the literal.
            have taken : step ⟨modeAfter n, literals, opened, skeleton⟩ '\\' =
                ⟨.literal, literals, opened ++ ['\\'], skeleton⟩ := by
              simp [modeAfter, odd, step]
            rw [closing?_cons_eq_succ_iff taken ScanMode.noConfusion, closing?_cons_of_code rfl]
            simp [odd]
        · have next := step_other quote backslash n literals opened skeleton
          rw [escape_other quote, List.cons_append, List.length_cons,
            closing?_cons_eq_succ_iff next (modeAfter_ne_code 0), ih]
          simp [quote]

end Scan

/-- A quoted text is one literal from its first to its last character exactly when its backslashes
come in even runs in front of every quote and at the end. -/
theorem closing?_quote_iff (text : String) :
    (Scan.between [] []).closing? (quote text).toList = some ((quote text).length - 1) ↔
      EvenRuns text.toList := by
  have opening : Scan.step (.between [] []) '"' = ⟨Scan.modeAfter 0, [], [], ['"']⟩ := rfl
  have length : (quote text).length - 1 = (escape text.toList).length + 1 := by
    rw [← String.length_toList, quote, String.toList_ofList, quoteChars]
    simp
  rw [length, quote, String.toList_ofList, quoteChars, List.cons_append,
    Scan.closing?_cons_eq_succ_iff opening (Scan.modeAfter_ne_code 0), Scan.closing?_escape_iff,
    evenRuns_iff]

/-- Every quote inside has a backslash in front of it, and still the first of them ends the
literal. -/
example : quote "\\\"x\"" = "\"\\\\\"x\\\"\"" ∧
    (Scan.between [] []).closing? (quote "\\\"x\"").toList = some 3 := by decide

end SpriteScript.Source

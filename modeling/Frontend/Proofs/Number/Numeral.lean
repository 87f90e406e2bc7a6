import Frontend.Number.Reading
import Frontend.Proofs.Token.Lexeme

/-!
# Numerals

Every text that the scanner takes for a number is a number.  The scanner and the reading of
numbers know the same three parts of a text, digits, a fraction and an exponent, but each in
its own way: the scanner asks how long a part is, and the reading what is left behind it.
-/

namespace Frontend.Number

open Frontend.Pattern (digitsLength fractionLength exponentLength numberLength isExponentMark
  isSign)

variable {text : List Char}

/-- The digits at the head of a text are as many as the scanner takes. -/
theorem splitDigits_eq (text : List Char) :
    splitDigits text = (text.take (digitsLength text), text.drop (digitsLength text)) := by
  have whole : text.takeWhile Char.isDigit ++ text.dropWhile Char.isDigit = text :=
    List.takeWhile_append_dropWhile
  have front : text.take (digitsLength text) = text.takeWhile Char.isDigit :=
    (List.prefix_iff_eq_take.mp (List.takeWhile_prefix _)).symm
  have back : text.drop (digitsLength text) = text.dropWhile Char.isDigit := by
    have parts := (List.take_append_drop (digitsLength text) text).trans whole.symm
    rw [front] at parts
    exact List.append_cancel_left parts
  rw [front, back]
  rfl

/-- A text that is all digits. -/
theorem all_isDigit (h : digitsLength text = text.length) : text.all Char.isDigit = true := by
  have same := (List.takeWhile_prefix Char.isDigit).eq_of_length h
  rw [List.all_eq_true]
  intro d inside
  rw [← same] at inside
  exact List.mem_takeWhile_imp inside

/-- A sign is left out of what stands behind it. -/
theorem splitSign_snd (text : List Char) :
    (splitSign text).2 = text.drop ((text.take 1).countP isSign) := by
  cases text with
  | nil => rfl
  | cons c rest =>
    by_cases minus : c = '-'
    · subst minus
      rfl
    · by_cases plus : c = '+'
      · subst plus
        rfl
      · simp [splitSign, isSign, minus, plus]

/-- What the scanner takes for an exponent is one. -/
theorem isSome_exponent? (h : exponentLength text = text.length) : (exponent? text).isSome := by
  cases text with
  | nil => rfl
  | cons mark rest =>
    simp only [exponentLength, List.length_cons] at h
    by_cases marks : isExponentMark mark
    · rw [if_pos marks] at h
      -- The length is that of the whole text only if digits follow the mark and the sign.
      have letter : mark = 'e' ∨ mark = 'E' := by simpa [isExponentMark] using marks
      have some : digitsLength (splitSign rest).2 ≠ 0 := by
        rw [splitSign_snd]
        intro none
        rw [if_pos none] at h
        cases h
      -- Those digits are all there is behind the sign.
      have whole : digitsLength (splitSign rest).2 = (splitSign rest).2.length := by
        rw [splitSign_snd] at some ⊢
        rw [if_neg some] at h
        rw [List.length_drop]
        omega
      have nonempty : (splitSign rest).2 ≠ [] := by
        intro empty
        rw [empty] at some
        exact some rfl
      rw [exponent?, if_pos letter]
      simp only [nonempty, all_isDigit whole, ne_eq, not_false_eq_true, and_self, if_true]
      rfl
    · rw [if_neg marks] at h
      cases h

/-- What is left behind the fraction is what the scanner takes for the exponent. -/
theorem splitFraction_snd
    (whole : fractionLength text + exponentLength (text.drop (fractionLength text)) = text.length) :
    (splitFraction text).2 = text.drop (fractionLength text) := by
  cases text with
  | nil => rfl
  | cons c rest =>
    by_cases point : c = '.'
    · subst point
      simp only [splitFraction, fractionLength, splitDigits_eq] at whole ⊢
      by_cases none : digitsLength rest = 0
      · -- A point without digits behind it would not be taken.
        rw [if_pos none] at whole
        cases whole
      · rw [if_neg none, Nat.add_comm, List.drop_succ_cons]
    · simp [splitFraction, fractionLength, point]

/-- What the scanner takes for a number is a decimal. -/
theorem isSome_decimal? (ne : text ≠ []) (whole : numberLength text = text.length) :
    (decimal? text).isSome := by
  have some : digitsLength text ≠ 0 := by
    intro none
    simp only [numberLength, if_pos none] at whole
    exact ne (List.length_eq_zero_iff.mp whole.symm)
  simp only [numberLength, if_neg some] at whole
  have digits := Pattern.digitsLength_le_length text
  -- The digits in front are not none, and so neither is the part of the text they take.
  have front : text.take (digitsLength text) ≠ [] := by
    intro empty
    have length := congrArg List.length empty
    rw [List.length_take, Nat.min_eq_left digits] at length
    exact some length
  rw [← List.drop_drop] at whole
  have length : (text.drop (digitsLength text)).length = text.length - digitsLength text :=
    List.length_drop
  -- What the fraction leaves is as long as the text asks, so the exponent takes it whole.
  have left := @splitFraction_snd (text.drop (digitsLength text)) (by omega)
  have exponent : (exponent? (splitFraction (text.drop (digitsLength text))).2).isSome := by
    apply isSome_exponent?
    rw [left, List.length_drop]
    omega
  obtain ⟨value, found⟩ := Option.isSome_iff_exists.mp exponent
  simp only [decimal?, splitDigits_eq]
  rw [if_neg (fun empty => front empty.1), found]
  rfl

/-- A digit is the same in lower case. -/
theorem toLower_of_isDigit {d : Char} (h : d.isDigit = true) : d.toLower = d := by
  simp only [Char.isDigit, Bool.and_eq_true, decide_eq_true_eq] at h
  unfold Char.toLower
  split
  · rename_i upper
    simp [UInt32.le_iff_toNat_le] at h upper
    omega
  · rfl

/-- What the scanner takes for a number begins with a digit, and so it is read as a decimal. -/
theorem ofText?_eq_decimal? {text : String} (ne : text ≠ "")
    (whole : numberLength text.toList = text.toList.length) :
    ofText? text = decimal? text.toList := by
  have nonempty : text.toList ≠ [] := by simpa using ne
  obtain ⟨d, rest, same⟩ := List.exists_cons_of_ne_nil nonempty
  have digit : d.isDigit = true := by
    by_contra other
    rw [same] at whole
    simp [numberLength, digitsLength, other] at whole
  -- A digit is neither a sign nor the first letter of a word.
  have unsigned : splitSign (d :: rest) = (false, d :: rest) := by
    unfold splitSign
    split
    · rename_i minus
      cases minus
      cases digit
    · rename_i plus
      cases plus
      cases digit
    · rfl
  have noWord (c : Char) (other : c.isDigit = false) (cs : List Char) :
      String.ofList ((d :: rest).map Char.toLower) ≠ String.ofList (c :: cs) := by
    intro equal
    have first := (List.cons.inj (String.ofList_injective equal)).1
    rw [toLower_of_isDigit digit] at first
    rw [first, other] at digit
    cases digit
  have notInf : String.ofList ((d :: rest).map Char.toLower) ≠ "inf" := noWord 'i' rfl ['n', 'f']
  have notInfinity : String.ofList ((d :: rest).map Char.toLower) ≠ "infinity" :=
    noWord 'i' rfl ['n', 'f', 'i', 'n', 'i', 't', 'y']
  have notNan : String.ofList ((d :: rest).map Char.toLower) ≠ "nan" := noWord 'n' rfl ['a', 'n']
  simp only [ofText?, same, unsigned, unsigned?, notInf, notInfinity, notNan, or_self, if_false]
  exact congrFun Option.map_id _

/-- **Every text that the scanner takes for a number is one.** -/
theorem isSome_ofText? {text : String} (ne : text ≠ "")
    (whole : numberLength text.toList = text.toList.length) : (ofText? text).isSome := by
  have nonempty : text.toList ≠ [] := by simpa using ne
  rw [ofText?_eq_decimal? ne whole]
  exact isSome_decimal? nonempty whole

end Frontend.Number

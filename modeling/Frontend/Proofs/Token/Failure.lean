import Frontend.Proofs.Token.Munch

/-!
# Where scanning fails

Scanning takes one longest lexeme after the other off a text.  It fails exactly if it comes to a
character that begins no lexeme, and it says so of this character.  What stands in front of the
character is a text that can be scanned alone.

* **`Token.Bad`**: a character that begins neither a token nor white space nor a comment.
  Whether it does may depend on the character behind it, as with `|` and `&`.
* **`Token.Reaches`**: what is left of a text when longest lexemes are taken off it.
* **`Token.first?_eq_none_iff_bad`**: at a bad character, and only there, no pattern applies.
* **`Token.reaches_of_scanFrom`**: where scanning fails, it has come to a bad character.
* **`Token.scanFrom_front`**: a text that is cut off between two lexemes is scanned to its end.
* **`Token.scan_fails_at_bad`**: what this says about a whole text.
-/

namespace Frontend

namespace Pattern

variable {text : List Char} {pattern : Pattern} {n : Nat}

/-- Nothing applies if no pattern of the table takes anything. -/
theorem first?_eq_none_iff : first? text = none ↔ ∀ pattern ∈ table, pattern.length text = 0 := by
  unfold first?
  rw [List.find?_eq_none]
  simp

/-- The same pattern takes as much of a shorter text, as long as that one has all of the lexeme. -/
theorem first?_take_of_le (h : first? text = some pattern) (enough : pattern.length text ≤ n) :
    first? (text.take n) = some pattern ∧ pattern.length (text.take n) = pattern.length text := by
  have same : pattern.length (text.take n) = pattern.length text := length_take enough
  refine ⟨first?_of_length_eq h same ?_, same⟩
  intro other _ none
  rw [length_take (by omega), none]

end Pattern

namespace Token

/-! ## Bad characters -/

/-- The characters that begin a token whatever stands behind them, letters and digits apart. -/
def signs : List Char := "{}()=!<>;:?,*+-/%".toList

/-- With `rest` behind it, `c` begins neither a token nor white space nor a comment. -/
structure Bad (c : Char) (rest : List Char) : Prop where
  notBlank : Unicode.isBlank c = false
  notLetter : Unicode.isLetter c = false
  notDigit : c.isDigit = false
  notSign : c ∉ signs
  /-- Two bars and two ampersands are tokens, but one of them is not. -/
  notDoubled : ¬ ((c = '|' ∨ c = '&') ∧ rest.head? = some c)

/-- Every sign is a symbol of the table. -/
theorem exists_symbol_of_mem_signs {c : Char} (h : c ∈ signs) :
    ∃ kind, Pattern.symbol kind [c] ∈ Pattern.table := by
  have all : signs.all (fun c => Pattern.table.any fun
      | .symbol _ own => own == [c]
      | .blank | .comment | .number | .word => false) = true := by
    decide +kernel
  obtain ⟨pattern, listed, single⟩ := List.any_eq_true.mp (List.all_eq_true.mp all c h)
  cases pattern with
  | symbol kind own =>
    rw [eq_of_beq single] at listed
    exact ⟨kind, listed⟩
  | blank | comment | number | word => cases single

/-- A symbol of the table begins with a sign, unless it is two bars or two ampersands. -/
theorem symbol_cases {kind : Kind} {c : Char} {others : List Char}
    (listed : Pattern.symbol kind (c :: others) ∈ Pattern.table) :
    c ∈ signs ∨ (c = '|' ∨ c = '&') ∧ others = [c] := by
  have all : (Pattern.table.all fun
      | .symbol _ (c :: others) => c ∈ signs ∨ (c = '|' ∨ c = '&') ∧ others = [c]
      | .symbol _ [] | .blank | .comment | .number | .word => true) = true := by
    decide +kernel
  exact of_decide_eq_true (List.all_eq_true.mp all _ listed)

/-- **Exactly at a bad character, no pattern applies.** -/
theorem first?_eq_none_iff_bad {c : Char} {rest : List Char} :
    Pattern.first? (c :: rest) = none ↔ Bad c rest := by
  rw [Pattern.first?_eq_none_iff]
  constructor
  · intro none
    have fails (kind : Kind) {own : List Char} (listed : .symbol kind own ∈ Pattern.table) :
        ¬ own <+: c :: rest := by
      intro front
      have size := none _ listed
      simp only [Pattern.length, List.isPrefixOf_iff_prefix, if_pos front] at size
      exact Pattern.ne_nil_of_mem_table listed (List.length_eq_zero_iff.mp size)
    constructor
    case notBlank =>
      have none := none .blank (by decide)
      by_contra blank
      simp [Pattern.length, blank] at none
    case notLetter =>
      have none := none .word (by decide)
      by_contra letter
      simp [Pattern.length, Pattern.wordLength, letter] at none
    case notDigit =>
      have none := none .number (by decide)
      by_contra digit
      simp [Pattern.length, Pattern.numberLength, Pattern.digitsLength, digit] at none
    case notSign =>
      intro sign
      obtain ⟨kind, listed⟩ := exists_symbol_of_mem_signs sign
      exact fails kind listed (List.prefix_append [c] rest)
    case notDoubled =>
      rintro ⟨double, next⟩
      obtain ⟨others, rfl⟩ := List.head?_eq_some_iff.mp next
      rcases double with rfl | rfl
      · exact fails .or (by decide) (List.prefix_append ['|', '|'] others)
      · exact fails .and (by decide) (List.prefix_append ['&', '&'] others)
  · intro bad pattern listed
    by_contra applies
    -- The pattern would have to begin with the bad character.
    obtain ⟨c', rest', same, opens⟩ := Pattern.opens_of_length_ne_zero applies
    cases same
    cases pattern with
    | blank => exact Bool.false_ne_true (bad.notBlank.symm.trans opens)
    | comment =>
      rw [eq_of_beq opens] at bad
      exact bad.notSign (by decide)
    | number => exact Bool.false_ne_true (bad.notDigit.symm.trans opens)
    | word => exact Bool.false_ne_true (bad.notLetter.symm.trans opens)
    | symbol kind own =>
      obtain ⟨others, rfl⟩ := List.head?_eq_some_iff.mp (eq_of_beq opens)
      rcases symbol_cases listed with sign | ⟨double, rfl⟩
      · exact bad.notSign sign
      · have front : [c, c] <+: c :: rest := by
          by_contra other
          exact applies (if_neg fun h => other (List.isPrefixOf_iff_prefix.mp h))
        have next : [c] <+: rest := List.prefix_cons_inj c |>.mp front
        obtain ⟨behind, rfl⟩ := next
        exact bad.notDoubled ⟨double, rfl⟩

/-! ## Lexemes taken off -/

/-- Taking one longest lexeme after the other off `text` comes to where `ahead` is left. -/
inductive Reaches (patterns : Set Pattern) : List Char → List Char → Prop where
  | here {text : List Char} : Reaches patterns text text
  | step {pattern : Pattern} {lexeme rest ahead : List Char}
      (longest : LongestIn patterns (lexeme ++ rest) lexeme pattern)
      (others : Reaches patterns rest ahead) : Reaches patterns (lexeme ++ rest) ahead

variable {p : Position} {text ahead front : List Char}

/-- Where scanning stops, it has come to a bad character. -/
theorem reaches_of_scanFrom {d : Diagnostic} (h : scanFrom p text = .error d) :
    ∃ front c rest, text = front ++ c :: rest ∧ Reaches patterns text (c :: rest) ∧ Bad c rest ∧
      d = ⟨.unrecognised (String.singleton c), p.after front⟩ := by
  fun_induction scanFrom p text with
  | case1 p => cases h
  | case2 p c rest missing =>
    cases h
    exact ⟨[], c, rest, rfl, .here, first?_eq_none_iff_bad.mp missing, rfl⟩
  | case3 p c rest pattern found size lexeme stop d' failed ih =>
    cases h
    obtain ⟨front, c', rest', left, reached, bad, rfl⟩ := ih failed
    -- The lexeme and what is left make the text again.
    have whole : lexeme ++ (c :: rest).drop size = c :: rest := List.take_append_drop size _
    have longest : LongestIn patterns (lexeme ++ (c :: rest).drop size) lexeme pattern := by
      rw [whole]
      exact longestIn_iff.mpr ⟨found, rfl⟩
    -- The bad character stands behind the lexeme and what was passed after it.
    refine ⟨lexeme ++ front, c', rest', ?_, ?_, bad, ?_⟩
    · rw [List.append_assoc, ← left, whole]
    · have further := Reaches.step longest reached
      rwa [whole] at further
    · rw [Position.after_append]
  | case4 => cases h

/-- One step of scanning takes a longest lexeme, whatever stands behind it. -/
theorem scanFrom_append_of_first? {pattern : Pattern} {lexeme rest : List Char}
    (found : Pattern.first? (lexeme ++ rest) = some pattern)
    (taken : pattern.length (lexeme ++ rest) = lexeme.length) :
    scanFrom p (lexeme ++ rest) = (scanFrom (p.after lexeme) rest).map
      ((ofLexeme? pattern lexeme ⟨p, p.after lexeme⟩).toList ++ ·) := by
  rw [scanFrom_of_first? found, taken, List.take_left, List.drop_left]
  cases scanFrom (p.after lexeme) rest with
  | error d => rfl
  | ok tokens => rfl

/-- **A text that is cut off between two lexemes is scanned to its end**, and its tokens are the
first ones of the whole text. -/
theorem scanFrom_front (reached : Reaches patterns text ahead) (p : Position) :
    ∃ front words, text = front ++ ahead ∧
      scanFrom p front = .ok (words ++ [eof (p.after front)]) ∧
        scanFrom p text = (scanFrom (p.after front) ahead).map (words ++ ·) := by
  induction reached generalizing p with
  | @here text =>
    refine ⟨[], [], rfl, by rw [scanFrom]; rfl, ?_⟩
    show scanFrom p text = (scanFrom p text).map ([] ++ ·)
    cases scanFrom p text with
    | error d => rfl
    | ok tokens => rfl
  | @step pattern lexeme rest ahead longest others ih =>
    obtain ⟨front, words, rfl, alone, whole⟩ := ih (p.after lexeme)
    obtain ⟨found, taken⟩ := longest.taken
    -- What is cut off is behind the lexeme, so that the lexeme stays the longest one.
    have short : (lexeme ++ (front ++ ahead)).take (lexeme ++ front).length = lexeme ++ front := by
      rw [← List.append_assoc, List.take_left]
    have enough : pattern.length (lexeme ++ (front ++ ahead)) ≤ (lexeme ++ front).length := by
      rw [taken, List.length_append]
      exact Nat.le_add_right _ _
    obtain ⟨found', taken'⟩ := Pattern.first?_take_of_le found enough
    rw [short, taken] at taken'
    rw [short] at found'
    refine ⟨lexeme ++ front,
      (ofLexeme? pattern lexeme ⟨p, p.after lexeme⟩).toList ++ words, ?_, ?_, ?_⟩
    · rw [List.append_assoc]
    · rw [scanFrom_append_of_first? found' taken', alone, Position.after_append, List.append_assoc]
      rfl
    · rw [scanFrom_append_of_first? found taken, whole, Position.after_append]
      cases scanFrom ((p.after lexeme).after front) ahead with
      | error d => rfl
      | ok tokens => simp only [Except.map, List.append_assoc]

/-! ## A whole text -/

/-- **Scanning fails exactly at a bad character.**  It fails if and only if longest lexemes, taken
off the text one after the other, come to a bad character, and then this character and its place
are the answer.  The text in front of it is scanned alone, and ends at this very place. -/
theorem scan_fails_at_bad (source : String) :
    (∀ d, scan source = .error d ↔ ∃ front c rest, source.toList = front ++ c :: rest ∧
        Reaches patterns source.toList (c :: rest) ∧ Bad c rest ∧
          d = ⟨.unrecognised (String.singleton c), Position.behind front⟩) ∧
      ∀ front c rest, source.toList = front ++ c :: rest →
        Reaches patterns source.toList (c :: rest) → Bad c rest →
          ∃ words, scan (String.ofList front) = .ok (words ++ [eof (Position.behind front)]) := by
  -- Up to the bad character the scan is that of the front alone.
  have parts {front : List Char} {c : Char} {rest : List Char}
      (split : source.toList = front ++ c :: rest)
      (reached : Reaches patterns source.toList (c :: rest)) :
      ∃ words, scanFrom .first front = .ok (words ++ [eof (Position.behind front)]) ∧
        scan source = (scanFrom (Position.behind front) (c :: rest)).map (words ++ ·) := by
    obtain ⟨front', words, split', alone, whole⟩ := scanFrom_front reached .first
    have same : front' = front := List.append_cancel_right (split'.symm.trans split)
    rw [same, Position.after_first] at alone whole
    exact ⟨words, alone, whole⟩
  constructor
  · intro d
    constructor
    -- A failure is where the decomposition comes to an end.
    · intro failed
      obtain ⟨front, c, rest, split, reached, bad, same⟩ := reaches_of_scanFrom failed
      rw [Position.after_first] at same
      exact ⟨front, c, rest, split, reached, bad, same⟩
    · rintro ⟨front, c, rest, split, reached, bad, rfl⟩
      obtain ⟨words, -, whole⟩ := parts split reached
      rw [whole, scanFrom_of_none (first?_eq_none_iff_bad.mpr bad)]
      rfl
  · intro front c rest split reached bad
    -- The front is decomposed as before, and nothing is left behind it.
    obtain ⟨words, alone, -⟩ := parts split reached
    refine ⟨words, ?_⟩
    unfold scan
    rwa [String.toList_ofList]

/-- Half an operator behind a comment with bad characters, a digit that only a word may have, and
an exponent without digits. -/
def halfOperator : String := "x٣_ //_|\n2.5e+|&"

/-- The bar is where scanning fails.  Neither the comment nor the underscore are. -/
theorem halfOperator_fails_at_bar :
    scan halfOperator = .error ⟨.unrecognised "|", ⟨15, 2, 6⟩⟩ ∧
      ∃ front rest, halfOperator.toList = front ++ '|' :: rest ∧
        Reaches patterns halfOperator.toList ('|' :: rest) ∧ Bad '|' rest ∧
          ∃ words, scan (String.ofList front) = .ok (words ++ [eof ⟨15, 2, 6⟩]) := by
  have failed : scan halfOperator = .error ⟨.unrecognised "|", ⟨15, 2, 6⟩⟩ := by
    decide +kernel
  obtain ⟨front, c, rest, split, reached, bad, same⟩ :=
    ((scan_fails_at_bad halfOperator).1 _).mp failed
  obtain ⟨fault, place⟩ := Diagnostic.mk.inj same
  -- The character is the one that the message gives.
  have bar : '|' = c := by
    have texts := congrArg String.toList (Fault.unrecognised.inj fault)
    simpa using texts
  subst bar
  obtain ⟨words, alone⟩ := (scan_fails_at_bad halfOperator).2 front '|' rest split reached bad
  rw [← place] at alone
  exact ⟨failed, front, rest, split, reached, bad, words, alone⟩

end Token

end Frontend

import Frontend.Proofs.Grammar.Reading
import Frontend.Proofs.Token.Tiling
import Mathlib.Data.List.Find
import Mathlib.Data.List.TakeWhile

/-!
# Lexemes

The texts of tokens, apart from the text that they stand in.  How much a pattern takes
depends on a little more than what it takes, and this module says on how little.

* **`Pattern.length_take`**: what a pattern takes, it takes without the text behind it, too.
* **`Pattern.length_append`**: a delimiter behind a text lets no pattern take more than before.
* **`IsLexeme`**: a text that is scanned as one token of a kind.  Every token has such a text.
* **`scan_joined`**: lexemes that are written one after the other, with spaces where one could
  run into the next, are scanned as just these lexemes.
-/

namespace Frontend

/-- No digit is a letter. -/
theorem not_isLetter_of_isDigit {d : Char} (h : d.isDigit = true) : Unicode.isLetter d = false := by
  -- Digits are ASCII, where letters are the characters of two other ranges.
  have range : 48 ≤ d.toNat ∧ d.toNat ≤ 57 := by
    simp only [Char.isDigit, Bool.and_eq_true, decide_eq_true_eq, ge_iff_le,
      UInt32.le_iff_toNat_le] at h
    exact h
  have small : Unicode.isAscii d = true := by
    simp only [Unicode.isAscii, decide_eq_true_eq]
    omega
  have upper : 'A'.val.toNat = 65 := rfl
  have lower : 'a'.val.toNat = 97 := rfl
  have size : d.val.toNat = d.toNat := rfl
  rw [Unicode.isLetter, if_pos small]
  delta Char.isAlpha Char.isUpper Char.isLower
  simp only [Bool.or_eq_false_iff, Bool.and_eq_false_iff, decide_eq_false_iff_not, ge_iff_le,
    UInt32.le_iff_toNat_le]
  omega

namespace Pattern

variable {text rest : List Char} {n : Nat}

/-! ## Without the text behind -/

theorem length_takeWhile_take (p : Char → Bool) :
    ((text.take n).takeWhile p).length = min n (text.takeWhile p).length := by
  rw [← List.take_takeWhile, List.length_take]

theorem digitsLength_take : digitsLength (text.take n) = min n (digitsLength text) :=
  length_takeWhile_take Char.isDigit

theorem digitsLength_le_length (text : List Char) : digitsLength text ≤ text.length :=
  (List.takeWhile_prefix _).length_le

theorem fractionLength_le_length (text : List Char) : fractionLength text ≤ text.length := by
  unfold fractionLength
  split
  · rename_i rest
    have digits := digitsLength_le_length rest
    rw [List.length_cons]
    split <;> omega
  · exact Nat.zero_le _

theorem exponentLength_le_length (text : List Char) : exponentLength text ≤ text.length := by
  unfold exponentLength
  split
  · rename_i mark rest
    have digits := digitsLength_le_length (rest.drop ((rest.take 1).countP isSign))
    have sign : (rest.take 1).countP isSign ≤ rest.length :=
      Nat.le_trans List.countP_le_length (List.length_take_le' _ _)
    rw [List.length_drop] at digits
    simp only [List.length_cons]
    split
    · split <;> omega
    · exact Nat.zero_le _
  · exact Nat.zero_le _

/-- A pattern takes no more than there is. -/
theorem length_le_length (pattern : Pattern) (text : List Char) :
    pattern.length text ≤ text.length := by
  -- Every count is that of a beginning, or a sum of such for adjoining parts.
  cases pattern with
  | blank => exact (List.takeWhile_prefix _).length_le
  | comment =>
    simp only [length]
    unfold commentLength
    split
    · rename_i rest
      have inline := (List.takeWhile_prefix (l := rest) fun c => c != '\n').length_le
      simp only [List.length_cons]
      omega
    · exact Nat.zero_le _
  | number =>
    simp only [length, numberLength]
    have digits := digitsLength_le_length text
    have fraction := fractionLength_le_length (text.drop (digitsLength text))
    have exponent := exponentLength_le_length
      (text.drop (digitsLength text + fractionLength (text.drop (digitsLength text))))
    -- The parts of a number are counted in what is left behind the one before.
    rw [List.length_drop] at fraction exponent
    split <;> omega
  | word =>
    cases text with
    | nil => exact Nat.le_refl _
    | cons c rest =>
      have inside := (List.takeWhile_prefix (l := rest) isWordChar).length_le
      simp only [length, wordLength, List.length_cons]
      split <;> omega
  | symbol kind own =>
    simp only [length]
    split
    · rename_i isPrefix
      exact (List.isPrefixOf_iff_prefix.mp isPrefix).length_le
    · exact Nat.zero_le _

theorem fractionLength_take (h : fractionLength text ≤ n) :
    fractionLength (text.take n) = fractionLength text := by
  cases n with
  | zero =>
    rw [List.take_zero, Nat.le_zero.mp h]
    rfl
  | succ n =>
    cases text with
    | nil => rfl
    | cons c rest =>
      rw [List.take_succ_cons]
      -- The point is taken with the digits behind it, and all of those are kept.
      by_cases point : c = '.'
      · subst point
        simp only [fractionLength] at h ⊢
        rw [digitsLength_take]
        by_cases none : digitsLength rest = 0
        · simp [none]
        · rw [if_neg none] at h
          have whole : min n (digitsLength rest) = digitsLength rest := by omega
          rw [whole]
      · simp [fractionLength, point]

theorem exponentLength_take (h : exponentLength text ≤ n) :
    exponentLength (text.take n) = exponentLength text := by
  cases n with
  | zero =>
    rw [List.take_zero, Nat.le_zero.mp h]
    rfl
  | succ n =>
    cases text with
    | nil => rfl
    | cons mark rest =>
      rw [List.take_succ_cons]
      simp only [exponentLength] at h ⊢
      by_cases marks : isExponentMark mark
      · simp only [if_pos marks] at h ⊢
        cases n with
        | zero =>
          -- Only the mark is left, but then no digits were taken behind it.
          have none : digitsLength (rest.drop ((rest.take 1).countP isSign)) = 0 := by
            by_contra some
            rw [if_neg some] at h
            omega
          rw [if_pos none]
          rfl
        | succ n =>
          have sign : (rest.take (n + 1)).take 1 = rest.take 1 := by
            rw [List.take_take, Nat.min_eq_left (by omega)]
          have short : (rest.take 1).countP isSign ≤ 1 :=
            Nat.le_trans List.countP_le_length (List.length_take_le _ _)
          rw [sign, List.drop_take, digitsLength_take]
          by_cases none : digitsLength (rest.drop ((rest.take 1).countP isSign)) = 0
          · rw [if_pos none, none, Nat.min_zero, if_pos rfl]
          · rw [if_neg none] at h
            rw [Nat.min_eq_right (by omega)]
      · simp only [if_neg marks]

theorem numberLength_take (h : numberLength text ≤ n) :
    numberLength (text.take n) = numberLength text := by
  unfold numberLength at h ⊢
  rw [digitsLength_take]
  by_cases none : digitsLength text = 0
  · rw [if_pos none, none, Nat.min_zero, if_pos rfl]
  · simp only [if_neg none] at h ⊢
    have digits : min n (digitsLength text) = digitsLength text := by omega
    simp only [digits, if_neg none, List.drop_take]
    rw [fractionLength_take (by omega), exponentLength_take (by omega)]

/-- What does not begin with two slashes is no comment. -/
theorem commentLength_of_ne (other : ∀ back, text ≠ '/' :: '/' :: back) :
    commentLength text = 0 := by
  unfold commentLength
  split
  · rename_i back
    exact absurd rfl (other back)
  · rfl

theorem commentLength_take (h : commentLength text ≤ n) :
    commentLength (text.take n) = commentLength text := by
  by_cases slashes : ∃ rest, text = '/' :: '/' :: rest
  · obtain ⟨rest, rfl⟩ := slashes
    simp only [commentLength] at h
    obtain ⟨m, rfl⟩ : ∃ m, n = m + 2 := ⟨n - 2, by omega⟩
    simp only [List.take_succ_cons, commentLength]
    rw [length_takeWhile_take]
    omega
  · have other : ∀ back, text ≠ '/' :: '/' :: back := fun back same => slashes ⟨back, same⟩
    rw [commentLength_of_ne other]
    apply commentLength_of_ne
    intro back shorter
    -- A text that begins with two slashes is no shorter part of one that does not.
    obtain ⟨behind, whole⟩ := List.take_prefix n text
    rw [shorter] at whole
    exact other _ whole.symm

theorem wordLength_take (h : wordLength text ≤ n) : wordLength (text.take n) = wordLength text := by
  cases text with
  | nil => rw [List.take_nil]
  | cons c rest =>
    simp only [wordLength] at h ⊢
    by_cases letter : Unicode.isLetter c
    · rw [if_pos letter] at h
      obtain ⟨m, rfl⟩ : ∃ m, n = m + 1 := ⟨n - 1, by omega⟩
      simp only [List.take_succ_cons, if_pos letter]
      rw [length_takeWhile_take]
      omega
    · cases n with
      | zero => simp [letter]
      | succ n => simp [letter]

/-- A text of that many characters begins with the same symbol. -/
theorem prefix_take_iff {own : List Char} (h : own <+: text → own.length ≤ n) :
    own <+: text.take n ↔ own <+: text := by
  constructor
  · intro shorter
    exact shorter.trans (List.take_prefix n text)
  · intro longer
    have size := longer.length_le
    have enough := h longer
    apply List.prefix_of_prefix_length_le longer (List.take_prefix n text)
    rw [List.length_take]
    omega

/-- What a pattern takes of a text, it takes of any longer part of it that the text begins
with. -/
theorem length_take {pattern : Pattern} (h : pattern.length text ≤ n) :
    pattern.length (text.take n) = pattern.length text := by
  -- What a pattern takes ends before the text is cut.
  cases pattern with
  | blank =>
    simp only [length] at h ⊢
    rw [length_takeWhile_take]
    omega
  | comment => exact commentLength_take h
  | number => exact numberLength_take h
  | word => exact wordLength_take h
  | symbol kind own =>
    simp only [length, List.isPrefixOf_iff_prefix] at h ⊢
    -- A symbol that the text begins with is short enough to be left whole.
    have enough : own <+: text → own.length ≤ n := by
      intro isPrefix
      rwa [if_pos isPrefix] at h
    simp only [prefix_take_iff enough]

/-! ## In front of a delimiter -/

/-- Whether no token but one that `c` begins has `c` in it. -/
def isDelimiter (c : Char) : Bool := Unicode.isBlank c || ['(', ')', ',', ';'].contains c

/-- A text behind a lexeme, if there is one, begins with a delimiter. -/
def Delimited (rest : List Char) : Prop := ∀ c ∈ rest.head?, isDelimiter c = true

/-- The delimiters, one by one. -/
theorem isDelimiter_iff_mem {c : Char} :
    isDelimiter c = true ↔ c ∈ Unicode.blanks ++ ['(', ')', ',', ';'] := by
  simp [isDelimiter, Unicode.isBlank]

/-- A character that is no part of a comment's beginning, a number or a word. -/
structure Outside (c : Char) : Prop where
  digit : c.isDigit = false
  point : c ≠ '.'
  slash : c ≠ '/'
  mark : isExponentMark c = false
  sign : isSign c = false
  letter : Unicode.isLetter c = false
  wordChar : isWordChar c = false

/-- No delimiter goes on with a number or a word. -/
theorem outside_of_isDelimiter {c : Char} (h : isDelimiter c = true) : Outside c := by
  have all : ((Unicode.blanks ++ ['(', ')', ',', ';']).all fun c => decide (c.isDigit = false ∧
      c ≠ '.' ∧ c ≠ '/' ∧ isExponentMark c = false ∧ isSign c = false ∧
      Unicode.isLetter c = false ∧ isWordChar c = false)) = true := by
    decide +kernel
  obtain ⟨digit, point, slash, mark, sign, letter, wordChar⟩ :=
    of_decide_eq_true (List.all_eq_true.mp all c (isDelimiter_iff_mem.mp h))
  exact ⟨digit, point, slash, mark, sign, letter, wordChar⟩

/-- A run of characters ends in front of a text that begins with none of them. -/
theorem takeWhile_append_of_head {p : Char → Bool} (h : ∀ c ∈ rest.head?, p c = false) :
    (text ++ rest).takeWhile p = text.takeWhile p := by
  have none : rest.takeWhile p = [] := by
    cases rest with
    | nil => rfl
    | cons c others => exact List.takeWhile_cons_of_neg (by simp [h c rfl])
  rw [List.takeWhile_append, none, List.append_nil]
  split
  · rename_i whole
    exact ((List.takeWhile_prefix p).eq_of_length whole).symm
  · rfl

/-- No symbol has a delimiter behind its first character. -/
theorem plain_of_mem_table {kind : Kind} {own : List Char} (listed : symbol kind own ∈ table) :
    ∀ c ∈ own.tail, isDelimiter c = false := by
  have all : (table.all fun
      | symbol _ own => own.tail.all fun c => !isDelimiter c
      | _ => true) = true := by
    decide +kernel
  simpa using List.all_eq_true.mp all _ listed

section Delimited

variable (delimited : Delimited rest)
include delimited

theorem digitsLength_append : digitsLength (text ++ rest) = digitsLength text := by
  unfold digitsLength
  rw [takeWhile_append_of_head fun c h => (outside_of_isDelimiter (delimited c h)).digit]

theorem fractionLength_append : fractionLength (text ++ rest) = fractionLength text := by
  cases text with
  | nil =>
    cases rest with
    | nil => rfl
    | cons c others =>
      have point := (outside_of_isDelimiter (delimited c rfl)).point
      simp [fractionLength, point]
  | cons c others =>
    by_cases point : c = '.'
    · subst point
      simp only [List.cons_append, fractionLength, digitsLength_append delimited]
    · simp [fractionLength, point]

theorem exponentLength_append : exponentLength (text ++ rest) = exponentLength text := by
  cases text with
  | nil =>
    cases rest with
    | nil => rfl
    | cons c others =>
      have mark := (outside_of_isDelimiter (delimited c rfl)).mark
      simp [exponentLength, mark]
  | cons mark others =>
    -- A sign behind the mark is the same, since no delimiter is one.
    have sign : ((others ++ rest).take 1).countP isSign = (others.take 1).countP isSign := by
      cases others with
      | cons c others => rfl
      | nil =>
        cases rest with
        | nil => rfl
        | cons c rest =>
          have plain := (outside_of_isDelimiter (delimited c rfl)).sign
          simp [plain]
    have short : (others.take 1).countP isSign ≤ others.length :=
      Nat.le_trans List.countP_le_length (List.length_take_le' _ _)
    simp only [List.cons_append, exponentLength, sign, List.drop_append_of_le_length short,
      digitsLength_append delimited]

theorem numberLength_append : numberLength (text ++ rest) = numberLength text := by
  unfold numberLength
  have digits := digitsLength_le_length text
  have whole := fractionLength_le_length (text.drop (digitsLength text))
  rw [List.length_drop] at whole
  simp only [digitsLength_append delimited, List.drop_append_of_le_length digits,
    fractionLength_append delimited]
  rw [List.drop_append_of_le_length (by omega), exponentLength_append delimited]

theorem wordLength_append : wordLength (text ++ rest) = wordLength text := by
  cases text with
  | nil =>
    cases rest with
    | nil => rfl
    | cons c others =>
      have letter := (outside_of_isDelimiter (delimited c rfl)).letter
      simp [wordLength, letter]
  | cons c others =>
    simp only [List.cons_append, wordLength]
    rw [takeWhile_append_of_head fun c h => (outside_of_isDelimiter (delimited c h)).wordChar]

/-- No symbol of the table goes on with a delimiter. -/
theorem symbol_prefix_append {kind : Kind} {own : List Char} (listed : symbol kind own ∈ table)
    (ne : text ≠ []) : own <+: text ++ rest ↔ own <+: text := by
  constructor
  · intro isPrefix
    obtain inside | ⟨back, rfl⟩ :=
      List.prefix_or_prefix_of_prefix isPrefix (List.prefix_append text rest)
    · exact inside
    · have behind := (List.prefix_append_right_inj text).mp isPrefix
      cases back with
      | nil => simp
      | cons d back =>
        -- The symbol would have a delimiter in it, which is not its first character.
        obtain ⟨others, rfl⟩ := behind
        obtain ⟨c, text, rfl⟩ := List.exists_cons_of_ne_nil ne
        have plain := plain_of_mem_table listed d (by simp)
        rw [delimited d rfl] at plain
        cases plain
  · intro inside
    exact inside.trans (List.prefix_append text rest)

/-- A delimiter behind a text lets no pattern take more of it, except for those that make no
token. -/
theorem length_append {pattern : Pattern} (listed : pattern ∈ table) (ne : text ≠ [])
    (silent : pattern = blank ∨ pattern = comment → pattern.length text = 0) :
    pattern.length (text ++ rest) = pattern.length text := by
  obtain ⟨c, others, rfl⟩ := List.exists_cons_of_ne_nil ne
  cases pattern with
  | blank =>
    -- The text does not begin with a blank, so what follows does not matter.
    rw [silent (Or.inl rfl)]
    have none := silent (Or.inl rfl)
    simp only [length] at none ⊢
    by_cases isBlank : Unicode.isBlank c
    · simp [isBlank] at none
    · simp [isBlank]
  | comment =>
    rw [silent (Or.inr rfl)]
    have none := silent (Or.inr rfl)
    simp only [length] at none ⊢
    -- With two characters the comment would be in the text already.
    cases others with
    | cons d others =>
      by_cases slashes : c = '/' ∧ d = '/'
      · obtain ⟨rfl, rfl⟩ := slashes
        simp only [commentLength] at none
        omega
      · apply commentLength_of_ne
        intro back same
        cases same
        exact slashes ⟨rfl, rfl⟩
    | nil =>
      cases rest with
      | nil => exact none
      -- With a single character, the delimiter behind it is no slash.
      | cons d rest =>
        have slash := (outside_of_isDelimiter (delimited d rfl)).slash
        simp [commentLength, slash]
  | number => exact @numberLength_append (c :: others) rest delimited
  | word => exact @wordLength_append (c :: others) rest delimited
  | symbol kind own =>
    simp only [length, List.isPrefixOf_iff_prefix, symbol_prefix_append delimited listed ne]

end Delimited

/-! ## The first pattern -/

variable {pattern : Pattern}

/-- The first pattern that applies is the one in front of which none does. -/
theorem first?_eq_some_iff : first? text = some pattern ↔ pattern.length text ≠ 0 ∧
    ∃ before behind, table = before ++ pattern :: behind ∧
      ∀ other ∈ before, other.length text = 0 := by
  unfold first?
  rw [List.find?_eq_some_iff_append]
  simp

/-- Some pattern applies only where there is something. -/
theorem ne_nil_of_first? (h : first? text = some pattern) : text ≠ [] := by
  have taken := length_pos_of_first? h
  have whole := pattern.length_le_length text
  exact List.ne_nil_of_length_pos (by omega)

/-- The first pattern is the same for a text of which it takes as much, if no other pattern takes
something of that text alone. -/
theorem first?_of_length_eq {text' : List Char} (h : first? text = some pattern)
    (same : pattern.length text' = pattern.length text)
    (others : ∀ other ∈ table, other.length text = 0 → other.length text' = 0) :
    first? text' = some pattern := by
  obtain ⟨applies, before, behind, split, none⟩ := first?_eq_some_iff.mp h
  refine first?_eq_some_iff.mpr ⟨by rwa [same], before, behind, split, ?_⟩
  intro other front
  have listed : other ∈ table := by
    rw [split]
    exact List.mem_append_left _ front
  exact others other listed (none other front)

/-- The same pattern takes a lexeme when nothing stands behind it. -/
theorem first?_take (h : first? text = some pattern) :
    first? (text.take (pattern.length text)) = some pattern := by
  apply first?_of_length_eq h (length_take (Nat.le_refl _))
  intro other _ none
  rw [length_take (by omega), none]

/-- The same pattern takes a lexeme when a delimiter stands behind it. -/
theorem first?_append (h : first? text = some pattern) (token : pattern ≠ blank ∧ pattern ≠ comment)
    (delimited : Delimited rest) :
    first? (text ++ rest) = some pattern ∧ pattern.length (text ++ rest) = pattern.length text := by
  -- Neither this pattern nor one in front of it takes more than before.
  have listed : pattern ∈ table := List.mem_of_find?_eq_some h
  have ne : text ≠ [] := ne_nil_of_first? h
  have same : pattern.length (text ++ rest) = pattern.length text :=
    length_append delimited listed ne fun silent => absurd silent (by simp [token])
  refine ⟨first?_of_length_eq h same ?_, same⟩
  intro other listed none
  rw [length_append delimited listed ne fun _ => none, none]

/-- White space stands first in the table. -/
theorem first?_of_isBlank {c : Char} (h : Unicode.isBlank c = true) (rest : List Char) :
    first? (c :: rest) = some blank := by
  simp [first?, table, length, h]

/-- `lexeme` is scanned as one token of the given kind. -/
def IsLexeme (kind : Kind) (lexeme : List Char) : Prop :=
  ∃ pattern, first? lexeme = some pattern ∧ pattern.length lexeme = lexeme.length ∧
    pattern.kind? lexeme = some kind

end Pattern

namespace Token

open Pattern (IsLexeme Delimited)

variable {p : Position} {text rest lexeme : List Char} {kind : Kind}

/-! ## Scanning lexemes -/

/-- One step of scanning. -/
theorem scanFrom_of_first? {pattern : Pattern} (h : Pattern.first? text = some pattern) :
    scanFrom p text =
      match scanFrom (p.after (text.take (pattern.length text))) (text.drop (pattern.length text)) with
      | .error d => .error d
      | .ok tokens =>
        .ok ((ofLexeme? pattern (text.take (pattern.length text))
          ⟨p, p.after (text.take (pattern.length text))⟩).toList ++ tokens) := by
  cases text with
  | nil => cases h
  | cons c rest =>
    rw [scanFrom]
    split
    · rename_i missing
      rw [missing] at h
      cases h
    · rename_i found
      rw [found] at h
      cases h
      rfl

/-- A character that starts no token is the end of scanning. -/
theorem scanFrom_of_none {c : Char} {rest : List Char} (h : Pattern.first? (c :: rest) = none) :
    scanFrom p (c :: rest) = .error ⟨.unrecognised (String.singleton c), p⟩ := by
  rw [scanFrom]
  split
  · rfl
  · rename_i found
    rw [found] at h
    cases h

/-- Every token of a text but the last one has a lexeme for its text. -/
theorem isLexeme_of_scanFrom {tokens : List Token} (h : scanFrom p text = .ok tokens) :
    ∃ words last, tokens = words ++ [eof last] ∧ ∀ t ∈ words, IsLexeme t.kind t.text.toList := by
  fun_induction scanFrom p text generalizing tokens with
  | case1 p =>
    cases h
    exact ⟨[], p, rfl, fun t none => absurd none List.not_mem_nil⟩
  | case2 => cases h
  | case3 => cases h
  -- What is read here, and in front of what is read behind it.
  | case4 p c rest pattern found size lexeme stop others =>
    rename_i read ih
    cases h
    obtain ⟨words, last, rfl, lexemes⟩ := ih read
    refine ⟨(ofLexeme? pattern lexeme ⟨p, stop⟩).toList ++ words, last, ?_, ?_⟩
    · rw [List.append_assoc]
    · intro t member
      rcases List.mem_append.mp member with here | later
      · -- What the pattern takes here, it takes of the lexeme alone.
        obtain ⟨kind, made, rfl⟩ := Option.map_eq_some_iff.mp (Option.mem_toList.mp here)
        refine ⟨pattern, ?_, ?_, ?_⟩
        · rw [String.toList_ofList]
          exact Pattern.first?_take found
        · rw [String.toList_ofList]
          have taken : pattern.length lexeme = size := Pattern.length_take (Nat.le_refl _)
          rw [taken, List.length_take, Nat.min_eq_left (pattern.length_le_length _)]
        · rwa [String.toList_ofList]
      · exact lexemes t later

theorem isLexeme_of_mem {tokens : List Token} {t : Token} (h : scanFrom p text = .ok tokens)
    (member : t ∈ tokens) (word : t.kind ≠ .eof) : IsLexeme t.kind t.text.toList := by
  obtain ⟨body, last, rfl, lexemes⟩ := isLexeme_of_scanFrom h
  rcases List.mem_append.mp member with inside | ends
  · exact lexemes t inside
  · rw [List.mem_singleton.mp ends] at word
    exact absurd rfl word

/-- The tokens of a text are the result of scanning it. -/
theorem scan_eq_of_tokens {source : String} {ts : List Token}
    (h : Frontend.tokens source = .ok ts) :
    scan source = .ok ts := by
  unfold Frontend.tokens at h
  cases read : scan source with
  | error e =>
    rw [read] at h
    cases h
  | ok ts' =>
    rw [read] at h
    rw [Except.ok.inj h]

/-- The words of a text end with the end of it, which is nowhere else. -/
theorem closed_of_scan {source : String} {ts : List Token} (h : scan source = .ok ts) :
    Closed (ts.map word) := by
  have tiles : Tiles [] source.toList ts := tiles_of_scanFrom h
  obtain ⟨body, rfl, inside⟩ := tiles.ended
  rw [List.map_append]
  clear h tiles
  induction body with
  | nil => exact .stop rfl
  | cons t body ih =>
    rw [List.forall_mem_cons] at inside
    exact .cons inside.1 (ih inside.2)

/-- Wherever `text` stands, it is scanned as the given words. -/
def Reads (text : List Char) (words : List Word) : Prop :=
  ∀ p, ∃ tokens, scanFrom p text = .ok tokens ∧ tokens.map word = words

/-- The word of the token that ends every text. -/
def endWord : Word := ⟨.eof, "EOF"⟩

variable {words : List Word}

theorem reads_nil : Reads [] [endWord] := by
  intro p
  exact ⟨[eof p], by rw [scanFrom], rfl⟩

variable {w : Word}

/-- A word is scanned where the pattern that makes it takes no more than its text. -/
theorem Reads.cons {pattern : Pattern} (h : Pattern.first? (w.text.toList ++ rest) = some pattern)
    (whole : pattern.length (w.text.toList ++ rest) = w.text.toList.length)
    (made : pattern.kind? w.text.toList = some w.kind) (reads : Reads rest words) :
    Reads (w.text.toList ++ rest) (w :: words) := by
  intro p
  obtain ⟨tokens, scanned, rfl⟩ := reads (p.after w.text.toList)
  rw [scanFrom_of_first? h, whole, List.take_left, List.drop_left, scanned]
  refine ⟨_, rfl, ?_⟩
  rw [ofLexeme?, made]
  simp [Token.word]

/-- A word is scanned in front of a delimiter. -/
theorem Reads.delimited (isLexeme : IsLexeme w.kind w.text.toList) (delimited : Delimited rest)
    (reads : Reads rest words) : Reads (w.text.toList ++ rest) (w :: words) := by
  obtain ⟨pattern, found, whole, made⟩ := isLexeme
  have token : pattern ≠ .blank ∧ pattern ≠ .comment := by
    constructor
    all_goals
      rintro rfl
      cases made
  obtain ⟨found', same⟩ := Pattern.first?_append found token delimited
  exact Reads.cons found' (same.trans whole) made reads

/-- An opening parenthesis is scanned in front of anything. -/
theorem Reads.opened (isLexeme : IsLexeme w.kind w.text.toList) (opened : w.text = "(")
    (reads : Reads rest words) : Reads (w.text.toList ++ rest) (w :: words) := by
  -- Nothing that follows can change what an opening parenthesis is read as.
  have text : w.text.toList = ['('] := by
    rw [opened]
    rfl
  have found : Pattern.first? ('(' :: rest) = some (.symbol .openParen ['(']) := by
    have blank : Unicode.isBlank '(' = false := by decide
    have letter : Unicode.isLetter '(' = false := by decide
    simp [Pattern.first?, Pattern.table, Pattern.length, Pattern.commentLength,
      Pattern.numberLength, Pattern.digitsLength, Pattern.wordLength, blank, letter]
  -- The word by itself is read as the parenthesis, too.
  have kind : w.kind = .openParen := by
    rw [text] at isLexeme
    obtain ⟨pattern, alone, -, made⟩ := isLexeme
    have same : pattern = .symbol .openParen ['('] :=
      Option.some.inj (alone.symm.trans (by decide +kernel))
    rw [same] at made
    exact (Option.some.inj made).symm
  refine Reads.cons (by rwa [text]) ?_ ?_ reads
  · rw [text]
    rfl
  · rw [kind]
    rfl

/-- A space is skipped. -/
theorem Reads.space (reads : Reads rest words)
    (solid : ∀ c ∈ rest.head?, Unicode.isBlank c = false) : Reads (' ' :: rest) words := by
  -- A single blank, as the next character is none.
  have space : Unicode.isBlank ' ' = true := by decide
  have single : (' ' :: rest).takeWhile Unicode.isBlank = [' '] := by
    cases rest with
    | nil => rfl
    | cons c others => simp [space, solid c rfl]
  have found : Pattern.first? (' ' :: rest) = some .blank := by
    simp [Pattern.first?, Pattern.table, Pattern.length, space]
  have size : Pattern.length .blank (' ' :: rest) = 1 := by
    simp only [Pattern.length, single, List.length_singleton]
  intro p
  obtain ⟨tokens, scanned, rfl⟩ := reads (p.after [' '])
  rw [scanFrom_of_first? found, size]
  simp only [List.take_succ_cons, List.take_zero, List.drop_succ_cons, List.drop_zero, scanned]
  exact ⟨tokens, rfl, rfl⟩

/-- A lexeme begins with a character that is no white space. -/
theorem exists_cons_of_isLexeme (h : IsLexeme kind lexeme) :
    ∃ c others, lexeme = c :: others ∧ Unicode.isBlank c = false := by
  obtain ⟨pattern, found, whole, made⟩ := h
  cases lexeme with
  | nil =>
    have taken := Pattern.length_pos_of_first? found
    rw [whole] at taken
    cases taken
  | cons c others =>
    refine ⟨c, others, rfl, ?_⟩
    by_contra blank
    rw [Bool.not_eq_false] at blank
    rw [Pattern.first?_of_isBlank blank] at found
    cases found
    cases made

/-! ## Lexemes one after the other -/

/-- Words one after the other, with a space between two of them where `apart` asks for it. -/
def joined (apart : Word → Word → Bool) : List Word → List Char
  | [] => []
  | [w] => w.text.toList
  | w :: v :: ws =>
    w.text.toList ++ ((if apart w v then [' '] else []) ++ joined apart (v :: ws))

/-- Two words can stand next to each other without a space. -/
def MayTouch (w v : Word) : Prop := w.text = "(" ∨ Delimited v.text.toList

theorem head?_joined {apart : Word → Word → Bool} {w : Word} {ws : List Word}
    (isLexeme : IsLexeme w.kind w.text.toList) :
    (joined apart (w :: ws)).head? = w.text.toList.head? := by
  obtain ⟨c, others, text, -⟩ := exists_cons_of_isLexeme isLexeme
  cases ws with
  | nil => rfl
  | cons v ws => simp [joined, text]

/-- Words are scanned as what they are, however they are put together. -/
theorem reads_joined {apart : Word → Word → Bool} {ws : List Word}
    (touching : ∀ w v, apart w v = false → MayTouch w v)
    (lexemes : ∀ w ∈ ws, IsLexeme w.kind w.text.toList) :
    Reads (joined apart ws) (ws ++ [endWord]) := by
  -- On the words, each with what is read behind it.
  induction ws with
  | nil => exact reads_nil
  | cons w ws ih =>
    rw [List.forall_mem_cons] at lexemes
    obtain ⟨isLexeme, others⟩ := lexemes
    have reads := ih others
    cases ws with
    | nil =>
      have alone := Reads.delimited isLexeme (fun c none => by cases none) reads
      rwa [joined, List.append_nil] at alone
    | cons v ws =>
      -- The next word starts with a character that is no blank.
      have next := (List.forall_mem_cons.mp others).1
      obtain ⟨c, tail, text, solid⟩ := exists_cons_of_isLexeme next
      have head : (joined apart (v :: ws)).head? = some c := by
        rw [head?_joined next, text]
        rfl
      rw [joined, List.cons_append]
      -- With a space between them the two are apart anyway; without one they may touch.
      by_cases spaced : apart w v = true
      · rw [if_pos spaced]
        refine Reads.delimited isLexeme ?_ (reads.space ?_)
        · intro d first
          cases first
          decide
        · intro d first
          rw [head] at first
          cases first
          exact solid
      · rw [if_neg spaced, List.nil_append]
        rcases touching w v (by simpa using spaced) with opened | delimited
        · exact Reads.opened isLexeme opened reads
        · refine Reads.delimited isLexeme ?_ reads
          intro d first
          rw [head] at first
          rw [text] at delimited
          exact delimited d first

/-- **Words are scanned as what they are**, however they are put together. -/
theorem scan_joined {apart : Word → Word → Bool} {ws : List Word}
    (touching : ∀ w v, apart w v = false → MayTouch w v)
    (lexemes : ∀ w ∈ ws, IsLexeme w.kind w.text.toList) :
    ∃ tokens, scan (String.ofList (joined apart ws)) = .ok tokens ∧
      tokens.map word = ws ++ [endWord] := by
  have reads := reads_joined touching lexemes Position.first
  rwa [← String.toList_ofList (l := joined apart ws)] at reads

end Token

end Frontend

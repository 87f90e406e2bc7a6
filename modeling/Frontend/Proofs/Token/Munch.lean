import Frontend.Proofs.Token.Language

/-!
# The first match is the longest one

The table of patterns is ordered, and the scanner takes the first pattern that applies.  A scanner
that knows no order would compare what the patterns take, and take the most.  Both do the same,
since a pattern that stands in front of another one takes more wherever it applies at all.

* **`Pattern.Takes`**: a text begins with a lexeme that the expression of a pattern describes.
* **`Pattern.precedes`**: how two patterns in the table stand to each other.
* **`Pattern.length_lt_of_first?`**: the first pattern that applies takes more than any other one.
* **`Token.Munched`**: scanning with a set of patterns, by the longest lexeme.
* **`Token.first_match_is_longest`**: the scanner does just this.
-/

namespace Frontend

namespace Pattern

variable {text : List Char} {p q pattern : Pattern}

/-- A text begins with a lexeme that the expression of a pattern describes. -/
def Takes (pattern : Pattern) (text lexeme : List Char) : Prop :=
  lexeme <+: text ∧ lexeme ∈ pattern.regex.language

/-! ## Patterns in order -/

/-- The characters that a lexeme of a pattern begins with. -/
def opens : Pattern → Char → Bool
  | blank, c => Unicode.isBlank c
  | comment, c => c == '/'
  | number, c => c.isDigit
  | word, c => Unicode.isLetter c
  | symbol _ own, c => own.head? == some c

/-- A pattern applies only where one of its characters comes next. -/
theorem opens_of_length_ne_zero (applies : pattern.length text ≠ 0) :
    ∃ c rest, text = c :: rest ∧ pattern.opens c = true := by
  cases text with
  | nil =>
    have le := pattern.length_le_length []
    exact absurd (Nat.le_zero.mp le) applies
  | cons c rest =>
    refine ⟨c, rest, rfl, ?_⟩
    by_contra other
    apply applies
    -- A pattern that the first character does not open takes nothing.
    cases pattern with
    | blank => exact congrArg List.length (List.takeWhile_cons_of_neg other)
    | comment =>
      apply commentLength_of_ne
      intro back same
      cases same
      exact other rfl
    | number =>
      have none : digitsLength (c :: rest) = 0 :=
        congrArg List.length (List.takeWhile_cons_of_neg other)
      exact if_pos none
    | word => exact if_neg other
    | symbol kind own =>
      -- A symbol that the text begins with has the first character as its own.
      by_cases front : own.isPrefixOf (c :: rest)
      · simp only [length, if_pos front]
        cases own with
        | nil => rfl
        | cons c' own =>
          exfalso
          apply other
          obtain ⟨back, same⟩ := List.isPrefixOf_iff_prefix.mp front
          cases same
          exact beq_self_eq_true _
      · exact if_neg front

/-- Whether a pattern may stand in front of another one: they begin with different characters, or
what the second one takes is shorter. -/
def precedes : Pattern → Pattern → Bool
  | blank, comment | blank, number | blank, word | comment, number | comment, word
  | number, word => true
  | blank, symbol _ own => own.head?.all fun c => !Unicode.isBlank c
  | comment, symbol _ own => own.head? != some '/' || own.length < 2
  | number, symbol _ own => own.head?.all fun c => !c.isDigit
  | word, symbol _ own => own.head?.all fun c => !Unicode.isLetter c
  | symbol _ own, symbol _ other => !own.isPrefixOf other
  | _, _ => false

/-- The table is in order.  This alone depends on how it is written. -/
theorem table_precedes : table.Pairwise fun p q => precedes p q = true := by
  decide +kernel

/-- White space begins neither a comment nor a number nor a word. -/
theorem outside_of_isBlank {c : Char} (h : Unicode.isBlank c = true) : Outside c := by
  apply outside_of_isDelimiter
  unfold isDelimiter
  rw [h, Bool.true_or]

/-- A pattern that begins with other characters does not apply. -/
theorem length_lt_of_opens (applies : p.length text ≠ 0)
    (other : ∀ c, p.opens c = true → q.opens c = false) : q.length text < p.length text := by
  have none : q.length text = 0 := by
    by_contra some
    obtain ⟨c, rest, same, opened⟩ := opens_of_length_ne_zero applies
    obtain ⟨c', rest', same', opened'⟩ := opens_of_length_ne_zero some
    rw [same] at same'
    cases same'
    rw [other c opened] at opened'
    cases opened'
  omega

/-- A symbol that does not begin with a character of a class. -/
theorem head_ne_of_class {own : List Char} {class? : Char → Bool} {c : Char}
    (none : (own.head?.all fun c => !class? c) = true) (member : class? c = true) :
    (own.head? == some c) = false := by
  by_contra same
  rw [Bool.not_eq_false, beq_iff_eq] at same
  rw [same, Option.all_some, member] at none
  cases none

theorem length_symbol_le (kind : Kind) (own text : List Char) :
    (symbol kind own).length text ≤ own.length := by
  simp only [length]
  split
  · exact Nat.le_refl _
  · exact Nat.zero_le _

/-- The one symbol that begins like a comment is shorter than any comment. -/
theorem length_lt_of_comment (order : comment.precedes q = true)
    (applies : comment.length text ≠ 0) : q.length text < comment.length text := by
  obtain ⟨rest, rfl⟩ := exists_of_commentLength applies
  -- The only other symbol with that first character is division, which is shorter.
  by_cases slash : ∃ kind, q = symbol kind ['/']
  · obtain ⟨kind, rfl⟩ := slash
    have short := length_symbol_le kind ['/'] ('/' :: '/' :: rest)
    show _ < 2 + (rest.takeWhile fun c => c != '\n').length
    rw [List.length_singleton] at short
    omega
  · apply length_lt_of_opens applies
    intro c opened
    rw [show c = '/' from beq_iff_eq.mp opened]
    cases q with
    | blank | comment => cases order
    | number | word => decide
    | symbol kind own =>
      by_contra same
      rw [Bool.not_eq_false] at same
      have head : own.head? = some '/' := beq_iff_eq.mp same
      obtain ⟨others, rfl⟩ := List.head?_eq_some_iff.mp head
      apply slash
      refine ⟨kind, ?_⟩
      cases others with
      | nil => rfl
      | cons _ _ => cases order

/-- A symbol takes more than one that does not go on with it. -/
theorem length_lt_of_symbol {kind : Kind} {own : List Char}
    (order : (symbol kind own).precedes q = true) (applies : (symbol kind own).length text ≠ 0) :
    q.length text < (symbol kind own).length text := by
  cases q with
  | blank | comment | number | word => cases order
  | symbol kind' own' =>
    -- The symbol applies, and it comes before all of its own beginnings.
    have front : own <+: text := by
      by_contra other
      apply applies
      simp only [length, if_neg fun h => other (List.isPrefixOf_iff_prefix.mp h)]
    have longer : ¬ own <+: own' := by
      intro inside
      simp only [precedes, List.isPrefixOf_iff_prefix.mpr inside, Bool.not_true] at order
      cases order
    simp only [length, if_pos (List.isPrefixOf_iff_prefix.mpr front)] at applies ⊢
    by_cases front' : own'.isPrefixOf text
    · -- Of two beginnings of a text, the one that the other does not go on with is longer.
      rw [if_pos front']
      by_contra short
      apply longer
      exact List.prefix_of_prefix_length_le front (List.isPrefixOf_iff_prefix.mp front')
        (Nat.not_lt.mp short)
    · rw [if_neg front']
      omega

/-- **A pattern takes more than one that it may stand in front of**, wherever it applies. -/
theorem length_lt_of_precedes (order : p.precedes q = true) (applies : p.length text ≠ 0) :
    q.length text < p.length text := by
  -- White space, numbers and words begin with characters that no later pattern begins with.
  cases p with
  | blank =>
    apply length_lt_of_opens applies
    intro c blank
    have outside := outside_of_isBlank blank
    cases q with
    | blank => cases order
    | comment => exact beq_eq_false_iff_ne.mpr outside.slash
    | number => exact outside.digit
    | word => exact outside.letter
    | symbol kind own => exact head_ne_of_class order blank
  | comment => exact length_lt_of_comment order applies
  | number =>
    apply length_lt_of_opens applies
    intro c digit
    cases q with
    | blank | comment | number => cases order
    | word => exact not_isLetter_of_isDigit digit
    | symbol kind own => exact head_ne_of_class order digit
  | word =>
    apply length_lt_of_opens applies
    intro c letter
    cases q with
    | blank | comment | number | word => cases order
    | symbol kind own => exact head_ne_of_class order letter
  | symbol kind own => exact length_lt_of_symbol order applies

/-! ## The first match -/

variable {lexeme : List Char}

/-- What the expression of a pattern describes is no longer than what the pattern takes. -/
theorem length_le_of_takes (listed : pattern ∈ table) (takes : pattern.Takes text lexeme) :
    pattern.length text ≠ 0 ∧ lexeme.length ≤ pattern.length text := by
  have tried : lexeme.length ∈ pattern.regex.attempts text :=
    Regex.mem_attempts_iff.mpr ⟨lexeme, takes.2, takes.1, rfl⟩
  by_cases none : pattern.length text = 0
  · rw [fails_regex listed none] at tried
    cases tried
  · exact ⟨none, (greedy_regex none).longest _ tried⟩

/-- What a pattern takes is described by its expression. -/
theorem takes_of_length_ne_zero (applies : pattern.length text ≠ 0) :
    pattern.Takes text (text.take (pattern.length text)) := by
  have tried := List.mem_of_head? (greedy_regex applies).first
  obtain ⟨lexeme, described, front, size⟩ := Regex.mem_attempts_iff.mp tried
  rw [← size, ← List.prefix_iff_eq_take.mp front]
  exact ⟨front, described⟩

/-- What comes of the first pattern, in the order of the table, whose expression takes anything. -/
def firstMatch? (text : List Char) : Option (Pattern × Nat) :=
  table.findSome? fun pattern => (pattern.regex.find? text).map fun n => (pattern, n)

theorem find?_regex (listed : pattern ∈ table) : pattern.regex.find? text =
    if pattern.length text = 0 then none else some (pattern.length text) := by
  by_cases none : pattern.length text = 0
  · rw [if_pos none, (fails_regex listed none).find?]
  · rw [if_neg none, (greedy_regex none).first]

theorem findSome?_regex {patterns : List Pattern} (listed : ∀ p ∈ patterns, p ∈ table) :
    (patterns.findSome? fun p => (p.regex.find? text).map fun n => (p, n)) =
      (patterns.find? fun p => p.length text != 0).map fun p => (p, p.length text) := by
  induction patterns with
  | nil => rfl
  | cons p patterns ih =>
    rw [List.forall_mem_cons] at listed
    rw [List.findSome?_cons, List.find?_cons, find?_regex listed.1]
    by_cases none : p.length text = 0
    · simp only [none, if_true, Option.map_none, bne_self_eq_false]
      exact ih listed.2
    · simp only [none, if_false, Option.map_some, bne_iff_ne.mpr none]

/-- The scanner takes the first match of the table. -/
theorem firstMatch?_eq (text : List Char) :
    firstMatch? text = (first? text).map fun pattern => (pattern, pattern.length text) :=
  findSome?_regex fun _ listed => listed

/-- The first pattern that applies takes more than any other one that applies. -/
theorem length_lt_of_first? {other : Pattern} (found : first? text = some pattern)
    (listed : other ∈ table) (ne : other ≠ pattern) : other.length text < pattern.length text := by
  obtain ⟨applies, before, behind, split, none⟩ := first?_eq_some_iff.mp found
  rw [split] at listed
  -- What stands in front does not apply, and what stands behind takes less.
  rcases List.mem_append.mp listed with front | listed
  · rw [none other front]
    exact Nat.pos_of_ne_zero applies
  · rcases List.mem_cons.mp listed with same | back
    · exact absurd same ne
    · have order := table_precedes
      rw [split] at order
      have order := (List.pairwise_cons.mp (List.pairwise_append.mp order).2.1).1 other back
      exact length_lt_of_precedes order applies

/-- Where some pattern of the table describes a beginning of a text, one applies. -/
theorem exists_first?_of_takes (listed : pattern ∈ table) (takes : pattern.Takes text lexeme) :
    ∃ first, first? text = some first := by
  have applies := (length_le_of_takes listed takes).1
  apply Option.isSome_iff_exists.mp
  unfold first?
  rw [List.find?_isSome]
  exact ⟨pattern, listed, bne_iff_ne.mpr applies⟩

end Pattern

namespace Token

/-! ## Scanning without an order -/

variable {text lexeme : List Char} {pattern : Pattern} {p : Position}

/-- Of all beginnings of a text that the patterns of a set describe, `lexeme` is the longest one. -/
structure LongestIn (patterns : Set Pattern) (text lexeme : List Char) (pattern : Pattern) :
    Prop where
  listed : pattern ∈ patterns
  takes : pattern.Takes text lexeme
  longest : ∀ other ∈ patterns, ∀ lexeme', other.Takes text lexeme' →
    lexeme'.length ≤ lexeme.length

/-- Scanning with a set of patterns, which has no order: each token is made of the longest lexeme
that any of them describes. -/
inductive Munched (patterns : Set Pattern) :
    Position → List Char → Except Diagnostic (List Token) → Prop where
  | stop {p : Position} : Munched patterns p [] (.ok [eof p])
  | fails {p : Position} {c : Char} {rest : List Char}
      (none : ∀ pattern ∈ patterns, ∀ lexeme, ¬ pattern.Takes (c :: rest) lexeme) :
      Munched patterns p (c :: rest) (.error ⟨.unrecognised (String.singleton c), p⟩)
  | step {p : Position} {pattern : Pattern} {lexeme rest : List Char}
      {r : Except Diagnostic (List Token)}
      (longest : LongestIn patterns (lexeme ++ rest) lexeme pattern)
      (others : Munched patterns (p.after lexeme) rest r) :
      Munched patterns p (lexeme ++ rest)
        (r.map fun tokens => (ofLexeme? pattern lexeme ⟨p, p.after lexeme⟩).toList ++ tokens)

/-- The patterns of the language, as a set. -/
def patterns : Set Pattern := {pattern | pattern ∈ Pattern.table}

/-- The longest lexeme of all patterns is the one of the first pattern that applies. -/
theorem longestIn_iff : LongestIn patterns text lexeme pattern ↔
    Pattern.first? text = some pattern ∧ lexeme = text.take (pattern.length text) := by
  constructor
  · intro longest
    obtain ⟨first, found⟩ := Pattern.exists_first?_of_takes longest.listed longest.takes
    have listed : first ∈ Pattern.table := List.mem_of_find?_eq_some found
    have applies : first.length text ≠ 0 := Nat.ne_of_gt (Pattern.length_pos_of_first? found)
    have enough := longest.longest first listed _ (Pattern.takes_of_length_ne_zero applies)
    rw [List.length_take, Nat.min_eq_left (first.length_le_length text)] at enough
    obtain ⟨-, most⟩ := Pattern.length_le_of_takes longest.listed longest.takes
    -- No other pattern reaches what the first one takes.
    have same : pattern = first := by
      by_contra ne
      have less := Pattern.length_lt_of_first? found longest.listed ne
      omega
    rw [same] at most ⊢
    refine ⟨found, ?_⟩
    rw [List.prefix_iff_eq_take.mp longest.takes.1, Nat.le_antisymm most enough]
  · rintro ⟨found, rfl⟩
    have listed : pattern ∈ Pattern.table := List.mem_of_find?_eq_some found
    have applies : pattern.length text ≠ 0 := Nat.ne_of_gt (Pattern.length_pos_of_first? found)
    refine ⟨listed, Pattern.takes_of_length_ne_zero applies, ?_⟩
    intro other listed' lexeme' takes
    rw [List.length_take, Nat.min_eq_left (pattern.length_le_length text)]
    obtain ⟨-, most⟩ := Pattern.length_le_of_takes listed' takes
    by_cases same : other = pattern
    · rwa [same] at most
    · have less := Pattern.length_lt_of_first? found listed' same
      omega

/-- The longest lexeme is what the first pattern takes. -/
theorem LongestIn.taken {rest : List Char} (longest : LongestIn patterns (lexeme ++ rest) lexeme pattern) :
    Pattern.first? (lexeme ++ rest) = some pattern ∧
      pattern.length (lexeme ++ rest) = lexeme.length := by
  obtain ⟨found, same⟩ := longestIn_iff.mp longest
  have size := congrArg List.length same
  rw [List.length_take, Nat.min_eq_left (pattern.length_le_length _)] at size
  exact ⟨found, size.symm⟩

/-- The scanner does what the one without an order does. -/
theorem munched_scanFrom (p : Position) (text : List Char) :
    Munched patterns p text (scanFrom p text) := by
  generalize size : text.length = n
  induction n using Nat.strong_induction_on generalizing p text with
  | _ n ih =>
    cases found : Pattern.first? text with
    | none =>
      cases text with
      | nil =>
        rw [scanFrom]
        exact .stop
      | cons c rest =>
        rw [scanFrom_of_none found]
        refine .fails fun pattern listed lexeme takes => ?_
        obtain ⟨first, some⟩ := Pattern.exists_first?_of_takes listed takes
        rw [found] at some
        cases some
    | some pattern =>
      have longest := longestIn_iff.mpr ⟨found, rfl⟩
      have taken := Pattern.length_pos_of_first? found
      have whole := pattern.length_le_length text
      -- The rest is shorter, since a lexeme is never empty.
      have others := ih (text.drop (pattern.length text)).length
        (by rw [List.length_drop]; omega) (p.after (text.take (pattern.length text))) _ rfl
      generalize same : text.take (pattern.length text) = lexeme at longest others
      generalize behind : text.drop (pattern.length text) = rest at others
      have parts : lexeme ++ rest = text := by
        rw [← same, ← behind, List.take_append_drop]
      have step : scanFrom p text = (scanFrom (p.after lexeme) rest).map fun tokens =>
          (ofLexeme? pattern lexeme ⟨p, p.after lexeme⟩).toList ++ tokens := by
        rw [scanFrom_of_first? found, same, behind]
        cases scanFrom (p.after lexeme) rest <;> rfl
      rw [step]
      rw [← parts] at longest ⊢
      exact .step longest others

/-- The scanner without an order leaves no choice. -/
theorem scanFrom_eq_of_munched {r : Except Diagnostic (List Token)}
    (munched : Munched patterns p text r) : scanFrom p text = r := by
  induction munched with
  | stop => rw [scanFrom]
  | @fails p c rest none =>
    apply scanFrom_of_none
    by_contra some
    obtain ⟨pattern, found⟩ := Option.ne_none_iff_exists'.mp some
    have listed : pattern ∈ Pattern.table := List.mem_of_find?_eq_some found
    have applies := Nat.ne_of_gt (Pattern.length_pos_of_first? found)
    exact none pattern listed _ (Pattern.takes_of_length_ne_zero applies)
  | @step p pattern lexeme rest r longest others ih =>
    obtain ⟨found, size⟩ := longest.taken
    rw [scanFrom_of_first? found, size, List.take_left, List.drop_left, ih]
    cases r <;> rfl

/-- **The first match is the longest match.**  If the patterns of the table describe any beginning
of a text, the first one of them that matches takes a lexeme that is not empty, that is the longest
one of its own language, and that is longer than any one in the language of another pattern.  So
the scanner, which goes by the order of the table, does the same as one that knows the patterns
without an order and takes the longest lexeme. -/
theorem first_match_is_longest :
    (∀ text, (∃ pattern ∈ Pattern.table, ∃ lexeme, pattern.Takes text lexeme) →
        ∃ pattern lexeme, Pattern.firstMatch? text = some (pattern, lexeme.length) ∧
          Pattern.first? text = some pattern ∧ pattern.length text = lexeme.length ∧
            lexeme ≠ [] ∧ pattern.Takes text lexeme ∧
              (∀ lexeme', pattern.Takes text lexeme' → lexeme'.length ≤ lexeme.length) ∧
                ∀ other ∈ Pattern.table, other ≠ pattern → ∀ lexeme', other.Takes text lexeme' →
                  lexeme'.length < lexeme.length) ∧
      ∀ p text r, scanFrom p text = r ↔ Munched patterns p text r := by
  constructor
  · intro text ⟨pattern, listed, lexeme, takes⟩
    -- The first pattern that applies takes the lexeme; it is longer than the others by order.
    obtain ⟨first, found⟩ := Pattern.exists_first?_of_takes listed takes
    have taken := Pattern.length_pos_of_first? found
    have longest := longestIn_iff.mpr ⟨found, rfl⟩
    have size : (text.take (first.length text)).length = first.length text := by
      rw [List.length_take, Nat.min_eq_left (first.length_le_length text)]
    refine ⟨first, text.take (first.length text), ?_, found, size.symm, ?_, longest.takes, ?_, ?_⟩
    · rw [Pattern.firstMatch?_eq, found, size, Option.map_some]
    · exact List.ne_nil_of_length_pos (by omega)
    · exact longest.longest first longest.listed
    · intro other listed' ne lexeme' takes'
      have less := Pattern.length_lt_of_first? found listed' ne
      have most := (Pattern.length_le_of_takes listed' takes').2
      omega
  -- The relation leaves no choice, so it holds of what is computed and of nothing else.
  · intro p text r
    constructor
    · intro same
      rw [← same]
      exact munched_scanFrom p text
    · exact scanFrom_eq_of_munched

/-- Two stars, which are one token and might have been two. -/
def adjacentStars : List Char := ['*', '*', '2', '.', '5', 'e', 'x']

/-- At `**2.5ex` the pattern of `**` matches first, and takes more than the one of `*`. -/
theorem adjacentStars_longest :
    (∃ (pattern : Pattern) (lexeme : List Char),
      Pattern.firstMatch? adjacentStars = some (pattern, lexeme.length) ∧ lexeme ≠ [] ∧
        ∀ other ∈ Pattern.table, other ≠ pattern → ∀ lexeme',
          other.Takes adjacentStars lexeme' → lexeme'.length < lexeme.length) ∧
      Pattern.firstMatch? adjacentStars = some (.symbol .starStar ['*', '*'], 2) ∧
        Pattern.firstMatch? (adjacentStars.drop 2) = some (.number, 3) ∧
          (Pattern.symbol .star ['*']).Takes adjacentStars ['*'] ∧
            Munched patterns .first adjacentStars (scanFrom .first adjacentStars) := by
  have star : (Pattern.symbol .star ['*']).Takes adjacentStars ['*'] :=
    ⟨List.prefix_append ['*'] _, rfl⟩
  obtain ⟨pattern, lexeme, first, -, -, some, -, -, most⟩ :=
    first_match_is_longest.1 adjacentStars ⟨_, by decide, _, star⟩
  refine ⟨⟨pattern, lexeme, first, some, most⟩, by decide +kernel, by decide +kernel, star, ?_⟩
  exact (first_match_is_longest.2 _ _ _).mp rfl

end Token

end Frontend

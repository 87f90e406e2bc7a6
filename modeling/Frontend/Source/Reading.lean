import Frontend.Source.Position

/-!
# Reading through a text

A **reading** of a text is a position in it together with the text that is still
ahead.  It moves forward by a number of bytes.  A character is never taken
apart: a move that would end inside one is refused, and a move past the end
stops at the end.  Where a move leads is added up in 64 bits before that, and a
move for which they do not suffice is refused as well.
-/

namespace Frontend

/-- A position in a text, with the text ahead of it. -/
structure Reading where
  position : Position
  remainder : List Char
deriving DecidableEq

namespace Reading

def ofText (text : String) : Reading := ⟨Position.first, text.toList⟩

def atEnd (r : Reading) : Bool := r.remainder.isEmpty

/-- Cuts a text behind its first `bytes` bytes, or behind all of it if it is
shorter; nothing if these bytes end inside a character. -/
def split? (bytes : Nat) : List Char → Option (List Char × List Char)
  | [] => some ([], [])
  | c :: rest =>
    if bytes = 0 then some ([], c :: rest)
    else if c.utf8Size ≤ bytes then
      (split? (bytes - c.utf8Size) rest).map fun (text, back) => (c :: text, back)
    else none

/-- Moves a reading over the first `bytes` bytes of its text, or over all of it
if it is shorter. -/
def advance? (overflow : Overflow) (r : Reading) (bytes : Nat) : Option Reading :=
  if r.position.offset + bytes < UInt64.size then do
    let (text, back) ← split? bytes r.remainder
    overflow.outcome (r.position.overflows text) ⟨r.position.after text, back⟩
  else none

end Reading

end Frontend

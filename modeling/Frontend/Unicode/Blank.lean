/-!
# White space

The twenty-five characters with the property of being white space.  The set has
not changed for many versions of the character database, and it is small enough
to be written out.
-/

namespace Frontend.Unicode

/-- All white space characters, in ascending order. -/
def blanks : List Char :=
  ['\t', '\n', '\x0b', '\x0c', '\r', ' ', '\u0085', '\u00a0', '\u1680', '\u2000', '\u2001',
   '\u2002', '\u2003', '\u2004', '\u2005', '\u2006', '\u2007', '\u2008', '\u2009', '\u200a',
   '\u2028', '\u2029', '\u202f', '\u205f', '\u3000']

def isBlank (c : Char) : Bool := blanks.contains c

end Frontend.Unicode

import Frontend.Unicode.Printable

/-!
# Quoted text

How a text is shown between double quotes.  A character that can be shown as itself
is; the quote and the backslash stand behind a backslash, and so do letters for the
null character, the tab, the line feed and the carriage return.  What cannot be
printed, or would join the character before it, is shown by its code point.
-/

namespace Frontend.Text

/-- A code point as an escape, in lower-case hexadecimal digits without leading zeros. -/
def codePointEscape (c : Char) : List Char :=
  ['\\', 'u', '{'] ++ Nat.toDigits 16 c.toNat ++ ['}']

def escape (c : Char) : List Char :=
  match c with
  | '\x00' => ['\\', '0']
  | '\t' => ['\\', 't']
  | '\r' => ['\\', 'r']
  | '\n' => ['\\', 'n']
  | '\\' => ['\\', '\\']
  | '"' => ['\\', '"']
  | c =>
    if Unicode.isExtending c then codePointEscape c
    else if Unicode.isPrintable c then [c]
    else codePointEscape c

def quoted (text : String) : String :=
  String.ofList ('"' :: text.toList.flatMap escape ++ ['"'])

end Frontend.Text

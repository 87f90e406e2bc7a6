import Frontend.Diagnostic.Basic
import Frontend.Token.Pattern

/-!
# Scanning

From a text to its tokens.  At each point the first pattern of the table that
applies takes its part of the text; when none does, the character there starts no
token and scanning ends with that fault.  At the end of the text stands a token of
its own.

* **`Token.scanFrom`**: the tokens of the text ahead, for any place to start from.
* **`Token.scan`**: the tokens of a whole text.
* **`Token.scan?`**: the same, if an overflow of a count may end the work.
-/

namespace Frontend

namespace Pattern

/-- What a pattern leaves is shorter than what it was applied to. -/
theorem length_drop_lt {c : Char} {rest : List Char} {pattern : Pattern}
    (h : first? (c :: rest) = some pattern) :
    ((c :: rest).drop (pattern.length (c :: rest))).length < (c :: rest).length := by
  have taken := length_pos_of_first? h
  rw [List.length_drop]
  simp only [List.length_cons]
  omega

end Pattern

namespace Token

/-- The token made of `lexeme` by the pattern that took it, if it makes one. -/
def ofLexeme? (pattern : Pattern) (lexeme : List Char) (span : Span) : Option Token :=
  (pattern.kind? lexeme).map fun kind => ⟨kind, String.ofList lexeme, span⟩

/-- The tokens of the text ahead, which starts at `p`. -/
def scanFrom (p : Position) : List Char → Except Diagnostic (List Token)
  | [] => .ok [eof p]
  | c :: rest =>
    match _ : Pattern.first? (c :: rest) with
    | none => .error ⟨.unrecognised (String.singleton c), p⟩
    | some pattern =>
      let size := pattern.length (c :: rest)
      let lexeme := (c :: rest).take size
      let stop := p.after lexeme
      match scanFrom stop ((c :: rest).drop size) with
      | .error d => .error d
      | .ok tokens => .ok ((ofLexeme? pattern lexeme ⟨p, stop⟩).toList ++ tokens)
termination_by text => text.length
decreasing_by exact Pattern.length_drop_lt (by assumption)

/-- The tokens of a text, the last of which stands for its end. -/
def scan (source : String) : Except Diagnostic (List Token) :=
  scanFrom Position.first source.toList

/-- The part of a text that scanning moves over: all of it, or what is in front of
the first character that starts no token. -/
def passed : List Char → List Char
  | [] => []
  | c :: rest =>
    match _ : Pattern.first? (c :: rest) with
    | none => []
    | some pattern =>
      let size := pattern.length (c :: rest)
      (c :: rest).take size ++ passed ((c :: rest).drop size)
termination_by text => text.length
decreasing_by exact Pattern.length_drop_lt (by assumption)

end Token

end Frontend

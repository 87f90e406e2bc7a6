import Frontend.Proofs.Grammar.Spelling
import Frontend.Resolved.OfTree

/-!
# What a tree is made of

Every operator in a tree that was read is an operator of the language, whatever the tokens
were: the table lets no other token be read as one.  A block is read behind the test of a
loop only and never by itself.  So resolving names comes upon nothing that it does not know.

* **`Tree.Expr.Known`**, **`Tree.Stmt.Known`**: trees with no other operators and with no
  block by itself.
* **`known_ofTokens`**: programs are such trees.
-/

namespace Frontend

namespace Tree

mutual

/-- All operators are operators of the language. -/
def Expr.Known : Expr → Prop
  | .number .. | .boolean .. | .symbol _ => True
  | .binary left operator right _ =>
    (BinaryOperator.ofKind? operator.kind).isSome ∧ left.Known ∧ right.Known
  | .unary operator operand _ => (UnaryOperator.ofKind? operator.kind).isSome ∧ operand.Known
  | .conditional test consequent alternate _ => test.Known ∧ consequent.Known ∧ alternate.Known
  | .call _ arguments _ => Expr.KnownAll arguments

/-- `Known` for every expression. -/
def Expr.KnownAll : List Expr → Prop
  | [] => True
  | e :: es => e.Known ∧ Expr.KnownAll es

end

mutual

/-- All operators are operators of the language, and no block stands by itself. -/
def Stmt.Known : Stmt → Prop
  | .declaration _ value _ | .assignment _ value _ | .print value _ => value.Known
  | .function _ _ body _ => body.Known
  | .loop test body _ _ => test.Known ∧ Stmt.KnownAll body
  | .block .. => False

/-- `Known` for every statement. -/
def Stmt.KnownAll : List Stmt → Prop
  | [] => True
  | s :: ss => s.Known ∧ Stmt.KnownAll ss

end

end Tree

/-! ## Trees that are read -/

open Frontend.Tree (Expr Stmt)

mutual

/-- Tokens spell operators of the language only. -/
theorem known_of_spells : ∀ {ts : List Token} {e : Expr}, Spells ts e → e.Known
  | _, _, .number .. | _, _, .boolean .. | _, _, .symbol .. => trivial
  | _, _, .group _ inner _ => known_of_spells inner
  | _, _, .unary operator operand => ⟨operator, known_of_spells operand⟩
  | _, _, .binary left operator right => ⟨operator, known_of_spells left, known_of_spells right⟩
  | _, _, .conditional test _ consequent _ alternate =>
    ⟨known_of_spells test, known_of_spells consequent, known_of_spells alternate⟩
  | _, _, .call _ _ arguments _ => known_of_spellsArguments arguments

theorem known_of_spellsArguments : ∀ {ts : List Token} {es : List Expr}, SpellsArguments ts es →
    Expr.KnownAll es
  | _, _, .none => trivial
  | _, _, .some h => known_of_spellsMany h

theorem known_of_spellsMany : ∀ {ts : List Token} {es : List Expr}, SpellsMany ts es →
    Expr.KnownAll es
  | _, _, .one h => ⟨known_of_spells h, trivial⟩
  | _, _, .more first _ others => ⟨known_of_spells first, known_of_spellsMany others⟩

end

theorem known_of_spellsAssigned {ts : List Token} {e : Expr} {stop : Position}
    (h : SpellsAssigned ts e stop) : e.Known := by
  cases h with
  | assigned _ value _ => exact known_of_spells value

mutual

/-- A block is spelled as the body of a loop only. -/
theorem known_of_spellsStatement : ∀ {ts : List Token} {s : Stmt}, SpellsStatement ts s → s.Known
  | _, _, .declaration _ _ value => known_of_spellsAssigned value
  | _, _, .function _ _ _ _ _ body => known_of_spellsAssigned body
  | _, _, .assignment _ value => known_of_spellsAssigned value
  | _, _, .print _ argument _ => known_of_spells argument
  | _, _, .loop _ condition _ statements _ =>
    ⟨known_of_spells condition, known_of_spellsStatements statements⟩

theorem known_of_spellsStatements : ∀ {ts : List Token} {ss : List Stmt},
    SpellsStatements ts ss → Stmt.KnownAll ss
  | _, _, .nil => trivial
  | _, _, .cons first others =>
    ⟨known_of_spellsStatement first, known_of_spellsStatements others⟩

end

/-- The programs that are read have no other operators and no block by itself, whatever the
tokens are. -/
theorem known_ofTokens {tokens : List Token} {block : Tree.Block}
    (h : Tree.Block.ofTokens tokens = .ok block) : Tree.Stmt.KnownAll block.body := by
  cases tokens with
  | nil =>
    cases h
    trivial
  | cons first others =>
    obtain ⟨front, stop, back, -, -, spelled, -⟩ := spells_ofTokens h
    exact known_of_spellsStatements spelled

end Frontend

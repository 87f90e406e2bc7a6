import Frontend.Proofs.Grammar.Forward
import Frontend.Proofs.Grammar.Statement
import Frontend.Proofs.Stages
import Frontend.Resolved.Operator

/-!
# The tokens of a tree

Which tokens a tree was read from, with their places, and where in a list of tokens its calls
are written.

* **`Spells`**, **`SpellsStatement`**: the tokens of an expression and of a statement.  The tree
  has its texts and spans from them.  Unlike `Derives`, this takes no notice of what binds tighter.
* **`expr_spells`**, **`statement_spells`**: what is read is spelled by the tokens that the cursor
  passes.
* **`spells_ofTokens`**: a program that is read is spelled by the tokens in front of an end of the
  text.  What holds of all trees that are read follows from this, by an induction over `Spells`.
* **`spelled_ofTokens`**: every expression of the program is spelled by a part of the list.
* **`Call.WrittenIn`**: a call stands in a list of tokens, its callee in a number of parentheses.
* **`calls_written`**: every call in a program that is read is written in its tokens.

Parentheses leave no node, so a call cannot tell whether its callee stood in some.  A list may
have tokens behind the end of the text, which are not read, or no end of the text at all: then
nothing is accepted.  What the readings of expressions ask for is an end of the text that is still
to come (`Cursor.Live`), for up to there a cursor really moves on.
-/

namespace Frontend

open Frontend.Tree (Expr Stmt Block)

/-! ## Tokens and trees -/

mutual

/-- The tokens of an expression. -/
inductive Spells : List Token → Expr → Prop where
  | number {t : Token} {value : Float} (kind : t.kind = .number)
      (reads : Number.ofText? t.text = some value) : Spells [t] (.number value t.span)
  | boolean {t : Token} (kind : t.kind = .trueWord ∨ t.kind = .falseWord) :
      Spells [t] (.boolean (t.kind = .trueWord) t.span)
  | symbol {t : Token} (kind : t.kind = .identifier) : Spells [t] (.symbol ⟨t.text, t.span⟩)
  | group {l r : Token} {ts : List Token} {e : Expr} (opened : l.kind = .openParen)
      (inner : Spells ts e) (closed : r.kind = .closeParen) : Spells (l :: (ts ++ [r])) e
  | unary {o : Token} {ts : List Token} {e : Expr}
      (operator : (UnaryOperator.ofKind? o.kind).isSome) (operand : Spells ts e) :
      Spells (o :: ts) (.unary o e ⟨o.span.start, e.span.stop⟩)
  | binary {o : Token} {ts us : List Token} {a b : Expr} (left : Spells ts a)
      (operator : (BinaryOperator.ofKind? o.kind).isSome) (right : Spells us b) :
      Spells (ts ++ o :: us) (.binary a o b ⟨a.span.start, b.span.stop⟩)
  | conditional {q c : Token} {ts us vs : List Token} {t a b : Expr} (test : Spells ts t)
      (question : q.kind = .question) (consequent : Spells us a) (colon : c.kind = .colon)
      (alternate : Spells vs b) :
      Spells (ts ++ q :: (us ++ c :: vs)) (.conditional t a b ⟨t.span.start, b.span.stop⟩)
  | call {l r : Token} {ts us : List Token} {f : Symbol} {es : List Expr}
      (callee : Spells ts (.symbol f)) (opened : l.kind = .openParen)
      (arguments : SpellsArguments us es) (closed : r.kind = .closeParen) :
      Spells (ts ++ l :: (us ++ [r])) (.call f es ⟨f.span.start, r.span.stop⟩)

/-- The tokens of the arguments of a call, if there are any. -/
inductive SpellsArguments : List Token → List Expr → Prop where
  | none : SpellsArguments [] []
  | some {ts : List Token} {es : List Expr} (h : SpellsMany ts es) : SpellsArguments ts es

/-- The tokens of expressions with commas between them. -/
inductive SpellsMany : List Token → List Expr → Prop where
  | one {ts : List Token} {e : Expr} (h : Spells ts e) : SpellsMany ts [e]
  | more {w : Token} {ts us : List Token} {e : Expr} {es : List Expr} (first : Spells ts e)
      (comma : w.kind = .comma) (others : SpellsMany us es) :
      SpellsMany (ts ++ w :: us) (e :: es)

end

/-- The tokens of names with commas between them. -/
inductive SpellsNames : List Token → List Symbol → Prop where
  | one {t : Token} (kind : t.kind = .identifier) : SpellsNames [t] [⟨t.text, t.span⟩]
  | more {t w : Token} {ts : List Token} {names : List Symbol} (kind : t.kind = .identifier)
      (comma : w.kind = .comma) (others : SpellsNames ts names) :
      SpellsNames (t :: w :: ts) (⟨t.text, t.span⟩ :: names)

/-- The tokens of the parameters of a function, if there are any. -/
inductive SpellsParameters : List Token → List Symbol → Prop where
  | none : SpellsParameters [] []
  | some {ts : List Token} {names : List Symbol} (h : SpellsNames ts names) :
      SpellsParameters ts names

/-- The tokens of an equals sign, a value and the semicolon behind it. -/
inductive SpellsAssigned : List Token → Expr → Position → Prop where
  | assigned {q s : Token} {ts : List Token} {e : Expr} (equals : q.kind = .assignment)
      (value : Spells ts e) (semicolon : s.kind = .semicolon) :
      SpellsAssigned (q :: (ts ++ [s])) e s.span.stop

mutual

/-- The tokens of a statement. -/
inductive SpellsStatement : List Token → Stmt → Prop where
  | declaration {w i : Token} {ts : List Token} {e : Expr} {stop : Position}
      (word : w.kind = .letWord) (identifier : i.kind = .identifier)
      (value : SpellsAssigned ts e stop) :
      SpellsStatement (w :: i :: ts) (.declaration ⟨i.text, i.span⟩ e ⟨w.span.start, stop⟩)
  | function {w i l r : Token} {ts us : List Token} {names : List Symbol} {e : Expr}
      {stop : Position} (word : w.kind = .functionWord) (identifier : i.kind = .identifier)
      (opened : l.kind = .openParen) (parameters : SpellsParameters ts names)
      (closed : r.kind = .closeParen) (body : SpellsAssigned us e stop) :
      SpellsStatement (w :: i :: l :: (ts ++ r :: us))
        (.function ⟨i.text, i.span⟩ names e ⟨w.span.start, stop⟩)
  | assignment {i : Token} {ts : List Token} {e : Expr} {stop : Position}
      (identifier : i.kind = .identifier) (value : SpellsAssigned ts e stop) :
      SpellsStatement (i :: ts) (.assignment ⟨i.text, i.span⟩ e ⟨i.span.start, stop⟩)
  | print {w s : Token} {ts : List Token} {e : Expr} (word : w.kind = .printWord)
      (argument : Spells ts e) (semicolon : s.kind = .semicolon) :
      SpellsStatement (w :: (ts ++ [s])) (.print e ⟨w.span.start, s.span.stop⟩)
  | loop {w l r : Token} {ts us : List Token} {test : Expr} {body : List Stmt}
      (word : w.kind = .whileWord) (condition : Spells ts test) (opened : l.kind = .openCurly)
      (statements : SpellsStatements us body) (closed : r.kind = .closeCurly) :
      SpellsStatement (w :: (ts ++ l :: (us ++ [r])))
        (.loop test body ⟨l.span.start, r.span.stop⟩ ⟨w.span.start, r.span.stop⟩)

/-- The tokens of statements, one behind the other. -/
inductive SpellsStatements : List Token → List Stmt → Prop where
  | nil : SpellsStatements [] []
  | cons {ts us : List Token} {s : Stmt} {ss : List Stmt} (first : SpellsStatement ts s)
      (others : SpellsStatements us ss) : SpellsStatements (ts ++ us) (s :: ss)

end

/-- An expression is spelled by a part of a list of tokens. -/
def SpelledIn (tokens : List Token) (e : Expr) : Prop :=
  ∃ front ts behind, tokens = front ++ (ts ++ behind) ∧ Spells ts e

namespace Tree

mutual

/-- Every expression of a statement is such. -/
def Stmt.Every (P : Expr → Prop) : Stmt → Prop
  | .declaration _ value _ | .assignment _ value _ | .print value _ => P value
  | .function _ _ body _ => P body
  | .loop test body _ _ => P test ∧ Stmt.EveryAll P body
  | .block body _ => Stmt.EveryAll P body

/-- Every expression of statements is such. -/
def Stmt.EveryAll (P : Expr → Prop) : List Stmt → Prop
  | [] => True
  | s :: ss => s.Every P ∧ Stmt.EveryAll P ss

end

end Tree

/-! ## Passing tokens -/

namespace Cursor

variable {c d e : Cursor} {ts us : List Token}

/-- The tokens to be read. -/
def rest (c : Cursor) : List Token := c.current :: c.ahead

/-- An end of the text is still to come. -/
def Live (c : Cursor) : Prop := ∃ t ∈ c.rest, t.kind = .eof

/-- The tokens between two cursors, with an end of the text behind both of them. -/
def Passes (c : Cursor) (ts : List Token) (d : Cursor) : Prop := c.rest = ts ++ d.rest ∧ d.Live

theorem Passes.refl (h : c.Live) : c.Passes [] c := ⟨rfl, h⟩

theorem Passes.trans (h : c.Passes ts d) (h' : d.Passes us e) : c.Passes (ts ++ us) e := by
  refine ⟨?_, h'.2⟩
  rw [h.1, h'.1, List.append_assoc]

/-- One step passes one token. -/
theorem passes_advance (live : c.Live) (word : c.current.kind ≠ .eof) :
    c.Passes [c.current] c.advance := by
  obtain ⟨t, member, ends⟩ := live
  rcases List.mem_cons.mp member with here | ahead
  · rw [here] at ends
    exact absurd ends word
  · obtain ⟨next, others, more⟩ := List.exists_cons_of_ne_nil (List.ne_nil_of_mem ahead)
    have moved : c.advance.rest = c.ahead := by
      rw [advance, more]
      rfl
    refine ⟨?_, t, ?_, ends⟩
    · rw [moved]
      rfl
    · rwa [moved]

/-- Behind a token that was passed, the latest end is its end. -/
theorem previousStop_advance (live : c.Live) (word : c.current.kind ≠ .eof) :
    c.advance.previousStop = c.current.span.stop := by
  obtain ⟨t, member, ends⟩ := live
  rcases List.mem_cons.mp member with here | ahead
  · rw [here] at ends
    exact absurd ends word
  · obtain ⟨next, others, more⟩ := List.exists_cons_of_ne_nil (List.ne_nil_of_mem ahead)
    rw [advance, more]
    rfl

end Cursor

namespace Grammar

/-- What is read is spelled by the tokens that are passed. -/
def Spelling (inner : Power → Parse Expr) : Prop :=
  ∀ ⦃p c e d⦄, c.Live → (inner p).Yields c e d → ∃ ts, c.Passes ts d ∧ Spells ts e

variable {inner : Power → Parse Expr} {c d : Cursor} {e left : Expr} {ts : List Token}

/-- The kinds of token that open an expression. -/
theorem kind_of_opening {kind : Kind} {what : Opening}
    (h : Table.language.opening? kind = some what) :
    match what with
    | .number => kind = .number
    | .boolean => kind = .trueWord ∨ kind = .falseWord
    | .symbol => kind = .identifier
    | .unary => (UnaryOperator.ofKind? kind).isSome
    | .group => kind = .openParen := by
  cases kind <;> cases h
  case trueWord => exact .inl rfl
  case falseWord => exact .inr rfl
  all_goals rfl

/-- What the table takes for a binary operator is one. -/
theorem isSome_of_continuation {kind : Kind} {own : Power} {form : Continuation}
    (h : Table.language.continuation? kind = some (own, form))
    (operator : form = .binary ∨ form = .exponent) : (BinaryOperator.ofKind? kind).isSome := by
  rcases operator with rfl | rfl <;> cases kind <;> first | rfl | cases h

theorem continuations_kind {kind : Kind} {own : Power} {form : Continuation}
    (h : Table.language.continuation? kind = some (own, form)) : kind ≠ .eof := by
  rintro rfl
  cases h

/-! ## Expressions -/

theorem opening_spells (spelling : Spelling inner) (live : c.Live)
    (h : (opening Table.language inner).Yields c e d) : ∃ ts, c.Passes ts d ∧ Spells ts e := by
  simp only [opening, Parse.yields_bind, Parse.yields_kind] at h
  obtain ⟨_, _, ⟨rfl, rfl⟩, h⟩ := h
  cases opens : Table.language.opening? c.current.kind with
  | none =>
    rw [opens] at h
    exact absurd h Parse.yields_misplaced
  | some what =>
    have read := Cursor.passes_advance live (openings_kind opens)
    have kind := kind_of_opening opens
    rw [opens] at h
    cases what with
    | number =>
      simp only [Parse.yields_bind, Parse.yields_advance] at h
      obtain ⟨_, _, ⟨rfl, rfl⟩, h⟩ := h
      split at h
      · rename_i value reads
        obtain ⟨rfl, rfl⟩ := Parse.yields_pure.mp h
        exact ⟨_, read, .number kind reads⟩
      · exact absurd h Parse.yields_fail
    | boolean =>
      simp only [Parse.yields_bind, Parse.yields_advance, Parse.yields_pure] at h
      obtain ⟨_, _, ⟨rfl, rfl⟩, rfl, rfl⟩ := h
      exact ⟨_, read, .boolean kind⟩
    | symbol =>
      simp only [Parse.yields_bind, Parse.yields_advance, Parse.yields_pure] at h
      obtain ⟨_, _, ⟨rfl, rfl⟩, rfl, rfl⟩ := h
      exact ⟨_, read, .symbol kind⟩
    | unary =>
      simp only [Parse.yields_bind, Parse.yields_advance, Parse.yields_pure] at h
      obtain ⟨_, _, ⟨rfl, rfl⟩, operand, _, h, rfl, rfl⟩ := h
      obtain ⟨ts, passes, spelled⟩ := spelling read.2 h
      exact ⟨_, read.trans passes, .unary kind spelled⟩
    | group =>
      simp only [Parse.yields_bind, Parse.yields_expect, Parse.yields_pure] at h
      obtain ⟨_, _, ⟨opened, rfl, rfl⟩, _, d', h, _, _, ⟨closed, rfl, rfl⟩, rfl, rfl⟩ := h
      obtain ⟨ts, passes, spelled⟩ := spelling read.2 h
      -- The parentheses are passed as well, but make no node.
      have last := Cursor.passes_advance passes.2 (by rw [closed]; decide)
      exact ⟨_, (read.trans passes).trans last, .group opened spelled closed⟩

theorem arguments_spells (spelling : Spelling inner) {fuel : Nat} {es : List Expr} (live : c.Live)
    (h : (arguments inner fuel).Yields c es d) : ∃ us, c.Passes us d ∧ SpellsMany us es := by
  -- On the arguments still allowed; the tokens spelled so far stay in front.
  induction fuel generalizing c es with
  | zero => exact absurd h Parse.yields_exhausted
  | succ fuel ih =>
    simp only [arguments, Parse.yields_bind, Parse.yields_kind] at h
    obtain ⟨first, d₁, h₁, _, _, ⟨rfl, rfl⟩, h⟩ := h
    obtain ⟨ts, passes, spelled⟩ := spelling live h₁
    split at h
    · rename_i comma
      simp only [Parse.yields_bind, Parse.yields_advance, Parse.yields_pure] at h
      obtain ⟨_, _, ⟨rfl, rfl⟩, others, d₂, h₂, rfl, rfl⟩ := h
      have step := Cursor.passes_advance passes.2 (by rw [comma]; decide)
      obtain ⟨us, passes', spelled'⟩ := ih step.2 h₂
      exact ⟨_, passes.trans (step.trans passes'), .more spelled comma spelled'⟩
    · obtain ⟨rfl, rfl⟩ := Parse.yields_pure.mp h
      exact ⟨ts, passes, .one spelled⟩

theorem values_spells (spelling : Spelling inner) {fuel : Nat} {values : List Expr} (live : c.Live)
    (h : (if c.current.kind = .closeParen then pure [] else
      arguments inner fuel : Parse (List Expr)).Yields c values d) :
    ∃ us, c.Passes us d ∧ SpellsArguments us values := by
  by_cases empty : c.current.kind = .closeParen
  · rw [if_pos empty] at h
    obtain ⟨rfl, rfl⟩ := Parse.yields_pure.mp h
    exact ⟨[], Cursor.Passes.refl live, .none⟩
  · rw [if_neg empty] at h
    obtain ⟨us, passes, spelled⟩ := arguments_spells spelling live h
    exact ⟨us, passes, .some spelled⟩

theorem branches_spells (spelling : Spelling inner) (live : c.Live) (spelled : Spells ts left)
    (h : (branches inner left).Yields c e d) : ∃ us, c.Passes us d ∧ Spells (ts ++ us) e := by
  simp only [branches, Parse.yields_bind, Parse.yields_expect, Parse.yields_expectFor,
    Parse.yields_pure] at h
  obtain ⟨_, _, ⟨question, rfl, rfl⟩, consequent, d₁, h₁, _, _, ⟨colon, rfl, rfl⟩, alternate, d₂,
    h₂, rfl, rfl⟩ := h
  have step := Cursor.passes_advance live (by rw [question]; decide)
  obtain ⟨us, passes, spelled₁⟩ := spelling step.2 h₁
  have step' := Cursor.passes_advance passes.2 (by rw [colon]; decide)
  obtain ⟨vs, passes', spelled₂⟩ := spelling step'.2 h₂
  exact ⟨_, step.trans (passes.trans (step'.trans passes')),
    .conditional spelled question spelled₁ colon spelled₂⟩

theorem rightOperand_spells (spelling : Spelling inner) {p : Power} (live : c.Live)
    (operator : (BinaryOperator.ofKind? c.current.kind).isSome) (word : c.current.kind ≠ .eof)
    (spelled : Spells ts left) (h : (rightOperand inner left p).Yields c e d) :
    ∃ us, c.Passes us d ∧ Spells (ts ++ us) e := by
  simp only [rightOperand, Parse.yields_bind, Parse.yields_advance, Parse.yields_pure] at h
  obtain ⟨_, _, ⟨rfl, rfl⟩, right, d₁, h, rfl, rfl⟩ := h
  have step := Cursor.passes_advance live word
  obtain ⟨us, passes, spelled'⟩ := spelling step.2 h
  exact ⟨_, step.trans passes, .binary spelled operator spelled'⟩

/-- Only a name can be called, but nothing tells it from a name in parentheses. -/
theorem callOf_spells (spelling : Spelling inner) {fuel : Nat} (live : c.Live)
    (spelled : Spells ts left) (h : (callOf inner fuel left).Yields c e d) :
    ∃ us, c.Passes us d ∧ Spells (ts ++ us) e := by
  cases left with
  | symbol name =>
    obtain ⟨opened, values, d', h', closed, rfl, rfl⟩ := callOf_yields.mp h
    have step := Cursor.passes_advance live (by rw [opened]; decide)
    obtain ⟨us, passes, arguments⟩ := values_spells spelling step.2 h'
    have last := Cursor.passes_advance passes.2 (by rw [closed]; decide)
    exact ⟨_, step.trans (passes.trans last), .call spelled opened arguments closed⟩
  | number | boolean | binary | unary | conditional | call => exact absurd h Parse.yields_misplaced

theorem continuation_spells (spelling : Spelling inner) {fuel : Nat} {own : Power}
    {form : Continuation} (goes : Table.language.continuation? c.current.kind = some (own, form))
    (live : c.Live) (spelled : Spells ts left)
    (h : (continuation Table.language inner fuel left own form).Yields c e d) :
    ∃ us, c.Passes us d ∧ Spells (ts ++ us) e := by
  have word := continuations_kind goes
  cases form with
  | conditional => exact branches_spells spelling live spelled h
  | binary =>
    obtain ⟨whole, d', h₁, h₂⟩ := Parse.yields_bind.mp h
    -- A comparison is looked at again, but nothing is read.
    have same : whole = e ∧ d' = d := by
      split at h₂
      · obtain ⟨_, _, refused, h₂⟩ := Parse.yields_bind.mp h₂
        obtain ⟨-, rfl⟩ := refuseComparison_yields.mp refused
        exact Parse.yields_pure.mp h₂
      · exact Parse.yields_pure.mp h₂
    obtain ⟨rfl, rfl⟩ := same
    exact rightOperand_spells spelling live (isSome_of_continuation goes (.inl rfl)) word spelled h₁
  | exponent =>
    exact rightOperand_spells spelling live (isSome_of_continuation goes (.inr rfl)) word spelled h
  | call => exact callOf_spells spelling live spelled h

/-- The loop: the expression so far is spelled by the tokens so far. -/
theorem continueWhile_spells (spelling : Spelling inner) {p : Power} {count : Nat} (live : c.Live)
    (spelled : Spells ts left)
    (h : (continueWhile Table.language inner p count left).Yields c e d) :
    ∃ us, c.Passes us d ∧ Spells (ts ++ us) e := by
  induction count generalizing c left ts with
  | zero => exact absurd h Parse.yields_exhausted
  | succ count ih =>
    -- Wherever the loop ends, it has read no further token than those of `left`.
    have ended : Spells (ts ++ []) left := by rwa [List.append_nil]
    simp only [continueWhile, Parse.yields_bind, Parse.yields_kind] at h
    obtain ⟨_, _, ⟨rfl, rfl⟩, h⟩ := h
    split at h
    · obtain ⟨rfl, rfl⟩ := Parse.yields_pure.mp h
      exact ⟨[], Cursor.Passes.refl live, ended⟩
    · rename_i own form goes
      by_cases loose : own ≤ p
      · rw [if_pos loose] at h
        obtain ⟨rfl, rfl⟩ := Parse.yields_pure.mp h
        exact ⟨[], Cursor.Passes.refl live, ended⟩
      · rw [if_neg loose] at h
        -- An operator that binds tighter: one longer left operand, and on from there.
        obtain ⟨longer, d', h₁, h₂⟩ := Parse.yields_bind.mp h
        obtain ⟨us, passes, spelled'⟩ := continuation_spells spelling goes live spelled h₁
        obtain ⟨vs, passes', spelled''⟩ := ih passes.2 spelled' h₂
        rw [List.append_assoc] at spelled''
        exact ⟨_, passes.trans passes', spelled''⟩

/-- Every expression that is read is spelled by the tokens that are passed. -/
theorem expr_spells (fuel : Nat) : Spelling (expr Table.language fuel) := by
  induction fuel with
  | zero =>
    intro p c e d _ h
    exact absurd h Parse.yields_exhausted
  | succ fuel ih =>
    -- Whatever is read inside has less fuel, so that `ih` is about it.
    intro p c e d live h
    obtain ⟨left, d', h₁, h₂⟩ := Parse.yields_bind.mp h
    obtain ⟨ts, passes, spelled⟩ := opening_spells ih live h₁
    obtain ⟨us, passes', spelled'⟩ := continueWhile_spells ih passes.2 spelled h₂
    exact ⟨_, passes.trans passes', spelled'⟩

end Grammar

/-! ## What is behind a step -/

namespace Parse

variable {α : Type} {p : Parse α} {c d : Cursor} {x : α}

/-- No step leaves the list. -/
theorem Yields.tokens [forward : Forward p] (h : p.Yields c x d) : d.tokens = c.tokens := by
  have same := forward.tokens_eq c
  rwa [final, show p.run c = .ok x d from h] at same

/-- An end of the text that is still to come behind a step was still to come before it. -/
theorem Yields.live [forward : Forward p] (h : p.Yields c x d) (live : d.Live) : c.Live := by
  have rest_eq (c : Cursor) : c.rest = c.tokens.drop c.index := by
    rw [Cursor.tokens, Cursor.index, ← List.length_reverse, List.drop_left]
    rfl
  -- No step goes back, so what is left behind it was left before it.
  have index := forward.index_le c
  rw [final, show p.run c = .ok x d from h] at index
  obtain ⟨t, member, ends⟩ := live
  rw [rest_eq, h.tokens] at member
  refine ⟨t, ?_, ends⟩
  rw [rest_eq]
  exact (List.drop_suffix_drop_left c.tokens index).subset member

end Parse

namespace Grammar

variable {c d : Cursor} {e : Expr} {s : Stmt} {fuel : Nat}

/-! ## Statements -/

theorem parameters_spells {names : List Symbol} (live : c.Live)
    (h : (parameters fuel).Yields c names d) : ∃ ts, c.Passes ts d ∧ SpellsNames ts names := by
  induction fuel generalizing c names with
  | zero => exact absurd h Parse.yields_exhausted
  | succ fuel ih =>
    simp only [parameters, Parse.yields_bind, identifier_yields, Parse.yields_kind] at h
    obtain ⟨_, _, ⟨kind, rfl, rfl⟩, _, _, ⟨rfl, rfl⟩, h⟩ := h
    have step := Cursor.passes_advance live (by rw [kind]; decide)
    by_cases comma : c.advance.current.kind = .comma
    -- The comma is passed, and a further name is read after it.
    · rw [if_pos comma] at h
      simp only [Parse.yields_bind, Parse.yields_advance, Parse.yields_pure] at h
      obtain ⟨_, _, ⟨rfl, rfl⟩, others, d', h, rfl, rfl⟩ := h
      have step' := Cursor.passes_advance step.2 (by rw [comma]; decide)
      obtain ⟨ts, passes, spelled⟩ := ih step'.2 h
      exact ⟨_, step.trans (step'.trans passes), .more kind comma spelled⟩
    · rw [if_neg comma] at h
      obtain ⟨rfl, rfl⟩ := Parse.yields_pure.mp h
      exact ⟨_, step, .one kind⟩

theorem optionalParameters_spells {names : List Symbol} (live : c.Live)
    (h : (if c.current.kind = .closeParen then pure [] else
      parameters fuel : Parse (List Symbol)).Yields c names d) :
    ∃ ts, c.Passes ts d ∧ SpellsParameters ts names := by
  by_cases empty : c.current.kind = .closeParen
  · rw [if_pos empty] at h
    obtain ⟨rfl, rfl⟩ := Parse.yields_pure.mp h
    exact ⟨[], Cursor.Passes.refl live, .none⟩
  · rw [if_neg empty] at h
    obtain ⟨ts, passes, spelled⟩ := parameters_spells live h
    exact ⟨ts, passes, .some spelled⟩

theorem assigned_spells (live : c.Live) (h : (assigned Table.language fuel).Yields c e d) :
    ∃ ts, c.Passes ts d ∧ SpellsAssigned ts e d.previousStop := by
  simp only [assigned, Parse.yields_bind, Parse.yields_expect, Parse.yields_pure] at h
  obtain ⟨_, _, ⟨equals, rfl, rfl⟩, value, d', h, _, _, ⟨semicolon, rfl, rfl⟩, rfl, rfl⟩ := h
  have step := Cursor.passes_advance live (by rw [equals]; decide)
  obtain ⟨ts, passes, spelled⟩ := expr_spells fuel step.2 h
  have word : d'.current.kind ≠ .eof := by rw [semicolon]; decide
  have last := Cursor.passes_advance passes.2 word
  rw [Cursor.previousStop_advance passes.2 word]
  exact ⟨_, step.trans (passes.trans last), .assigned equals spelled semicolon⟩

theorem declaration_spells (live : c.Live) (word : c.current.kind = .letWord)
    (h : (declaration Table.language fuel).Yields c s d) :
    ∃ ts, c.Passes ts d ∧ SpellsStatement ts s := by
  simp only [declaration, Parse.yields_bind, Parse.yields_advance, identifier_yields,
    spanFrom_yields, Parse.yields_pure] at h
  obtain ⟨_, _, ⟨rfl, rfl⟩, _, _, ⟨kind, rfl, rfl⟩, value, d', h, _, _, ⟨rfl, rfl⟩, rfl, rfl⟩ := h
  have step := Cursor.passes_advance live (by rw [word]; decide)
  have step' := Cursor.passes_advance step.2 (by rw [kind]; decide)
  obtain ⟨ts, passes, spelled⟩ := assigned_spells step'.2 h
  exact ⟨_, step.trans (step'.trans passes), .declaration word kind spelled⟩

theorem function_spells (live : c.Live) (word : c.current.kind = .functionWord)
    (h : (function Table.language fuel).Yields c s d) :
    ∃ ts, c.Passes ts d ∧ SpellsStatement ts s := by
  simp only [function_eq, Parse.yields_bind, Parse.yields_advance, identifier_yields,
    Parse.yields_expect, Parse.yields_kind, spanFrom_yields, Parse.yields_pure] at h
  obtain ⟨_, _, ⟨rfl, rfl⟩, _, _, ⟨kind, rfl, rfl⟩, _, _, ⟨opened, rfl, rfl⟩, _, _, ⟨rfl, rfl⟩,
    names, d₁, h₁, _, _, ⟨closed, rfl, rfl⟩, body, d₂, h₂, _, _, ⟨rfl, rfl⟩, rfl, rfl⟩ := h
  have step := Cursor.passes_advance live (by rw [word]; decide)
  have step' := Cursor.passes_advance step.2 (by rw [kind]; decide)
  have step'' := Cursor.passes_advance step'.2 (by rw [opened]; decide)
  obtain ⟨ts, passes, parameters⟩ := optionalParameters_spells step''.2 h₁
  have last := Cursor.passes_advance passes.2 (by rw [closed]; decide)
  obtain ⟨us, passes', spelled⟩ := assigned_spells last.2 h₂
  exact ⟨_, step.trans (step'.trans (step''.trans (passes.trans (last.trans passes')))),
    .function word kind opened parameters closed spelled⟩

theorem assignment_spells (live : c.Live) (h : (assignment Table.language fuel).Yields c s d) :
    ∃ ts, c.Passes ts d ∧ SpellsStatement ts s := by
  simp only [assignment, Parse.yields_bind, identifier_yields, spanFrom_yields,
    Parse.yields_pure] at h
  obtain ⟨_, _, ⟨kind, rfl, rfl⟩, value, d', h, _, _, ⟨rfl, rfl⟩, rfl, rfl⟩ := h
  have step := Cursor.passes_advance live (by rw [kind]; decide)
  obtain ⟨ts, passes, spelled⟩ := assigned_spells step.2 h
  exact ⟨_, step.trans passes, .assignment kind spelled⟩

theorem print_spells (live : c.Live) (word : c.current.kind = .printWord)
    (h : (print Table.language fuel).Yields c s d) :
    ∃ ts, c.Passes ts d ∧ SpellsStatement ts s := by
  simp only [print, Parse.yields_bind, Parse.yields_advance, Parse.yields_expect, spanFrom_yields,
    Parse.yields_pure] at h
  obtain ⟨_, _, ⟨rfl, rfl⟩, argument, d', h, _, _, ⟨semicolon, rfl, rfl⟩, _, _, ⟨rfl, rfl⟩, rfl,
    rfl⟩ := h
  have step := Cursor.passes_advance live (by rw [word]; decide)
  obtain ⟨ts, passes, spelled⟩ := expr_spells fuel step.2 h
  have stop : d'.current.kind ≠ .eof := by rw [semicolon]; decide
  have last := Cursor.passes_advance passes.2 stop
  rw [Cursor.previousStop_advance passes.2 stop]
  exact ⟨_, step.trans (passes.trans last), .print word spelled semicolon⟩

/-- What is shown of a way to read statements. -/
def SpellingStatement (read : Parse Stmt) : Prop :=
  ∀ ⦃c s d⦄, c.Live → read.Yields c s d → ∃ ts, c.Passes ts d ∧ SpellsStatement ts s

section Blocks

variable {read : Parse Stmt} (spelling : SpellingStatement read)
include spelling

theorem blockBody_spells {count : Nat} {ss : List Stmt} (live : c.Live)
    (h : (blockBody read count).Yields c ss d) :
    ∃ ts, c.Passes ts d ∧ SpellsStatements ts ss := by
  induction count generalizing c ss with
  | zero => exact absurd h Parse.yields_exhausted
  | succ count ih =>
    simp only [blockBody, Parse.yields_bind, Parse.yields_kind] at h
    obtain ⟨_, _, ⟨rfl, rfl⟩, h⟩ := h
    split at h
    · obtain ⟨rfl, rfl⟩ := Parse.yields_pure.mp h
      exact ⟨[], Cursor.Passes.refl live, .nil⟩
    · exact absurd h Parse.yields_misplaced
    · simp only [Parse.yields_bind, Parse.yields_pure] at h
      obtain ⟨first, c₁, h₁, others, c₂, h₂, rfl, rfl⟩ := h
      -- One statement is read, and the remaining ones are spelled behind it.
      obtain ⟨ts, passes, spelled⟩ := spelling live h₁
      obtain ⟨us, passes', spelled'⟩ := ih passes.2 h₂
      exact ⟨_, passes.trans passes', .cons spelled spelled'⟩

theorem loop_spells (live : c.Live) (word : c.current.kind = .whileWord)
    (h : (loop Table.language read fuel).Yields c s d) :
    ∃ ts, c.Passes ts d ∧ SpellsStatement ts s := by
  simp only [loop, blockOf, Parse.yields_bind, Parse.yields_advance, Parse.yields_expect,
    Parse.yields_pure] at h
  obtain ⟨_, _, ⟨rfl, rfl⟩, test, d₁, h₁, _, _, ⟨_, _, ⟨opened, rfl, rfl⟩, body, d₂, h₂, _, _,
    ⟨closed, rfl, rfl⟩, rfl, rfl⟩, rfl, rfl⟩ := h
  have step := Cursor.passes_advance live (by rw [word]; decide)
  obtain ⟨ts, passes, condition⟩ := expr_spells fuel step.2 h₁
  have step' := Cursor.passes_advance passes.2 (by rw [opened]; decide)
  obtain ⟨us, passes', statements⟩ := blockBody_spells spelling step'.2 h₂
  have last := Cursor.passes_advance passes'.2 (by rw [closed]; decide)
  exact ⟨_, step.trans (passes.trans (step'.trans (passes'.trans last))),
    .loop word condition opened statements closed⟩

end Blocks

/-- The words that statements begin with. -/
theorem kind_of_opener {kind : Kind} {opener : Opener}
    (h : Table.language.opener? kind = some opener) :
    match opener with
    | .declaration => kind = .letWord
    | .function => kind = .functionWord
    | .print => kind = .printWord
    | .loop => kind = .whileWord := by
  cases kind <;> cases h <;> rfl

/-- Every statement that is read is spelled by the tokens that are passed. -/
theorem statement_spells (fuel : Nat) : SpellingStatement (statement Table.language fuel) := by
  induction fuel with
  | zero =>
    intro c s d _ h
    exact absurd h Parse.yields_exhausted
  | succ fuel ih =>
    intro c s d live h
    simp only [statement, Parse.yields_bind, Parse.yields_get] at h
    obtain ⟨_, _, ⟨rfl, rfl⟩, h⟩ := h
    -- The opening word decides which statement is read; otherwise only an assignment can follow.
    cases opens : Table.language.opener? c.current.kind with
    | some opener =>
      have word := kind_of_opener opens
      rw [opens] at h
      cases opener with
      | declaration => exact declaration_spells live word h
      | function => exact function_spells live word h
      | print => exact print_spells live word h
      | loop => exact loop_spells ih live word h
    | none =>
      rw [opens] at h
      by_cases assigns : c.current.kind = .identifier ∧ c.peek = .assignment
      · rw [if_pos assigns] at h
        exact assignment_spells live h
      · rw [if_neg assigns] at h
        exact absurd h Parse.yields_misplaced

/-- Statements are read up to an end of the text, which was still to come before each of them. -/
theorem statements_spells {count : Nat} {ss : List Stmt}
    (h : (statements Table.language fuel count).Yields c ss d) :
    d.current.kind = .eof ∧ ∃ ts, c.Passes ts d ∧ SpellsStatements ts ss := by
  induction count generalizing c ss with
  | zero => exact absurd h Parse.yields_exhausted
  | succ count ih =>
    simp only [statements, Parse.yields_bind, Parse.yields_kind] at h
    obtain ⟨_, _, ⟨rfl, rfl⟩, h⟩ := h
    by_cases ends : c.current.kind = .eof
    · rw [if_pos ends] at h
      obtain ⟨rfl, rfl⟩ := Parse.yields_pure.mp h
      exact ⟨ends, [], Cursor.Passes.refl ⟨_, List.mem_cons_self, ends⟩, .nil⟩
    · rw [if_neg ends] at h
      simp only [Parse.yields_bind, Parse.yields_pure] at h
      obtain ⟨first, c₁, h₁, others, c₂, h₂, rfl, rfl⟩ := h
      obtain ⟨ends, us, passes', spelled'⟩ := ih h₂
      -- That an `eof` lies ahead is known at the far end only, so it is carried back over both
      -- reads.
      have live : c.Live := h₁.live (h₂.live passes'.2)
      obtain ⟨ts, passes, spelled⟩ := statement_spells fuel live h₁
      exact ⟨ends, _, passes.trans passes', .cons spelled spelled'⟩

end Grammar

/-! ## Programs -/

/-- **A program that is read is spelled by the tokens in front of an end of the text**, whatever
the list is.  Its span reaches from the beginning of the first token to this end. -/
theorem spells_ofTokens {first : Token} {others : List Token} {block : Block}
    (h : Tree.Block.ofTokens (first :: others) = .ok block) :
    ∃ front stop back, first :: others = front ++ stop :: back ∧ stop.kind = .eof ∧
      SpellsStatements front block.body ∧ block.span = ⟨first.span.start, stop.span.start⟩ := by
  obtain ⟨d, whole⟩ := Tree.Block.ofTokens_eq_ok.mp h
  obtain ⟨ss, read, rfl⟩ := readProgram_yields.mp whole
  obtain ⟨ends, ts, passes, spelled⟩ := Grammar.statements_spells read
  exact ⟨ts, d.current, d.ahead, passes.1, ends, spelled, rfl⟩

namespace SpelledIn

variable {ts us : List Token} {e : Expr}

theorem of_spells (h : Spells ts e) : SpelledIn ts e := by
  refine ⟨[], ts, [], ?_, h⟩
  rw [List.append_nil, List.nil_append]

theorem left (h : SpelledIn ts e) : SpelledIn (ts ++ us) e := by
  obtain ⟨front, vs, behind, rfl, spelled⟩ := h
  refine ⟨front, vs, behind ++ us, ?_, spelled⟩
  simp only [List.append_assoc]

theorem right (h : SpelledIn us e) : SpelledIn (ts ++ us) e := by
  obtain ⟨front, vs, behind, rfl, spelled⟩ := h
  refine ⟨ts ++ front, vs, behind, ?_, spelled⟩
  simp only [List.append_assoc]

theorem tail {t : Token} (h : SpelledIn us e) : SpelledIn (t :: us) e := by
  show SpelledIn ([t] ++ us) e
  exact h.right

theorem of_assigned {stop : Position} (h : SpellsAssigned ts e stop) : SpelledIn ts e := by
  cases h with
  | assigned equals value semicolon => exact (of_spells value).left.tail

end SpelledIn

namespace Tree

variable {P Q : Expr → Prop}

mutual

theorem Stmt.Every.mono (weaker : ∀ e, P e → Q e) : {s : Stmt} → s.Every P → s.Every Q
  | .declaration .., h | .assignment .., h | .print .., h | .function .., h => weaker _ h
  | .loop .., h => ⟨weaker _ h.1, Stmt.EveryAll.mono weaker h.2⟩
  | .block .., h => Stmt.EveryAll.mono weaker h

theorem Stmt.EveryAll.mono (weaker : ∀ e, P e → Q e) :
    {ss : List Stmt} → Stmt.EveryAll P ss → Stmt.EveryAll Q ss
  | [], _ => trivial
  | _ :: _, h => ⟨Stmt.Every.mono weaker h.1, Stmt.EveryAll.mono weaker h.2⟩

end

end Tree

mutual

/-- The expressions of a statement are spelled by parts of its tokens. -/
theorem every_of_spells : {ts : List Token} → {s : Stmt} → SpellsStatement ts s →
    s.Every (SpelledIn ts)
  | _, _, .declaration _ _ value => (SpelledIn.of_assigned value).tail.tail
  | _, _, .function _ _ _ _ _ body => (SpelledIn.of_assigned body).tail.right.tail.tail.tail
  | _, _, .assignment _ value => (SpelledIn.of_assigned value).tail
  | _, _, .print _ argument _ => (SpelledIn.of_spells argument).left.tail
  | _, _, .loop _ condition _ statements _ =>
    ⟨(SpelledIn.of_spells condition).left.tail,
      (everyAll_of_spells statements).mono fun _ h => h.left.tail.right.tail⟩

theorem everyAll_of_spells : {ts : List Token} → {ss : List Stmt} → SpellsStatements ts ss →
    Stmt.EveryAll (SpelledIn ts) ss
  | _, _, .nil => trivial
  | _, _, .cons first others =>
    ⟨(every_of_spells first).mono fun _ h => h.left,
      (everyAll_of_spells others).mono fun _ h => h.right⟩

end

/-- Every expression of a program that is read is spelled by a part of the list, whatever the
tokens are. -/
theorem spelled_ofTokens {tokens : List Token} {block : Block}
    (h : Tree.Block.ofTokens tokens = .ok block) :
    Stmt.EveryAll (SpelledIn tokens) block.body := by
  cases tokens with
  | nil =>
    cases h
    trivial
  | cons first others =>
    obtain ⟨front, stop, back, same, -, spelled, -⟩ := spells_ofTokens h
    rw [same]
    exact (everyAll_of_spells spelled).mono fun _ h => h.left

/-! ## Calls -/

namespace Tree

/-- A call in a tree. -/
structure Call where
  callee : Symbol
  arguments : List Expr
  span : Span

mutual

/-- The calls in an expression. -/
def Expr.calls : Expr → List Call
  | .number .. | .boolean .. | .symbol _ => []
  | .binary left _ right _ => left.calls ++ right.calls
  | .unary _ operand _ => operand.calls
  | .conditional test consequent alternate _ =>
    test.calls ++ (consequent.calls ++ alternate.calls)
  | .call callee arguments span => ⟨callee, arguments, span⟩ :: Expr.callsAll arguments

/-- The calls in expressions. -/
def Expr.callsAll : List Expr → List Call
  | [] => []
  | e :: es => e.calls ++ Expr.callsAll es

end

mutual

/-- The calls in a statement. -/
def Stmt.calls : Stmt → List Call
  | .declaration _ value _ | .assignment _ value _ | .print value _ => value.calls
  | .function _ _ body _ => body.calls
  | .loop test body _ _ => test.calls ++ Stmt.callsAll body
  | .block body _ => Stmt.callsAll body

/-- The calls in statements. -/
def Stmt.callsAll : List Stmt → List Call
  | [] => []
  | s :: ss => s.calls ++ Stmt.callsAll ss

end

/-- The calls in a program. -/
def Block.calls (block : Block) : List Call := Stmt.callsAll block.body

/-- A call stands in a list of tokens: its callee is an identifier in `depth` pairs of
parentheses, and the parenthesis that opens its arguments comes right behind them. -/
def Call.WrittenIn (tokens : List Token) (depth : Nat) (call : Call) : Prop :=
  ∃ front opens name closes opened inside closed behind,
    tokens = front ++ (opens ++ name :: closes) ++ opened :: (inside ++ closed :: behind) ∧
      opens.map Token.kind = List.replicate depth .openParen ∧ name.kind = .identifier ∧
        closes.map Token.kind = List.replicate depth .closeParen ∧
          call.callee = ⟨name.text, name.span⟩ ∧ opened.kind = .openParen ∧
            SpellsArguments inside call.arguments ∧ closed.kind = .closeParen ∧
              call.span = ⟨name.span.start, closed.span.stop⟩

namespace Call.WrittenIn

variable {ts us : List Token} {depth : Nat} {call : Call}

theorem left (h : call.WrittenIn ts depth) : call.WrittenIn (ts ++ us) depth := by
  obtain ⟨front, opens, name, closes, opened, inside, closed, behind, rfl, rest⟩ := h
  refine ⟨front, opens, name, closes, opened, inside, closed, behind ++ us, ?_, rest⟩
  simp only [List.append_assoc, List.cons_append]

theorem right (h : call.WrittenIn us depth) : call.WrittenIn (ts ++ us) depth := by
  obtain ⟨front, opens, name, closes, opened, inside, closed, behind, rfl, rest⟩ := h
  refine ⟨ts ++ front, opens, name, closes, opened, inside, closed, behind, ?_, rest⟩
  simp only [List.append_assoc]

/-- A callee without parentheses is an identifier that a parenthesis follows. -/
theorem bare (h : call.WrittenIn ts 0) :
    [Kind.identifier, Kind.openParen] <:+: ts.map Token.kind := by
  obtain ⟨front, opens, name, closes, opened, inside, closed, behind, rfl, before, identifier,
    after, -, parenthesis, -⟩ := h
  rw [List.replicate_zero, List.map_eq_nil_iff] at before after
  rw [before, after]
  refine ⟨front.map Token.kind, (inside ++ closed :: behind).map Token.kind, ?_⟩
  simp only [List.map_append, List.map_cons, identifier, parenthesis, List.append_assoc,
    List.cons_append, List.nil_append]

theorem tail {t : Token} (h : call.WrittenIn us depth) : call.WrittenIn (t :: us) depth := by
  show call.WrittenIn ([t] ++ us) depth
  exact h.right

end Call.WrittenIn

end Tree

/-- The tokens of a name are an identifier in some parentheses. -/
theorem name_of_spells : ∀ {ts : List Token} {e : Expr}, Spells ts e → ∀ {s : Symbol},
    e = .symbol s → ∃ depth opens name closes, ts = opens ++ name :: closes ∧
      opens.map Token.kind = List.replicate depth .openParen ∧ name.kind = .identifier ∧
        closes.map Token.kind = List.replicate depth .closeParen ∧ s = ⟨name.text, name.span⟩
  | _, _, .symbol kind, s, same => by
    cases same
    exact ⟨0, [], _, [], rfl, rfl, kind, rfl, rfl⟩
  | _, _, .group (l := l) (r := r) opened inner closed, s, same => by
    obtain ⟨depth, opens, name, closes, rfl, before, identifier, after, symbol⟩ :=
      name_of_spells inner same
    -- One more pair of parentheses, around those that there are.
    refine ⟨depth + 1, l :: opens, name, closes ++ [r], ?_, ?_, identifier, ?_, symbol⟩
    · rw [List.cons_append, List.append_assoc, List.cons_append]
    · rw [List.map_cons, opened, before, List.replicate_succ]
    · rw [List.map_append, after, List.map_singleton, closed, List.replicate_succ']
  | _, _, .number .., _, same | _, _, .boolean .., _, same | _, _, .unary .., _, same
  | _, _, .binary .., _, same | _, _, .conditional .., _, same | _, _, .call .., _, same => by
    cases same

mutual

/-- The calls in an expression are written in its tokens. -/
theorem calls_of_spells : ∀ {ts : List Token} {e : Expr}, Spells ts e → ∀ call ∈ e.calls,
    ∃ depth, call.WrittenIn ts depth
  | _, _, .number .., _, member | _, _, .boolean .., _, member | _, _, .symbol .., _, member => by
    cases member
  -- What is written inside a part is written in the whole, with the same parentheses.
  | _, _, .group _ inner _, call, member => by
    obtain ⟨depth, written⟩ := calls_of_spells inner call member
    exact ⟨depth, written.left.tail⟩
  | _, _, .unary _ operand, call, member => by
    obtain ⟨depth, written⟩ := calls_of_spells operand call member
    exact ⟨depth, written.tail⟩
  | _, _, .binary left _ right, call, member => by
    rcases List.mem_append.mp member with member | member
    · obtain ⟨depth, written⟩ := calls_of_spells left call member
      exact ⟨depth, written.left⟩
    · obtain ⟨depth, written⟩ := calls_of_spells right call member
      exact ⟨depth, written.tail.right⟩
  | _, _, .conditional test _ consequent _ alternate, call, member => by
    rcases List.mem_append.mp member with member | member
    · obtain ⟨depth, written⟩ := calls_of_spells test call member
      exact ⟨depth, written.left⟩
    · rcases List.mem_append.mp member with member | member
      · obtain ⟨depth, written⟩ := calls_of_spells consequent call member
        exact ⟨depth, written.left.tail.right⟩
      · obtain ⟨depth, written⟩ := calls_of_spells alternate call member
        exact ⟨depth, written.tail.right.tail.right⟩
  | _, _, .call callee opened arguments closed, call, member => by
    -- The call itself is written by its own tokens; the others are inside its arguments.
    rcases List.mem_cons.mp member with rfl | member
    · obtain ⟨depth, opens, name, closes, rfl, before, identifier, after, symbol⟩ :=
        name_of_spells callee rfl
      refine ⟨depth, [], opens, name, closes, _, _, _, [], ?_, before, identifier, after, symbol,
        opened, arguments, closed, ?_⟩
      · rw [List.nil_append]
      · rw [symbol]
    · obtain ⟨depth, written⟩ := calls_of_spellsArguments arguments call member
      exact ⟨depth, written.left.tail.right⟩

theorem calls_of_spellsArguments : ∀ {ts : List Token} {es : List Expr}, SpellsArguments ts es →
    ∀ call ∈ Expr.callsAll es, ∃ depth, call.WrittenIn ts depth
  | _, _, .none, _, member => by cases member
  | _, _, .some h, call, member => calls_of_spellsMany h call member

theorem calls_of_spellsMany : ∀ {ts : List Token} {es : List Expr}, SpellsMany ts es →
    ∀ call ∈ Expr.callsAll es, ∃ depth, call.WrittenIn ts depth
  | _, _, .one h, call, member => by
    rcases List.mem_append.mp member with member | member
    · exact calls_of_spells h call member
    · cases member
  | _, _, .more first _ others, call, member => by
    rcases List.mem_append.mp member with member | member
    · obtain ⟨depth, written⟩ := calls_of_spells first call member
      exact ⟨depth, written.left⟩
    · obtain ⟨depth, written⟩ := calls_of_spellsMany others call member
      exact ⟨depth, written.tail.right⟩

end

/-- The calls in an expression are written where it is spelled. -/
theorem calls_of_spelled {tokens : List Token} {e : Expr} (h : SpelledIn tokens e) :
    ∀ call ∈ e.calls, ∃ depth, call.WrittenIn tokens depth := by
  obtain ⟨front, ts, behind, rfl, spelled⟩ := h
  intro call member
  obtain ⟨depth, written⟩ := calls_of_spells spelled call member
  exact ⟨depth, written.left.right⟩

mutual

theorem calls_of_every {tokens : List Token} : (s : Stmt) → s.Every (SpelledIn tokens) →
    ∀ call ∈ s.calls, ∃ depth, call.WrittenIn tokens depth
  | .declaration .., spelled | .assignment .., spelled | .print .., spelled
  | .function .., spelled => calls_of_spelled spelled
  | .loop _ body _ _, spelled =>
    List.forall_mem_append.mpr ⟨calls_of_spelled spelled.1, calls_of_everyAll body spelled.2⟩
  | .block body _, spelled => calls_of_everyAll body spelled

theorem calls_of_everyAll {tokens : List Token} : (ss : List Stmt) →
    Stmt.EveryAll (SpelledIn tokens) ss →
      ∀ call ∈ Stmt.callsAll ss, ∃ depth, call.WrittenIn tokens depth
  | [], _ => by
    intro call none
    cases none
  | s :: ss, spelled =>
    List.forall_mem_append.mpr ⟨calls_of_every s spelled.1, calls_of_everyAll ss spelled.2⟩

end

/-- **Only names are called, in parentheses or not.**  Whatever the tokens are, the callee of every
call in the program is an identifier in some pairs of parentheses, right in front of the
parenthesis that opens the arguments of the call. -/
theorem calls_written {tokens : List Token} {block : Block}
    (h : Tree.Block.ofTokens tokens = .ok block) :
    ∀ call ∈ block.calls, ∃ depth, call.WrittenIn tokens depth :=
  calls_of_everyAll block.body (spelled_ofTokens h)

/-- A call with a callee in two pairs of parentheses, among the arguments of one with none. -/
def nestedCalls : String := "print -f(true, ((g))(x));"

theorem nestedCalls_written : ∃ ts block, tokens nestedCalls = .ok ts ∧
    Tree.Block.ofTokens ts = .ok block ∧
      block.calls.map (fun call => call.callee.name) = ["f", "g"] ∧
        ∀ call ∈ block.calls, ∃ depth, call.WrittenIn ts depth := by
  have names : (parsed nestedCalls).toOption.map
      (fun block => block.calls.map fun call => call.callee.name) = some ["f", "g"] := by
    decide +kernel
  obtain ⟨block, read, same⟩ := Option.map_eq_some_iff.mp names
  obtain ⟨ts, scanned, accepted⟩ := exists_ofTokens_eq (eq_ok_of_toOption read)
  exact ⟨ts, block, scanned, accepted, same, calls_written accepted⟩

/-- A call with its callee in parentheses. -/
def parenthesised : String := "print (f)(x);"

/-- The program `parenthesised` is accepted, and in its tokens no parenthesis follows the callee
of its call but one that closes. -/
theorem parenthesised_not_bare : ∃ ts block, tokens parenthesised = .ok ts ∧
    Tree.Block.ofTokens ts = .ok block ∧
      ∃ call ∈ block.calls, call.callee.name = "f" ∧ ¬ call.WrittenIn ts 0 := by
  have kinds : (tokens parenthesised).toOption.map (fun ts => ts.map Token.kind)
      = some [.printWord, .openParen, .identifier, .closeParen, .openParen, .identifier,
          .closeParen, .semicolon, .eof] := by
    decide +kernel
  have names : (parsed parenthesised).toOption.map
      (fun block => block.calls.map fun call => call.callee.name) = some ["f"] := by
    decide +kernel
  obtain ⟨block, read, same⟩ := Option.map_eq_some_iff.mp names
  obtain ⟨ts, scanned, accepted⟩ := exists_ofTokens_eq (eq_ok_of_toOption read)
  obtain ⟨call, member, name⟩ : ∃ call ∈ block.calls, call.callee.name = "f" := by
    apply List.mem_map.mp
    rw [same]
    exact List.mem_singleton_self _
  refine ⟨ts, block, scanned, accepted, call, member, name, ?_⟩
  -- A call written bare has a name next to its parenthesis, and the kinds show no such pair.
  intro written
  have adjacent := written.bare
  rw [scanned] at kinds
  have spelled : ts.map Token.kind = _ := Option.some.inj kinds
  rw [spelled] at adjacent
  exact absurd adjacent (by decide)

end Frontend

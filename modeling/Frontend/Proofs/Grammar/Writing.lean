import Frontend.Pipeline
import Frontend.Proofs.Grammar.Statement
import Frontend.Proofs.Number.Numeral
import Frontend.Proofs.Resolving.Occurrence

/-!
# Writing programs

A tree can be written as a text that is read as this tree again, with parentheses only where
the tree would be another one without them.

* **`Draft.Expr`**, **`Draft.Stmt`**: trees to be written.  A number is the text that stands for
  it, and an operator the operator itself.
* **`Draft.Expr.words`**: the words of an expression.  An operand that is of a looser category
  than its place asks for stands in parentheses.
* **`Draft.text`**: the text of a program.
* **`derives_words`** and **`least_of_derives`**: the grammar derives a tree from its words, and
  from no fewer words than these.
* **`scan_text`**: the text is scanned as these words.
-/

namespace Frontend

/-! ## Numbers and names -/

/-- A text that is a number from its beginning to its end. -/
structure Numeral where
  text : String
  nonempty : text ≠ ""
  whole : Pattern.number.length text.toList = text.toList.length

/-- A text that is a word from its beginning to its end, and is not reserved. -/
structure Identifier where
  text : String
  nonempty : text ≠ ""
  whole : Pattern.word.length text.toList = text.toList.length
  free : Kind.ofReserved? text = none

/-- The number that a numeral stands for. -/
def Numeral.value (n : Numeral) : Float :=
  (Number.ofText? n.text).get (Number.isSome_ofText? n.nonempty n.whole)

/-- A numeral as a word. -/
def Numeral.word (n : Numeral) : Word := ⟨.number, n.text⟩

/-- An identifier as a word. -/
def Identifier.word (i : Identifier) : Word := ⟨.identifier, i.text⟩

namespace BinaryOperator

/-- An operator as a word. -/
def word (operator : BinaryOperator) : Word := ⟨operator.kind, operator.text⟩

/-- The category of what an operator makes of its operands. -/
def category : BinaryOperator → Category
  | or => .disjunction
  | and => .conjunction
  | less | lessEqual | equal | notEqual | greaterEqual | greater => .comparison
  | add | subtract => .sum
  | multiply | divide | modulo => .product
  | power => .power

end BinaryOperator

/-- An operator as a word. -/
def UnaryOperator.word (operator : UnaryOperator) : Word := ⟨operator.kind, operator.text⟩

/-- The category of what stands behind the operators of a category. -/
def Category.rightOperand : Category → Category
  | disjunction => conjunction
  | conjunction => comparison
  | comparison => sum
  | sum => product
  | product => power
  | power => power
  | other => other

/-! ## Trees to be written -/

namespace Draft

/-- An expression to be written. -/
inductive Expr where
  | number (n : Numeral)
  | boolean (value : Bool)
  | symbol (i : Identifier)
  | binary (left : Expr) (operator : BinaryOperator) (right : Expr)
  | unary (operator : UnaryOperator) (operand : Expr)
  | conditional (test consequent alternate : Expr)
  | call (callee : Identifier) (arguments : List Expr)

/-- A statement to be written. -/
inductive Stmt where
  | declaration (i : Identifier) (value : Expr)
  | function (i : Identifier) (parameters : List Identifier) (body : Expr)
  | assignment (target : Identifier) (value : Expr)
  | print (argument : Expr)
  | loop (test : Expr) (body : List Stmt)

mutual

/-- The tree that an expression is. -/
def Expr.bare : Expr → Bare.Expr
  | .number n => .number n.value
  | .boolean value => .boolean value
  | .symbol i => .symbol i.text
  | .binary left operator right => .binary left.bare operator.word right.bare
  | .unary operator operand => .unary operator.word operand.bare
  | .conditional test consequent alternate =>
    .conditional test.bare consequent.bare alternate.bare
  | .call callee arguments => .call callee.text (Expr.bareAll arguments)

/-- The trees that expressions are. -/
def Expr.bareAll : List Expr → List Bare.Expr
  | [] => []
  | e :: es => e.bare :: Expr.bareAll es

end

mutual

/-- The tree that a statement is. -/
def Stmt.bare : Stmt → Bare.Stmt
  | .declaration i value => .declaration i.text value.bare
  | .function i parameters body => .function i.text (parameters.map Identifier.text) body.bare
  | .assignment target value => .assignment target.text value.bare
  | .print argument => .print argument.bare
  | .loop test body => .loop test.bare (Stmt.bareAll body)

/-- The trees that statements are. -/
def Stmt.bareAll : List Stmt → List Bare.Stmt
  | [] => []
  | s :: ss => s.bare :: Stmt.bareAll ss

end

/-! ## The words of a tree -/

/-- The tightest category that an expression is of without parentheses around it. -/
def Expr.category : Expr → Category
  | .number _ | .boolean _ | .symbol _ => .primary
  | .binary _ operator _ => operator.category
  | .unary _ _ => .prefixed
  | .conditional _ _ _ => .expression
  | .call _ _ => .postfixed

/-- Words of an expression of a category, in parentheses unless that category is good enough for
the place where the expression stands. -/
def within (place own : Category) (ts : List Word) : List Word :=
  if place ≤ own then ts else ⟨.openParen, "("⟩ :: (ts ++ [⟨.closeParen, ")"⟩])

/-- Lists of words with commas between them. -/
def commas : List (List Word) → List Word
  | [] => []
  | [ts] => ts
  | ts :: us :: others => ts ++ ⟨.comma, ","⟩ :: commas (us :: others)

mutual

/-- The words of an expression, without parentheses around it. -/
def Expr.words : Expr → List Word
  | .number n => [n.word]
  | .boolean value => [if value then ⟨.trueWord, "true"⟩ else ⟨.falseWord, "false"⟩]
  | .symbol i => [i.word]
  | .binary left operator right =>
    within operator.category.operand left.category left.words ++
      operator.word :: within operator.category.rightOperand right.category right.words
  | .unary operator operand => operator.word :: within .prefixed operand.category operand.words
  | .conditional test consequent alternate =>
    within .disjunction test.category test.words ++
      ⟨.question, "?"⟩ :: (consequent.words ++ ⟨.colon, ":"⟩ :: alternate.words)
  | .call callee arguments =>
    [callee.word] ++
      ⟨.openParen, "("⟩ :: (commas (Expr.wordsEach arguments) ++ [⟨.closeParen, ")"⟩])

/-- The words of each expression. -/
def Expr.wordsEach : List Expr → List (List Word)
  | [] => []
  | e :: es => e.words :: Expr.wordsEach es

end

/-- An equals sign, a value and a semicolon. -/
def assigned (value : Expr) : List Word :=
  ⟨.assignment, "="⟩ :: (value.words ++ [⟨.semicolon, ";"⟩])

mutual

/-- The words of a statement. -/
def Stmt.words : Stmt → List Word
  | .declaration i value => ⟨.letWord, "let"⟩ :: i.word :: assigned value
  | .function i parameters body =>
    ⟨.functionWord, "function"⟩ :: i.word :: ⟨.openParen, "("⟩ ::
      (commas (parameters.map fun p => [p.word]) ++ ⟨.closeParen, ")"⟩ :: assigned body)
  | .assignment target value => target.word :: assigned value
  | .print argument => ⟨.printWord, "print"⟩ :: (argument.words ++ [⟨.semicolon, ";"⟩])
  | .loop test body =>
    ⟨.whileWord, "while"⟩ ::
      (test.words ++ ⟨.openCurly, "\x7b"⟩ :: (Stmt.wordsAll body ++ [⟨.closeCurly, "\x7d"⟩]))

/-- The words of statements. -/
def Stmt.wordsAll : List Stmt → List Word
  | [] => []
  | s :: ss => s.words ++ Stmt.wordsAll ss

end

/-- Whether there is a space between two words: not inside parentheses next to these, not in
front of a comma or a semicolon, and not between a name and its parentheses. -/
def apart (w v : Word) : Bool :=
  !(w.text == "(" || [")", ",", ";"].contains v.text || w.kind == .identifier && v.text == "(")

/-- The text of a program. -/
def text (program : List Stmt) : String :=
  String.ofList (Token.joined apart (Stmt.wordsAll program))

/-! ## What is written is derived -/

theorem derives_within {place own : Category} {ts : List Word} {e : Bare.Expr}
    (h : Derives own ts e) : Derives place (within place own ts) e := by
  unfold within
  by_cases fits : place ≤ own
  · rw [if_pos fits]
    exact .climb fits h
  · rw [if_neg fits]
    -- In parentheses, an expression fits everywhere.
    have tight : place ≤ .primary := by cases place <;> decide
    exact .climb tight (.group rfl (.climb (Nat.zero_le _) h) rfl)

/-- An operator and its operands, each in a category that is good enough for its place. -/
theorem derives_binary {operator : BinaryOperator} {ts us : List Word} {a b : Bare.Expr}
    (left : Derives operator.category.operand ts a)
    (right : Derives operator.category.rightOperand us b) :
    Derives operator.category (ts ++ operator.word :: us) (.binary a operator.word b) := by
  cases operator with
  | or | and | add | subtract | multiply | divide | modulo =>
    exact .chain rfl left (by decide) right
  | less | lessEqual | equal | notEqual | greaterEqual | greater =>
    exact .comparison left (by decide) right
  | power => exact .power left (by decide) right

/-- Expressions with commas between them. -/
theorem derives_commas {tss : List (List Word)} {es : List Bare.Expr}
    (h : List.Forall₂ (Derives .expression) tss es) : DerivesArguments (commas tss) es := by
  cases h with
  | nil => exact .none
  | @cons ts e tss es first others =>
    refine .some ?_
    induction others generalizing ts e with
    | nil => exact .one first
    | cons next _ ih => exact .more first rfl (ih next)

mutual

/-- The grammar derives an expression from its words. -/
theorem derives_words : (e : Expr) → Derives e.category e.words e.bare
  | .number n => .number rfl (Option.some_get _).symm
  | .boolean true => .holds rfl
  | .boolean false => .fails rfl
  | .symbol i => .symbol rfl
  | .binary left operator right =>
    derives_binary (derives_within (derives_words left)) (derives_within (derives_words right))
  | .unary operator operand =>
    .unary (by cases operator <;> decide) (derives_within (derives_words operand))
  | .conditional test consequent alternate =>
    .conditional (derives_within (derives_words test)) rfl
      (.climb (Nat.zero_le _) (derives_words consequent)) rfl
      (.climb (Nat.zero_le _) (derives_words alternate))
  | .call callee arguments =>
    .call (.name rfl) rfl (derives_commas (derives_wordsEach arguments)) rfl

theorem derives_wordsEach : (es : List Expr) →
    List.Forall₂ (Derives .expression) (Expr.wordsEach es) (Expr.bareAll es)
  | [] => .nil
  | e :: es => .cons (.climb (Nat.zero_le _) (derives_words e)) (derives_wordsEach es)

end

/-- A whole expression is derived from its words, whatever it is. -/
theorem derives_expression (e : Expr) : Derives .expression e.words e.bare :=
  .climb (Nat.zero_le _) (derives_words e)

theorem derives_names (i : Identifier) (others : List Identifier) :
    DerivesNames (commas ((i :: others).map fun p => [p.word]))
      ((i :: others).map Identifier.text) := by
  induction others generalizing i with
  | nil => exact .one (w := i.word) rfl
  | cons next others ih => exact .more (w := i.word) rfl rfl (ih next)

theorem derives_parameters (parameters : List Identifier) :
    DerivesParameters (commas (parameters.map fun p => [p.word]))
      (parameters.map Identifier.text) := by
  cases parameters with
  | nil => exact .none
  | cons i others => exact .some (derives_names i others)

theorem derives_assigned (value : Expr) : DerivesAssigned (assigned value) value.bare :=
  .assigned rfl (derives_expression value) rfl

mutual

/-- The grammar derives a statement from its words. -/
theorem derivesStatement_words : (s : Stmt) → DerivesStatement s.words s.bare
  | .declaration i value => .declaration (i := i.word) rfl rfl (derives_assigned value)
  | .function i parameters body =>
    .function (i := i.word) rfl rfl rfl (derives_parameters parameters) rfl (derives_assigned body)
  | .assignment target value => .assignment (i := target.word) rfl (derives_assigned value)
  | .print argument => .print rfl (derives_expression argument) rfl
  | .loop test body =>
    .loop rfl (derives_expression test) rfl (derivesStatements_words body) rfl

/-- The grammar derives statements from their words. -/
theorem derivesStatements_words : (ss : List Stmt) →
    DerivesStatements (Stmt.wordsAll ss) (Stmt.bareAll ss)
  | [] => .nil
  | s :: ss => .cons (derivesStatement_words s) (derivesStatements_words ss)

end

/-! ## No fewer words will do -/

theorem length_within_mono {place place' own : Category} {ts : List Word} (h : place ≤ place') :
    (within place own ts).length ≤ (within place' own ts).length := by
  unfold within
  by_cases fits : place' ≤ own
  · rw [if_pos fits, if_pos (Category.le_trans h fits)]
  · rw [if_neg fits]
    by_cases fits' : place ≤ own
    · rw [if_pos fits']
      simp only [List.length_cons, List.length_append]
      omega
    · rw [if_neg fits']

theorem within_self {own : Category} {ts : List Word} : within own own ts = ts :=
  if_pos (Category.le_refl own)

theorem within_expression {own : Category} {ts : List Word} : within .expression own ts = ts :=
  if_pos (Nat.zero_le _)

theorem length_within_primary (own : Category) (ts : List Word) :
    (within .primary own ts).length ≤ ts.length + 2 := by
  unfold within
  split
  · omega
  · simp only [List.length_cons, List.length_append, List.length_nil]
    omega

theorem length_pos_of_callee {ts : List Word} {f : String} (h : Callee ts f) : 0 < ts.length := by
  cases h <;> exact Nat.succ_pos _

/-- What a category has operators for has that category itself. -/
theorem category_eq_of_mem_operators {operator : BinaryOperator} {k : Category}
    (h : operator.word.kind ∈ k.operators) (binary : k ≠ .prefixed) : operator.category = k := by
  revert h binary
  cases k <;> cases operator <;> decide

theorem rightOperand_of_chain {k l : Category} (chain : k.chain? = some l) :
    k.rightOperand = l := by
  cases k <;> cases chain <;> rfl

/-- Words of a category are no fewer than those that an expression is written in. -/
def Least (k : Category) (ts : List Word) (b : Bare.Expr) : Prop :=
  ∀ e : Expr, e.bare = b → (within k e.category e.words).length ≤ ts.length

/-- Words are no fewer than those that expressions with commas between them are written in. -/
def LeastMany (us : List Word) (bs : List Bare.Expr) : Prop :=
  ∀ es : List Expr, Expr.bareAll es = bs → (commas (Expr.wordsEach es)).length ≤ us.length

section Least

variable {ts us vs : List Word} {a b c : Bare.Expr} {w : Word}

/-- The words of an operator and its operands. -/
theorem least_binary {k l m : Category} (left : Least l ts a) (right : Least m us b)
    (mem : w.kind ∈ k.operators) (binary : k ≠ .prefixed) (operand : k.operand = l)
    (rightOperand : k.rightOperand = m) : Least k (ts ++ w :: us) (.binary a w b) := by
  intro e same
  cases e with
  | binary x operator y =>
    obtain ⟨rfl, rfl, rfl⟩ := Bare.Expr.binary.inj same
    -- The operands stand at places of the same categories as in the words at hand.
    have category := category_eq_of_mem_operators mem binary
    have first := left x rfl
    have second := right y rfl
    rw [← operand, ← category] at first
    rw [← rightOperand, ← category] at second
    rw [Expr.category, category, within_self, Expr.words]
    simp only [List.length_append, List.length_cons]
    omega
  | _ => cases same

theorem least_conditional {q r : Word} (test : Least .disjunction ts a)
    (consequent : Least .expression us b) (alternate : Least .expression vs c) :
    Least .expression (ts ++ q :: (us ++ r :: vs)) (.conditional a b c) := by
  intro e same
  cases e with
  | conditional x y z =>
    obtain ⟨rfl, rfl, rfl⟩ := Bare.Expr.conditional.inj same
    have first := test x rfl
    have second := consequent y rfl
    have third := alternate z rfl
    rw [within_expression] at second third ⊢
    simp only [Expr.words, List.length_append, List.length_cons]
    omega
  | _ => cases same

theorem least_unary (operand : Least .prefixed ts a) : Least .prefixed (w :: ts) (.unary w a) := by
  intro e same
  cases e with
  | unary operator x =>
    obtain ⟨rfl, rfl⟩ := Bare.Expr.unary.inj same
    have inner := operand x rfl
    rw [Expr.category, within_self, Expr.words]
    simp only [List.length_cons]
    omega
  | _ => cases same

theorem least_call {l r : Word} {f : String} {bs : List Bare.Expr} (callee : Callee ts f)
    (arguments : LeastMany us bs) : Least .postfixed (ts ++ l :: (us ++ [r])) (.call f bs) := by
  intro e same
  cases e with
  | call name es =>
    obtain ⟨rfl, rfl⟩ := Bare.Expr.call.inj same
    have name := length_pos_of_callee callee
    have inner := arguments es rfl
    rw [Expr.category, within_self, Expr.words]
    simp only [List.length_append, List.length_cons, List.length_nil]
    omega
  | _ => cases same

/-- Nothing is written in no words at all. -/
theorem least_singleton {k : Category}
    (single : ∀ e : Expr, e.bare = b → e.category = k ∧ e.words.length = 1) : Least k [w] b := by
  intro e same
  obtain ⟨category, length⟩ := single e same
  rw [category, within_self, length]
  exact Nat.le_refl 1

theorem least_group {l r : Word} (inner : Least .expression ts b) :
    Least .primary (l :: (ts ++ [r])) b := by
  intro e same
  have inside := inner e same
  have outside := length_within_primary e.category e.words
  rw [within_expression] at inside
  simp only [List.length_append, List.length_cons, List.length_nil]
  omega

theorem leastMany_one (h : Least .expression ts b) : LeastMany ts [b] := by
  intro es same
  cases es with
  | nil => cases same
  | cons e es =>
    obtain ⟨here, rest⟩ := List.cons.inj same
    have first := h e here
    rw [within_expression] at first
    cases es with
    | nil => exact first
    | cons e' es => cases rest

theorem leastMany_more {bs : List Bare.Expr} (first : Least .expression ts b)
    (others : LeastMany us bs) : LeastMany (ts ++ w :: us) (b :: bs) := by
  intro es same
  cases es with
  | nil => cases same
  | cons e es =>
    -- Both have a first part; a comma is counted between it and what follows, if anything does.
    obtain ⟨here, rest⟩ := List.cons.inj same
    have first := first e here
    have others := others es rest
    rw [within_expression] at first
    cases es with
    | nil =>
      simp only [Expr.wordsEach, commas, List.length_append]
      omega
    | cons e' es =>
      simp only [Expr.wordsEach, commas, List.length_append, List.length_cons] at others ⊢
      omega

mutual

/-- An expression is derived from no fewer words than its own. -/
theorem least_of_derives : {k : Category} → {ts : List Word} → {b : Bare.Expr} →
    Derives k ts b → Least k ts b
  -- A looser level needs no more words than a tighter one, which puts parentheses around.
  | _, _, _, .climb looser h => fun e same =>
    Nat.le_trans (length_within_mono looser) (least_of_derives h e same)
  | _, _, _, .conditional test _ consequent _ alternate =>
    least_conditional (least_of_derives test) (least_of_derives consequent)
      (least_of_derives alternate)
  | _, _, _, .chain chain left mem right =>
    least_binary (least_of_derives left) (least_of_derives right) mem
      (by rintro rfl; cases chain) (operand_eq_of_chain chain) (rightOperand_of_chain chain)
  | _, _, _, .comparison left mem right =>
    least_binary (least_of_derives left) (least_of_derives right) mem (by decide) rfl rfl
  | _, _, _, .power base mem exponent =>
    least_binary (least_of_derives base) (least_of_derives exponent) mem (by decide) rfl rfl
  | _, _, _, .unary _ operand => least_unary (least_of_derives operand)
  | _, _, _, .call callee _ arguments _ => least_call callee (leastMany_of_arguments arguments)
  -- An atom is one word, and no expression with that tree is written with fewer.
  | _, _, _, .number _ _ => least_singleton fun e same => by
    cases e with
    | number => exact ⟨rfl, rfl⟩
    | _ => cases same
  | _, _, _, .holds _ => least_singleton fun e same => by
    cases e with
    | boolean => exact ⟨rfl, rfl⟩
    | _ => cases same
  | _, _, _, .fails _ => least_singleton fun e same => by
    cases e with
    | boolean => exact ⟨rfl, rfl⟩
    | _ => cases same
  | _, _, _, .symbol _ => least_singleton fun e same => by
    cases e with
    | symbol => exact ⟨rfl, rfl⟩
    | _ => cases same
  | _, _, _, .group _ inner _ => least_group (least_of_derives inner)

theorem leastMany_of_arguments : {us : List Word} → {bs : List Bare.Expr} →
    DerivesArguments us bs → LeastMany us bs
  | _, _, .none => fun es same => by
    cases es with
    | nil => exact Nat.le_refl 0
    | cons e es => cases same
  | _, _, .some h => leastMany_of_many h

theorem leastMany_of_many : {us : List Word} → {bs : List Bare.Expr} →
    DerivesMany us bs → LeastMany us bs
  | _, _, .one h => leastMany_one (least_of_derives h)
  | _, _, .more first _ others => leastMany_more (least_of_derives first) (leastMany_of_many others)

end

end Least

/-! ### Statements -/

theorem length_names_le {ts : List Word} {names : List String} (h : DerivesNames ts names)
    (is : List Identifier) (same : is.map Identifier.text = names) :
    (commas (is.map fun i => [i.word])).length ≤ ts.length := by
  induction h generalizing is with
  | one =>
    obtain ⟨i, rfl⟩ := List.length_eq_one_iff.mp (by simpa using congrArg List.length same)
    exact Nat.le_refl 1
  -- A comma stands before every name but the first.
  | more _ _ _ ih =>
    cases is with
    | nil => cases same
    | cons i is =>
      have others := ih is (List.cons.inj same).2
      cases is with
      | nil =>
        simp only [List.map_cons, List.map_nil, commas, List.length_cons, List.length_nil]
        omega
      | cons i' is =>
        simp only [List.map_cons, commas, List.length_append, List.length_cons,
          List.length_nil] at others ⊢
        omega

theorem length_parameters_le {ts : List Word} {names : List String}
    (h : DerivesParameters ts names) (is : List Identifier)
    (same : is.map Identifier.text = names) :
    (commas (is.map fun i => [i.word])).length ≤ ts.length := by
  cases h with
  | none =>
    rw [List.map_eq_nil_iff.mp same]
    exact Nat.le_refl 0
  | some h => exact length_names_le h is same

theorem length_expression_le {ts : List Word} {e : Expr} (h : Derives .expression ts e.bare) :
    e.words.length ≤ ts.length := by
  have least := least_of_derives h e rfl
  rwa [within_expression] at least

theorem length_assigned_le {ts : List Word} {e : Expr} (h : DerivesAssigned ts e.bare) :
    (assigned e).length ≤ ts.length := by
  cases h with
  | assigned _ value _ =>
    have inner := length_expression_le value
    simp only [assigned, List.length_cons, List.length_append, List.length_nil]
    omega

mutual

/-- A statement is derived from no fewer words than its own. -/
theorem length_statement_le : {ts : List Word} → {b : Bare.Stmt} → DerivesStatement ts b →
    ∀ s : Stmt, s.bare = b → s.words.length ≤ ts.length
  -- A statement is written in one way up to its parts, so its own words are the same in number.
  | _, _, .declaration _ _ value => by
    intro s same
    cases s with
    | declaration i e =>
      obtain ⟨-, rfl⟩ := Bare.Stmt.declaration.inj same
      have inner := length_assigned_le value
      simp only [Stmt.words, List.length_cons]
      omega
    | _ => cases same
  | _, _, .function _ _ _ parameters _ body => by
    intro s same
    cases s with
    | function i is e =>
      obtain ⟨-, names, rfl⟩ := Bare.Stmt.function.inj same
      have list := length_parameters_le parameters is names
      have inner := length_assigned_le body
      simp only [Stmt.words, List.length_cons, List.length_append]
      omega
    | _ => cases same
  | _, _, .assignment _ value => by
    intro s same
    cases s with
    | assignment i e =>
      obtain ⟨-, rfl⟩ := Bare.Stmt.assignment.inj same
      have inner := length_assigned_le value
      simp only [Stmt.words, List.length_cons]
      omega
    | _ => cases same
  | _, _, .print _ argument _ => by
    intro s same
    cases s with
    | print e =>
      obtain rfl := Bare.Stmt.print.inj same
      have inner := length_expression_le argument
      simp only [Stmt.words, List.length_cons, List.length_append, List.length_nil]
      omega
    | _ => cases same
  | _, _, .loop _ test _ body _ => by
    have statements := length_statements_le body
    intro s same
    cases s with
    | loop e ss =>
      obtain ⟨rfl, rest⟩ := Bare.Stmt.loop.inj same
      have first := length_expression_le test
      have second := statements ss rest
      simp only [Stmt.words, List.length_cons, List.length_append, List.length_nil]
      omega
    | _ => cases same

/-- Statements are derived from no fewer words than their own. -/
theorem length_statements_le : {ts : List Word} → {bs : List Bare.Stmt} →
    DerivesStatements ts bs →
      ∀ ss : List Stmt, Stmt.bareAll ss = bs → (Stmt.wordsAll ss).length ≤ ts.length
  | _, _, .nil => by
    intro ss same
    cases ss with
    | nil => exact Nat.le_refl 0
    | cons s ss => cases same
  | _, _, .cons first others => by
    have here := length_statement_le first
    have rest := length_statements_le others
    intro ss same
    cases ss with
    | nil => cases same
    | cons s ss =>
      -- Word for word: the first statement, and then the others.
      obtain ⟨head, tail⟩ := List.cons.inj same
      have first := here s head
      have second := rest ss tail
      simp only [Stmt.wordsAll, List.length_append]
      omega

end

/-! ## What is written is scanned -/

end Draft

namespace Pattern

/-- Whether a text is a lexeme can be found out by scanning it. -/
instance (kind : Kind) (lexeme : List Char) : Decidable (IsLexeme kind lexeme) :=
  decidable_of_iff (((first? lexeme).any fun pattern =>
      pattern.length lexeme == lexeme.length && pattern.kind? lexeme == some kind) = true) (by
    simp [IsLexeme, Option.any_eq_true])

end Pattern

open Pattern (IsLexeme)

/-- What begins with a digit or a letter is neither white space nor a comment. -/
theorem Pattern.silent_of_head {c : Char} (rest : List Char)
    (h : c.isDigit = true ∨ Unicode.isLetter c = true) :
    length .blank (c :: rest) = 0 ∧ length .comment (c :: rest) = 0 := by
  -- A blank is a delimiter, and those are neither digits nor letters.
  have solid : Unicode.isBlank c = false := by
    by_contra blank
    have delimiter : isDelimiter c = true := by
      rw [isDelimiter, Bool.or_eq_true]
      exact Or.inl (by simpa using blank)
    have outside := outside_of_isDelimiter delimiter
    simp [outside.digit, outside.letter] at h
  constructor
  · simp [length, solid]
  -- A comment starts with a slash, and no digit or letter is one.
  · show commentLength (c :: rest) = 0
    apply commentLength_of_ne
    intro back same
    obtain ⟨rfl, -⟩ := List.cons.inj same
    revert h
    decide

theorem Numeral.isLexeme (n : Numeral) : IsLexeme n.word.kind n.word.text.toList := by
  have nonempty : n.text.toList ≠ [] := by simpa using n.nonempty
  have taken : Pattern.length .number n.text.toList ≠ 0 := by
    rw [n.whole]
    simpa using nonempty
  refine ⟨.number, ?_, n.whole, rfl⟩
  refine Pattern.first?_eq_some_iff.mpr ⟨taken, [.blank, .comment], _, rfl, ?_⟩
  obtain ⟨d, rest, text⟩ := List.exists_cons_of_ne_nil nonempty
  have digit : d.isDigit = true := by
    by_contra other
    rw [text] at taken
    simp [Pattern.length, Pattern.numberLength, Pattern.digitsLength, other] at taken
  have silent := Pattern.silent_of_head rest (Or.inl digit)
  simpa [Numeral.word, text] using silent

theorem Identifier.isLexeme (i : Identifier) : IsLexeme i.word.kind i.word.text.toList := by
  have nonempty : i.text.toList ≠ [] := by simpa using i.nonempty
  have taken : Pattern.length .word i.text.toList ≠ 0 := by
    rw [i.whole]
    simpa using nonempty
  refine ⟨.word, ?_, i.whole, ?_⟩
  -- The patterns tried before words match nothing at a letter.
  · refine Pattern.first?_eq_some_iff.mpr ⟨taken, [.blank, .comment, .number], _, rfl, ?_⟩
    obtain ⟨c, rest, text⟩ := List.exists_cons_of_ne_nil nonempty
    have letter : Unicode.isLetter c = true := by
      by_contra other
      rw [text] at taken
      simp [Pattern.length, Pattern.wordLength, other] at taken
    have digit : c.isDigit = false := by
      by_contra digit
      rw [not_isLetter_of_isDigit (by simpa using digit)] at letter
      cases letter
    have number : Pattern.length .number (c :: rest) = 0 := by
      simp [Pattern.length, Pattern.numberLength, Pattern.digitsLength, digit]
    have silent := Pattern.silent_of_head rest (Or.inr letter)
    simpa [Identifier.word, text, number] using silent
  · simp [Pattern.kind?, Identifier.word, String.ofList_toList, i.free]

namespace Draft

/-- A word that is scanned as what it is. -/
def Solid (w : Word) : Prop := IsLexeme w.kind w.text.toList

instance (w : Word) : Decidable (Solid w) :=
  inferInstanceAs (Decidable (IsLexeme w.kind w.text.toList))

/-- Words that are scanned as what they are. -/
def AllSolid (ts : List Word) : Prop := ∀ w ∈ ts, Solid w

@[simp] theorem allSolid_nil : AllSolid [] := fun _ none => absurd none List.not_mem_nil

@[simp] theorem allSolid_cons {w : Word} {ts : List Word} :
    AllSolid (w :: ts) ↔ Solid w ∧ AllSolid ts := List.forall_mem_cons

@[simp] theorem allSolid_append {ts us : List Word} :
    AllSolid (ts ++ us) ↔ AllSolid ts ∧ AllSolid us := List.forall_mem_append

theorem solid_binary (operator : BinaryOperator) : Solid operator.word := by
  cases operator <;> decide +kernel

theorem solid_unary (operator : UnaryOperator) : Solid operator.word := by
  cases operator <;> decide +kernel

/-- The words that are the same in all programs. -/
theorem solid_fixed :
    Solid ⟨.openParen, "("⟩ ∧ Solid ⟨.closeParen, ")"⟩ ∧ Solid ⟨.openCurly, "\x7b"⟩ ∧
    Solid ⟨.closeCurly, "\x7d"⟩ ∧ Solid ⟨.comma, ","⟩ ∧ Solid ⟨.semicolon, ";"⟩ ∧
    Solid ⟨.question, "?"⟩ ∧ Solid ⟨.colon, ":"⟩ ∧ Solid ⟨.assignment, "="⟩ ∧
    Solid ⟨.letWord, "let"⟩ ∧ Solid ⟨.functionWord, "function"⟩ ∧ Solid ⟨.printWord, "print"⟩ ∧
    Solid ⟨.whileWord, "while"⟩ ∧ Solid ⟨.trueWord, "true"⟩ ∧ Solid ⟨.falseWord, "false"⟩ := by
  decide +kernel

theorem solid_within {place own : Category} {ts : List Word} (h : AllSolid ts) :
    AllSolid (within place own ts) := by
  unfold within
  split
  · exact h
  · simp [h, solid_fixed]

theorem solid_commas {tss : List (List Word)} (h : ∀ ts ∈ tss, AllSolid ts) :
    AllSolid (commas tss) := by
  fun_induction commas tss with
  | case1 => exact allSolid_nil
  | case2 ts => exact h ts List.mem_cons_self
  | case3 ts us others ih =>
    rw [List.forall_mem_cons] at h
    simp [h.1, ih h.2, solid_fixed]

mutual

/-- The words of an expression are scanned as what they are. -/
theorem solid_words : (e : Expr) → AllSolid e.words
  -- Atoms are solid by themselves; for the rest it goes through their parts.
  | .number n => by
    have number : Solid n.word := n.isLexeme
    simp [Expr.words, number]
  | .boolean value => by cases value <;> simp [Expr.words, solid_fixed]
  | .symbol i => by
    have name : Solid i.word := i.isLexeme
    simp [Expr.words, name]
  | .binary left operator right => by
    have first := solid_words left
    have second := solid_words right
    simp [Expr.words, solid_within first, solid_within second, solid_binary]
  | .unary operator operand => by
    have inner := solid_words operand
    simp [Expr.words, solid_within inner, solid_unary]
  | .conditional test consequent alternate => by
    have first := solid_words test
    have second := solid_words consequent
    have third := solid_words alternate
    simp [Expr.words, solid_within first, second, third, solid_fixed]
  | .call callee arguments => by
    have name : Solid callee.word := callee.isLexeme
    have inner := solid_commas (solid_wordsEach arguments)
    simp [Expr.words, name, inner, solid_fixed]

theorem solid_wordsEach : (es : List Expr) → ∀ ts ∈ Expr.wordsEach es, AllSolid ts
  | [] => fun _ none => absurd none List.not_mem_nil
  | e :: es => List.forall_mem_cons.mpr ⟨solid_words e, solid_wordsEach es⟩

end

theorem solid_assigned (value : Expr) : AllSolid (assigned value) := by
  simp [assigned, solid_words value, solid_fixed]

mutual

/-- The words of a statement are scanned as what they are. -/
theorem solid_statement : (s : Stmt) → AllSolid s.words
  | .declaration i value => by
    have name : Solid i.word := i.isLexeme
    simp [Stmt.words, name, solid_assigned value, solid_fixed]
  | .function i parameters body => by
    have name : Solid i.word := i.isLexeme
    have names : AllSolid (commas (parameters.map fun p => [p.word])) := by
      -- Parameters are names with commas between, both solid.
      apply solid_commas
      rw [List.forall_mem_map]
      intro p _
      exact allSolid_cons.mpr ⟨p.isLexeme, allSolid_nil⟩
    simp [Stmt.words, name, names, solid_assigned body, solid_fixed]
  | .assignment target value => by
    have name : Solid target.word := target.isLexeme
    simp [Stmt.words, name, solid_assigned value]
  | .print argument => by simp [Stmt.words, solid_words argument, solid_fixed]
  | .loop test body => by
    have inner := solid_statements body
    simp [Stmt.words, solid_words test, inner, solid_fixed]

/-- The words of statements are scanned as what they are. -/
theorem solid_statements : (ss : List Stmt) → AllSolid (Stmt.wordsAll ss)
  | [] => allSolid_nil
  | s :: ss => allSolid_append.mpr ⟨solid_statement s, solid_statements ss⟩

end

/-- Without a space, two words do not run into each other. -/
theorem mayTouch_of_apart {w v : Word} (h : apart w v = false) : Token.MayTouch w v := by
  simp only [apart, Bool.not_eq_false', Bool.or_eq_true, Bool.and_eq_true, beq_iff_eq] at h
  rcases h with (opened | listed) | ⟨-, opened⟩
  · exact Or.inl opened
  · refine Or.inr ?_
    have all : ∀ text ∈ [")", ",", ";"], text.toList.head?.all Pattern.isDelimiter = true := by
      decide +kernel
    exact (Option.all_eq_true _ _).mp (all _ (List.contains_iff_mem.mp listed))
  · refine Or.inr ?_
    rw [opened]
    intro c first
    cases first
    decide

/-- The text of a program is scanned as its words. -/
theorem scan_text (program : List Stmt) :
    ∃ ts, tokens (text program) = .ok ts ∧
      ts.map Token.word = Stmt.wordsAll program ++ [Token.endWord] := by
  obtain ⟨ts, scanned, words⟩ :=
    Token.scan_joined (fun _ _ => mayTouch_of_apart) (solid_statements program)
  refine ⟨ts, ?_, words⟩
  rw [tokens, text, scanned]
  rfl

end Draft

/-! ## Round trip -/

/-- **What is written is read back.**  The text of a program is scanned and read as this very
program, and no text that is read as this program has fewer words: parentheses stand where the
tree would be another one without them, and nowhere else. -/
theorem parsed_text (program : List Draft.Stmt) :
    (∃ block, compile (Draft.text program) .parsed = .ok (.phrases block) ∧
      Tree.Stmt.bareAll block.body = Draft.Stmt.bareAll program) ∧
    ∀ {source : String} {ts ts' : List Token} {block : Tree.Block}, tokens source = .ok ts →
      Tree.Block.ofTokens ts = .ok block →
      Tree.Stmt.bareAll block.body = Draft.Stmt.bareAll program →
      tokens (Draft.text program) = .ok ts' → ts'.length ≤ ts.length := by
  obtain ⟨written, scanned, words⟩ := Draft.scan_text program
  constructor
  -- The words of the draft derive its tree, and what derives a tree is read as that tree.
  · have derived := Draft.derivesStatements_words program
    obtain ⟨block, read, same⟩ :=
      ofTokens_of_derives derived words (Token.closed_of_scan (Token.scan_eq_of_tokens scanned)) rfl
    have result : parsed (Draft.text program) = .ok block := by
      rw [parsed, scanned]
      exact read
    refine ⟨block, ?_, same⟩
    rw [compile, result]
    rfl
  -- Any other text with this tree derives it too, and no derivation has fewer words.
  · intro source ts ts' block scanned' read same again
    obtain rfl : written = ts' := Except.ok.inj (scanned.symm.trans again)
    obtain ⟨us, w, words', derived⟩ :=
      derives_of_ofTokens read (Token.closed_of_scan (Token.scan_eq_of_tokens scanned'))
    rw [same] at derived
    have fewest := Draft.length_statements_le derived program rfl
    have here := congrArg List.length words
    have there := congrArg List.length words'
    -- The two lists of tokens have one end of the text each, next to these words.
    simp only [List.length_map, List.length_append, List.length_cons, List.length_nil] at here there
    omega

/-- `a` less the difference of `b` and `c`. -/
def differences : List Draft.Stmt :=
  [.print (.binary (.symbol ⟨"a", by decide, by decide, by decide⟩) .subtract
    (.binary (.symbol ⟨"b", by decide, by decide, by decide⟩) .subtract
      (.symbol ⟨"c", by decide, by decide, by decide⟩)))]

example : Draft.text differences = "print a - (b - c);" := by decide +kernel

/-- One pair of parentheses is needed. -/
theorem differences_written :
    (∃ block, compile (Draft.text differences) .parsed = .ok (.phrases block) ∧
      Tree.Stmt.bareAll block.body = Draft.Stmt.bareAll differences) ∧
    ∃ ts ts', tokens "print a - ((b - c));" = .ok ts ∧ tokens (Draft.text differences) = .ok ts' ∧
      ts'.length ≤ ts.length := by
  have words : (tokens "print a - ((b - c));").toOption.map (List.map Token.word) =
      some ([⟨.printWord, "print"⟩, ⟨.identifier, "a"⟩, ⟨.dash, "-"⟩, ⟨.openParen, "("⟩,
        ⟨.openParen, "("⟩, ⟨.identifier, "b"⟩, ⟨.dash, "-"⟩, ⟨.identifier, "c"⟩, ⟨.closeParen, ")"⟩,
        ⟨.closeParen, ")"⟩, ⟨.semicolon, ";"⟩] ++ [Token.endWord]) := by
    decide +kernel
  obtain ⟨ts, found, same⟩ := Option.map_eq_some_iff.mp words
  have scanned := eq_ok_of_toOption found
  -- The longer text derives the same tree, through a group inside a group.
  have derived : DerivesStatements [⟨.printWord, "print"⟩, ⟨.identifier, "a"⟩, ⟨.dash, "-"⟩,
      ⟨.openParen, "("⟩, ⟨.openParen, "("⟩, ⟨.identifier, "b"⟩, ⟨.dash, "-"⟩, ⟨.identifier, "c"⟩,
      ⟨.closeParen, ")"⟩, ⟨.closeParen, ")"⟩, ⟨.semicolon, ";"⟩]
      (Draft.Stmt.bareAll differences) := by
    have name (text : String) (k : Category) (tight : k ≤ .primary) :
        Derives k [⟨.identifier, text⟩] (.symbol text) := .climb tight (.symbol rfl)
    have group {ts : List Word} {e : Bare.Expr} (k : Category) (tight : k ≤ .primary)
        (h : Derives .expression ts e) :
        Derives k (⟨.openParen, "("⟩ :: (ts ++ [⟨.closeParen, ")"⟩])) e :=
      .climb tight (.group rfl h rfl)
    have inner := Derives.chain (k := .sum) (w := ⟨.dash, "-"⟩) rfl (name "b" .sum (by decide))
      (by decide) (name "c" .product (by decide))
    have twice := group .product (by decide)
      (group .expression (by decide) (.climb (Nat.zero_le _) inner))
    have outer := Derives.chain (k := .sum) (w := ⟨.dash, "-"⟩) rfl (name "a" .sum (by decide))
      (by decide) twice
    exact .cons (.print (w := ⟨.printWord, "print"⟩) (s := ⟨.semicolon, ";"⟩) rfl
      (.climb (Nat.zero_le _) outer) rfl) .nil
  obtain ⟨block, read, bare⟩ := ofTokens_of_derives derived same
    (Token.closed_of_scan (Token.scan_eq_of_tokens scanned)) rfl
  obtain ⟨ts', scanned', -⟩ := Draft.scan_text differences
  have written := parsed_text differences
  exact ⟨written.1, ts, ts', scanned, scanned', written.2 scanned read bare scanned'⟩

end Frontend

import Frontend.Diagnostic.Basic
import Frontend.Proofs.Grammar.Derivation
import Mathlib.Data.List.Forall2

/-!
# The same tree at another place

Trees that differ in their places only, together with what is kept of these places: the
positions that a diagnostic may name are related by `S`, each together with the text of the token
that starts there.

* **`Fault.About`**: what a fault says of the text of the token that it is about.
* **`Expr.Moved`**, **`Stmt.Moved`**: the same tree, where the symbols start at related
  positions.
* **`SameResult`**: the same result of a step, or the same fault at related positions.
* **`Expr.Moved.bare_eq`**, **`Stmt.Moved.bare_eq`**: without their places the trees are equal.
-/

namespace Frontend

/-- What a fault says of the text of the token that it is about.  Of a call with a wrong number of
arguments it does not say the name, and a character that starts no token is in no token's text. -/
def Fault.About : Fault → String → Prop
  | .unexpected token, text | .misplaced token _, text | .malformedNumber token, text =>
    token = text
  | .duplicate name, text | .undeclared name, text | .wrongKind name _ _, text
  | .readOnly name, text => name = text
  | .arity _ _, _ => True
  | .unrecognised _, _ => False

/-- The same word, at positions that are related. -/
structure Token.Moved (S : String → Position → Position → Prop) (t t' : Token) : Prop where
  word : t.word = t'.word
  start : S t.text t.span.start t'.span.start

/-- The same name, at positions that are related. -/
structure Symbol.Moved (S : String → Position → Position → Prop) (s s' : Symbol) : Prop where
  name : s.name = s'.name
  start : S s.name s.span.start s'.span.start

/-- Positions that are related by the text of a token that a fault is about. -/
def SameFault (S : String → Position → Position → Prop) (f : Fault) (p p' : Position) : Prop :=
  ∃ text, f.About text ∧ S text p p'

/-- The same result of a step of the work on a program, or the same fault, at positions that are
related. -/
inductive SameResult {α : Type} (S : String → Position → Position → Prop) (R : α → α → Prop) :
    Except Stop α → Except Stop α → Prop where
  | ok {x x' : α} (h : R x x') : SameResult S R (.ok x) (.ok x')
  | fault {f : Fault} {p p' : Position} (h : SameFault S f p p') :
      SameResult S R (.error (.fault ⟨f, p⟩)) (.error (.fault ⟨f, p'⟩))

namespace Tree

variable {S : String → Position → Position → Prop}

mutual

/-- The same expression, with its symbols at positions that are related. -/
inductive Expr.Moved (S : String → Position → Position → Prop) : Expr → Expr → Prop where
  | number {x : Float} {p p' : Span} : Moved S (.number x p) (.number x p')
  | boolean {x : Bool} {p p' : Span} : Moved S (.boolean x p) (.boolean x p')
  | symbol {x x' : Symbol} (name : x.Moved S x') : Moved S (.symbol x) (.symbol x')
  | binary {a a' b b' : Expr} {o o' : Token} {p p' : Span} (left : Moved S a a')
      (operator : o.word = o'.word) (right : Moved S b b') :
      Moved S (.binary a o b p) (.binary a' o' b' p')
  | unary {a a' : Expr} {o o' : Token} {p p' : Span} (operator : o.word = o'.word)
      (operand : Moved S a a') : Moved S (.unary o a p) (.unary o' a' p')
  | conditional {t t' a a' b b' : Expr} {p p' : Span} (test : Moved S t t')
      (consequent : Moved S a a') (alternate : Moved S b b') :
      Moved S (.conditional t a b p) (.conditional t' a' b' p')
  | call {f f' : Symbol} {es es' : List Expr} {p p' : Span} (callee : f.Moved S f')
      (arguments : MovedAll S es es') : Moved S (.call f es p) (.call f' es' p')

/-- The same expressions. -/
inductive Expr.MovedAll (S : String → Position → Position → Prop) :
    List Expr → List Expr → Prop where
  | nil : MovedAll S [] []
  | cons {e e' : Expr} {es es' : List Expr} (first : Moved S e e') (others : MovedAll S es es') :
      MovedAll S (e :: es) (e' :: es')

end

mutual

/-- The same statement, with its symbols at positions that are related. -/
inductive Stmt.Moved (S : String → Position → Position → Prop) : Stmt → Stmt → Prop where
  | declaration {x x' : Symbol} {e e' : Expr} {p p' : Span} (identifier : x.Moved S x')
      (value : e.Moved S e') : Moved S (.declaration x e p) (.declaration x' e' p')
  | function {f f' : Symbol} {xs xs' : List Symbol} {e e' : Expr} {p p' : Span}
      (identifier : f.Moved S f') (parameters : List.Forall₂ (Symbol.Moved S) xs xs')
      (body : e.Moved S e') : Moved S (.function f xs e p) (.function f' xs' e' p')
  | assignment {x x' : Symbol} {e e' : Expr} {p p' : Span} (target : x.Moved S x')
      (value : e.Moved S e') : Moved S (.assignment x e p) (.assignment x' e' p')
  | print {e e' : Expr} {p p' : Span} (argument : e.Moved S e') :
      Moved S (.print e p) (.print e' p')
  | loop {t t' : Expr} {ss ss' : List Stmt} {q q' p p' : Span} (test : t.Moved S t')
      (body : MovedAll S ss ss') : Moved S (.loop t ss q p) (.loop t' ss' q' p')
  | block {ss ss' : List Stmt} {p p' : Span} (body : MovedAll S ss ss') :
      Moved S (.block ss p) (.block ss' p')

/-- The same statements. -/
inductive Stmt.MovedAll (S : String → Position → Position → Prop) :
    List Stmt → List Stmt → Prop where
  | nil : MovedAll S [] []
  | cons {s s' : Stmt} {ss ss' : List Stmt} (first : Moved S s s') (others : MovedAll S ss ss') :
      MovedAll S (s :: ss) (s' :: ss')

end

mutual

/-- Only places differ. -/
theorem Expr.Moved.bare_eq : {e e' : Expr} → e.Moved S e' → e.bare = e'.bare
  | _, _, .number => rfl
  | _, _, .boolean => rfl
  | _, _, .symbol h => by simp only [Expr.bare, h.name]
  | _, _, .binary left operator right => by
    simp only [Expr.bare, left.bare_eq, operator, right.bare_eq]
  | _, _, .unary operator operand => by simp only [Expr.bare, operator, operand.bare_eq]
  | _, _, .conditional test consequent alternate => by
    simp only [Expr.bare, test.bare_eq, consequent.bare_eq, alternate.bare_eq]
  | _, _, .call callee arguments => by simp only [Expr.bare, callee.name, arguments.bare_eq]

theorem Expr.MovedAll.bare_eq : {es es' : List Expr} → Expr.MovedAll S es es' →
    Expr.bareAll es = Expr.bareAll es'
  | _, _, .nil => rfl
  | _, _, .cons first others => by simp only [Expr.bareAll, first.bare_eq, others.bare_eq]

end

theorem names_eq {is is' : List Symbol} (h : List.Forall₂ (Symbol.Moved S) is is') :
    is.map Symbol.name = is'.map Symbol.name := by
  induction h with
  | nil => rfl
  | cons first _ ih => rw [List.map_cons, List.map_cons, first.name, ih]

theorem Expr.MovedAll.length_eq {es es' : List Expr} (h : Expr.MovedAll S es es') :
    es.length = es'.length := by
  induction es generalizing es' with
  | nil =>
    cases h
    rfl
  | cons e es ih =>
    cases h with
    | cons _ others => rw [List.length_cons, List.length_cons, ih others]

mutual

/-- Only places differ. -/
theorem Stmt.Moved.bare_eq : {s s' : Stmt} → s.Moved S s' → s.bare = s'.bare
  | _, _, .declaration identifier value => by
    simp only [Stmt.bare, identifier.name, value.bare_eq]
  | _, _, .function identifier parameters body => by
    simp only [Stmt.bare, identifier.name, names_eq parameters, body.bare_eq]
  | _, _, .assignment target value => by simp only [Stmt.bare, target.name, value.bare_eq]
  | _, _, .print argument => by simp only [Stmt.bare, argument.bare_eq]
  | _, _, .loop test body => by simp only [Stmt.bare, test.bare_eq, body.bare_eq]
  | _, _, .block body => by simp only [Stmt.bare, body.bare_eq]

theorem Stmt.MovedAll.bare_eq : {ss ss' : List Stmt} → Stmt.MovedAll S ss ss' →
    Stmt.bareAll ss = Stmt.bareAll ss'
  | _, _, .nil => rfl
  | _, _, .cons first others => by simp only [Stmt.bareAll, first.bare_eq, others.bare_eq]

end

end Tree

end Frontend

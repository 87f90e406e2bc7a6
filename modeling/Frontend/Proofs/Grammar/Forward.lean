import Frontend.Grammar.Statement

/-!
# Reading goes forward

A reading never moves the cursor back, also where it stops.

* **`Cursor.index`**: the number of the token that a cursor stands at.
* **`Parse.final`**: where a step leaves the cursor, in any case.
* **`Forward`**: a step that never moves the cursor back.  All steps of the grammar are such
  steps.  It is a class, since a chain of steps is one by what its parts are alone.
-/

namespace Frontend

namespace Cursor

variable {c : Cursor}

/-- The number of the token to be read, counted from zero. -/
def index (c : Cursor) : Nat := c.behind.length

theorem getElem?_index (c : Cursor) : c.tokens[c.index]? = some c.current := by
  simp [tokens, index]

theorem getElem?_succ_index (c : Cursor) : c.tokens[c.index + 1]? = c.ahead.head? := by
  cases ahead : c.ahead <;> simp [tokens, index, ahead]

theorem index_lt_length (c : Cursor) : c.index < c.tokens.length := by
  simp [tokens, index]

theorem index_advance {next : Token} {others : List Token} (h : c.ahead = next :: others) :
    c.advance.index = c.index + 1 := by
  simp [advance, h, index]

theorem index_le_advance (c : Cursor) : c.index ≤ c.advance.index := by
  cases ahead : c.ahead with
  | nil => simp [advance, ahead]
  | cons next others =>
    rw [index_advance ahead]
    omega

/-- There is fuel for every token when a reading begins. -/
theorem length_le_fuel (c : Cursor) (first : c.index = 0) : c.tokens.length ≤ c.fuel := by
  have behind : c.behind = [] := List.length_eq_zero_iff.mp first
  rw [tokens, behind, fuel]
  simp

end Cursor

/-! ## Reading goes forward -/

namespace Parse

variable {α β : Type}

/-- Where a step leaves the cursor, whether it yields something or stops. -/
def final (p : Parse α) (c : Cursor) : Cursor :=
  match p.run c with
  | .ok _ d => d
  | .error _ d => d

/-- A step that never moves the cursor back, and stays in the list. -/
class Forward (p : Parse α) : Prop where
  index_le : ∀ c, c.index ≤ (p.final c).index
  tokens_eq : ∀ c, (p.final c).tokens = c.tokens

theorem run_bind {p : Parse α} {f : α → Parse β} {c : Cursor} :
    (p >>= f).run c = match p.run c with
      | .ok x d => (f x).run d
      | .error stop d => .error stop d := by
  show EStateM.bind p f c = _
  unfold EStateM.bind EStateM.run
  cases p c <;> rfl

theorem final_bind {p : Parse α} {f : α → Parse β} {c : Cursor} :
    (p >>= f).final c = match p.run c with
      | .ok x d => (f x).final d
      | .error _ d => d := by
  unfold final
  rw [run_bind]
  cases p.run c <;> rfl

instance forward_pure (x : α) : Forward (pure x) := ⟨fun c => Nat.le_refl c.index, fun _ => rfl⟩

instance forward_throw (stop : Stop) : Forward (throw stop : Parse α) :=
  ⟨fun c => Nat.le_refl c.index, fun _ => rfl⟩

instance forward_get : Forward (get : Parse Cursor) := ⟨fun c => Nat.le_refl c.index, fun _ => rfl⟩

instance forward_advance : Forward advance :=
  ⟨fun c => c.index_le_advance, fun c => c.tokens_advance⟩

instance forward_bind (p : Parse α) (f : α → Parse β) [Forward p] [∀ x, Forward (f x)] :
    Forward (p >>= f) := by
  have final (c : Cursor) : (∃ x, (p >>= f).final c = (f x).final (p.final c)) ∨
      (p >>= f).final c = p.final c := by
    rw [final_bind]
    unfold final
    cases p.run c with
    | ok x d => exact Or.inl ⟨x, rfl⟩
    | error stop d => exact Or.inr rfl
  constructor
  · intro c
    have first : c.index ≤ (p.final c).index := Forward.index_le c
    obtain ⟨x, rest⟩ | stopped := final c
    · rw [rest]
      exact Nat.le_trans first (Forward.index_le _)
    · rwa [stopped]
  · intro c
    have first : (p.final c).tokens = c.tokens := Forward.tokens_eq c
    obtain ⟨x, rest⟩ | stopped := final c
    · rw [rest]
      exact (Forward.tokens_eq _).trans first
    · rwa [stopped]

instance forward_ite (P : Prop) [Decidable P] (p q : Parse α) [Forward p] [Forward q] :
    Forward (if P then p else q) := by
  split <;> infer_instance

instance forward_current : Forward current := forward_bind _ _

instance forward_kind : Forward kind := forward_bind _ _

instance forward_fail (fault : Fault) (position : Position) :
    Forward (fail fault position : Parse α) := forward_throw _

instance forward_misplaced (reason : String) : Forward (misplaced reason : Parse α) :=
  forward_bind _ _

instance forward_exhausted : Forward (exhausted : Parse α) := forward_throw _

instance forward_expectOr (kind : Kind) (otherwise : Diagnostic) :
    Forward (expectOr kind otherwise) := forward_bind _ _

instance forward_expect (kind : Kind) : Forward (expect kind) := forward_bind _ _

instance forward_expectFor (kind : Kind) (reason : String) : Forward (expectFor kind reason) :=
  forward_bind _ _

end Parse

namespace Grammar

open Frontend.Tree (Expr Stmt Block)
open Parse (Forward)

variable {table : Table} {inner : Power → Parse Expr}

/-- The arguments of a call and the parentheses around them. -/
theorem callOf_symbol (fuel : Nat) (symbol : Symbol) : callOf inner fuel (.symbol symbol) = (do
    let _ ← Parse.expect .openParen
    let kind ← Parse.kind
    let values ← (if kind = .closeParen then pure [] else arguments inner fuel)
    let close ← Parse.expect .closeParen
    return .call symbol values ⟨symbol.span.start, close.span.stop⟩) := by
  simp only [callOf]
  congr
  funext _
  congr
  funext kind
  split <;> rfl

/-- The number that a token stands for. -/
def numberOf (token : Token) : Parse Expr :=
  match Number.ofText? token.text with
  | some value => return .number value token.span
  | none => Parse.fail (.malformedNumber token.text) token.span.start

instance forward_numberOf (token : Token) : Forward (numberOf token) := by
  unfold numberOf
  split <;> infer_instance

section Expressions

variable [∀ power, Forward (inner power)]

instance forward_opening : Forward (opening table inner) := by
  unfold opening
  refine @Parse.forward_bind _ _ _ _ _ fun kind => ?_
  split
  · infer_instance
  · exact Parse.forward_bind Parse.advance numberOf
  all_goals infer_instance

instance forward_arguments (fuel : Nat) : Forward (arguments inner fuel) := by
  induction fuel with
  | zero => exact Parse.forward_exhausted
  | succ fuel ih =>
    unfold arguments
    infer_instance

instance forward_branches (test : Expr) : Forward (branches inner test) := by
  unfold branches
  infer_instance

instance forward_rightOperand (left : Expr) (power : Power) :
    Forward (rightOperand inner left power) := by
  unfold rightOperand
  infer_instance

instance forward_refuseComparison : Forward (refuseComparison table) := by
  unfold refuseComparison
  infer_instance

instance forward_callOf (fuel : Nat) (callee : Expr) : Forward (callOf inner fuel callee) := by
  cases callee with
  | symbol symbol =>
    rw [callOf_symbol]
    infer_instance
  | _ => exact Parse.forward_misplaced _

instance forward_continuation (fuel : Nat) (left : Expr) (power : Power) (form : Continuation) :
    Forward (continuation table inner fuel left power form) := by
  cases form with
  | binary =>
    unfold continuation
    infer_instance
  | conditional => exact forward_branches left
  | exponent => exact forward_rightOperand left _
  | call => exact forward_callOf fuel left

instance forward_continueWhile (power : Power) (fuel : Nat) (left : Expr) :
    Forward (continueWhile table inner power fuel left) := by
  induction fuel generalizing left with
  | zero => exact Parse.forward_exhausted
  | succ fuel ih =>
    unfold continueWhile
    refine @Parse.forward_bind _ _ _ _ _ fun kind => ?_
    split <;> infer_instance

end Expressions

instance forward_expr (fuel : Nat) (power : Power) : Forward (expr table fuel power) := by
  induction fuel generalizing power with
  | zero => exact Parse.forward_exhausted
  | succ fuel ih =>
    unfold expr
    infer_instance

instance forward_identifier (context : String) : Forward (identifier context) :=
  Parse.forward_bind _ _

instance forward_parameters (fuel : Nat) : Forward (parameters fuel) := by
  induction fuel with
  | zero => exact Parse.forward_exhausted
  | succ fuel ih =>
    unfold parameters
    infer_instance

instance forward_assigned (fuel : Nat) : Forward (assigned table fuel) := by
  unfold assigned
  infer_instance

instance forward_spanFrom (start : Position) : Forward (spanFrom start) := Parse.forward_bind _ _

instance forward_blockBody (statement : Parse Stmt) [Forward statement] (fuel : Nat) :
    Forward (blockBody statement fuel) := by
  induction fuel with
  | zero => exact Parse.forward_exhausted
  | succ fuel ih =>
    unfold blockBody
    refine @Parse.forward_bind _ _ _ _ _ fun kind => ?_
    split <;> infer_instance

/-- The names of parameters and the parentheses around them. -/
theorem function_eq (fuel : Nat) : function table fuel = (do
    let word ← Parse.advance
    let name ← identifier "after `function`"
    let _ ← Parse.expect .openParen
    let kind ← Parse.kind
    let names ← (if kind = .closeParen then pure [] else parameters fuel)
    let _ ← Parse.expect .closeParen
    let body ← assigned table fuel
    let span ← spanFrom word.span.start
    return .function name names body span) := by
  -- Both sides are the same chain of steps; they differ in how the parameters are read.
  simp only [function]
  congr
  funext _
  congr
  funext _
  congr
  funext _
  congr
  funext kind
  split <;> rfl

instance forward_declaration (fuel : Nat) : Forward (declaration table fuel) := by
  unfold declaration
  infer_instance

instance forward_function (fuel : Nat) : Forward (function table fuel) := by
  rw [function_eq]
  infer_instance

instance forward_assignment (fuel : Nat) : Forward (assignment table fuel) := by
  unfold assignment
  infer_instance

instance forward_print (fuel : Nat) : Forward (print table fuel) := by
  unfold print
  infer_instance

instance forward_blockOf (statement : Parse Stmt) [Forward statement] (fuel : Nat) :
    Forward (blockOf statement fuel) := by
  unfold blockOf
  infer_instance

instance forward_loop (statement : Parse Stmt) [Forward statement] (fuel : Nat) :
    Forward (loop table statement fuel) := by
  unfold loop
  infer_instance

instance forward_statement (fuel : Nat) : Forward (statement table fuel) := by
  induction fuel with
  | zero => exact Parse.forward_exhausted
  | succ fuel ih =>
    unfold statement
    refine @Parse.forward_bind _ _ _ _ _ fun c => ?_
    split <;> infer_instance

instance forward_statements (fuel count : Nat) : Forward (statements table fuel count) := by
  induction count with
  | zero => exact Parse.forward_exhausted
  | succ count ih =>
    unfold statements
    infer_instance

instance forward_readProgram : Forward (readProgram table) := by
  unfold readProgram
  infer_instance

end Grammar

end Frontend

import Frontend.Proofs.Grammar.Failure
import Frontend.Proofs.Grammar.Spelling

/-!
# What a reading blames

A reading that stops blames a token of its list, for what this token is and with its own text and
place.  This is so for all lists of tokens, those that no text has included.

* **`Token.Blamed`**: the diagnostics that a token may be blamed with.  Only the text of a number
  token is ever blamed for not being a number.
* **`Parse.Blames`**: a step that blames a token of the list, if it stops with a diagnostic.  Like
  `Parse.Forward` this is a class, and for the same reason: a chain of steps is such a step if its
  parts are.
* **`blamed_of_ofTokens`**: the diagnostics for whole programs.
-/

namespace Frontend

/-- What a token may be blamed with. -/
inductive Token.Blamed (t : Token) : Diagnostic → Prop where
  | unexpected : t.Blamed ⟨.unexpected t.text, t.span.start⟩
  | misplaced {reason : String} : t.Blamed ⟨.misplaced t.text reason, t.span.start⟩
  | malformedNumber (number : t.kind = .number) (unread : Number.ofText? t.text = none) :
      t.Blamed ⟨.malformedNumber t.text, t.span.start⟩

theorem Cursor.current_mem_tokens (c : Cursor) : c.current ∈ c.tokens :=
  List.mem_append_right _ List.mem_cons_self

/-! ## Steps -/

namespace Parse

variable {α β : Type}

/-- A step that blames a token, if it stops with a diagnostic. -/
class Blames (p : Parse α) : Prop where
  blamed : ∀ c d e, p.run c = .error (.fault d) e → ∃ t ∈ c.tokens, t.Blamed d

/-- A step that stops only with a diagnostic about the token to be read. -/
theorem Blames.of_current {p : Parse α}
    (stops : ∀ c d e, p.run c = .error (.fault d) e → c.current.Blamed d) : Blames p := by
  constructor
  intro c d e failed
  exact ⟨c.current, c.current_mem_tokens, stops c d e failed⟩

instance blames_pure (x : α) : Blames (pure x) := ⟨fun _ _ _ failed => by cases failed⟩

instance blames_exhausted : Blames (exhausted : Parse α) := ⟨fun _ _ _ failed => by cases failed⟩

instance blames_get : Blames (get : Parse Cursor) := ⟨fun _ _ _ failed => by cases failed⟩

instance blames_advance : Blames advance := ⟨fun _ _ _ failed => by cases failed⟩

/-- The second step stands in the same list as the first one. -/
instance blames_bind (p : Parse α) (f : α → Parse β) [Forward p] [Blames p]
    [∀ x, Blames (f x)] : Blames (p >>= f) := by
  constructor
  intro c d e failed
  rw [run_bind] at failed
  cases first : p.run c with
  | error stop e' =>
    rw [first] at failed
    cases failed
    exact Blames.blamed c d e first
  | ok x c' =>
    rw [first] at failed
    obtain ⟨t, member, blamed⟩ := Blames.blamed c' d e failed
    have same : c'.tokens = c.tokens := Yields.tokens first
    rw [same] at member
    exact ⟨t, member, blamed⟩

instance blames_ite (P : Prop) [Decidable P] (p q : Parse α) [Blames p] [Blames q] :
    Blames (if P then p else q) := by
  split <;> infer_instance

instance blames_current : Blames current := blames_bind _ _

instance blames_kind : Blames kind := blames_bind _ _

theorem run_kind_bind {f : Kind → Parse α} {c : Cursor} :
    (kind >>= f).run c = (f c.current.kind).run c := rfl

instance blames_misplaced (reason : String) : Blames (misplaced reason : Parse α) := by
  apply Blames.of_current
  intro c d e failed
  cases failed
  exact .misplaced

theorem eq_of_expectOr {k : Kind} {otherwise d : Diagnostic} {c e : Cursor}
    (failed : (expectOr k otherwise).run c = .error (.fault d) e) : d = otherwise := by
  have stops : (if c.current.kind = k then advance
      else throw (.fault otherwise) : Parse Token).run c = .error (.fault d) e := failed
  split at stops
  · cases stops
  · cases stops
    rfl

instance blames_expect (k : Kind) : Blames (expect k) := by
  apply Blames.of_current
  intro c d e failed
  rw [eq_of_expectOr (show (expectOr k _).run c = _ from failed)]
  exact .unexpected

instance blames_expectFor (k : Kind) (reason : String) : Blames (expectFor k reason) := by
  apply Blames.of_current
  intro c d e failed
  rw [eq_of_expectOr (show (expectOr k _).run c = _ from failed)]
  exact .misplaced

end Parse

/-! ## Readings -/

namespace Grammar

open Frontend.Tree (Expr Stmt Block)
open Parse (Blames Forward)

/-- Only a number token is read as a number, and it is blamed if its text is none. -/
theorem blames_number {c e : Cursor} {d : Diagnostic} (number : c.current.kind = .number)
    (failed : (Parse.advance >>= numberOf).run c = .error (.fault d) e) :
    c.current.Blamed d := by
  have stops : (numberOf c.current).run c.advance = .error (.fault d) e := failed
  unfold numberOf at stops
  split at stops
  · cases stops
  · rename_i unread
    cases stops
    exact .malformedNumber number unread

section Expressions

variable {inner : Power → Parse Expr} [∀ power, Forward (inner power)]
  [∀ power, Blames (inner power)]

instance blames_opening : Blames (opening Table.language inner) := by
  constructor
  intro c d e failed
  unfold opening at failed
  rw [Parse.run_kind_bind] at failed
  split at failed
  · exact Blames.blamed c d e failed
  · -- Here it matters what the table lets be read as a number.
    rename_i opens
    exact ⟨c.current, c.current_mem_tokens, blames_number (kind_of_opening opens) failed⟩
  all_goals exact Blames.blamed c d e failed

instance blames_arguments (fuel : Nat) : Blames (arguments inner fuel) := by
  induction fuel with
  | zero => exact Parse.blames_exhausted
  | succ fuel ih =>
    unfold arguments
    infer_instance

instance blames_branches (test : Expr) : Blames (branches inner test) := by
  unfold branches
  infer_instance

instance blames_rightOperand (left : Expr) (power : Power) :
    Blames (rightOperand inner left power) := by
  unfold rightOperand
  infer_instance

instance blames_refuseComparison : Blames (refuseComparison Table.language) := by
  unfold refuseComparison
  infer_instance

instance blames_callOf (fuel : Nat) (callee : Expr) : Blames (callOf inner fuel callee) := by
  cases callee with
  | symbol symbol =>
    rw [callOf_symbol]
    infer_instance
  | number | boolean | binary | unary | conditional | call => exact Parse.blames_misplaced _

instance blames_continuation (fuel : Nat) (left : Expr) (power : Power) (form : Continuation) :
    Blames (continuation Table.language inner fuel left power form) := by
  cases form with
  | binary =>
    unfold continuation
    infer_instance
  | conditional => exact blames_branches left
  | exponent => exact blames_rightOperand left _
  | call => exact blames_callOf fuel left

instance blames_continueWhile (power : Power) (fuel : Nat) (left : Expr) :
    Blames (continueWhile Table.language inner power fuel left) := by
  induction fuel generalizing left with
  | zero => exact Parse.blames_exhausted
  | succ fuel ih =>
    unfold continueWhile
    refine @Parse.blames_bind _ _ _ _ _ _ fun kind => ?_
    split <;> infer_instance

end Expressions

instance blames_expr (fuel : Nat) (power : Power) : Blames (expr Table.language fuel power) := by
  induction fuel generalizing power with
  | zero => exact Parse.blames_exhausted
  | succ fuel ih =>
    unfold expr
    infer_instance

instance blames_identifier (context : String) : Blames (identifier context) :=
  Parse.blames_bind _ _

instance blames_parameters (fuel : Nat) : Blames (parameters fuel) := by
  induction fuel with
  | zero => exact Parse.blames_exhausted
  | succ fuel ih =>
    unfold parameters
    infer_instance

instance blames_assigned (fuel : Nat) : Blames (assigned Table.language fuel) := by
  unfold assigned
  infer_instance

instance blames_spanFrom (start : Position) : Blames (spanFrom start) := Parse.blames_bind _ _

instance blames_declaration (fuel : Nat) : Blames (declaration Table.language fuel) := by
  unfold declaration
  infer_instance

instance blames_function (fuel : Nat) : Blames (function Table.language fuel) := by
  rw [function_eq]
  -- This chain is too long to be taken apart at once.
  refine @Parse.blames_bind _ _ _ _ _ _ fun word => ?_
  refine @Parse.blames_bind _ _ _ _ _ _ fun name => ?_
  refine @Parse.blames_bind _ _ _ _ _ _ fun opened => ?_
  infer_instance

instance blames_assignment (fuel : Nat) : Blames (assignment Table.language fuel) := by
  unfold assignment
  infer_instance

instance blames_print (fuel : Nat) : Blames (print Table.language fuel) := by
  unfold print
  infer_instance

section Statements

variable (read : Parse Stmt) [Forward read] [Blames read]

instance blames_blockBody (fuel : Nat) : Blames (blockBody read fuel) := by
  induction fuel with
  | zero => exact Parse.blames_exhausted
  | succ fuel ih =>
    unfold blockBody
    refine @Parse.blames_bind _ _ _ _ _ _ fun kind => ?_
    split <;> infer_instance

instance blames_blockOf (fuel : Nat) : Blames (blockOf read fuel) := by
  unfold blockOf
  infer_instance

instance blames_loop (fuel : Nat) : Blames (loop Table.language read fuel) := by
  unfold loop
  infer_instance

end Statements

instance blames_statement (fuel : Nat) : Blames (statement Table.language fuel) := by
  induction fuel with
  | zero => exact Parse.blames_exhausted
  | succ fuel ih =>
    unfold statement
    refine @Parse.blames_bind _ _ _ _ _ _ fun c => ?_
    split <;> infer_instance

instance blames_statements (fuel count : Nat) : Blames (statements Table.language fuel count) := by
  induction count with
  | zero => exact Parse.blames_exhausted
  | succ count ih =>
    unfold statements
    infer_instance

instance blames_readProgram : Blames (readProgram Table.language) := by
  unfold readProgram
  infer_instance

end Grammar

/-- **A list of tokens that is no program has a token to blame.** -/
theorem blamed_of_ofTokens {tokens : List Token} {d : Diagnostic}
    (failed : Tree.Block.ofTokens tokens = .error (.fault d)) : ∃ t ∈ tokens, t.Blamed d := by
  cases tokens with
  | nil => cases failed
  | cons first others =>
    obtain ⟨e, stops⟩ := Tree.Block.ofTokens_eq_error.mp failed
    exact Parse.Blames.blamed (Cursor.start first others) d e stops

end Frontend

import Frontend.Proofs.Grammar.Following

/-!
# Reading comes to an end

A cursor at the last token stays there, and what is read at it can be read again.  A reading goes
round in circles only if this token is a sign or a parenthesis that an expression follows, for
then the expression begins with the same token.

* **`Cursor.Leads`**: from one cursor to another in the same list, past no end of the text.
* **`Procedure`**: the steps that a reading consists of.  All of them lead on.
* **`Parse.Ends`**: a step does not run out of fuel, and what it leaves is as given.
* **`Cursor.Reads`**: behind an expression there are fewer tokens than in front of it, or the last
  token is read again and is an expression of its own.
* **`expr_ends`**, **`statement_ends`**, **`statements_ends`**: more fuel than tokens are left is
  enough for an expression, and one more is enough for statements.
* **`reading_comes_to_an_end`**: the reading of whole programs.
-/

namespace Frontend

open Frontend.Tree (Expr Stmt Block)

/-! ## The way of a cursor -/

/-- From one cursor to another in the same list, past no end of the text. -/
structure Cursor.Leads (c d : Cursor) : Prop where
  tokens : d.tokens = c.tokens
  index : c.index ≤ d.index
  words : ∀ i t, c.index ≤ i → i < d.index → c.tokens[i]? = some t → t.kind ≠ .eof

namespace Cursor.Leads

variable {c d e : Cursor}

theorem refl (c : Cursor) : c.Leads c := by
  refine ⟨rfl, Nat.le_refl _, ?_⟩
  intro i t from_ before _
  omega

/-- One step on, from a token that is not the end. -/
theorem advance (h : c.Leads d) (word : d.current.kind ≠ .eof) : c.Leads d.advance := by
  refine ⟨d.tokens_advance.trans h.tokens, Nat.le_trans h.index d.index_le_advance, ?_⟩
  intro i t behind before here
  by_cases early : i < d.index
  · exact h.words i t behind early here
  · -- Only the token that is passed is new.
    have last : i = d.index := by
      -- The cursor does not move from the last token on, so there is a token behind this one.
      cases ahead : d.ahead with
      | nil =>
        rw [Cursor.advance, ahead] at before
        exact absurd before early
      | cons next others =>
        rw [Cursor.index_advance ahead] at before
        omega
    rw [last, ← h.tokens, d.getElem?_index] at here
    cases here
    exact word

end Cursor.Leads

/-- The cursors that one leads to, seen as they are. -/
def View.since (c₀ : Cursor) : View where
  see c := c
  Covers c := c₀.Leads c
  current_see _ := rfl
  previousStop_see _ := rfl
  peek_see _ _ := rfl
  covers_advance leads word := leads.advance word
  see_advance _ _ := rfl

namespace Follows

variable {α : Type} {p q : Parse α} {c : Cursor}

theorem leads (follows : Follows (View.since c) p q c) : c.Leads (p.final c) :=
  (follows (Cursor.Leads.refl c)).1

/-- With more fuel nothing changes, but that the first step may have had too little. -/
theorem run_eq (follows : Follows (View.since c) p q c)
    (enough : ∀ d, p.run c ≠ .error .exhausted d) : q.run c = p.run c := by
  rcases (follows (Cursor.Leads.refl c)).2 with ⟨d, stopped⟩ | same
  · exact absurd stopped (enough d)
  · rw [show (View.since c).see c = c from rfl] at same
    rw [same]
    cases p.run c <;> rfl

end Follows

namespace Grammar

/-- Reads a program with the given fuel. -/
def programWithin (fuel : Nat) : Parse Block := do
  let first ← Parse.current
  let body ← statements Table.language fuel fuel
  let stop ← Parse.current
  return ⟨body, ⟨first.span.start, stop.span.start⟩⟩

theorem run_readProgram (c : Cursor) :
    (readProgram Table.language).run c = (programWithin c.fuel).run c := by
  have first : (readProgram Table.language).run c =
      (statements Table.language c.fuel c.fuel >>= fun body => do
        return ⟨body, ⟨c.position, (← get).position⟩⟩ : Parse Block).run c := rfl
  have second : (programWithin c.fuel).run c =
      (statements Table.language c.fuel c.fuel >>= fun body => do
        return ⟨body, ⟨c.position, (← Parse.current).span.start⟩⟩ : Parse Block).run c := rfl
  rw [first, second, Parse.run_bind, Parse.run_bind]
  cases (statements Table.language c.fuel c.fuel).run c <;> rfl

theorem programWithin_follows {view : View} {c : Cursor} {fuel fuel' : Nat} (more : fuel ≤ fuel') :
    Follows view (programWithin fuel) (programWithin fuel') c := by
  refine Follows.current_bind ?_
  refine (statements_follows more more).bind fun _ _ _ => ?_
  exact Follows.current_bind (Follows.pure _)

/-- The steps that a reading consists of.  Some of them read a token whatever it is, and are taken
only where this token was looked at before. -/
inductive Procedure : {α : Type} → Parse α → Cursor → Prop where
  | token {c : Cursor} (word : c.current.kind ≠ .eof) : Procedure Parse.advance c
  | expect {kind : Kind} (word : kind ≠ .eof) (c : Cursor) : Procedure (Parse.expect kind) c
  | opening (fuel : Nat) (c : Cursor) :
      Procedure (opening Table.language (expr Table.language fuel)) c
  | continuation (fuel count : Nat) (left : Expr) {own : Power} {form : Continuation} {c : Cursor}
      (goes : Table.language.continuation? c.current.kind = some (own, form)) :
      Procedure (continuation Table.language (expr Table.language fuel) count left own form) c
  | branches (fuel : Nat) (test : Expr) (c : Cursor) :
      Procedure (branches (expr Table.language fuel) test) c
  | rightOperand (fuel : Nat) (left : Expr) (power : Power) {c : Cursor}
      (word : c.current.kind ≠ .eof) :
      Procedure (rightOperand (expr Table.language fuel) left power) c
  | callOf (fuel count : Nat) (callee : Expr) (c : Cursor) :
      Procedure (callOf (expr Table.language fuel) count callee) c
  | arguments (fuel count : Nat) (c : Cursor) :
      Procedure (arguments (expr Table.language fuel) count) c
  | continueWhile (fuel count : Nat) (power : Power) (left : Expr) (c : Cursor) :
      Procedure (continueWhile Table.language (expr Table.language fuel) power count left) c
  | expr (fuel : Nat) (power : Power) (c : Cursor) : Procedure (expr Table.language fuel power) c
  | identifier (context : String) (c : Cursor) : Procedure (identifier context) c
  | parameters (fuel : Nat) (c : Cursor) : Procedure (parameters fuel) c
  | assigned (fuel : Nat) (c : Cursor) : Procedure (assigned Table.language fuel) c
  | opened (fuel : Nat) {opener : Opener} {c : Cursor}
      (opens : Table.language.opener? c.current.kind = some opener) :
      Procedure (opened fuel opener) c
  | assignment (fuel : Nat) (c : Cursor) : Procedure (assignment Table.language fuel) c
  | blockBody (fuel count : Nat) (c : Cursor) :
      Procedure (blockBody (statement Table.language fuel) count) c
  | blockOf (fuel count : Nat) (c : Cursor) :
      Procedure (blockOf (statement Table.language fuel) count) c
  | statement (fuel : Nat) (c : Cursor) : Procedure (statement Table.language fuel) c
  | statements (fuel count : Nat) (c : Cursor) : Procedure (statements Table.language fuel count) c
  | program (fuel : Nat) (c : Cursor) : Procedure (programWithin fuel) c

/-- Every step follows itself. -/
theorem Procedure.follows {α : Type} {view : View} {p : Parse α} {c : Cursor}
    (procedure : Procedure p c) : Follows view p p c := by
  -- Inner expressions are read with the same fuel, which is at most itself.
  have inside (fuel : Nat) : FollowsInner view (Grammar.expr Table.language fuel)
      (Grammar.expr Table.language fuel) := expr_follows (Nat.le_refl fuel)
  cases procedure with
  | token word => exact Follows.advance word
  | expect word => exact Follows.expect word
  | opening fuel => exact opening_follows (inside fuel)
  | continuation fuel count left goes =>
    exact continuation_follows (inside fuel) (Nat.le_refl count) left goes
  | branches fuel test => exact branches_follows (inside fuel) test
  | rightOperand fuel left power word => exact rightOperand_follows (inside fuel) left power word
  | callOf fuel count callee => exact callOf_follows (inside fuel) (Nat.le_refl count) callee
  | arguments fuel count => exact arguments_follows (inside fuel) (Nat.le_refl count)
  | continueWhile fuel count power left =>
    exact continueWhile_follows (inside fuel) (Nat.le_refl count) power left
  | expr fuel power => exact inside fuel power c
  | identifier context => exact identifier_follows context
  | parameters fuel => exact parameters_follows (Nat.le_refl fuel)
  | assigned fuel => exact assigned_follows (Nat.le_refl fuel)
  -- A statement that opens with a word of its own is followed as that word's statement.
  | @opened fuel opener _ opens =>
    have word := openers_kind opens
    cases opener with
    | declaration => exact declaration_follows (Nat.le_refl fuel) word
    | function => exact function_follows (Nat.le_refl fuel) word
    | print => exact print_follows (Nat.le_refl fuel) word
    | loop =>
      exact loop_follows (fun _ => statement_follows (Nat.le_refl fuel)) (Nat.le_refl fuel) word
  | assignment fuel => exact assignment_follows (Nat.le_refl fuel)
  | blockBody fuel count =>
    exact blockBody_follows (fun _ => statement_follows (Nat.le_refl fuel)) (Nat.le_refl count)
  | blockOf fuel count =>
    exact blockOf_follows (fun _ => statement_follows (Nat.le_refl fuel)) (Nat.le_refl count)
  | statement fuel => exact statement_follows (Nat.le_refl fuel)
  | statements fuel count => exact statements_follows (Nat.le_refl fuel) (Nat.le_refl count)
  | program fuel => exact programWithin_follows (Nat.le_refl fuel)

/-- No step moves the cursor back, out of the list or past an end of the text, whether it yields
something or stops. -/
theorem Procedure.leads {α : Type} {p : Parse α} {c : Cursor} (procedure : Procedure p c) :
    c.Leads (p.final c) := procedure.follows.leads

end Grammar

/-! ## Tokens that are left -/

/-- Lists of tokens that are not read in circles: with an end of the text somewhere, or without a
last token that an expression has to follow. -/
def Bounded (ts : List Token) : Prop :=
  ts = [] ∨ (∃ t ∈ ts, t.kind = .eof) ∨
    ∃ t, ts.getLast? = some t ∧ t.kind ≠ .dash ∧ t.kind ≠ .not ∧ t.kind ≠ .openParen

/-- The kinds of tokens that are expressions of their own. -/
def Kind.IsAtom (kind : Kind) : Prop :=
  kind = .number ∨ kind = .trueWord ∨ kind = .falseWord ∨ kind = .identifier

instance (kind : Kind) : Decidable kind.IsAtom :=
  inferInstanceAs (Decidable (_ ∨ _ ∨ _ ∨ _))

namespace Cursor

variable {c d : Cursor}

/-- The number of tokens behind the current one. -/
def left (c : Cursor) : Nat := c.ahead.length

theorem advance_cases (c : Cursor) : c.ahead = [] ∧ c.advance = c ∨ c.advance.left < c.left := by
  cases ahead : c.ahead with
  | nil =>
    left
    refine ⟨rfl, ?_⟩
    rw [advance, ahead]
  | cons next others =>
    right
    rw [advance, ahead, left, left, ahead]
    exact Nat.lt_succ_self _

theorem left_advance_le (c : Cursor) : c.advance.left ≤ c.left := by
  rcases c.advance_cases with ⟨-, same⟩ | moved
  · exact Nat.le_of_eq (congrArg left same)
  · exact Nat.le_of_lt moved

/-- Where another kind of token comes next, the cursor has really moved. -/
theorem left_advance_lt (other : c.advance.current.kind ≠ c.current.kind) :
    c.advance.left < c.left := by
  rcases c.advance_cases with ⟨-, same⟩ | moved
  · rw [same] at other
    exact absurd rfl other
  · exact moved

theorem Leads.left_eq (h : c.Leads d) : c.index + c.left = d.index + d.left := by
  have same := congrArg List.length h.tokens
  simp only [Cursor.tokens, List.length_append, List.length_reverse, List.length_cons] at same
  unfold Cursor.index left
  omega

/-- What is still to be read is not read in circles. -/
def Bounded (c : Cursor) : Prop := Frontend.Bounded c.rest

theorem Bounded.advance (h : c.Bounded) (word : c.current.kind ≠ .eof) : c.advance.Bounded := by
  cases ahead : c.ahead with
  | nil => rwa [Cursor.advance, ahead]
  | cons next others =>
    have moved : c.advance.rest = next :: others := by
      rw [Cursor.advance, ahead]
      rfl
    unfold Bounded rest at h
    unfold Bounded
    rw [ahead] at h
    rw [moved]
    -- The list is bounded for one of two reasons, and each outlives the token that is passed.
    rcases h with none | ⟨t, member, ends⟩ | ⟨t, last, harmless⟩
    · cases none
    · -- An end of the text is not the token that was passed.
      right; left
      rcases List.mem_cons.mp member with here | behind
      · rw [here] at ends
        exact absurd ends word
      · exact ⟨t, behind, ends⟩
    · -- Behind the token that was passed, the last one is the same.
      right; right
      rw [List.getLast?_cons_cons] at last
      exact ⟨t, last, harmless⟩

/-- Behind a sign or a parenthesis there is another token. -/
theorem Bounded.left_advance_lt (h : c.Bounded)
    (asks : c.current.kind = .dash ∨ c.current.kind = .not ∨ c.current.kind = .openParen) :
    c.advance.left < c.left := by
  -- The cursor stands still on the last token only, and none of the three can be last.
  rcases c.advance_cases with ⟨last, -⟩ | moved
  · unfold Bounded rest at h
    rw [last] at h
    rcases h with none | ⟨t, member, ends⟩ | ⟨t, same, dash, not, openParen⟩
    · cases none
    · rw [List.mem_singleton.mp member] at ends
      rw [ends] at asks
      rcases asks with asks | asks | asks <;> cases asks
    · cases same
      rcases asks with asks | asks | asks
      · exact absurd asks dash
      · exact absurd asks not
      · exact absurd asks openParen
  · exact moved

/-- No more tokens are left than before. -/
def Keeps (c d : Cursor) : Prop := d.Bounded ∧ d.left ≤ c.left

/-- Fewer tokens are left than before. -/
def Shortens (c d : Cursor) : Prop := d.Bounded ∧ d.left < c.left

/-- Behind an expression fewer tokens are left, or its only token is the last one of the list and
is read again. -/
def Reads (c d : Cursor) : Prop :=
  d.Bounded ∧ (d.left < c.left ∨ d = c ∧ d.current.kind.IsAtom)

theorem reads_advance (h : c.Bounded) (atom : c.current.kind.IsAtom) : c.Reads c.advance := by
  have word : c.current.kind ≠ .eof := by
    intro ends
    rw [ends] at atom
    exact absurd atom (by decide)
  refine ⟨h.advance word, ?_⟩
  rcases c.advance_cases with ⟨-, same⟩ | moved
  · right
    rw [same]
    exact ⟨rfl, atom⟩
  · exact Or.inl moved

namespace Reads

theorem left_le (h : c.Reads d) : d.left ≤ c.left := by
  rcases h.2 with fewer | ⟨same, -⟩
  · exact Nat.le_of_lt fewer
  · exact Nat.le_of_eq (congrArg left same)

/-- Where no expression of its own comes next, it was not the last token that was read. -/
theorem left_lt (h : c.Reads d) (other : ¬ d.current.kind.IsAtom) : d.left < c.left := by
  rcases h.2 with fewer | ⟨-, atom⟩
  · exact fewer
  · exact absurd atom other

/-- An expression behind a token that is none leaves fewer tokens than this token had. -/
theorem left_lt_of_advance (h : c.advance.Reads d) (other : ¬ c.current.kind.IsAtom) :
    d.left < c.left := by
  rcases h.2 with fewer | ⟨rfl, atom⟩
  · exact Nat.lt_of_lt_of_le fewer c.left_advance_le
  · -- The token that was read again is an expression, so that it is another one.
    apply Cursor.left_advance_lt
    intro same
    rw [same] at atom
    exact other atom

end Reads

end Cursor

/-! ## Steps that end -/

namespace Parse

variable {α β : Type} {p : Parse α} {c : Cursor} {P Q : Cursor → Prop}

/-- A step does not run out of fuel, and if it yields something, `Q` is true of the cursor that it
leaves. -/
def Ends (p : Parse α) (c : Cursor) (Q : Cursor → Prop) : Prop :=
  match p.run c with
  | .ok _ d => Q d
  | .error stop _ => stop ≠ .exhausted

namespace Ends

theorem pure {x : α} (h : Q c) : Ends (Pure.pure x) c Q := h

theorem fail {fault : Fault} {position : Position} :
    Ends (Parse.fail fault position : Parse α) c Q := by
  intro same
  cases same

theorem misplaced {reason : String} : Ends (Parse.misplaced reason : Parse α) c Q := by
  intro same
  cases same

theorem mono (h : Ends p c P) (weaker : ∀ d, P d → Q d) : Ends p c Q := by
  unfold Ends at h ⊢
  cases run : p.run c with
  | ok x d =>
    rw [run] at h
    exact weaker d h
  | error stop d =>
    rw [run] at h
    exact h

/-- One step after the other. -/
theorem bind {f : α → Parse β} (first : Ends p c P) (rest : ∀ x d, P d → Ends (f x) d Q) :
    Ends (p >>= f) c Q := by
  unfold Ends at first
  unfold Ends
  rw [run_bind]
  cases run : p.run c with
  | ok x d =>
    rw [run] at first
    exact rest x d first
  | error stop d =>
    rw [run] at first
    exact first

theorem ite {R : Prop} [Decidable R] {q : Parse α} (yes : R → Ends p c Q) (no : ¬ R → Ends q c Q) :
    Ends (if R then p else q) c Q := by
  by_cases h : R
  · rw [if_pos h]
    exact yes h
  · rw [if_neg h]
    exact no h

theorem kind_bind {f : Kind → Parse α} (rest : Ends (f c.current.kind) c Q) :
    Ends (Parse.kind >>= f) c Q := rest

theorem current_bind {f : Token → Parse α} (rest : Ends (f c.current) c Q) :
    Ends (Parse.current >>= f) c Q := rest

theorem advance_bind {f : Token → Parse α} (rest : Ends (f c.current) c.advance Q) :
    Ends (Parse.advance >>= f) c Q := rest

theorem expectOr_bind {k : Kind} {fault : Fault} {position : Position} {f : Token → Parse α}
    (rest : c.current.kind = k → Ends (f c.current) c.advance Q) :
    Ends (Parse.expectOr k ⟨fault, position⟩ >>= f) c Q := by
  -- That the expected token is read is all there is to the step; failing, it has an answer too.
  have step : Ends (Parse.expectOr k ⟨fault, position⟩) c
      fun d => c.current.kind = k ∧ d = c.advance := by
    show Ends (if c.current.kind = k then Parse.advance else throw _) c _
    refine ite (fun same => ⟨same, rfl⟩) fun _ => ?_
    intro none
    cases none
  unfold Ends at step ⊢
  rw [run_bind]
  -- What the step answered is what its run gave, so the rest starts one token on.
  cases run : (Parse.expectOr k ⟨fault, position⟩).run c with
  | ok t d =>
    obtain ⟨same, rfl, rfl⟩ := yields_expectOr.mp run
    exact rest same
  | error stop d =>
    rw [run] at step
    exact step

theorem expect_bind {k : Kind} {f : Token → Parse α}
    (rest : c.current.kind = k → Ends (f c.current) c.advance Q) :
    Ends (Parse.expect k >>= f) c Q := by
  unfold Parse.expect
  rw [bind_assoc]
  exact current_bind (expectOr_bind rest)

theorem expectFor_bind {k : Kind} {reason : String} {f : Token → Parse α}
    (rest : c.current.kind = k → Ends (f c.current) c.advance Q) :
    Ends (Parse.expectFor k reason >>= f) c Q := by
  unfold Parse.expectFor
  rw [bind_assoc]
  exact current_bind (expectOr_bind rest)

end Ends

end Parse

namespace Grammar

open Parse (Ends)

variable {inner : Power → Parse Expr} {c : Cursor} {n count : Nat}

/-! ## Expressions -/

/-- Expressions inside others are read to their end, where fewer than `n` tokens are left. -/
def EndsInner (n : Nat) (inner : Power → Parse Expr) : Prop :=
  ∀ power c, c.Bounded → c.left < n → Ends (inner power) c c.Reads

section

variable (ends : EndsInner n inner)
include ends

theorem opening_ends (bounded : c.Bounded) (enough : c.left < n + 1) :
    Ends (opening Table.language inner) c c.Reads := by
  refine Ends.kind_bind ?_
  cases opens : Table.language.opening? c.current.kind with
  | none => exact Ends.misplaced
  | some what =>
    have word := openings_kind opens
    have kind := kind_of_opening opens
    cases what with
    | number =>
      refine Ends.advance_bind ?_
      cases Number.ofText? c.current.text with
      | some value => exact Ends.pure (Cursor.reads_advance bounded (Or.inl kind))
      | none => exact Ends.fail
    | boolean =>
      have atom : c.current.kind.IsAtom := by
        rcases kind with kind | kind <;> rw [kind] <;> decide
      exact Ends.advance_bind (Ends.pure (Cursor.reads_advance bounded atom))
    | symbol =>
      have atom : c.current.kind.IsAtom := Or.inr (Or.inr (Or.inr kind))
      exact Ends.advance_bind (Ends.pure (Cursor.reads_advance bounded atom))
    | unary =>
      -- The operand may be a last token that is read again, but the sign was none.
      have moved : c.advance.left < c.left := by
        apply bounded.left_advance_lt
        generalize c.current.kind = k at opens
        cases k <;> first | exact Or.inl rfl | exact Or.inr (Or.inl rfl) | cases opens
      refine Ends.advance_bind ?_
      refine (ends _ _ (bounded.advance word) (by omega)).bind fun operand d reads => Ends.pure ?_
      exact ⟨reads.1, Or.inl (Nat.lt_of_le_of_lt reads.left_le moved)⟩
    | group =>
      have moved : c.advance.left < c.left := bounded.left_advance_lt (Or.inr (Or.inr kind))
      refine Ends.expect_bind fun _ => ?_
      refine (ends _ _ (bounded.advance word) (by omega)).bind fun e d reads => ?_
      refine Ends.expect_bind fun close => Ends.pure ?_
      have fewer := Nat.lt_of_le_of_lt reads.left_le moved
      exact ⟨reads.1.advance (by rw [close]; decide),
        Or.inl (Nat.lt_of_le_of_lt d.left_advance_le fewer)⟩

/-- Each argument needs another unit of fuel, and so does the reading of it. -/
theorem arguments_ends (bounded : c.Bounded) (enough : c.left < n) (many : c.left < count) :
    Ends (arguments inner count) c c.Keeps := by
  induction count generalizing c with
  | zero => omega
  | succ count ih =>
    refine (ends _ _ bounded enough).bind fun e d reads => Ends.kind_bind ?_
    refine Ends.ite (fun comma => ?_) fun _ => Ends.pure ⟨reads.1, reads.left_le⟩
    have fewer := reads.left_lt (by rw [comma]; decide)
    have less := d.left_advance_le
    refine Ends.advance_bind ?_
    refine (ih (reads.1.advance (by rw [comma]; decide)) (by omega) (by omega)).bind ?_
    intro es d' ⟨bounded', fewer'⟩
    exact Ends.pure ⟨bounded', by omega⟩

theorem branches_ends (test : Expr) (bounded : c.Bounded) (enough : c.left < n) :
    Ends (branches inner test) c c.Shortens := by
  refine Ends.expect_bind fun question => ?_
  have less := c.left_advance_le
  refine (ends _ _ (bounded.advance (by rw [question]; decide)) (by omega)).bind fun _ d reads => ?_
  have fewer := reads.left_lt_of_advance (by rw [question]; decide)
  refine Ends.expectFor_bind fun colon => ?_
  have less' := d.left_advance_le
  refine (ends _ _ (reads.1.advance (by rw [colon]; decide)) (by omega)).bind fun _ d' reads' => ?_
  have fewer' := reads'.left_le
  exact Ends.pure ⟨reads'.1, by omega⟩

theorem rightOperand_ends (left : Expr) (power : Power) (bounded : c.Bounded) (enough : c.left < n)
    (word : c.current.kind ≠ .eof) (operator : ¬ c.current.kind.IsAtom) :
    Ends (rightOperand inner left power) c c.Shortens := by
  have less := c.left_advance_le
  refine Ends.advance_bind ?_
  refine (ends _ _ (bounded.advance word) (by omega)).bind fun _ d reads => ?_
  exact Ends.pure ⟨reads.1, reads.left_lt_of_advance operator⟩

theorem callOf_ends (callee : Expr) (bounded : c.Bounded) (enough : c.left < n)
    (many : c.left < count + 1) :
    Ends (callOf inner count callee) c c.Shortens := by
  cases callee with
  | symbol symbol =>
    rw [callOf_symbol]
    refine Ends.expect_bind fun opened => Ends.kind_bind ?_
    -- The opening parenthesis is passed, so what is left has become less for the arguments.
    have moved : c.advance.left < c.left := bounded.left_advance_lt (Or.inr (Or.inr opened))
    have bounded' : c.advance.Bounded := bounded.advance (by rw [opened]; decide)
    refine Ends.bind (P := c.advance.Keeps) (Ends.ite (fun _ => ?_) fun _ => ?_) ?_
    · exact Ends.pure ⟨bounded', Nat.le_refl _⟩
    · exact arguments_ends ends bounded' (by omega) (by omega)
    intro _ d ⟨bounded'', behind⟩
    -- Closing takes one token more, or none at the end; either way less is left than at the start.
    refine Ends.expect_bind fun close => Ends.pure ?_
    have less := d.left_advance_le
    exact ⟨bounded''.advance (by rw [close]; decide), by omega⟩
  | number | boolean | binary | unary | conditional | call => exact Ends.misplaced

omit ends in
theorem refuseComparison_ends {Q : Cursor → Prop} (h : Q c) :
    Ends (refuseComparison Table.language) c Q := by
  refine Ends.kind_bind ?_
  exact Ends.ite (fun _ => Ends.misplaced) fun _ => Ends.pure h

omit ends in
theorem not_isAtom_of_continuation {kind : Kind} {own : Power} {form : Continuation}
    (goes : Table.language.continuation? kind = some (own, form)) : ¬ kind.IsAtom := by
  rintro (rfl | rfl | rfl | rfl) <;> cases goes

/-- What goes on behind an expression leaves fewer tokens, also where its own first token is the
last one. -/
theorem continuation_ends (left : Expr) {own : Power} {form : Continuation}
    (goes : Table.language.continuation? c.current.kind = some (own, form)) (bounded : c.Bounded)
    (enough : c.left < n) (many : c.left < count + 1) :
    Ends (continuation Table.language inner count left own form) c c.Shortens := by
  have word := continuations_kind goes
  have operator := not_isAtom_of_continuation goes
  cases form with
  | conditional => exact branches_ends ends left bounded enough
  | binary =>
    refine (rightOperand_ends ends left own bounded enough word operator).bind fun _ d behind => ?_
    refine Ends.ite (fun _ => ?_) fun _ => Ends.pure behind
    exact (refuseComparison_ends behind).bind fun _ _ behind => Ends.pure behind
  | exponent => exact rightOperand_ends ends left _ bounded enough word operator
  | call => exact callOf_ends ends left bounded enough many

/-- The loop: each round leaves fewer tokens.  At a last token that is read again, there is no
round at all. -/
theorem continueWhile_ends (power : Power) (left : Expr) (bounded : c.Bounded)
    (enough : c.left < n ∧ c.left < count ∨ c.current.kind.IsAtom ∧ 0 < count) :
    Ends (continueWhile Table.language inner power count left) c
      fun d => d.Bounded ∧ (d = c ∨ d.left < c.left) := by
  induction count generalizing c left with
  | zero => omega
  | succ count ih =>
    refine Ends.kind_bind ?_
    cases goes : Table.language.continuation? c.current.kind with
    | none => exact Ends.pure ⟨bounded, Or.inl rfl⟩
    | some entry =>
      obtain ⟨own, form⟩ := entry
      by_cases loose : own ≤ power
      · simp only [if_pos loose]
        exact Ends.pure ⟨bounded, Or.inl rfl⟩
      · simp only [if_neg loose]
        -- What goes on is no expression of its own, so that this token is read once.
        have fuel : c.left < n ∧ c.left < count + 1 := by
          rcases enough with enough | ⟨atom, -⟩
          · exact enough
          · exact absurd atom (not_isAtom_of_continuation goes)
        refine (continuation_ends ends left goes bounded fuel.1 fuel.2).bind ?_
        intro longer d ⟨bounded', fewer⟩
        refine (ih longer bounded' (Or.inl ⟨by omega, by omega⟩)).mono ?_
        intro e ⟨bounded'', behind⟩
        refine ⟨bounded'', Or.inr ?_⟩
        rcases behind with rfl | behind
        · exact fewer
        · exact Nat.lt_trans behind fewer

end

/-- An expression is read to its end with more fuel than tokens are left. -/
theorem expr_ends (fuel : Nat) : EndsInner fuel (expr Table.language fuel) := by
  induction fuel with
  | zero =>
    intro power c bounded enough
    exact absurd enough (Nat.not_lt_zero _)
  | succ fuel ih =>
    intro power c bounded enough
    refine (opening_ends ih bounded enough).bind fun left d reads => ?_
    -- Either a token less is left, or the loop finds nothing that goes on.
    have fuel : d.left < fuel ∧ d.left < fuel + 1 ∨ d.current.kind.IsAtom ∧ 0 < fuel + 1 := by
      rcases reads.2 with fewer | ⟨-, atom⟩
      · exact Or.inl ⟨by omega, by omega⟩
      · exact Or.inr ⟨atom, Nat.succ_pos _⟩
    refine (continueWhile_ends ih power left reads.1 fuel).mono fun e ⟨bounded', behind⟩ => ?_
    refine ⟨bounded', ?_⟩
    rcases behind with rfl | fewer
    · exact reads.2
    · exact Or.inl (Nat.lt_of_lt_of_le fewer reads.left_le)

/-! ## Statements -/

theorem identifier_bind_ends {α : Type} {context : String} {f : Symbol → Parse α}
    {Q : Cursor → Prop}
    (rest : c.current.kind = .identifier → Ends (f ⟨c.current.text, c.current.span⟩) c.advance Q) :
    Ends (identifier context >>= f) c Q := by
  unfold identifier
  rw [bind_assoc]
  exact Ends.expectFor_bind rest

theorem parameters_ends {fuel : Nat} (bounded : c.Bounded) (enough : c.left < fuel) :
    Ends (parameters fuel) c c.Keeps := by
  induction fuel generalizing c with
  | zero => omega
  | succ fuel ih =>
    refine identifier_bind_ends fun name => Ends.kind_bind ?_
    have bounded' : c.advance.Bounded := bounded.advance (by rw [name]; decide)
    refine Ends.ite (fun comma => ?_) fun _ => Ends.pure ⟨bounded', c.left_advance_le⟩
    have moved : c.advance.left < c.left := Cursor.left_advance_lt (by rw [comma, name]; decide)
    have less := c.advance.left_advance_le
    refine Ends.advance_bind ?_
    refine (ih (bounded'.advance (by rw [comma]; decide)) (by omega)).bind ?_
    intro others d ⟨bounded'', behind⟩
    exact Ends.pure ⟨bounded'', by omega⟩

variable {fuel : Nat}

theorem assigned_ends (bounded : c.Bounded) (enough : c.left < fuel) :
    Ends (assigned Table.language fuel) c c.Shortens := by
  refine Ends.expect_bind fun equals => ?_
  have less := c.left_advance_le
  refine (expr_ends fuel _ _ (bounded.advance (by rw [equals]; decide)) (by omega)).bind ?_
  intro value d reads
  have fewer := reads.left_lt_of_advance (by rw [equals]; decide)
  refine Ends.expect_bind fun semicolon => Ends.pure ?_
  have less' := d.left_advance_le
  exact ⟨reads.1.advance (by rw [semicolon]; decide), by omega⟩

/-- Of a statement, only its value decides what is left behind it. -/
theorem assigned_bind_ends {start : Position} {make : Expr → Span → Stmt} {d : Cursor}
    (bounded : c.Bounded) (less : c.left ≤ d.left) (enough : c.left < fuel) :
    Ends (do
      let value ← assigned Table.language fuel
      return make value (← spanFrom start)) c d.Shortens := by
  refine (assigned_ends bounded enough).bind fun _ e behind => ?_
  show d.Shortens e
  exact ⟨behind.1, Nat.lt_of_lt_of_le behind.2 less⟩

theorem declaration_ends (bounded : c.Bounded) (enough : c.left < fuel)
    (word : c.current.kind ≠ .eof) : Ends (declaration Table.language fuel) c c.Shortens := by
  have less := c.left_advance_le
  refine Ends.advance_bind (identifier_bind_ends fun name => ?_)
  have less' := c.advance.left_advance_le
  have bounded' := (bounded.advance word).advance (by rw [name]; decide)
  exact assigned_bind_ends bounded' (by omega) (by omega)

theorem function_ends (bounded : c.Bounded) (enough : c.left < fuel)
    (word : c.current.kind ≠ .eof) : Ends (function Table.language fuel) c c.Shortens := by
  rw [function_eq]
  -- Each of the tokens read below leaves at most as many as before it.
  have less := c.left_advance_le
  refine Ends.advance_bind (identifier_bind_ends fun name => Ends.expect_bind fun opened => ?_)
  have less' := c.advance.left_advance_le
  have less'' := c.advance.advance.left_advance_le
  have bounded' := (bounded.advance word).advance (by rw [name]; decide)
  have bounded'' := bounded'.advance (by rw [opened]; decide)
  refine Ends.kind_bind ?_
  refine Ends.bind (P := c.advance.advance.advance.Keeps) (Ends.ite (fun _ => ?_) fun _ => ?_) ?_
  · exact Ends.pure ⟨bounded'', Nat.le_refl _⟩
  · exact parameters_ends bounded'' (by omega)
  intro _ d behind
  refine Ends.expect_bind fun close => ?_
  have fewer := behind.2
  have less := d.left_advance_le
  exact assigned_bind_ends (behind.1.advance (by rw [close]; decide)) (by omega) (by omega)

theorem assignment_ends (bounded : c.Bounded) (enough : c.left < fuel) :
    Ends (assignment Table.language fuel) c c.Shortens := by
  refine identifier_bind_ends fun name => ?_
  have less := c.left_advance_le
  exact assigned_bind_ends (bounded.advance (by rw [name]; decide)) less (by omega)

theorem print_ends (bounded : c.Bounded) (enough : c.left < fuel)
    (word : c.current.kind = .printWord) : Ends (print Table.language fuel) c c.Shortens := by
  have less := c.left_advance_le
  have bounded' : c.advance.Bounded := bounded.advance (by rw [word]; decide)
  refine Ends.advance_bind ((expr_ends fuel _ _ bounded' (by omega)).bind fun _ d reads => ?_)
  have fewer := reads.left_lt_of_advance (by rw [word]; decide)
  refine Ends.expect_bind fun semicolon => ?_
  show c.Shortens d.advance
  exact ⟨reads.1.advance (by rw [semicolon]; decide), Nat.lt_of_le_of_lt d.left_advance_le fewer⟩

/-- Statements inside others are read to their end, where one token less than `n` is left. -/
def EndsStatement (n : Nat) (read : Parse Stmt) : Prop :=
  ∀ c, c.Bounded → c.left + 1 < n → Ends read c c.Shortens

section

variable {read : Parse Stmt} (ends : EndsStatement n read)
include ends

theorem blockBody_ends (bounded : c.Bounded) (enough : c.left + 1 < n) (many : c.left < count) :
    Ends (blockBody read count) c c.Keeps := by
  induction count generalizing c with
  | zero => omega
  | succ count ih =>
    refine Ends.kind_bind ?_
    split
    · exact Ends.pure ⟨bounded, Nat.le_refl _⟩
    · exact Ends.misplaced
    · refine (ends c bounded enough).bind fun _ d behind => ?_
      have fewer := behind.2
      refine (ih behind.1 (by omega) (by omega)).bind fun _ e behind' => Ends.pure ?_
      exact ⟨behind'.1, Nat.le_of_lt (Nat.lt_of_le_of_lt behind'.2 fewer)⟩

theorem blockOf_ends (bounded : c.Bounded) (enough : c.left + 1 < n) (many : c.left < count) :
    Ends (blockOf read count) c c.Keeps := by
  refine Ends.expect_bind fun opened => ?_
  have less := c.left_advance_le
  have bounded' : c.advance.Bounded := bounded.advance (by rw [opened]; decide)
  refine (blockBody_ends ends bounded' (by omega) (by omega)).bind fun _ d behind => ?_
  refine Ends.expect_bind fun close => Ends.pure ?_
  have less' := d.left_advance_le
  exact ⟨behind.1.advance (by rw [close]; decide), by have := behind.2; omega⟩

theorem loop_ends (bounded : c.Bounded) (enough : c.left < fuel) (many : c.left < n)
    (word : c.current.kind = .whileWord) :
    Ends (loop Table.language read fuel) c c.Shortens := by
  have less := c.left_advance_le
  have bounded' : c.advance.Bounded := bounded.advance (by rw [word]; decide)
  refine Ends.advance_bind ((expr_ends fuel _ _ bounded' (by omega)).bind fun _ d reads => ?_)
  have fewer := reads.left_lt_of_advance (by rw [word]; decide)
  refine (blockOf_ends ends reads.1 (by omega) (by omega)).bind fun _ e behind => Ends.pure ?_
  exact ⟨behind.1, Nat.lt_of_le_of_lt behind.2 fewer⟩

end

/-- A statement is read to its end with one unit of fuel more than an expression. -/
theorem statement_ends (fuel : Nat) : EndsStatement fuel (statement Table.language fuel) := by
  induction fuel with
  | zero =>
    intro c bounded enough
    exact absurd enough (Nat.not_lt_zero _)
  | succ fuel ih =>
    intro c bounded enough
    -- One unit of fuel is for the statement itself, the others for what is inside.
    have enough : c.left < fuel := Nat.lt_of_succ_lt_succ enough
    unfold Ends
    rw [run_statement]
    cases opens : Table.language.opener? c.current.kind with
    | some opener =>
      have word := openers_kind opens
      cases opener with
      | declaration => exact declaration_ends bounded enough word
      | function => exact function_ends bounded enough word
      | print => exact print_ends bounded enough (kind_of_opener opens)
      | loop => exact loop_ends ih bounded enough enough (kind_of_opener opens)
    | none =>
      by_cases assigns : c.current.kind = .identifier ∧ c.peek = .assignment
      · simp only [if_pos assigns]
        exact assignment_ends bounded enough
      · simp only [if_neg assigns]
        show Ends (Parse.misplaced "expected a statement" : Parse Stmt) c c.Shortens
        exact Ends.misplaced

theorem statements_ends (bounded : c.Bounded) (enough : c.left + 1 < fuel) (many : c.left < count) :
    Ends (statements Table.language fuel count) c fun _ => True := by
  induction count generalizing c with
  | zero => omega
  | succ count ih =>
    refine Ends.kind_bind (Ends.ite (fun _ => Ends.pure trivial) fun _ => ?_)
    refine (statement_ends fuel c bounded enough).bind fun _ d behind => ?_
    have fewer := behind.2
    exact (ih behind.1 (by omega) (by omega)).bind fun _ _ _ => Ends.pure trivial

theorem programWithin_ends (bounded : c.Bounded) (enough : c.left + 1 < fuel) :
    Ends (programWithin fuel) c fun _ => True := by
  refine Ends.current_bind ?_
  refine (statements_ends bounded enough (by omega)).bind fun _ _ _ => ?_
  exact Ends.current_bind (Ends.pure trivial)

/-- In front of an end of the text, a statement that is read has tokens. -/
theorem statement_shortens {s : Stmt} {d : Cursor} (bounded : c.Bounded)
    (read : (statement Table.language fuel).Yields c s d) : d.left < c.left := by
  -- The statement may have been read with less fuel, but not with another outcome.
  have more : fuel ≤ fuel + (c.left + 2) := Nat.le_add_right _ _
  have follows : Follows (View.since c) (statement Table.language fuel)
      (statement Table.language (fuel + (c.left + 2))) c := statement_follows more
  have same := follows.run_eq fun e stopped => by
    rw [show _ = _ from read] at stopped
    cases stopped
  have ends := statement_ends (fuel + (c.left + 2)) c bounded (by omega)
  unfold Ends at ends
  rw [same, show _ = _ from read] at ends
  exact ends.2

end Grammar

/-! ## Programs -/

namespace Tree.Block

/-- What comes of a reading, without the place where it ended. -/
def ofResult : EStateM.Result Stop Cursor Block → Except Stop Block
  | .ok block _ => .ok block
  | .error stop _ => .error stop

/-- The program that a list of tokens is, read with the given fuel. -/
def ofTokensWithin (fuel : Nat) : List Token → Except Stop Block
  | [] => .ok ⟨[], Span.empty Position.first⟩
  | first :: others => ofResult ((Grammar.programWithin fuel).run (Cursor.start first others))

theorem ofTokensWithin_cons {fuel : Nat} {first : Token} {others : List Token} :
    ofTokensWithin fuel (first :: others) =
      ofResult ((Grammar.programWithin fuel).run (Cursor.start first others)) := rfl

theorem ofResult_shown (view : View) (r : EStateM.Result Stop Cursor Block) :
    ofResult (view.shown r) = ofResult r := by
  cases r <;> rfl

/-- Programs are read with fuel for every token and one more. -/
theorem ofTokens_eq_within (ts : List Token) : ofTokens ts = ofTokensWithin (ts.length + 1) ts := by
  cases ts with
  | nil => rfl
  | cons first others =>
    have outcome (r : EStateM.Result Stop Cursor Block) : (match r with
        | .ok block _ => .ok block
        | .error stop _ => .error stop) = ofResult r := by
      cases r <;> rfl
    have same := Grammar.run_readProgram (Cursor.start first others)
    exact (ofTokens_cons first others).trans ((outcome _).trans (congrArg ofResult same))

/-- One token more than there are is fuel enough. -/
theorem ofTokensWithin_ne_exhausted {ts : List Token} {fuel : Nat} (bounded : Bounded ts)
    (enough : ts.length < fuel) : ofTokensWithin fuel ts ≠ .error .exhausted := by
  cases ts with
  | nil =>
    intro none
    cases none
  | cons first others =>
    have ends := Grammar.programWithin_ends (c := Cursor.start first others) bounded enough
    unfold Parse.Ends at ends
    intro stopped
    rw [ofTokensWithin_cons] at stopped
    cases run : (Grammar.programWithin fuel).run (Cursor.start first others) with
    | ok block d =>
      rw [run] at stopped
      cases stopped
    | error stop d =>
      -- The reading has stopped, but for another reason.
      rw [run] at ends stopped
      exact ends (Except.error.inj stopped)

/-- Where fuel runs out, nothing comes of it. -/
theorem run_ne_exhausted {first : Token} {others : List Token} {fuel : Nat} {d : Cursor}
    (enough : ofTokensWithin fuel (first :: others) ≠ .error .exhausted) :
    (Grammar.programWithin fuel).run (Cursor.start first others) ≠ .error .exhausted d := by
  intro stopped
  apply enough
  exact congrArg ofResult stopped

/-- Fuel that was enough makes no difference. -/
theorem ofTokensWithin_eq {ts : List Token} {fuel fuel' : Nat} (more : fuel ≤ fuel')
    (enough : ofTokensWithin fuel ts ≠ .error .exhausted) :
    ofTokensWithin fuel' ts = ofTokensWithin fuel ts := by
  cases ts with
  | nil => rfl
  | cons first others =>
    have follows : Follows (View.since (Cursor.start first others)) (Grammar.programWithin fuel)
        (Grammar.programWithin fuel') (Cursor.start first others) :=
      Grammar.programWithin_follows more
    exact congrArg ofResult (follows.run_eq fun d => run_ne_exhausted enough)

/-- Programs are read with any fuel for every token and one more. -/
theorem ofTokens_eq_of_lt {ts : List Token} {fuel : Nat} (bounded : Bounded ts)
    (enough : ts.length < fuel) : ofTokens ts = ofTokensWithin fuel ts := by
  rw [ofTokens_eq_within]
  have ended := ofTokensWithin_ne_exhausted bounded (Nat.lt_succ_self ts.length)
  exact (ofTokensWithin_eq enough ended).symm

end Tree.Block

/-- **Every reading comes to an end**, unless its list has no end of the text and its last token is
a sign or a parenthesis that an expression has to follow.  Fuel for every token and one more is
enough, and more fuel changes nothing.  Each step of the reading moves the cursor forward if at
all, inside the list and past no end of the text, and if the list ends with an end of the text,
every statement that is read moves it. -/
theorem reading_comes_to_an_end {ts : List Token} (bounded : Bounded ts) :
    (Tree.Block.ofTokens ts ≠ .error .exhausted ∧
        ∀ fuel, ts.length < fuel → Tree.Block.ofTokensWithin fuel ts = Tree.Block.ofTokens ts) ∧
      (∀ {α : Type} (p : Parse α) (c : Cursor), Grammar.Procedure p c → c.tokens = ts →
        c.Leads (p.final c) ∧ (p.final c).index < ts.length) ∧
        ∀ stop, ts.getLast? = some stop → stop.kind = .eof → ∀ fuel c s d, c.tokens = ts →
          (Grammar.statement Grammar.Table.language fuel).Yields c s d → c.index < d.index := by
  refine ⟨⟨?_, ?_⟩, ?_, ?_⟩
  · rw [Tree.Block.ofTokens_eq_within]
    exact Tree.Block.ofTokensWithin_ne_exhausted bounded (Nat.lt_succ_self _)
  · intro fuel more
    exact (Tree.Block.ofTokens_eq_of_lt bounded more).symm
  · intro α p c procedure same
    have leads := procedure.leads
    refine ⟨leads, ?_⟩
    rw [← same, ← leads.tokens]
    exact Cursor.index_lt_length _
  · intro stop last ends fuel c s d same read
    -- The end of the list is still to come, wherever the cursor stands.
    have live : c.Live := by
      rw [← same, Cursor.tokens, List.getLast?_append_of_ne_nil _ (List.cons_ne_nil _ _)] at last
      exact ⟨stop, List.mem_of_getLast? last, ends⟩
    have fewer := Grammar.statement_shortens (Or.inr (Or.inl live)) read
    have leads := (Grammar.Procedure.statement fuel c).leads
    rw [show (Grammar.statement Grammar.Table.language fuel).final c = d by
      unfold Parse.final
      rw [show _ = _ from read]] at leads
    have sum := leads.left_eq
    omega

/-- An end of the text in the middle of a list, and a sign behind it. -/
def interrupted : List Token :=
  [⟨.printWord, "print"⟩, ⟨.trueWord, "true"⟩, ⟨.semicolon, ";"⟩, ⟨.eof, "EOF"⟩, ⟨.dash, "-"⟩,
   ⟨.eof, "EOF"⟩].map fun w : Word => ⟨w.kind, w.text, Span.empty .first⟩

theorem interrupted_comes_to_an_end : Bounded interrupted ∧
    Tree.Block.ofTokens interrupted ≠ .error .exhausted ∧
      ∃ c s d, c.tokens = interrupted ∧
        (Grammar.statement Grammar.Table.language 4).Yields c s d ∧ c.index < d.index := by
  have bounded : Bounded interrupted := by
    right; left
    exact ⟨⟨.eof, "EOF", Span.empty .first⟩, by decide, rfl⟩
  obtain ⟨⟨ended, -⟩, -, moves⟩ := reading_comes_to_an_end bounded
  refine ⟨bounded, ended, Cursor.start _ _, _, _, rfl, rfl, ?_⟩
  exact moves _ rfl rfl 4 _ _ _ rfl rfl

end Frontend

import Frontend.Proofs.Grammar.Tracking

/-!
# Where a reading fails

A reading stops at the first token that no program has at this place.  What was read in front
of it could be gone on with, and nothing behind it is looked at.

* **`Guided`**: if a step stops, the words that it has read begin a text of the given kind, and
  the diagnostic is about the token that it stops at.
* **`continueWhile_guided`**, **`expr_guided`**: expressions.  Where an operator cannot stand,
  the expression in front of it is a whole one.
* **`AtStatement`**: the words in front of the beginning of a statement.
* **`statement_guided`**, **`statements_guided`**: statements.
-/

namespace Frontend

/-! ## Steps -/

/-- The words to be read end with the end of the text, and those that are numbers can be read
as such. -/
structure Cursor.Sensible (c : Cursor) : Prop where
  closed : Closed c.words
  legible : ∀ w ∈ c.words, w.kind = .number → (Number.ofText? w.text).isSome

theorem Cursor.Sensible.of_reaches {c d : Cursor} {us : List Word} (h : c.Sensible)
    (reached : c.Reaches us d) : d.Sensible := by
  refine ⟨reached.2, fun w member => h.legible w ?_⟩
  rw [reached.1]
  exact List.mem_append_right us member

/-- A statement is asked for. -/
def Fault.AsksStatement (fault : Fault) : Prop :=
  ∃ text, fault = .misplaced text "expected a statement"

/-- Where a step stops, the words that it has read can be gone on with to a text in `G`.  If it
asks for a statement there, these words are in `A`. -/
def Guided {α : Type} (A G : List Word → Prop) (p : Parse α) (c : Cursor) : Prop :=
  c.Sensible → ∀ d e, p.run c = .error (.fault d) e →
    ∃ us, c.Reaches us e ∧ d.position = e.position ∧ (d.fault.AsksStatement → A us) ∧
      ∃ vs, G (us ++ vs)

namespace Guided

variable {α β : Type} {A A' G G' : List Word → Prop} {p : Parse α} {c : Cursor} {ws : List Word}

theorem pure {x : α} : Guided A G (Pure.pure x) c := by
  intro _ d e stops
  cases stops

theorem exhausted : Guided A G (Parse.exhausted : Parse α) c := by
  intro _ d e stops
  cases stops

/-- A step that stops where it starts. -/
theorem here (stops : ∀ d e, p.run c = .error (.fault d) e →
      c = e ∧ d.position = c.position ∧ (d.fault.AsksStatement → A [])) (rest : G ws) :
    Guided A G p c := by
  intro sensible d e failed
  obtain ⟨rfl, position, asks⟩ := stops d e failed
  exact ⟨[], Cursor.Reaches.refl sensible.closed, position, asks, ws, rest⟩

theorem misplaced {reason : String} (asks : reason = "expected a statement" → A [])
    (rest : G ws) : Guided A G (Parse.misplaced reason : Parse α) c := by
  refine here ?_ rest
  intro d e failed
  cases failed
  refine ⟨rfl, rfl, ?_⟩
  rintro ⟨text, same⟩
  exact asks (Fault.misplaced.inj same).2

theorem expectOr {k : Kind} {d : Diagnostic} (position : d.position = c.position)
    (other : ¬ d.fault.AsksStatement) (rest : G ws) : Guided A G (Parse.expectOr k d) c := by
  refine here ?_ rest
  intro d' e failed
  have stops : (if c.current.kind = k then Parse.advance
      else throw (.fault d) : Parse Token).run c = .error (.fault d') e := failed
  split at stops
  · cases stops
  · cases stops
    exact ⟨rfl, position, fun asks => absurd asks other⟩

theorem expect {k : Kind} (rest : G ws) : Guided A G (Parse.expect k) c := by
  refine @expectOr A G c ws k ⟨.unexpected c.current.text, c.current.span.start⟩ rfl ?_ rest
  rintro ⟨text, same⟩
  cases same

theorem expectFor {k : Kind} {reason : String} (other : reason ≠ "expected a statement")
    (rest : G ws) : Guided A G (Parse.expectFor k reason) c := by
  refine @expectOr A G c ws k ⟨.misplaced c.current.text reason, c.current.span.start⟩ rfl ?_ rest
  rintro ⟨text, same⟩
  exact other (Fault.misplaced.inj same).2

/-- One step after the other. -/
theorem bind {f : α → Parse β} (first : Guided A' G' p c) (asks : ∀ us, A' us → A us)
    (complete : ∀ us, G' us → ∃ vs, G (us ++ vs))
    (rest : c.Sensible → ∀ x d, p.Yields c x d → ∃ us, c.Reaches us d ∧
      Guided (fun ws => A (us ++ ws)) (fun ws => G (us ++ ws)) (f x) d) :
    Guided A G (p >>= f) c := by
  intro sensible d e failed
  rw [Parse.run_bind] at failed
  cases read : p.run c with
  | error stop e' =>
    -- The first step is stuck: what it would have gone on to, the rest of the construct completes.
    rw [read] at failed
    cases failed
    obtain ⟨us, reached, position, asks', vs, begun⟩ := first sensible d e read
    obtain ⟨vs', whole⟩ := complete _ begun
    rw [List.append_assoc] at whole
    exact ⟨us, reached, position, fun h => asks _ (asks' h), _, whole⟩
  | ok x c' =>
    -- The first step goes through, and its words stand in front of whatever the rest says.
    rw [read] at failed
    obtain ⟨us, reached, guided⟩ := rest sensible x c' read
    obtain ⟨vs, reached', position, asks', ws, whole⟩ :=
      guided (sensible.of_reaches reached) d e failed
    rw [← List.append_assoc] at whole
    exact ⟨us ++ vs, reached.trans reached', position, asks', ws, whole⟩

/-- One step after the other, where the first one begins what both make. -/
theorem bind_whole {f : α → Parse β} (first : Guided A G p c)
    (rest : c.Sensible → ∀ x d, p.Yields c x d → ∃ us, c.Reaches us d ∧
      Guided (fun ws => A (us ++ ws)) (fun ws => G (us ++ ws)) (f x) d) :
    Guided A G (p >>= f) c := by
  refine first.bind (fun _ h => h) ?_ rest
  intro us whole
  exact ⟨[], by rwa [List.append_nil]⟩

theorem weaken (h : Guided A' G' p c) (asks : ∀ us, A' us → A us) (whole : ∀ us, G' us → G us) :
    Guided A G p c := by
  intro sensible d e failed
  obtain ⟨us, reached, position, asks', vs, begun⟩ := h sensible d e failed
  exact ⟨us, reached, position, fun h => asks us (asks' h), vs, whole _ begun⟩

/-- What comes of a step is put together, and nothing more is read. -/
theorem then_pure {f : α → β} (h : Guided A G p c) :
    Guided A G (p >>= fun x => Pure.pure (f x)) c := by
  intro sensible d e failed
  rw [Parse.run_bind] at failed
  cases read : p.run c with
  | error stop e' =>
    rw [read] at failed
    cases failed
    exact h sensible d e read
  | ok x c' =>
    rw [read] at failed
    cases failed

/-- A step that goes by the kind of the token to be read. -/
theorem kind_bind {f : Kind → Parse α} (rest : Guided A G (f c.current.kind) c) :
    Guided A G (Parse.kind >>= f) c := rest

/-- A step that reads a word and goes on. -/
theorem advance_bind {f : Token → Parse α} (word : c.current.kind ≠ .eof)
    (rest : Guided (fun ws => A (c.current.word :: ws)) (fun ws => G (c.current.word :: ws))
      (f c.current) c.advance) : Guided A G (Parse.advance >>= f) c := by
  intro sensible d e failed
  have step := Cursor.reaches_advance sensible.closed word
  obtain ⟨us, reached, position, asks, vs, whole⟩ := rest (sensible.of_reaches step) d e failed
  exact ⟨c.current.word :: us, step.trans reached, position, asks, vs, whole⟩

/-- A step that needs a word of a kind, and then goes on. -/
theorem reads_bind {k : Kind} {p : Parse Token} {f : Token → Parse α} (word : k ≠ .eof)
    (first : Guided A G p c)
    (reads : ∀ t d, p.Yields c t d → c.current.kind = k ∧ c.current = t ∧ c.advance = d)
    (rest : c.current.kind = k → Guided (fun ws => A (c.current.word :: ws))
      (fun ws => G (c.current.word :: ws)) (f c.current) c.advance) : Guided A G (p >>= f) c := by
  refine first.bind_whole ?_
  intro sensible t d yields
  obtain ⟨kind, rfl, rfl⟩ := reads t d yields
  exact ⟨_, Cursor.reaches_advance sensible.closed (kind ▸ word), rest kind⟩

theorem expect_bind {k : Kind} {f : Token → Parse α} (word : k ≠ .eof) (filler : G ws)
    (rest : c.current.kind = k → Guided (fun ws => A (c.current.word :: ws))
      (fun ws => G (c.current.word :: ws)) (f c.current) c.advance) :
    Guided A G (Parse.expect k >>= f) c :=
  reads_bind word (expect filler) (fun _ _ => Parse.yields_expect.mp) rest

theorem expectFor_bind {k : Kind} {reason : String} {f : Token → Parse α} (word : k ≠ .eof)
    (other : reason ≠ "expected a statement") (filler : G ws)
    (rest : c.current.kind = k → Guided (fun ws => A (c.current.word :: ws))
      (fun ws => G (c.current.word :: ws)) (f c.current) c.advance) :
    Guided A G (Parse.expectFor k reason >>= f) c :=
  reads_bind word (expectFor other filler) (fun _ _ => Parse.yields_expectFor.mp) rest

end Guided

namespace Grammar

open Frontend.Tree (Expr Stmt Block)

/-! ## Expressions -/

/-- A word that is an expression. -/
def filler : Word := ⟨.trueWord, "true"⟩

theorem derives_filler (k : Category) : Derives k [filler] (.boolean true) := by
  have primary : Derives .primary [filler] (.boolean true) := .holds rfl
  exact .climb (by cases k <;> decide) primary

/-- Some tree has these words. -/
def IsExpr (k : Category) (ws : List Word) : Prop := ∃ x, Derives k ws x

/-- Where the reading of an expression stops, the words that were read begin an expression. -/
def GuidedInner (inner : Power → Parse Expr) : Prop :=
  ∀ ⦃p⦄, p ≤ .unary → ∀ (A : List Word → Prop) c, Guided A (IsExpr p.reads) (inner p) c

variable {inner : Power → Parse Expr} {α : Type} {A G : List Word → Prop} {c : Cursor}

/-- An expression, and then a step that goes on. -/
theorem GuidedInner.bind (guided : GuidedInner inner) (sound : Sound inner) {p : Power}
    (low : p ≤ .unary) {f : Expr → Parse α}
    (complete : ∀ us x, Derives p.reads us x → ∃ vs, G (us ++ vs))
    (rest : ∀ us e d, c.Reaches us d → Derives p.reads us e.bare → Stops p d.current.kind →
      Guided (fun ws => A (us ++ ws)) (fun ws => G (us ++ ws)) (f e) d) :
    Guided A G (inner p >>= f) c := by
  refine (guided low A c).bind (fun _ h => h) ?_ ?_
  · rintro us ⟨x, derived⟩
    exact complete us x derived
  · intro sensible e d yields
    obtain ⟨us, reached, derived, stops⟩ := sound low sensible.closed yields
    exact ⟨us, reached, rest us e d reached derived stops⟩

section Openings

variable {kind : Kind}

theorem number_of_opening (h : Table.language.opening? kind = some .number) : kind = .number := by
  cases kind <;> first | rfl | cases h

theorem operator_of_opening (h : Table.language.opening? kind = some .unary) :
    kind ∈ Category.prefixed.operators := by
  cases kind <;> first | decide | cases h

end Openings

theorem refuseComparison_guided (whole : G []) :
    Guided A G (refuseComparison Table.language) c := by
  refine Guided.kind_bind ?_
  split
  · exact Guided.misplaced (fun same => absurd same (by decide)) whole
  · exact Guided.pure

section

variable (guided : GuidedInner inner) (sound : Sound inner)
include guided sound

theorem opening_guided : Guided A (IsExpr .prefixed) (opening Table.language inner) c := by
  refine Guided.kind_bind ?_
  cases opens : Table.language.opening? c.current.kind with
  | none => exact Guided.misplaced (fun same => absurd same (by decide)) ⟨_, derives_filler _⟩
  | some what =>
    have word := openings_kind opens
    cases what with
    | number =>
      -- The only opening that can fail on the token alone is a number nobody can read; it is
      -- excluded.
      intro sensible
      have number := number_of_opening opens
      obtain ⟨value, reads⟩ := Option.isSome_iff_exists.mp
        (sensible.legible c.current.word List.mem_cons_self number)
      have text : Number.ofText? c.current.text = some value := reads
      refine Guided.advance_bind word ?_ sensible
      rw [text]
      exact Guided.pure
    | boolean => exact Guided.advance_bind word Guided.pure
    | symbol => exact Guided.advance_bind word Guided.pure
    | unary =>
      have operator := operator_of_opening opens
      refine Guided.advance_bind word ?_
      refine guided.bind sound (by decide) ?_ fun _ _ _ _ _ _ => Guided.pure
      intro us x derived
      exact ⟨[], _, .unary operator (by rwa [List.append_nil])⟩
    | group =>
      refine Guided.expect_bind (by decide) ⟨_, derives_filler _⟩ fun opened => ?_
      -- Whatever is read inside, one closing parenthesis completes the operand.
      have close (us : List Word) (x : Bare.Expr) (derived : Derives .expression us x) :
          IsExpr .prefixed (c.current.word :: (us ++ [⟨.closeParen, ")"⟩])) :=
        ⟨x, .climb (by decide) (.group opened derived rfl)⟩
      refine guided.bind sound (by decide) (fun us x derived => ⟨_, close us x derived⟩) ?_
      intro us e d _ derived _
      exact Guided.expect_bind (by decide) (close us _ derived) fun _ => Guided.pure

/-- Some list of expressions has these words. -/
theorem arguments_guided (fuel : Nat) :
    Guided A (fun ws => ∃ es, DerivesMany ws es) (arguments inner fuel) c := by
  induction fuel generalizing c A with
  | zero => exact Guided.exhausted
  | succ fuel ih =>
    refine guided.bind sound (by decide) ?_ ?_
    · intro us x derived
      exact ⟨[], _, .one (by rwa [List.append_nil])⟩
    · intro us e d reached derived _
      refine Guided.kind_bind ?_
      by_cases comma : d.current.kind = .comma
      -- The prefix asks for another argument, so the list read so far is not yet complete.
      · rw [if_pos comma]
        refine Guided.advance_bind (by rw [comma]; decide) ?_
        refine ih.bind (fun _ h => h) ?_ ?_
        · rintro vs ⟨es, others⟩
          exact ⟨[], _, .more derived comma (by rwa [List.append_nil])⟩
        · intro sensible es d' yields
          obtain ⟨vs, reached', -⟩ := arguments_sound sound sensible.closed yields
          exact ⟨vs, reached', Guided.pure⟩
      · rw [if_neg comma]
        exact Guided.pure

/-- Between the parentheses of a call there may be nothing. -/
theorem values_guided (fuel : Nat) : Guided A (fun ws => ∃ es, DerivesArguments ws es)
    (if c.current.kind = .closeParen then pure [] else arguments inner fuel) c := by
  split
  · exact Guided.pure
  · refine (arguments_guided guided sound fuel).weaken (fun _ h => h) ?_
    rintro us ⟨es, many⟩
    exact ⟨es, .some many⟩

variable {left : Expr} {ts : List Word} {k l m : Category}

/-- The branches of a conditional. -/
theorem branches_guided (derived : Derives .disjunction ts left.bare)
    (question : c.current.kind = .question) :
    Guided A (fun ws => IsExpr .expression (ts ++ ws)) (branches inner left) c := by
  -- The conditional that the parts make, whatever words are taken for those not yet read.
  have whole (us vs : List Word) (colon : Word) (a b : Bare.Expr)
      (consequent : Derives .expression us a) (separated : colon.kind = .colon)
      (alternate : Derives .expression vs b) :
      IsExpr .expression (ts ++ c.current.word :: (us ++ colon :: vs)) :=
    ⟨_, .conditional derived question consequent separated alternate⟩
  have rest := derives_filler .expression
  refine Guided.expect_bind (by decide) (whole _ _ ⟨.colon, ":"⟩ _ _ rest rfl rest) fun _ => ?_
  refine guided.bind sound (by decide) ?_ fun us _ d _ consequent _ => ?_
  -- Stuck in the consequent: a colon and any expression would complete it.
  · intro us x consequent
    exact ⟨_, whole us _ ⟨.colon, ":"⟩ _ _ consequent rfl rest⟩
  · refine Guided.expectFor_bind (by decide) (by decide)
      (whole us _ ⟨.colon, ":"⟩ _ _ consequent rfl rest) fun separated => ?_
    refine guided.bind sound (by decide) ?_ fun _ _ _ _ _ _ => Guided.pure
    intro vs x alternate
    refine ⟨[], ?_⟩
    rw [List.append_nil]
    exact whole us vs _ _ _ consequent separated alternate

/-- The right operand of an operator. -/
theorem rightOperand_guided {p : Power} (low : p ≤ .unary) (word : c.current.kind ≠ .eof)
    (complete : ∀ us x, Derives p.reads us x → IsExpr l (ts ++ c.current.word :: us)) :
    Guided A (fun ws => IsExpr l (ts ++ ws)) (rightOperand inner left p) c := by
  refine Guided.advance_bind word ?_
  refine guided.bind sound low ?_ fun _ _ _ _ _ _ => Guided.pure
  intro us x right
  refine ⟨[], ?_⟩
  rw [List.append_nil]
  exact complete us x right

/-- The arguments of a call.  If its callee is no name, the expression ends with the callee. -/
theorem callOf_guided {fuel : Nat} (derived : Derives k ts left.bare) (loose : l ≤ k)
    (loose' : l ≤ .postfixed) :
    Guided A (fun ws => IsExpr l (ts ++ ws)) (callOf inner fuel left) c := by
  have alone : IsExpr l (ts ++ []) := by
    rw [List.append_nil]
    exact ⟨_, .climb loose derived⟩
  -- A callee that is no name is refused before anything of the call is read.
  cases left with
  | symbol name =>
    have callee := callee_of_derives derived rfl
    have whole (us : List Word) (o r : Word) (es : List Bare.Expr) (opened : o.kind = .openParen)
        (arguments : DerivesArguments us es) (close : r.kind = .closeParen) :
        IsExpr l (ts ++ o :: (us ++ [r])) :=
      ⟨_, .climb loose' (.call callee opened arguments close)⟩
    rw [callOf_symbol]
    refine Guided.expect_bind (by decide)
      (whole [] ⟨.openParen, "("⟩ ⟨.closeParen, ")"⟩ [] rfl .none rfl)
      fun opened => ?_
    refine Guided.kind_bind ?_
    refine (values_guided guided sound fuel).bind (fun _ h => h) ?_ ?_
    · rintro us ⟨es, arguments⟩
      exact ⟨_, whole us c.current.word ⟨.closeParen, ")"⟩ es opened arguments rfl⟩
    · intro sensible es d yields
      obtain ⟨us, reached, arguments⟩ := values_sound sound sensible.closed yields
      refine ⟨us, reached, Guided.then_pure (@Guided.expect _ _ _ [⟨.closeParen, ")"⟩] _ ?_)⟩
      exact whole us c.current.word ⟨.closeParen, ")"⟩ _ opened arguments rfl
  | _ => exact Guided.misplaced (fun same => absurd same (by decide)) alone

/-- What an operator makes of an expression that it may stand behind. -/
theorem continuation_guided {fuel : Nat} {form : Continuation}
    (operates : Operates c.current.kind m form) (derived : Derives k ts left.bare)
    (follows : MayFollow k c.current.kind) (loose : l ≤ k) (loose' : l ≤ m) :
    Guided A (fun ws => IsExpr l (ts ++ ws))
      (continuation Table.language inner fuel left m.strength form) c := by
  have derived_operand (other : form ≠ .call) : Derives m.operand ts left.bare :=
    .climb (follows (operates.ne_openParen other) operates) derived
  have word := operates.ne_eof
  generalize kind_eq : c.current.kind = kind at operates
  cases operates with
  | conditional =>
    have test := derived_operand (by decide)
    refine (branches_guided guided sound test kind_eq).weaken (fun _ h => h) ?_
    rintro us ⟨x, whole⟩
    exact ⟨x, .climb loose' whole⟩
  | chain chain operator =>
    have operand := derived_operand (by decide)
    rw [operand_eq_of_chain chain] at operand
    rw [← kind_eq] at operator
    simp only [continuation, if_neg (strength_ne_relational_of_chain chain)]
    refine (rightOperand_guided guided sound (strength_le_unary_of_chain chain) word ?_).then_pure
    intro us x right
    rw [reads_strength_of_chain chain] at right
    exact ⟨_, .climb loose' (.chain chain operand operator right)⟩
  | comparison operator =>
    have operand := derived_operand (by decide)
    rw [← kind_eq] at operator
    have whole (us : List Word) (x : Bare.Expr) (right : Derives .sum us x) :
        IsExpr l (ts ++ c.current.word :: us) :=
      ⟨_, .climb loose' (.comparison operand operator right)⟩
    simp only [continuation, Category.strength, if_true]
    have first : Guided A (fun ws => IsExpr l (ts ++ ws)) (rightOperand inner left .relational) c :=
      rightOperand_guided guided sound (by decide) word whole
    refine first.bind_whole ?_
    -- The comparison is a whole one, whatever stands behind it.
    intro sensible x d yields
    obtain ⟨us, right, reached, derived', -, -⟩ :=
      rightOperand_sound sound (by decide) sensible.closed word yields
    refine ⟨_, reached, (refuseComparison_guided ?_).then_pure⟩
    rw [List.append_nil]
    exact whole us right derived'
  | power operator =>
    have operand := derived_operand (by decide)
    rw [← kind_eq] at operator
    refine rightOperand_guided guided sound (by decide) word ?_
    intro us x right
    exact ⟨_, .climb loose' (.power operand operator right)⟩
  | call => exact callOf_guided guided sound derived loose loose'

/-- The loop.  The expression so far is a whole one. -/
theorem continueWhile_guided {p : Power} {count : Nat} (derived : Derives k ts left.bare)
    (tight : p.reads ≤ k) (follows : MayFollow k c.current.kind) :
    Guided A (fun ws => IsExpr p.reads (ts ++ ws))
      (continueWhile Table.language inner p count left) c := by
  induction count generalizing A c left ts k with
  | zero => exact Guided.exhausted
  | succ count ih =>
    refine Guided.kind_bind ?_
    cases goes : Table.language.continuation? c.current.kind with
    | none => exact Guided.pure
    | some entry =>
      obtain ⟨own, form⟩ := entry
      obtain ⟨m, operates, rfl⟩ := continuation?_eq_some_iff.mp goes
      by_cases loose : m.strength ≤ p
      · simp only [if_pos loose]
        exact Guided.pure
      · simp only [if_neg loose]
        -- If the operator fails, the expression in front of it goes on with what was read.
        have tight' := reads_le_of_strength loose
        refine (continuation_guided guided sound operates derived follows tight tight').bind_whole ?_
        intro sensible longer d yields
        obtain ⟨us, reached, derived', follows'⟩ :=
          continuation_sound sound operates sensible.closed derived follows yields
        have rest := @ih (fun ws => A (us ++ ws)) d longer (ts ++ us) _ derived' tight' follows'
        simp only [List.append_assoc] at rest
        exact ⟨us, reached, rest⟩

end

/-- Where the reading of an expression stops, it has read the beginning of one. -/
theorem expr_guided (fuel : Nat) : GuidedInner (expr Table.language fuel) := by
  induction fuel with
  | zero => exact fun p low A c => Guided.exhausted
  | succ fuel ih =>
    intro p low A c
    have sound := expr_sound fuel
    refine (opening_guided ih sound).bind (fun _ h => h) ?_ ?_
    · rintro us ⟨x, derived⟩
      refine ⟨[], x, ?_⟩
      rw [List.append_nil]
      exact .climb (reads_le_prefixed low) derived
    · intro sensible left d yields
      obtain ⟨ts, k, reached, derived, tight, follows⟩ := opening_sound sound sensible.closed yields
      have tight := Category.le_trans (reads_le_prefixed low) tight
      exact ⟨ts, reached, continueWhile_guided ih sound derived tight follows⟩

/-! ## Statements -/

/-- Some statement has these words. -/
def IsStatement (ws : List Word) : Prop := ∃ s, DerivesStatement ws s

/-- An equals sign, a value and a semicolon. -/
def assignedFiller : List Word := [⟨.assignment, "="⟩, filler, ⟨.semicolon, ";"⟩]

theorem derives_assignedFiller : DerivesAssigned assignedFiller (.boolean true) :=
  @DerivesAssigned.assigned ⟨.assignment, "="⟩ ⟨.semicolon, ";"⟩ [filler] _ rfl
    (derives_filler _) rfl

/-- A statement. -/
def statementFiller : List Word := [⟨.printWord, "print"⟩, filler, ⟨.semicolon, ";"⟩]

theorem derives_statementFiller : DerivesStatement statementFiller (.print (.boolean true)) :=
  @DerivesStatement.print ⟨.printWord, "print"⟩ ⟨.semicolon, ";"⟩ [filler] _ rfl
    (derives_filler _) rfl

variable {ws : List Word}

/-- A name, and then a step that goes on. -/
theorem identifier_bind {context : String} {f : Symbol → Parse α}
    (other : "expected identifier " ++ context ≠ "expected a statement") (rest : G ws)
    (next : c.current.kind = .identifier → Guided (fun ws => A (c.current.word :: ws))
      (fun ws => G (c.current.word :: ws)) (f ⟨c.current.text, c.current.span⟩) c.advance) :
    Guided A G (identifier context >>= f) c := by
  have first : Guided A G (identifier context) c := (Guided.expectFor other rest).then_pure
  refine first.bind_whole ?_
  intro sensible i d yields
  obtain ⟨name, rfl, rfl⟩ := identifier_yields.mp yields
  exact ⟨_, Cursor.reaches_advance sensible.closed (by rw [name]; decide), next name⟩

theorem parameters_guided (fuel : Nat) :
    Guided A (fun ws => ∃ names, DerivesNames ws names) (parameters fuel) c := by
  induction fuel generalizing c A with
  | zero => exact Guided.exhausted
  | succ fuel ih =>
    have single : DerivesNames [⟨.identifier, "x"⟩] ["x"] := .one (w := ⟨.identifier, "x"⟩) rfl
    refine identifier_bind (by decide) ⟨_, single⟩ fun name => ?_
    refine Guided.kind_bind ?_
    split
    · rename_i comma
      refine Guided.advance_bind (by rw [comma]; decide) (Guided.then_pure ?_)
      refine ih.weaken (fun _ h => h) ?_
      rintro us ⟨names, others⟩
      exact ⟨_, .more name comma others⟩
    · exact Guided.pure

theorem assigned_guided (fuel : Nat) :
    Guided A (fun ws => ∃ e, DerivesAssigned ws e) (assigned Table.language fuel) c := by
  have whole (us : List Word) (q : Word) (x : Bare.Expr) (equals : q.kind = .assignment)
      (value : Derives .expression us x) :
      ∃ e, DerivesAssigned (q :: (us ++ [⟨.semicolon, ";"⟩])) e := ⟨x, .assigned equals value rfl⟩
  refine Guided.expect_bind (by decide) ⟨_, derives_assignedFiller⟩ fun equals => ?_
  refine (expr_guided fuel).bind (expr_sound fuel) (by decide) ?_ fun us e d _ value _ => ?_
  · intro us x value
    exact ⟨_, whole us _ x equals value⟩
  · refine Guided.then_pure (@Guided.expect _ _ _ [⟨.semicolon, ";"⟩] _ ?_)
    exact whole us _ _ equals value

/-- A statement that ends with an equals sign and a value. -/
theorem assigned_bind {fuel : Nat} {start : Position} {f : Expr → Span → Stmt}
    (complete : ∀ us x, DerivesAssigned us x → G us) :
    Guided A G (assigned Table.language fuel >>= fun value =>
      spanFrom start >>= fun span => pure (f value span)) c := by
  refine (assigned_guided fuel).bind (fun _ h => h) ?_ ?_
  · rintro us ⟨x, value⟩
    exact ⟨[], by simpa using complete us x value⟩
  · intro sensible value d yields
    obtain ⟨us, reached, -⟩ := assigned_sound sensible.closed yields
    refine ⟨us, reached, ?_⟩
    intro _ d e failed
    cases failed

theorem declaration_guided {fuel : Nat} (word : c.current.kind = .letWord) :
    Guided A IsStatement (declaration Table.language fuel) c := by
  refine Guided.advance_bind (by rw [word]; decide) ?_
  have whole (i : Word) (us : List Word) (x : Bare.Expr) (name : i.kind = .identifier)
      (value : DerivesAssigned us x) : IsStatement (c.current.word :: i :: us) :=
    ⟨_, .declaration word name value⟩
  refine identifier_bind (by decide) (whole ⟨.identifier, "x"⟩ _ _ rfl derives_assignedFiller)
    fun name => ?_
  exact assigned_bind fun us x value => whole _ us x name value

/-- Between the parentheses of a function there may be nothing. -/
theorem optionalParameters_guided (fuel : Nat) :
    Guided A (fun ws => ∃ names, DerivesParameters ws names)
      (if c.current.kind = .closeParen then pure [] else parameters fuel) c := by
  split
  · exact Guided.pure
  · refine (parameters_guided fuel).weaken (fun _ h => h) ?_
    rintro us ⟨names, some⟩
    exact ⟨names, .some some⟩

theorem function_guided {fuel : Nat} (word : c.current.kind = .functionWord) :
    Guided A IsStatement (function Table.language fuel) c := by
  rw [function_eq]
  refine Guided.advance_bind (by rw [word]; decide) ?_
  -- A definition from its parts; each step below puts fillers for the parts it has not reached.
  have whole (i l r : Word) (ts us : List Word) (names : List String) (x : Bare.Expr)
      (name : i.kind = .identifier) (opened : l.kind = .openParen)
      (parameters : DerivesParameters ts names) (close : r.kind = .closeParen)
      (body : DerivesAssigned us x) : IsStatement (c.current.word :: i :: l :: (ts ++ r :: us)) :=
    ⟨_, .function word name opened parameters close body⟩
  have rest := derives_assignedFiller
  refine identifier_bind (by decide)
    (whole ⟨.identifier, "f"⟩ ⟨.openParen, "("⟩ ⟨.closeParen, ")"⟩ [] _ _ _ rfl rfl .none rfl rest)
    fun name => ?_
  refine Guided.expect_bind (by decide)
    (whole _ ⟨.openParen, "("⟩ ⟨.closeParen, ")"⟩ [] _ _ _ name rfl .none rfl rest) fun opened => ?_
  refine Guided.kind_bind ?_
  refine (optionalParameters_guided fuel).bind (fun _ h => h) ?_ ?_
  · rintro us ⟨names, parameters⟩
    exact ⟨_, whole _ _ ⟨.closeParen, ")"⟩ us _ names _ name opened parameters rfl rest⟩
  · intro sensible names d yields
    obtain ⟨us, reached, parameters⟩ := optionalParameters_sound sensible.closed yields
    refine ⟨us, reached, ?_⟩
    refine Guided.expect_bind (by decide)
      (whole _ _ ⟨.closeParen, ")"⟩ us _ _ _ name opened parameters rfl rest) fun close => ?_
    exact assigned_bind fun vs x value =>
      whole _ _ _ us vs _ x name opened parameters close value

theorem assignment_guided (fuel : Nat) :
    Guided A IsStatement (assignment Table.language fuel) c := by
  have whole (i : Word) (us : List Word) (x : Bare.Expr) (name : i.kind = .identifier)
      (value : DerivesAssigned us x) : IsStatement (i :: us) := ⟨_, .assignment name value⟩
  refine identifier_bind (by decide) (whole ⟨.identifier, "x"⟩ _ _ rfl derives_assignedFiller)
    fun name => ?_
  exact assigned_bind fun us x value => whole _ us x name value

theorem print_guided {fuel : Nat} (word : c.current.kind = .printWord) :
    Guided A IsStatement (print Table.language fuel) c := by
  have whole (us : List Word) (x : Bare.Expr) (argument : Derives .expression us x) :
      IsStatement (c.current.word :: (us ++ [⟨.semicolon, ";"⟩])) :=
    ⟨_, .print word argument rfl⟩
  refine Guided.advance_bind (by rw [word]; decide) ?_
  refine (expr_guided fuel).bind (expr_sound fuel) (by decide) ?_ fun us e d _ argument _ => ?_
  · intro us x argument
    exact ⟨_, whole us x argument⟩
  · refine Guided.bind_whole (@Guided.expect _ _ _ [⟨.semicolon, ";"⟩] _ (whole us _ argument)) ?_
    intro sensible t d' yields
    obtain ⟨semicolon, -, rfl⟩ := Parse.yields_expect.mp yields
    refine ⟨_, Cursor.reaches_advance sensible.closed (by rw [semicolon]; decide), ?_⟩
    intro _ d e failed
    cases failed

/-- The words in front of the beginning of a statement. -/
inductive AtStatement : List Word → Prop where
  | start : AtStatement []
  | next {ws us : List Word} {s : Bare.Stmt} (before : AtStatement ws)
      (statement : DerivesStatement us s) : AtStatement (ws ++ us)
  | enter {ws us : List Word} {w l : Word} {e : Bare.Expr} (before : AtStatement ws)
      (word : w.kind = .whileWord) (test : Derives .expression us e) (opened : l.kind = .openCurly) :
      AtStatement (ws ++ w :: (us ++ [l]))

theorem AtStatement.append {ws us : List Word} (h : AtStatement ws) (h' : AtStatement us) :
    AtStatement (ws ++ us) := by
  induction h' with
  | start => rwa [List.append_nil]
  | next _ statement ih =>
    rw [← List.append_assoc]
    exact ih.next statement
  | enter _ word test opened ih =>
    rw [← List.append_assoc]
    exact ih.enter word test opened

/-- Some statements have these words. -/
def AreStatements (ws : List Word) : Prop := ∃ ss, DerivesStatements ws ss

/-- Where the reading of a statement stops, it has read the beginning of one. -/
def GuidedStatement (read : Parse Stmt) : Prop := ∀ c, Guided AtStatement IsStatement read c

/-- A statement, and then others. -/
theorem GuidedStatement.bind {read : Parse Stmt} (guided : GuidedStatement read)
    (sound : SoundStatement read) {f : Stmt → Parse α}
    (rest : ∀ s d, Guided AtStatement AreStatements (f s) d) :
    Guided AtStatement AreStatements (read >>= f) c := by
  refine (guided c).bind (fun _ h => h) ?_ ?_
  · rintro us ⟨s, first⟩
    refine ⟨[], _, .cons first .nil⟩
  · intro sensible s d yields
    obtain ⟨us, reached, first⟩ := sound sensible.closed yields
    refine ⟨us, reached, (rest s d).weaken ?_ ?_⟩
    · intro vs inside
      exact (AtStatement.start.next first).append inside
    · rintro vs ⟨ss, others⟩
      exact ⟨_, .cons first others⟩

section

variable {read : Parse Stmt} (guided : GuidedStatement read) (sound : SoundStatement read)
include guided sound

/-- Statements up to a closing brace. -/
theorem blockBody_guided (fuel : Nat) :
    Guided AtStatement AreStatements (blockBody read fuel) c := by
  induction fuel generalizing c with
  | zero => exact Guided.exhausted
  | succ fuel ih =>
    refine Guided.kind_bind ?_
    split
    · exact Guided.pure
    · exact Guided.misplaced (fun same => absurd same (by decide)) ⟨_, .nil⟩
    · exact guided.bind sound fun s d => Guided.then_pure ih

theorem loop_guided {fuel : Nat} (word : c.current.kind = .whileWord) :
    Guided AtStatement IsStatement (loop Table.language read fuel) c := by
  -- An empty body closes the loop at every point before the brace.
  have whole (us vs : List Word) (l : Word) (x : Bare.Expr) (ss : List Bare.Stmt)
      (test : Derives .expression us x) (opened : l.kind = .openCurly)
      (body : DerivesStatements vs ss) :
      IsStatement (c.current.word :: (us ++ l :: (vs ++ [⟨.closeCurly, "\x7d"⟩]))) :=
    ⟨_, .loop word test opened body rfl⟩
  refine Guided.advance_bind (by rw [word]; decide) ?_
  refine (expr_guided fuel).bind (expr_sound fuel) (by decide) ?_ fun us e d _ test _ => ?_
  · intro us x test
    exact ⟨_, whole us [] ⟨.openCurly, "\x7b"⟩ x [] test rfl .nil⟩
  · refine Guided.then_pure ?_
    refine Guided.expect_bind (by decide) (whole us [] ⟨.openCurly, "\x7b"⟩ _ [] test rfl .nil)
      fun opened => ?_
    refine (blockBody_guided guided sound fuel).bind ?_ ?_ ?_
    · -- Behind the opening brace, a statement begins.
      intro vs inside
      have entered : AtStatement ([] ++ c.current.word :: (us ++ [d.current.word])) :=
        .enter .start word test opened
      simpa using entered.append inside
    · rintro vs ⟨ss, body⟩
      exact ⟨_, whole us vs _ _ ss test opened body⟩
    · intro sensible ss d' yields
      obtain ⟨vs, reached, body⟩ := blockBody_sound sound sensible.closed yields
      refine ⟨vs, reached, Guided.then_pure (@Guided.expect _ _ _ [⟨.closeCurly, "\x7d"⟩] _ ?_)⟩
      exact whole us vs _ _ _ test opened body

end

/-- Where the reading of a statement stops, it has read the beginning of one. -/
theorem statement_guided (fuel : Nat) : GuidedStatement (statement Table.language fuel) := by
  induction fuel with
  | zero => exact fun c => Guided.exhausted
  | succ fuel ih =>
    intro c sensible d e failed
    rw [run_statement] at failed
    cases kind : c.current.kind with
    | letWord =>
      rw [kind] at failed
      exact declaration_guided kind sensible d e failed
    | functionWord =>
      rw [kind] at failed
      exact function_guided kind sensible d e failed
    | printWord =>
      rw [kind] at failed
      exact print_guided kind sensible d e failed
    | whileWord =>
      rw [kind] at failed
      exact loop_guided ih (statement_sound fuel) kind sensible d e failed
    | _ =>
      -- No other word opens a statement, but a name with an equals sign behind it does.
      simp only [kind, Table.language] at failed
      split at failed
      · exact assignment_guided fuel sensible d e failed
      · have stops : Guided AtStatement IsStatement
            (Parse.misplaced "expected a statement" : Parse Stmt) c :=
          Guided.misplaced (fun _ => .start) ⟨_, derives_statementFiller⟩
        exact stops sensible d e failed

/-- Where the reading of a program stops, it has read the beginning of one. -/
theorem statements_guided (fuel count : Nat) :
    Guided AtStatement AreStatements (statements Table.language fuel count) c := by
  induction count generalizing c with
  | zero => exact Guided.exhausted
  | succ count ih =>
    refine Guided.kind_bind ?_
    split
    · exact Guided.pure
    · exact (statement_guided fuel).bind (statement_sound fuel) fun s d => Guided.then_pure ih

/-- Where the reading of a program stops, it has read the beginning of one. -/
theorem readProgram_guided : Guided AtStatement AreStatements (readProgram Table.language) c := by
  have body := statements_guided c.fuel c.fuel (c := c)
  have whole : Guided AtStatement AreStatements (statements Table.language c.fuel c.fuel >>=
      fun ss => do return ⟨ss, ⟨c.position, (← get).position⟩⟩ : Parse Block) c := by
    refine body.bind_whole ?_
    intro sensible ss d yields
    obtain ⟨us, reached, -⟩ := statements_sound sensible.closed yields
    refine ⟨us, reached, ?_⟩
    intro _ d e failed
    cases failed
  exact whole

end Grammar

/-! ## The end of the text -/

/-- No word is the end of the text. -/
def Endless (ws : List Word) : Prop := ∀ w ∈ ws, w.kind ≠ .eof

namespace Endless

variable {w : Word} {ws us : List Word}

@[simp] theorem nil : Endless [] := fun _ none => absurd none List.not_mem_nil

@[simp] theorem cons : Endless (w :: ws) ↔ w.kind ≠ .eof ∧ Endless ws := List.forall_mem_cons

@[simp] theorem append : Endless (ws ++ us) ↔ Endless ws ∧ Endless us := List.forall_mem_append

/-- With the end of the text behind them, such words are closed. -/
theorem closed (h : Endless ws) (ends : w.kind = .eof) : Closed (ws ++ [w]) := by
  induction ws with
  | nil => exact .stop ends
  | cons v ws ih =>
    rw [cons] at h
    exact .cons h.1 (ih h.2)

end Endless

theorem ne_eof_of_mem_operators {k : Category} {kind : Kind} (h : kind ∈ k.operators) :
    kind ≠ .eof := by
  rintro rfl
  revert h
  cases k <;> decide

theorem Callee.endless {ts : List Word} {f : String} (h : Callee ts f) : Endless ts := by
  induction h with
  | name h => simp [h]
  | group opened _ close ih => simp [opened, ih, close]

mutual

/-- No word of an expression is the end of the text. -/
theorem Derives.endless : {k : Category} → {ts : List Word} → {x : Bare.Expr} → Derives k ts x →
    Endless ts
  | _, _, _, .climb _ h => h.endless
  | _, _, _, .conditional test question consequent colon alternate => by
    simp [test.endless, question, consequent.endless, colon, alternate.endless]
  | _, _, _, .chain _ left operator right => by
    simp [left.endless, ne_eof_of_mem_operators operator, right.endless]
  | _, _, _, .comparison left operator right => by
    simp [left.endless, ne_eof_of_mem_operators operator, right.endless]
  | _, _, _, .power base operator exponent => by
    simp [base.endless, ne_eof_of_mem_operators operator, exponent.endless]
  | _, _, _, .unary operator operand => by
    simp [ne_eof_of_mem_operators operator, operand.endless]
  | _, _, _, .call callee opened arguments close => by
    simp [callee.endless, opened, arguments.endless, close]
  | _, _, _, .number h _ | _, _, _, .holds h | _, _, _, .fails h | _, _, _, .symbol h => by simp [h]
  | _, _, _, .group opened inner close => by simp [opened, inner.endless, close]

theorem DerivesArguments.endless : {ts : List Word} → {es : List Bare.Expr} →
    DerivesArguments ts es → Endless ts
  | _, _, .none => Endless.nil
  | _, _, .some h => h.endless

theorem DerivesMany.endless : {ts : List Word} → {es : List Bare.Expr} → DerivesMany ts es →
    Endless ts
  | _, _, .one h => h.endless
  | _, _, .more first comma others => by simp [first.endless, comma, others.endless]

end

theorem DerivesNames.endless {ts : List Word} {names : List String} (h : DerivesNames ts names) :
    Endless ts := by
  induction h with
  | one h => simp [h]
  | more h comma _ ih => simp [h, comma, ih]

theorem DerivesParameters.endless {ts : List Word} {names : List String}
    (h : DerivesParameters ts names) : Endless ts := by
  cases h with
  | none => exact Endless.nil
  | some h => exact h.endless

theorem DerivesAssigned.endless {ts : List Word} {x : Bare.Expr} (h : DerivesAssigned ts x) :
    Endless ts := by
  cases h with
  | assigned equals value semicolon => simp [equals, value.endless, semicolon]

mutual

theorem DerivesStatement.endless : {ts : List Word} → {s : Bare.Stmt} → DerivesStatement ts s →
    Endless ts
  | _, _, .declaration word identifier value => by simp [word, identifier, value.endless]
  | _, _, .function word identifier opened parameters close body => by
    simp [word, identifier, opened, parameters.endless, close, body.endless]
  | _, _, .assignment identifier value => by simp [identifier, value.endless]
  | _, _, .print word argument semicolon => by simp [word, argument.endless, semicolon]
  | _, _, .loop word test opened body close => by
    simp [word, test.endless, opened, body.endless, close]

/-- No word of a program is the end of the text. -/
theorem DerivesStatements.endless : {ts : List Word} → {ss : List Bare.Stmt} →
    DerivesStatements ts ss → Endless ts
  | _, _, .nil => Endless.nil
  | _, _, .cons first others => by simp [first.endless, others.endless]

end

/-! ## Lists of tokens -/

/-- A word at any place. -/
def Word.token (w : Word) : Token := ⟨w.kind, w.text, Span.empty .first⟩

theorem map_word_token (ws : List Word) : (ws.map Word.token).map Token.word = ws := by
  rw [List.map_map]
  exact List.map_id ws

/-- Words that a program may begin with are read with something behind them. -/
theorem exists_ofTokens_of_begins {front : List Token} {vs : List Word}
    (begins : Grammar.AreStatements (front.map Token.word ++ vs)) :
    ∃ body stop block, stop.kind = .eof ∧ (∀ t ∈ body, t.kind ≠ .eof) ∧
      Tree.Block.ofTokens (front ++ (body ++ [stop])) = .ok block := by
  obtain ⟨ss, derived⟩ := begins
  -- No derived word is `eof`, so the completion does not end before its own last token.
  have endless := derived.endless
  have words : (front ++ (vs.map Word.token ++ [Token.eof .first])).map Token.word =
      (front.map Token.word ++ vs) ++ [(Token.eof .first).word] := by
    rw [List.map_append, List.map_append, map_word_token, List.append_assoc]
    rfl
  have closed : Closed ((front.map Token.word ++ vs) ++ [(Token.eof .first).word]) :=
    endless.closed rfl
  rw [← words] at closed
  obtain ⟨block, read, -⟩ := ofTokens_of_derives derived words closed rfl
  refine ⟨vs.map Word.token, Token.eof .first, block, rfl, ?_, read⟩
  rw [List.forall_mem_map]
  exact (Endless.append.mp endless).2

/-- Up to a token, nothing depends on what stands behind it. -/
theorem getElem?_append_cons {α : Type} {front : List α} {t : α} {back back' : List α} {i : Nat}
    (h : i < front.length + 1) : (front ++ t :: back)[i]? = (front ++ t :: back')[i]? := by
  by_cases before : i < front.length
  · rw [List.getElem?_append_left before, List.getElem?_append_left before]
  · have here : i = front.length := by omega
    subst here
    rw [List.getElem?_append_right (Nat.le_refl _), List.getElem?_append_right (Nat.le_refl _),
      Nat.sub_self]
    rfl

theorem getElem?_behind {α : Type} (front : List α) (t : α) (back : List α) :
    (front ++ t :: back)[front.length + 1]? = back.head? := by
  rw [List.getElem?_append_right (Nat.le_succ _)]
  cases back <;> simp

theorem Tree.Block.ofTokens_eq_error {first : Token} {others : List Token} {s : Stop} :
    Tree.Block.ofTokens (first :: others) = .error s ↔
      ∃ e, (Grammar.readProgram Grammar.Table.language).run (Cursor.start first others) =
        .error s e := by
  rw [Tree.Block.ofTokens_cons]
  generalize (Grammar.readProgram Grammar.Table.language).run (Cursor.start first others) = r
  cases r with
  | ok block e =>
    constructor
    · rintro ⟨⟩
    · rintro ⟨_, ⟨⟩⟩
  | error stop e =>
    constructor
    · rintro ⟨⟩
      exact ⟨e, rfl⟩
    · rintro ⟨_, ⟨⟩⟩
      rfl

/-- The words of a list are those behind a cursor and those to be read. -/
theorem Cursor.map_word_tokens (c : Cursor) :
    c.tokens.map Token.word = c.behind.reverse.map Token.word ++ c.words := by
  rw [Cursor.tokens, List.map_append]
  rfl

/-- The reading of a program that is none stops somewhere, with a diagnostic for the token there,
and has read the beginning of a program. -/
theorem exists_misfit {first : Token} {others : List Token} {s : Stop}
    (closed : Closed ((first :: others).map Token.word))
    (legible : ∀ t ∈ first :: others, t.kind = .number → (Number.ofText? t.text).isSome)
    (failed : Tree.Block.ofTokens (first :: others) = .error s) :
    ∃ d e, s = .fault d ∧ (Grammar.readProgram Grammar.Table.language).run
        (Cursor.start first others) = .error (.fault d) e ∧
      e.tokens = first :: others ∧ d.position = e.position ∧
      (d.fault.AsksStatement → Grammar.AtStatement (e.behind.reverse.map Token.word)) ∧
      ∃ vs, Grammar.AreStatements (e.behind.reverse.map Token.word ++ vs) := by
  -- The reading does not run out of fuel.
  obtain ⟨d, rfl⟩ : ∃ d, s = .fault d := by
    have same := ofTokens_moved closed rfl
    rw [failed] at same
    cases same with
    | fault _ => exact ⟨_, rfl⟩
  obtain ⟨e, stops⟩ := Tree.Block.ofTokens_eq_error.mp failed
  have sensible : (Cursor.start first others).Sensible :=
    ⟨closed, List.forall_mem_map.mpr legible⟩
  obtain ⟨us, reached, position, asks, vs, begins⟩ :=
    Grammar.readProgram_guided sensible d e stops
  have kept : ((Grammar.readProgram Grammar.Table.language).final
      (Cursor.start first others)).tokens = first :: others := Parse.Forward.tokens_eq _
  unfold Parse.final at kept
  rw [stops] at kept
  have words := e.map_word_tokens
  rw [kept] at words
  have front : us = e.behind.reverse.map Token.word :=
    List.append_cancel_right (reached.1.symm.trans words)
  rw [front] at asks begins
  exact ⟨d, e, rfl, stops, kept, position, asks, vs, begins⟩

/-- Nothing behind the token at which a reading stops matters, except for the token right behind
a name that begins no statement. -/
theorem ofTokens_eq_error_of_front {first : Token} {others back : List Token} {d : Diagnostic}
    {e : Cursor} (closed : Closed ((first :: others).map Token.word))
    (stops : (Grammar.readProgram Grammar.Table.language).run (Cursor.start first others) =
      .error (.fault d) e) (kept : e.tokens = first :: others)
    (next : e.current.kind = .identifier → d.fault.AsksStatement →
      back.head? = e.ahead.head?) :
    Tree.Block.ofTokens (e.behind.reverse ++ e.current :: back) = .error (.fault d) := by
  have length : e.behind.reverse.length = e.index := List.length_reverse
  have here : first :: others = e.behind.reverse ++ e.current :: e.ahead := kept.symm
  obtain ⟨first', others', there⟩ : ∃ first' others', e.behind.reverse ++ e.current :: back =
      first' :: others' :=
    List.exists_cons_of_ne_nil (List.append_ne_nil_of_right_ne_nil _ (List.cons_ne_nil _ _))
  -- Up to the misfit and including it, both inputs are the same tokens.
  have equal : ∀ i < e.index + 1, (first :: others)[i]? = (first' :: others')[i]? := by
    intro i inside
    rw [here, ← there]
    exact getElem?_append_cons (by omega)
  have shared : SharedFront (e.index + 1) (first :: others) (first' :: others') := by
    refine ⟨closed, fun i inside => ?_⟩
    rw [equal i inside]
  have level : Level (e.index + 1) (first :: others) (first' :: others')
      (Cursor.start first others) (Cursor.start first' others') := ⟨rfl, rfl, rfl, Nat.succ_pos _⟩
  have outcome := Grammar.readProgram_tracks shared level rfl
    (by rw [here]; simp [length]) (by rw [← there]; simp [length])
  rw [there]
  refine Tree.Block.ofTokens_eq_error.mpr ?_
  rw [stops] at outcome
  generalize (Grammar.readProgram Grammar.Table.language).run (Cursor.start first' others') = r
    at outcome ⊢
  cases outcome with
  -- Stuck in both at one index, which lies inside the shared part.
  | fails same =>
    obtain ⟨_, -, i, inside, t, t', found, found', -, rfl, rfl⟩ := same
    rw [equal i inside, found'] at found
    obtain rfl := Option.some.inj found
    exact ⟨_, rfl⟩
  -- The run on the first input stops at the misfit itself, so it never leaves the shared part.
  | stops past => exact absurd past (Nat.not_succ_le_self _)
  -- A glance past the shared part sees what `next` says is equal.
  | glances _ _ name differ =>
    have behind := next name ⟨_, rfl⟩
    rw [here, ← there, ← length, getElem?_behind, getElem?_behind, behind] at differ
    exact absurd rfl differ

/-- **A program that is not read has a first token that no program has at this place.**  The
position of the diagnostic is where this token starts.  What is in front of it is the beginning of
some program.  Whatever is put behind it, the diagnostic is the same; only if the token is a name
where a statement begins, the token right behind it is to be kept. -/
theorem ofTokens_fails_at_first_misfit {body : List Token} {stop : Token} {s : Stop}
    (ends : stop.kind = .eof) (inside : ∀ t ∈ body, t.kind ≠ .eof)
    (legible : ∀ t ∈ body, t.kind = .number → (Number.ofText? t.text).isSome)
    (failed : Tree.Block.ofTokens (body ++ [stop]) = .error s) :
    ∃ (fault : Fault) (front : List Token) (t : Token) (back : List Token),
      body ++ [stop] = front ++ t :: back ∧ s = .fault ⟨fault, t.span.start⟩ ∧
      (∃ body' stop' block, stop'.kind = .eof ∧ (∀ t ∈ body', t.kind ≠ .eof) ∧
        Tree.Block.ofTokens (front ++ (body' ++ [stop'])) = .ok block) ∧
      ∀ back', (t.kind = .identifier → Grammar.AtStatement (front.map Token.word) →
          back'.head? = back.head?) →
        Tree.Block.ofTokens (front ++ t :: back') = .error s := by
  -- A list with its only `eof` at the end is closed, and all its numbers are legible.
  have closed := closed_of_tokens ends inside
  have all : ∀ t ∈ body ++ [stop], t.kind = .number → (Number.ofText? t.text).isSome := by
    rw [List.forall_mem_append, List.forall_mem_singleton, ends]
    exact ⟨legible, fun none => by cases none⟩
  obtain ⟨first, others, tokens⟩ : ∃ first others, body ++ [stop] = first :: others :=
    List.exists_cons_of_ne_nil (List.append_ne_nil_of_right_ne_nil body (List.cons_ne_nil stop []))
  rw [tokens] at closed all failed ⊢
  obtain ⟨⟨fault, position⟩, e, rfl, stops, kept, rfl, asks, vs, begins⟩ :=
    exists_misfit closed all failed
  refine ⟨fault, e.behind.reverse, e.current, e.ahead, kept.symm, rfl,
    exists_ofTokens_of_begins begins, ?_⟩
  intro back' next
  exact ofTokens_eq_error_of_front closed stops kept fun name asked => next name (asks asked)

/-- The words of `print 1 < b < c`, one position apart. -/
def chained : List Token :=
  [⟨.printWord, "print"⟩, ⟨.number, "1"⟩, ⟨.less, "<"⟩, ⟨.identifier, "b"⟩, ⟨.less, "<"⟩,
   ⟨.identifier, "c"⟩].mapIdx fun i (w : Word) => ⟨w.kind, w.text, Span.empty ⟨i, 1, .ofNat (i + 1)⟩⟩

/-- The second comparison is the misfit. -/
theorem chained_fails_at_second_comparison :
    ∃ (fault : Fault) (front : List Token) (t : Token) (back : List Token),
      chained ++ [Token.eof .first] = front ++ t :: back ∧
      Stop.fault ⟨.misplaced "<" "comparisons cannot be chained", ⟨4, 1, 5⟩⟩ =
        .fault ⟨fault, t.span.start⟩ ∧
      (∃ body' stop' block, stop'.kind = .eof ∧ (∀ t ∈ body', t.kind ≠ .eof) ∧
        Tree.Block.ofTokens (front ++ (body' ++ [stop'])) = .ok block) ∧
      ∀ back', (t.kind = .identifier → Grammar.AtStatement (front.map Token.word) →
          back'.head? = back.head?) →
        Tree.Block.ofTokens (front ++ t :: back') =
          .error (.fault ⟨.misplaced "<" "comparisons cannot be chained", ⟨4, 1, 5⟩⟩) := by
  have ends : (Token.eof .first).kind = .eof := rfl
  have inside : ∀ t ∈ chained, t.kind ≠ .eof := by decide
  have legible : ∀ t ∈ chained, t.kind = .number → (Number.ofText? t.text).isSome := by
    decide +kernel
  have failed : Tree.Block.ofTokens (chained ++ [Token.eof .first]) =
      .error (.fault ⟨.misplaced "<" "comparisons cannot be chained", ⟨4, 1, 5⟩⟩) := by
    rfl
  exact ofTokens_fails_at_first_misfit ends inside legible failed

end Frontend

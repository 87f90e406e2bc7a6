import Frontend.Proofs.Grammar.Operator

/-!
# What is read is derived

Whatever expression is read, the grammar derives it from the words that were read.

* **`Cursor.Reaches`**: the words between two cursors.
* **`Sound`**: what is shown of a way to read expressions, for every power.  Fuel is what
  the induction is on: each part is sound if the expressions inside it are.
* **`continueWhile_sound`**: the loop.  Its invariant is that the expression so far is in
  a category at least as tight as the one to be read, and that the next token may stand
  behind that category.
-/

namespace Frontend

namespace Cursor

/-- The words between two cursors. -/
def Reaches (c : Cursor) (ts : List Word) (d : Cursor) : Prop :=
  c.words = ts ++ d.words ∧ Closed d.words

variable {c d e : Cursor} {ts us : List Word}

theorem Reaches.refl (h : Closed c.words) : c.Reaches [] c := ⟨rfl, h⟩

theorem Reaches.trans (h : c.Reaches ts d) (h' : d.Reaches us e) : c.Reaches (ts ++ us) e :=
  ⟨by rw [h.1, h'.1, List.append_assoc], h'.2⟩

/-- One step takes one word. -/
theorem reaches_advance (h : Closed c.words) (word : c.current.kind ≠ .eof) :
    c.Reaches [c.current.word] c.advance := by
  have words := words_eq_cons h word
  refine ⟨words, ?_⟩
  rw [words] at h
  exact h.tail word

end Cursor

namespace Grammar

open Frontend.Tree (Expr)

/-- What is read is derived, up to where an operand of that power ends. -/
def Sound (inner : Power → Parse Expr) : Prop :=
  ∀ ⦃p c e d⦄, p ≤ .unary → Closed c.words → (inner p).Yields c e d →
    ∃ ts, c.Reaches ts d ∧ Derives p.reads ts e.bare ∧ Stops p d.current.kind

/-- Behind an expression of a category stands a token that may.  The parenthesis of a call
is let through: it is checked when the call is read. -/
def MayFollow (k : Category) (kind : Kind) : Prop := kind ≠ .openParen → Fits k kind

/-- What is derived from the words of a name can be called. -/
theorem callee_of_derives {f : String} :
    ∀ {k : Category} {ts : List Word} {e : Bare.Expr}, Derives k ts e → e = .symbol f → Callee ts f
  | _, _, _, .climb _ h, same => callee_of_derives h same
  | _, _, _, .symbol h, same => by
    cases same
    exact .name h
  | _, _, _, .group opened inner closed, same => .group opened (callee_of_derives inner same) closed
  | _, _, _, .conditional .., same | _, _, _, .chain .., same | _, _, _, .comparison .., same
  | _, _, _, .power .., same | _, _, _, .unary .., same | _, _, _, .call .., same
  | _, _, _, .number .., same | _, _, _, .holds .., same | _, _, _, .fails .., same => by cases same

variable {inner : Power → Parse Expr} {c d : Cursor} {e left : Expr} {ts : List Word}

/-! ## Openings -/

theorem openings_kind {kind : Kind} {what : Opening}
    (h : Table.language.opening? kind = some what) : kind ≠ .eof := by
  rintro rfl
  cases h

theorem mayFollow_primary {kind : Kind} : MayFollow .primary kind := fun _ => fits_primary

/-- What may stand behind anything may stand behind a call, except for a parenthesis. -/
theorem mayFollow_postfixed {kind : Kind} : MayFollow .postfixed kind := by
  intro other m form operates
  cases operates with
  | call => exact absurd rfl other
  | conditional | comparison | power => decide
  | chain chain => cases m <;> cases chain <;> decide

theorem opening_sound (sound : Sound inner) (closed : Closed c.words)
    (h : (opening Table.language inner).Yields c e d) :
    ∃ ts k, c.Reaches ts d ∧ Derives k ts e.bare ∧ .prefixed ≤ k ∧ MayFollow k d.current.kind := by
  simp only [opening, Parse.yields_bind, Parse.yields_kind] at h
  obtain ⟨_, _, ⟨rfl, rfl⟩, h⟩ := h
  cases kind : c.current.kind with
  | number =>
    have read := Cursor.reaches_advance closed (by rw [kind]; decide)
    simp only [kind, Table.language, Parse.yields_bind, Parse.yields_advance] at h
    obtain ⟨_, _, ⟨rfl, rfl⟩, h⟩ := h
    split at h
    · rename_i value reads
      obtain ⟨rfl, rfl⟩ := Parse.yields_pure.mp h
      exact ⟨_, .primary, read, .number kind reads, by decide, mayFollow_primary⟩
    · exact absurd h Parse.yields_fail
  | trueWord =>
    have read := Cursor.reaches_advance closed (by rw [kind]; decide)
    simp only [kind, Table.language, Parse.yields_bind, Parse.yields_advance, Parse.yields_pure] at h
    obtain ⟨_, _, ⟨rfl, rfl⟩, rfl, rfl⟩ := h
    simp only [kind, Expr.bare]
    exact ⟨_, .primary, read, .holds kind, by decide, mayFollow_primary⟩
  | falseWord =>
    have read := Cursor.reaches_advance closed (by rw [kind]; decide)
    simp only [kind, Table.language, Parse.yields_bind, Parse.yields_advance, Parse.yields_pure] at h
    obtain ⟨_, _, ⟨rfl, rfl⟩, rfl, rfl⟩ := h
    simp only [kind, Expr.bare]
    exact ⟨_, .primary, read, .fails kind, by decide, mayFollow_primary⟩
  | identifier =>
    have read := Cursor.reaches_advance closed (by rw [kind]; decide)
    simp only [kind, Table.language, Parse.yields_bind, Parse.yields_advance, Parse.yields_pure] at h
    obtain ⟨_, _, ⟨rfl, rfl⟩, rfl, rfl⟩ := h
    exact ⟨_, .primary, read, .symbol kind, by decide, mayFollow_primary⟩
  | dash | not =>
    have read := Cursor.reaches_advance closed (by rw [kind]; decide)
    simp only [kind, Table.language, Parse.yields_bind, Parse.yields_advance, Parse.yields_pure] at h
    obtain ⟨_, _, ⟨rfl, rfl⟩, operand, d', h, rfl, rfl⟩ := h
    obtain ⟨ts, reached, derived, stops⟩ := sound (by decide) read.2 h
    refine ⟨_, .prefixed, read.trans reached, .unary ?_ derived, by decide, ?_⟩
    · simp [kind, Category.operators]
    · exact fun _ => fits_prefixed_iff.mpr stops
  | openParen =>
    have read := Cursor.reaches_advance closed (by rw [kind]; decide)
    simp only [kind, Table.language, Parse.yields_bind, Parse.yields_expect, Parse.yields_pure] at h
    obtain ⟨_, _, ⟨-, rfl, rfl⟩, inside, d', h, _, _, ⟨close, rfl, rfl⟩, rfl, rfl⟩ := h
    obtain ⟨ts, reached, derived, -⟩ := sound (by decide) read.2 h
    -- The parentheses are among the words, but make no node.
    have last := Cursor.reaches_advance reached.2 (by rw [close]; decide)
    exact ⟨_, .primary, (read.trans reached).trans last, .group kind derived close, by decide,
      mayFollow_primary⟩
  | _ =>
    simp only [kind, Table.language] at h
    exact absurd h Parse.yields_misplaced

/-! ## Continuations -/

theorem arguments_sound (sound : Sound inner) {fuel : Nat} {es : List Expr}
    (closed : Closed c.words) (h : (arguments inner fuel).Yields c es d) :
    ∃ us, c.Reaches us d ∧ DerivesMany us (Expr.bareAll es) := by
  induction fuel generalizing c es with
  | zero => exact absurd h Parse.yields_exhausted
  | succ fuel ih =>
    simp only [arguments, Parse.yields_bind, Parse.yields_kind] at h
    obtain ⟨first, d₁, h₁, _, _, ⟨rfl, rfl⟩, h⟩ := h
    obtain ⟨ts, reached, derived, -⟩ := sound (by decide) closed h₁
    split at h
    -- After a comma the list goes on, and its words follow those of the first argument.
    · rename_i comma
      simp only [Parse.yields_bind, Parse.yields_advance, Parse.yields_pure] at h
      obtain ⟨_, _, ⟨rfl, rfl⟩, others, d₂, h₂, rfl, rfl⟩ := h
      have step := Cursor.reaches_advance reached.2 (by rw [comma]; decide)
      obtain ⟨us, reached', derived'⟩ := ih step.2 h₂
      exact ⟨_, reached.trans (step.trans reached'), .more derived comma derived'⟩
    · obtain ⟨rfl, rfl⟩ := Parse.yields_pure.mp h
      exact ⟨ts, reached, .one derived⟩

/-- Between the parentheses of a call there may be nothing. -/
theorem values_sound (sound : Sound inner) {fuel : Nat} {values : List Expr}
    (closed : Closed c.words) (h : (if c.current.kind = .closeParen then pure [] else
      arguments inner fuel : Parse (List Expr)).Yields c values d) :
    ∃ us, c.Reaches us d ∧ DerivesArguments us (Expr.bareAll values) := by
  split at h
  · obtain ⟨rfl, rfl⟩ := Parse.yields_pure.mp h
    exact ⟨[], Cursor.Reaches.refl closed, .none⟩
  · obtain ⟨us, reached, derived⟩ := arguments_sound sound closed h
    exact ⟨us, reached, .some derived⟩

theorem branches_sound (sound : Sound inner) (closed : Closed c.words)
    (derived : Derives .disjunction ts left.bare) (h : (branches inner left).Yields c e d) :
    ∃ us, c.Reaches us d ∧ Derives .expression (ts ++ us) e.bare ∧ Stops .lowest d.current.kind := by
  simp only [branches, Parse.yields_bind, Parse.yields_expect, Parse.yields_expectFor,
    Parse.yields_pure] at h
  obtain ⟨_, _, ⟨question, rfl, rfl⟩, consequent, d₁, h₁, _, _, ⟨colon, rfl, rfl⟩, alternate, d₂, h₂,
    rfl, rfl⟩ := h
  have step := Cursor.reaches_advance closed (by rw [question]; decide)
  obtain ⟨us, reached, derived₁, -⟩ := sound (by decide) step.2 h₁
  have step' := Cursor.reaches_advance reached.2 (by rw [colon]; decide)
  obtain ⟨vs, reached', derived₂, stops⟩ := sound (by decide) step'.2 h₂
  exact ⟨_, step.trans (reached.trans (step'.trans reached')),
    .conditional derived question derived₁ colon derived₂, stops⟩

theorem rightOperand_sound (sound : Sound inner) {p : Power} (low : p ≤ .unary)
    (closed : Closed c.words) (word : c.current.kind ≠ .eof)
    (h : (rightOperand inner left p).Yields c e d) :
    ∃ us right, c.Reaches (c.current.word :: us) d ∧ Derives p.reads us right ∧
      e.bare = .binary left.bare c.current.word right ∧ Stops p d.current.kind := by
  simp only [rightOperand, Parse.yields_bind, Parse.yields_advance, Parse.yields_pure] at h
  obtain ⟨_, _, ⟨rfl, rfl⟩, right, d₁, h, rfl, rfl⟩ := h
  have step := Cursor.reaches_advance closed word
  obtain ⟨us, reached, derived, stops⟩ := sound low step.2 h
  exact ⟨us, right.bare, step.trans reached, derived, rfl, stops⟩

theorem callOf_yields {fuel : Nat} {name : Symbol} :
    (callOf inner fuel (.symbol name)).Yields c e d ↔ c.current.kind = .openParen ∧
      ∃ values d', (if c.advance.current.kind = .closeParen then pure [] else
          arguments inner fuel : Parse (List Expr)).Yields c.advance values d' ∧
        d'.current.kind = .closeParen ∧ d'.advance = d ∧
        .call name values ⟨name.span.start, d'.current.span.stop⟩ = e := by
  simp only [callOf, Parse.yields_bind, Parse.yields_expect, Parse.yields_kind,
    Parse.yields_ite_bind, Parse.yields_pure]
  constructor
  · rintro ⟨_, _, ⟨opened, rfl, rfl⟩, _, _, ⟨rfl, rfl⟩, values, d', h, _, _, ⟨close, rfl, rfl⟩, rfl, rfl⟩
    exact ⟨opened, values, d', h, close, rfl, rfl⟩
  · rintro ⟨opened, values, d', h, close, rfl, rfl⟩
    exact ⟨_, _, ⟨opened, rfl, rfl⟩, _, _, ⟨rfl, rfl⟩, values, d', h, _, _, ⟨close, rfl, rfl⟩, rfl, rfl⟩

theorem callOf_sound (sound : Sound inner) {fuel : Nat} {k : Category} (closed : Closed c.words)
    (derived : Derives k ts left.bare) (h : (callOf inner fuel left).Yields c e d) :
    ∃ us, c.Reaches us d ∧ Derives .postfixed (ts ++ us) e.bare := by
  cases left with
  | symbol name =>
    have callee := callee_of_derives derived rfl
    obtain ⟨opened, values, d', h', close, rfl, rfl⟩ := callOf_yields.mp h
    have step := Cursor.reaches_advance closed (by rw [opened]; decide)
    obtain ⟨us, reached, derived⟩ := values_sound sound step.2 h'
    have last := Cursor.reaches_advance reached.2 (by rw [close]; decide)
    exact ⟨_, step.trans (reached.trans last), .call callee opened derived close⟩
  | _ => exact absurd h Parse.yields_misplaced

theorem refuseComparison_yields {u : Unit} :
    (refuseComparison Table.language).Yields c u d ↔
      Table.language.power? c.current.kind ≠ some .relational ∧ c = d := by
  simp only [refuseComparison, Parse.yields_bind, Parse.yields_kind]
  constructor
  · rintro ⟨_, _, ⟨rfl, rfl⟩, h⟩
    split at h
    · exact absurd h Parse.yields_misplaced
    · rename_i other
      exact ⟨other, (Parse.yields_pure.mp h).2⟩
  · rintro ⟨other, rfl⟩
    refine ⟨_, _, ⟨rfl, rfl⟩, ?_⟩
    rw [if_neg other]
    exact Parse.yields_pure.mpr ⟨rfl, rfl⟩

/-- What an operator makes of an expression that it may stand behind. -/
theorem continuation_sound (sound : Sound inner) {fuel : Nat} {k m : Category} {form : Continuation}
    (operates : Operates c.current.kind m form) (closed : Closed c.words)
    (derived : Derives k ts left.bare) (follows : MayFollow k c.current.kind)
    (h : (continuation Table.language inner fuel left m.strength form).Yields c e d) :
    ∃ us, c.Reaches us d ∧ Derives m (ts ++ us) e.bare ∧ MayFollow m d.current.kind := by
  -- What stands in front of an operator is an operand of it, by what may follow it.
  have derived_operand (other : form ≠ .call) : Derives m.operand ts left.bare :=
    .climb (follows (operates.ne_openParen other) operates) derived
  have word := operates.ne_eof
  generalize kind_eq : c.current.kind = kind at operates
  cases operates with
  | conditional =>
    have test := derived_operand (by decide)
    obtain ⟨us, reached, derived', stops⟩ := branches_sound sound closed test h
    exact ⟨us, reached, derived', fun _ => fits_expression_iff.mpr stops⟩
  | chain chain operator =>
    have operand := derived_operand (by decide)
    rw [operand_eq_of_chain chain] at operand
    simp only [continuation, if_neg (strength_ne_relational_of_chain chain), Parse.yields_bind,
      Parse.yields_pure] at h
    obtain ⟨whole, d', h, rfl, rfl⟩ := h
    obtain ⟨us, right, reached, derived', bare, stops⟩ :=
      rightOperand_sound sound (strength_le_unary_of_chain chain) closed word h
    rw [reads_strength_of_chain chain] at derived'
    rw [← kind_eq] at operator
    rw [bare]
    exact ⟨_, reached, .chain chain operand operator derived',
      fun _ => (fits_chain_iff chain).mpr stops⟩
  | comparison operator =>
    have operand := derived_operand (by decide)
    simp only [continuation, Category.strength, if_true, Parse.yields_bind, Parse.yields_pure,
      refuseComparison_yields] at h
    obtain ⟨whole, d', h, _, _, ⟨single, rfl⟩, rfl, rfl⟩ := h
    obtain ⟨us, right, reached, derived', bare, stops⟩ :=
      rightOperand_sound sound (by decide) closed word h
    rw [← kind_eq] at operator
    rw [bare]
    exact ⟨_, reached, .comparison operand operator derived',
      fun _ => fits_comparison_iff.mpr ⟨stops, single⟩⟩
  | power operator =>
    have operand := derived_operand (by decide)
    obtain ⟨us, right, reached, derived', bare, stops⟩ :=
      rightOperand_sound sound (by decide) closed word h
    rw [← kind_eq] at operator
    rw [bare]
    exact ⟨_, reached, .power operand operator derived', fun _ => fits_power_iff.mpr stops⟩
  | call =>
    obtain ⟨us, reached, derived'⟩ := callOf_sound sound closed derived h
    exact ⟨us, reached, derived', mayFollow_postfixed⟩

/-! ## Expressions -/

/-- The loop. -/
theorem continueWhile_sound (sound : Sound inner) {p : Power} {count : Nat} {k : Category}
    (closed : Closed c.words) (derived : Derives k ts left.bare) (tight : p.reads ≤ k)
    (follows : MayFollow k c.current.kind)
    (h : (continueWhile Table.language inner p count left).Yields c e d) :
    ∃ us, c.Reaches us d ∧ Derives p.reads (ts ++ us) e.bare ∧ Stops p d.current.kind := by
  -- The expression so far, its words and its category change from round to round.
  induction count generalizing c left ts k with
  | zero => exact absurd h Parse.yields_exhausted
  | succ count ih =>
    simp only [continueWhile, Parse.yields_bind, Parse.yields_kind] at h
    obtain ⟨_, _, ⟨rfl, rfl⟩, h⟩ := h
    have whole : Derives p.reads (ts ++ []) left.bare := by
      rw [List.append_nil]
      exact .climb tight derived
    split at h
    · -- No operator follows.
      rename_i ends
      obtain ⟨rfl, rfl⟩ := Parse.yields_pure.mp h
      refine ⟨[], Cursor.Reaches.refl closed, whole, ?_⟩
      intro m form operates
      rw [operates.continuation?_eq] at ends
      cases ends
    · rename_i own form goes
      obtain ⟨m, operates, rfl⟩ := continuation?_eq_some_iff.mp goes
      split at h
      · -- The operator that follows is too weak.
        rename_i loose
        obtain ⟨rfl, rfl⟩ := Parse.yields_pure.mp h
        refine ⟨[], Cursor.Reaches.refl closed, whole, ?_⟩
        intro m' form' operates'
        have same := operates'.continuation?_eq.symm.trans goes
        obtain ⟨same, -⟩ := Prod.mk.inj (Option.some.inj same)
        rw [same]
        exact loose
      · -- One more operator is taken in, and its category is no looser than what is read.
        rename_i tighter
        obtain ⟨longer, d', h₁, h₂⟩ := Parse.yields_bind.mp h
        obtain ⟨us, reached, derived', follows'⟩ :=
          continuation_sound sound operates closed derived follows h₁
        obtain ⟨vs, reached', derived'', stops⟩ :=
          ih reached.2 derived' (reads_le_of_strength tighter) follows' h₂
        rw [List.append_assoc] at derived''
        exact ⟨_, reached.trans reached', derived'', stops⟩

/-- Every expression that is read is derived. -/
theorem expr_sound (fuel : Nat) : Sound (expr Table.language fuel) := by
  induction fuel with
  | zero =>
    intro p c e d _ _ h
    exact absurd h Parse.yields_exhausted
  | succ fuel ih =>
    intro p c e d low closed h
    simp only [expr, Parse.yields_bind] at h
    obtain ⟨left, d', h₁, h₂⟩ := h
    obtain ⟨ts, k, reached, derived, tight, follows⟩ := opening_sound ih closed h₁
    have tight := Category.le_trans (reads_le_prefixed low) tight
    obtain ⟨us, reached', derived', stops⟩ :=
      continueWhile_sound ih reached.2 derived tight follows h₂
    exact ⟨_, reached.trans reached', derived', stops⟩

end Grammar

end Frontend

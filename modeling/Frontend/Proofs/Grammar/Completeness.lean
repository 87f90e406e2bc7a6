import Frontend.Proofs.Grammar.Soundness

/-!
# What is derived is read

Whatever expression the grammar derives from words, it is read from them, unless the word
behind them goes on with it.

* **`ReadsTo`**, **`LoopsTo`**, **`OpensTo`**, **`ContinuesTo`**: reading leads from one
  cursor to another, with any fuel for the words that are left.
* **`Complete`**: what is shown of every derivation.  Words that stand in front of an
  operator are not an operand by themselves, so this is not about where reading ends, but
  about where the loop takes over: reading the words and whatever follows them is going
  on behind the expression that they derive.
-/

namespace Frontend

namespace Cursor

variable {c : Cursor} {v : Word} {vs : List Word}

theorem current_of_words (h : c.words = v :: vs) : c.current.word = v := (List.cons.inj h).1

theorem kind_of_words (h : c.words = v :: vs) : c.current.kind = v.kind := by
  rw [← current_of_words h, Token.kind_word]

theorem peek_of_words {v' : Word} (h : c.words = v :: v' :: vs) : c.peek = v'.kind := by
  obtain ⟨-, ahead⟩ := List.cons.inj h
  unfold peek
  cases next : c.ahead with
  | nil =>
    rw [next] at ahead
    cases ahead
  | cons token tokens =>
    rw [next] at ahead
    rw [← (List.cons.inj ahead).1, Token.kind_word]

/-- The words behind the current one. -/
theorem advance_of_words (closed : Closed c.words) (h : c.words = v :: vs) (word : v.kind ≠ .eof) :
    c.advance.words = vs ∧ Closed c.advance.words := by
  have current := current_of_words h
  have same := words_eq_cons closed (by rwa [← current] at word)
  rw [h] at same
  obtain ⟨-, rest⟩ := List.cons.inj same
  refine ⟨rest.symm, ?_⟩
  rw [← rest]
  rw [h] at closed
  exact closed.tail word

theorem closed_of_words {d : Cursor} {ts : List Word} (closed : Closed c.words)
    (h : c.words = ts ++ v :: vs) (h' : d.words = v :: vs) : Closed d.words := by
  rw [h] at closed
  rw [h']
  exact closed.of_append (List.cons_ne_nil v vs)

end Cursor

namespace Grammar

open Frontend.Tree (Expr)

/-! ## Reading with enough fuel -/

/-- Reading an expression with a power leads to a cursor. -/
def ReadsTo (p : Power) (c : Cursor) (e : Expr) (d : Cursor) : Prop :=
  ∀ fuel, c.words.length ≤ fuel → (expr Table.language fuel p).Yields c e d

/-- Reading on behind an expression leads to a cursor. -/
def LoopsTo (p : Power) (left : Expr) (c : Cursor) (e : Expr) (d : Cursor) : Prop :=
  ∀ fuel count, c.words.length ≤ fuel → c.words.length ≤ count →
    (continueWhile Table.language (expr Table.language fuel) p count left).Yields c e d

/-- What a word opens leads to a cursor. -/
def OpensTo (c : Cursor) (e : Expr) (d : Cursor) : Prop :=
  ∀ fuel, c.words.length ≤ fuel + 1 → (opening Table.language (expr Table.language fuel)).Yields c e d

/-- One operator behind an expression leads to a cursor. -/
def ContinuesTo (m : Category) (form : Continuation) (left : Expr) (c : Cursor) (e : Expr)
    (d : Cursor) : Prop :=
  ∀ fuel count, c.words.length ≤ fuel → c.words.length ≤ count + 1 →
    (continuation Table.language (expr Table.language fuel) count left m.strength form).Yields c e d

variable {p : Power} {c d : Cursor} {e left : Expr}

theorem ReadsTo.of_opens {d' : Cursor} (opens : OpensTo c left d)
    (shorter : d.words.length < c.words.length) (loops : LoopsTo p left d e d') :
    ReadsTo p c e d' := by
  intro fuel enough
  cases fuel with
  | zero => exact absurd (Nat.lt_of_lt_of_le shorter enough) (Nat.not_lt_zero _)
  | succ fuel =>
    -- The opening takes a word, so what is left of the fuel is enough for the loop.
    simp only [expr, Parse.yields_bind]
    exact ⟨left, d, opens fuel enough, loops fuel (fuel + 1) (by omega) (by omega)⟩

theorem LoopsTo.of_stops (stops : Stops p c.current.kind) : LoopsTo p left c left c := by
  intro fuel count _ enough
  cases count with
  | zero => exact absurd enough (Nat.not_succ_le_zero _)
  | succ count =>
    simp only [continueWhile, Parse.yields_bind, Parse.yields_kind]
    refine ⟨_, _, ⟨rfl, rfl⟩, ?_⟩
    split
    · exact Parse.yields_pure.mpr ⟨rfl, rfl⟩
    · -- An operator that follows is too weak for this operand.
      rename_i own form goes
      obtain ⟨m, operates, rfl⟩ := continuation?_eq_some_iff.mp goes
      rw [if_pos (stops operates)]
      exact Parse.yields_pure.mpr ⟨rfl, rfl⟩

theorem LoopsTo.of_continues {m : Category} {form : Continuation} {longer : Expr} {d' : Cursor}
    (operates : Operates c.current.kind m form) (tighter : ¬ m.strength ≤ p)
    (continues : ContinuesTo m form left c longer d) (shorter : d.words.length < c.words.length)
    (loops : LoopsTo p longer d e d') : LoopsTo p left c e d' := by
  intro fuel count enough enough'
  cases count with
  | zero => exact absurd enough' (Nat.not_succ_le_zero _)
  | succ count =>
    simp only [continueWhile, Parse.yields_bind, Parse.yields_kind]
    refine ⟨_, _, ⟨rfl, rfl⟩, ?_⟩
    rw [operates.continuation?_eq]
    simp only [if_neg tighter, Parse.yields_bind]
    exact ⟨longer, d, continues fuel count enough enough',
      loops fuel count (by omega) (by omega)⟩

/-- No expression begins with a closing parenthesis. -/
theorem ReadsTo.ne_closeParen (h : ReadsTo p c e d) : c.current.kind ≠ .closeParen := by
  intro close
  have read := h (c.words.length + 1) (by omega)
  simp only [expr, opening, Parse.yields_bind, Parse.yields_kind] at read
  obtain ⟨_, _, ⟨_, _, ⟨rfl, rfl⟩, read⟩, -⟩ := read
  simp only [close, Table.language] at read
  exact Parse.yields_misplaced read

/-! ## Complete derivations -/

/-- Reading what derives `e` and whatever follows is going on behind `e`. -/
def Complete (k : Category) (ts : List Word) (e : Bare.Expr) : Prop :=
  ∀ ⦃c w rest⦄, Closed c.words → c.words = ts ++ w :: rest → Fits k w.kind →
    ∃ left d, d.words = w :: rest ∧ left.bare = e ∧
      ∀ ⦃p x d'⦄, p ≤ .unary → p.reads ≤ k → LoopsTo p left d x d' → ReadsTo p c x d'

variable {k m : Category} {ts us : List Word} {a b : Bare.Expr} {w : Word} {rest : List Word}

/-- An operand is read up to where it ends. -/
theorem Complete.reads (h : Complete k ts a) (closed : Closed c.words)
    (words : c.words = ts ++ w :: rest) (fits : Fits k w.kind) (low : p ≤ .unary)
    (tight : p.reads ≤ k) (stops : Stops p w.kind) :
    ∃ x d, d.words = w :: rest ∧ Closed d.words ∧ x.bare = a ∧ ReadsTo p c x d := by
  obtain ⟨left, d, words', bare, reads⟩ := h closed words fits
  have current := Cursor.current_of_words words'
  rw [← current] at stops
  exact ⟨left, d, words', Cursor.closed_of_words closed words words', bare,
    reads low tight (LoopsTo.of_stops stops)⟩

theorem Complete.climb {l : Category} (looser : k ≤ l) (h : Complete l ts a) : Complete k ts a := by
  intro c w rest closed words fits
  obtain ⟨left, d, words', bare, reads⟩ := h closed words (fits.mono looser)
  exact ⟨left, d, words', bare, fun _ _ _ low tight => reads low (Category.le_trans tight looser)⟩

/-- What the first word opens. -/
theorem Complete.of_opens (ne : ts ≠ [])
    (h : ∀ ⦃c w rest⦄, Closed c.words → c.words = ts ++ w :: rest → Fits k w.kind →
      ∃ left d, d.words = w :: rest ∧ left.bare = a ∧ OpensTo c left d) : Complete k ts a := by
  intro c w rest closed words fits
  obtain ⟨left, d, words', bare, opens⟩ := h closed words fits
  refine ⟨left, d, words', bare, fun p x d' _ _ loops => ReadsTo.of_opens opens ?_ loops⟩
  rw [words, words', List.length_append]
  have := List.length_pos_iff.mpr ne
  omega

/-- What an operator makes of its left operand. -/
theorem Complete.of_continues {q : Word} {form : Continuation} (operates : Operates q.kind m form)
    (operand : Complete m.operand ts a)
    (h : ∀ ⦃c w rest left⦄, Closed c.words → c.words = q :: (us ++ w :: rest) → Fits m w.kind →
      left.bare = a → ∃ e d, d.words = w :: rest ∧ e.bare = b ∧ ContinuesTo m form left c e d) :
    Complete m (ts ++ q :: us) b := by
  intro c w rest closed words fits
  rw [List.append_assoc, List.cons_append] at words
  -- The operand is not read by itself: the loop goes on behind it, with the operator.
  obtain ⟨left, d, words', bare, reads⟩ := operand closed words operates.fits
  have closed' := Cursor.closed_of_words closed words words'
  obtain ⟨e, d', words'', bare', continues⟩ := h closed' words' fits bare
  refine ⟨e, d', words'', bare', ?_⟩
  intro p x d'' low tight loops
  refine reads low (Category.le_trans tight (le_operand m)) ?_
  have current := Cursor.current_of_words words'
  rw [← current] at operates
  refine LoopsTo.of_continues operates
    (not_strength_le_of_reads low tight operates.ne_prefixed) continues ?_ loops
  rw [words', words'']
  simp only [List.length_cons, List.length_append]
  omega

/-! ## Openings -/

theorem complete_number {v : Word} {value : Float} (kind : v.kind = .number)
    (reads : Number.ofText? v.text = some value) : Complete .primary [v] (.number value) := by
  refine Complete.of_opens (List.cons_ne_nil v []) fun c w rest closed words _ => ?_
  obtain ⟨words', -⟩ := Cursor.advance_of_words closed words (by rw [kind]; decide)
  obtain rfl := Cursor.current_of_words words
  refine ⟨.number value c.current.span, c.advance, words', rfl, fun fuel _ => ?_⟩
  simp only [opening, Parse.yields_bind, Parse.yields_kind]
  refine ⟨_, _, ⟨rfl, rfl⟩, ?_⟩
  rw [show c.current.kind = .number from kind]
  simp only [Table.language, Parse.yields_bind, Parse.yields_advance]
  refine ⟨_, _, ⟨rfl, rfl⟩, ?_⟩
  rw [show Number.ofText? c.current.text = some value from reads]
  exact Parse.yields_pure.mpr ⟨rfl, rfl⟩

theorem complete_boolean {v : Word} {value : Bool}
    (kind : v.kind = if value then .trueWord else .falseWord) :
    Complete .primary [v] (.boolean value) := by
  refine Complete.of_opens (List.cons_ne_nil v []) fun c w rest closed words _ => ?_
  obtain ⟨words', -⟩ :=
    Cursor.advance_of_words closed words (by rw [kind]; cases value <;> decide)
  obtain rfl := Cursor.current_of_words words
  refine ⟨.boolean value c.current.span, c.advance, words', rfl, fun fuel _ => ?_⟩
  simp only [opening, Parse.yields_bind, Parse.yields_kind]
  refine ⟨_, _, ⟨rfl, rfl⟩, ?_⟩
  -- The rule goes by the word alone, and so does the value that it makes.
  have kind : c.current.kind = if value then .trueWord else .falseWord := kind
  have opens : Table.language.opening? c.current.kind = some .boolean := by
    rw [kind]
    cases value <;> rfl
  rw [opens]
  simp only [Parse.yields_bind, Parse.yields_advance]
  refine ⟨_, _, ⟨rfl, rfl⟩, Parse.yields_pure.mpr ⟨?_, rfl⟩⟩
  rw [kind]
  cases value <;> rfl

theorem complete_symbol {v : Word} (kind : v.kind = .identifier) :
    Complete .primary [v] (.symbol v.text) := by
  refine Complete.of_opens (List.cons_ne_nil v []) fun c w rest closed words _ => ?_
  obtain ⟨words', -⟩ := Cursor.advance_of_words closed words (by rw [kind]; decide)
  obtain rfl := Cursor.current_of_words words
  refine ⟨.symbol ⟨c.current.text, c.current.span⟩, c.advance, words', rfl, fun fuel _ => ?_⟩
  simp only [opening, Parse.yields_bind, Parse.yields_kind]
  refine ⟨_, _, ⟨rfl, rfl⟩, ?_⟩
  rw [show c.current.kind = .identifier from kind]
  simp only [Table.language, Parse.yields_bind, Parse.yields_advance]
  exact ⟨_, _, ⟨rfl, rfl⟩, Parse.yields_pure.mpr ⟨rfl, rfl⟩⟩

/-- Reading ends in front of a token that is no operator. -/
theorem fits_of_continuation? {kind : Kind} (h : Table.language.continuation? kind = none) :
    Fits k kind := by
  intro m form operates
  rw [operates.continuation?_eq] at h
  cases h

theorem stops_of_continuation? {kind : Kind} (h : Table.language.continuation? kind = none) :
    Stops p kind := by
  intro m form operates
  rw [operates.continuation?_eq] at h
  cases h

/-- A whole expression is read up to a token that is no operator. -/
theorem Complete.reads_whole (h : Complete .expression ts a) (closed : Closed c.words)
    (words : c.words = ts ++ w :: rest) (ends : Table.language.continuation? w.kind = none) :
    ∃ x d, d.words = w :: rest ∧ Closed d.words ∧ x.bare = a ∧ ReadsTo .lowest c x d :=
  h.reads closed words (fits_of_continuation? ends) (by decide) (by decide)
    (stops_of_continuation? ends)

theorem complete_group {l r : Word} (opened : l.kind = .openParen)
    (inner : Complete .expression ts a) (close : r.kind = .closeParen) :
    Complete .primary (l :: (ts ++ [r])) a := by
  refine Complete.of_opens (List.cons_ne_nil _ _) fun c w rest closed words _ => ?_
  rw [List.cons_append, List.append_assoc, List.singleton_append] at words
  obtain ⟨words₁, closed₁⟩ := Cursor.advance_of_words closed words (by rw [opened]; decide)
  obtain ⟨x, d, words₂, closed₂, bare, reads⟩ :=
    inner.reads_whole closed₁ words₁ (by rw [close]; rfl)
  -- The parenthesis behind the expression is no end of the text, so that the cursor moves past it.
  obtain ⟨words₃, -⟩ := Cursor.advance_of_words closed₂ words₂ (by rw [close]; decide)
  refine ⟨x, d.advance, words₃, bare, fun fuel enough => ?_⟩
  have opened' := (Cursor.kind_of_words words).trans opened
  have close' := (Cursor.kind_of_words words₂).trans close
  -- What is left is to run the reading over the three parts.
  simp only [opening, Parse.yields_bind, Parse.yields_kind]
  refine ⟨_, _, ⟨rfl, rfl⟩, ?_⟩
  simp only [opened', Table.language, Parse.yields_bind, Parse.yields_expect, Parse.yields_pure]
  refine ⟨_, _, ⟨trivial, rfl, rfl⟩, x, d, reads fuel ?_, _, _, ⟨close', rfl, rfl⟩, rfl, rfl⟩
  rw [words₁]
  rw [words] at enough
  exact Nat.le_of_succ_le_succ enough

theorem complete_unary {v : Word} (operator : v.kind ∈ Category.prefixed.operators)
    (operand : Complete .prefixed ts a) : Complete .prefixed (v :: ts) (.unary v a) := by
  refine Complete.of_opens (List.cons_ne_nil _ _) fun c w rest closed words fits => ?_
  -- Each sign in front of an operand opens the same rule.
  have opens : Table.language.opening? v.kind = some .unary := by
    revert operator
    cases v.kind <;> decide
  rw [List.cons_append] at words
  obtain ⟨words₁, closed₁⟩ := Cursor.advance_of_words closed words (openings_kind opens)
  obtain ⟨x, d, words₂, -, rfl, reads⟩ := operand.reads closed₁ words₁ fits (p := .unary)
    (by decide) (by decide) (fits_prefixed_iff.mp fits)
  obtain rfl := Cursor.current_of_words words
  -- The operand has been read up to where the whole expression ends.
  refine ⟨.unary c.current x ⟨c.current.span.start, x.span.stop⟩, d, words₂, rfl, ?_⟩
  intro fuel enough
  simp only [opening, Parse.yields_bind, Parse.yields_kind]
  refine ⟨_, _, ⟨rfl, rfl⟩, ?_⟩
  rw [show Table.language.opening? c.current.kind = some .unary from opens]
  simp only [Parse.yields_bind, Parse.yields_advance, Parse.yields_pure]
  refine ⟨_, _, ⟨rfl, rfl⟩, x, d, reads fuel ?_, rfl, rfl⟩
  rw [words₁]
  rw [words] at enough
  exact Nat.le_of_succ_le_succ enough

/-- What can be called is a name in parentheses. -/
theorem complete_callee {f : String} (h : Callee ts f) : Complete .primary ts (.symbol f) := by
  induction h with
  | name h => exact complete_symbol h
  | group opened _ close ih => exact complete_group opened (ih.climb (by decide)) close

/-! ## Continuations -/

/-- An operand behind an operator is read up to where it ends. -/
theorem rightOperand_to {l : Category} {q : Word} (left : Expr) (right : Complete l us b)
    (closed : Closed c.words) (words : c.words = q :: (us ++ w :: rest)) (word : q.kind ≠ .eof)
    (fits : Fits l w.kind) (low : p ≤ .unary) (tight : p.reads ≤ l) (stops : Stops p w.kind) :
    ∃ e d, d.words = w :: rest ∧ e.bare = .binary left.bare q b ∧
      ∀ fuel, c.words.length ≤ fuel → (rightOperand (expr Table.language fuel) left p).Yields c e d := by
  obtain ⟨words₁, closed₁⟩ := Cursor.advance_of_words closed words word
  obtain ⟨x, d, words₂, -, rfl, reads⟩ := right.reads closed₁ words₁ fits low tight stops
  obtain rfl := Cursor.current_of_words words
  refine ⟨.binary left c.current x ⟨left.span.start, x.span.stop⟩, d, words₂, rfl, ?_⟩
  intro fuel enough
  simp only [rightOperand, Parse.yields_bind, Parse.yields_advance, Parse.yields_pure]
  refine ⟨_, _, ⟨rfl, rfl⟩, x, d, reads fuel ?_, rfl, rfl⟩
  rw [words₁]
  rw [words] at enough
  exact Nat.le_of_succ_le enough

theorem complete_chain {l : Category} {q : Word} (chain : k.chain? = some l)
    (operand : Complete k ts a) (operator : q.kind ∈ k.operators) (right : Complete l us b) :
    Complete k (ts ++ q :: us) (.binary a q b) := by
  have operates : Operates q.kind k .binary := .chain chain operator
  rw [← operand_eq_of_chain chain] at operand
  refine Complete.of_continues operates operand fun c w rest left closed words fits bare => ?_
  have tight : k.strength.reads ≤ l := by
    rw [reads_strength_of_chain chain]
    exact Category.le_refl l
  obtain ⟨e, d, words', bare', yields⟩ := rightOperand_to left right closed words operates.ne_eof
    (fits.mono (le_of_chain chain)) (strength_le_unary_of_chain chain) tight
    ((fits_chain_iff chain).mp fits)
  refine ⟨e, d, words', by rw [bare', bare], fun fuel count enough _ => ?_⟩
  simp only [continuation, if_neg (strength_ne_relational_of_chain chain), Parse.yields_bind]
  exact ⟨e, d, yields fuel enough, Parse.yields_pure.mpr ⟨rfl, rfl⟩⟩

theorem complete_comparison {q : Word} (operand : Complete .sum ts a)
    (operator : q.kind ∈ Category.comparison.operators) (right : Complete .sum us b) :
    Complete .comparison (ts ++ q :: us) (.binary a q b) := by
  have operates : Operates q.kind .comparison .binary := .comparison operator
  refine Complete.of_continues operates operand fun c w rest left closed words fits bare => ?_
  obtain ⟨stops, single⟩ := fits_comparison_iff.mp fits
  obtain ⟨e, d, words', bare', yields⟩ := rightOperand_to left right closed words operates.ne_eof
    (fits.mono (by decide)) (by decide) (Category.le_refl _) stops
  refine ⟨e, d, words', by rw [bare', bare], fun fuel count enough _ => ?_⟩
  rw [← Cursor.kind_of_words words'] at single
  simp only [continuation, Category.strength, if_true, Parse.yields_bind]
  exact ⟨e, d, yields fuel enough, (), d, refuseComparison_yields.mpr ⟨single, rfl⟩,
    Parse.yields_pure.mpr ⟨rfl, rfl⟩⟩

theorem complete_power {q : Word} (operand : Complete .prefixed ts a)
    (operator : q.kind ∈ Category.power.operators) (right : Complete .power us b) :
    Complete .power (ts ++ q :: us) (.binary a q b) := by
  have operates : Operates q.kind .power .exponent := .power operator
  refine Complete.of_continues operates operand fun c w rest left closed words fits bare => ?_
  obtain ⟨e, d, words', bare', yields⟩ := rightOperand_to left right closed words operates.ne_eof
    fits (by decide) (Category.le_refl _) (fits_power_iff.mp fits)
  exact ⟨e, d, words', by rw [bare', bare], fun fuel count enough _ => yields fuel enough⟩

theorem complete_conditional {q r : Word} {vs : List Word} {t : Bare.Expr}
    (test : Complete .disjunction ts t) (question : q.kind = .question)
    (consequent : Complete .expression us a) (colon : r.kind = .colon)
    (alternate : Complete .expression vs b) :
    Complete .expression (ts ++ q :: (us ++ r :: vs)) (.conditional t a b) := by
  have operates : Operates q.kind .expression .conditional := by
    rw [question]
    exact .conditional
  refine Complete.of_continues operates test fun c w rest left closed words fits bare => ?_
  rw [List.append_assoc, List.cons_append] at words
  obtain ⟨words₁, closed₁⟩ := Cursor.advance_of_words closed words operates.ne_eof
  obtain ⟨x, d, words₂, closed₂, rfl, reads⟩ :=
    consequent.reads_whole closed₁ words₁ (by rw [colon]; rfl)
  obtain ⟨words₃, closed₃⟩ := Cursor.advance_of_words closed₂ words₂ (by rw [colon]; decide)
  -- The alternate ends where the conditional does, which may be in front of an operator.
  obtain ⟨y, d', words₄, -, rfl, reads'⟩ := alternate.reads closed₃ words₃ fits (p := .lowest)
    (by decide) (by decide) (fits_expression_iff.mp fits)
  refine ⟨.conditional left x y ⟨left.span.start, y.span.stop⟩, d', words₄, by rw [← bare]; rfl, ?_⟩
  intro fuel count enough _
  have question' := (Cursor.kind_of_words words).trans question
  have colon' := (Cursor.kind_of_words words₂).trans colon
  simp only [continuation, branches, Parse.yields_bind, Parse.yields_expect,
    Parse.yields_expectFor, Parse.yields_pure]
  refine ⟨_, _, ⟨question', rfl, rfl⟩, x, d, reads fuel ?_, _, _, ⟨colon', rfl, rfl⟩, y, d',
    reads' fuel ?_, rfl, rfl⟩
  · rw [words₁]
    rw [words] at enough
    exact Nat.le_of_succ_le enough
  · rw [words₃]
    rw [words] at enough
    simp only [List.length_cons, List.length_append] at enough ⊢
    omega

/-- Arguments are read up to the closing parenthesis. -/
def CompleteMany (ts : List Word) (es : List Bare.Expr) : Prop :=
  ∀ ⦃c w rest⦄, Closed c.words → c.words = ts ++ w :: rest → w.kind = .closeParen →
    c.current.kind ≠ .closeParen ∧ ∃ xs d, d.words = w :: rest ∧ Expr.bareAll xs = es ∧
      ∀ fuel count, c.words.length ≤ fuel → c.words.length ≤ count →
        (arguments (expr Table.language fuel) count).Yields c xs d

theorem complete_one (h : Complete .expression ts a) : CompleteMany ts [a] := by
  intro c w rest closed words close
  obtain ⟨x, d, words', -, rfl, reads⟩ := h.reads_whole closed words (by rw [close]; rfl)
  refine ⟨reads.ne_closeParen, [x], d, words', rfl, fun fuel count enough enough' => ?_⟩
  cases count with
  | zero => exact absurd enough' (Nat.not_succ_le_zero _)
  | succ count =>
    simp only [arguments, Parse.yields_bind, Parse.yields_kind]
    refine ⟨x, d, reads fuel enough, _, _, ⟨rfl, rfl⟩, ?_⟩
    rw [Cursor.kind_of_words words', close, if_neg (by decide)]
    exact Parse.yields_pure.mpr ⟨rfl, rfl⟩

theorem complete_more {q : Word} {es : List Bare.Expr} (first : Complete .expression ts a)
    (comma : q.kind = .comma) (others : CompleteMany us es) :
    CompleteMany (ts ++ q :: us) (a :: es) := by
  intro c w rest closed words close
  rw [List.append_assoc, List.cons_append] at words
  obtain ⟨x, d, words₁, closed₁, rfl, reads⟩ :=
    first.reads_whole closed words (by rw [comma]; rfl)
  obtain ⟨words₂, closed₂⟩ := Cursor.advance_of_words closed₁ words₁ (by rw [comma]; decide)
  -- The others begin behind the comma, with fewer words left.
  obtain ⟨-, xs, d', words₃, rfl, reads'⟩ := others closed₂ words₂ close
  refine ⟨reads.ne_closeParen, x :: xs, d', words₃, rfl, fun fuel count enough enough' => ?_⟩
  have shorter : d.advance.words.length < c.words.length := by
    rw [words, words₂]
    simp only [List.length_cons, List.length_append]
    omega
  cases count with
  | zero => exact absurd enough' (Nat.not_succ_le_zero _)
  | succ count =>
    simp only [arguments, Parse.yields_bind, Parse.yields_kind]
    refine ⟨x, d, reads fuel enough, _, _, ⟨rfl, rfl⟩, ?_⟩
    rw [if_pos ((Cursor.kind_of_words words₁).trans comma)]
    simp only [Parse.yields_bind, Parse.yields_advance, Parse.yields_pure]
    exact ⟨_, _, ⟨rfl, rfl⟩, xs, d', reads' fuel count (by omega) (by omega), rfl, rfl⟩

/-- Between the parentheses of a call there may be nothing. -/
theorem values_complete {r : Word} {es : List Bare.Expr}
    (values : us = [] ∧ es = [] ∨ CompleteMany us es) (closed : Closed c.words)
    (words : c.words = us ++ r :: rest) (close : r.kind = .closeParen) :
    ∃ xs d, d.words = r :: rest ∧ Closed d.words ∧ Expr.bareAll xs = es ∧
      ∀ fuel count, c.words.length ≤ fuel → c.words.length ≤ count →
        (if c.current.kind = .closeParen then pure [] else
          arguments (expr Table.language fuel) count : Parse (List Expr)).Yields c xs d := by
  -- Without values the closing parenthesis comes at once; with values it cannot.
  rcases values with ⟨rfl, rfl⟩ | values
  · refine ⟨[], c, words, closed, rfl, fun fuel count _ _ => ?_⟩
    rw [if_pos ((Cursor.kind_of_words words).trans close)]
    exact Parse.yields_pure.mpr ⟨rfl, rfl⟩
  · obtain ⟨ne, xs, d, words', rfl, yields⟩ := values closed words close
    refine ⟨xs, d, words', Cursor.closed_of_words closed words words', rfl, ?_⟩
    intro fuel count enough enough'
    rw [if_neg ne]
    exact yields fuel count enough enough'

theorem complete_call {l r : Word} {f : String} {es : List Bare.Expr} (callee : Callee ts f)
    (opened : l.kind = .openParen) (values : us = [] ∧ es = [] ∨ CompleteMany us es)
    (close : r.kind = .closeParen) : Complete .postfixed (ts ++ l :: (us ++ [r])) (.call f es) := by
  have operates : Operates l.kind .postfixed .call := by
    rw [opened]
    exact .call
  refine Complete.of_continues operates (complete_callee callee)
    fun c w rest left closed words _ bare => ?_
  cases left with
  | symbol name =>
    -- Nothing but a name has the bare tree of a name.
    cases bare
    rw [List.append_assoc, List.singleton_append] at words
    obtain ⟨words₁, closed₁⟩ := Cursor.advance_of_words closed words operates.ne_eof
    have opened' := (Cursor.kind_of_words words).trans opened
    obtain ⟨xs, d, words₂, closed₂, rfl, yields⟩ := values_complete values closed₁ words₁ close
    obtain ⟨words₃, -⟩ := Cursor.advance_of_words closed₂ words₂ (by rw [close]; decide)
    refine ⟨.call name xs ⟨name.span.start, d.current.span.stop⟩, d.advance, words₃, rfl, ?_⟩
    intro fuel count enough enough'
    have close' := (Cursor.kind_of_words words₂).trans close
    refine callOf_yields.mpr ⟨opened', xs, d, yields fuel count ?_ ?_, close', rfl, rfl⟩
    · rw [words₁]
      rw [words] at enough
      exact Nat.le_of_succ_le enough
    · rw [words₁]
      rw [words] at enough'
      exact Nat.le_of_succ_le_succ enough'
  | number | boolean | binary | unary | conditional | call => cases bare

/-! ## All derivations -/

mutual

/-- Every expression that is derived is read. -/
theorem complete_of_derives : {k : Category} → {ts : List Word} → {e : Bare.Expr} →
    Derives k ts e → Complete k ts e
  -- Each rule of the grammar has its lemma; the induction is on the derivation.
  | _, _, _, .climb looser h => (complete_of_derives h).climb looser
  | _, _, _, .conditional test question consequent colon alternate =>
    complete_conditional (complete_of_derives test) question (complete_of_derives consequent) colon
      (complete_of_derives alternate)
  | _, _, _, .chain chain left operator right =>
    complete_chain chain (complete_of_derives left) operator (complete_of_derives right)
  | _, _, _, .comparison left operator right =>
    complete_comparison (complete_of_derives left) operator (complete_of_derives right)
  | _, _, _, .power base operator exponent =>
    complete_power (complete_of_derives base) operator (complete_of_derives exponent)
  | _, _, _, .unary operator operand => complete_unary operator (complete_of_derives operand)
  | _, _, _, .call callee opened arguments close =>
    complete_call callee opened (complete_of_arguments arguments) close
  | _, _, _, .number kind reads => complete_number kind reads
  | _, _, _, .holds kind => complete_boolean kind
  | _, _, _, .fails kind => complete_boolean kind
  | _, _, _, .symbol kind => complete_symbol kind
  | _, _, _, .group opened inner close => complete_group opened (complete_of_derives inner) close

theorem complete_of_arguments : {us : List Word} → {es : List Bare.Expr} →
    DerivesArguments us es → us = [] ∧ es = [] ∨ CompleteMany us es
  | _, _, .none => Or.inl ⟨rfl, rfl⟩
  | _, _, .some h => Or.inr (complete_of_many h)

theorem complete_of_many : {us : List Word} → {es : List Bare.Expr} →
    DerivesMany us es → CompleteMany us es
  | _, _, .one h => complete_one (complete_of_derives h)
  | _, _, .more first comma others =>
    complete_more (complete_of_derives first) comma (complete_of_many others)

end

/-- Every expression is read up to a token that no expression goes on with. -/
theorem expr_complete {ts : List Word} {e : Bare.Expr} (h : Derives .expression ts e)
    (closed : Closed c.words) (words : c.words = ts ++ w :: rest)
    (ends : Table.language.continuation? w.kind = none) :
    ∃ x d, d.words = w :: rest ∧ Closed d.words ∧ x.bare = e ∧ ReadsTo .lowest c x d :=
  (complete_of_derives h).reads_whole closed words ends

end Grammar

end Frontend

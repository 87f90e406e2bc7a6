import Frontend.Grammar.Statement
import Frontend.Proofs.Grammar.Completeness

/-!
# Statements and programs

What is read of statements is what the grammar derives, in both directions, and so is
what is read of a whole list of tokens: `ofTokens_eq_ok_iff`.

A statement ends with a word of its own, so that nothing depends on the word behind it.
-/

namespace Frontend

namespace Grammar

open Frontend.Tree (Expr Stmt)

variable {c d : Cursor}

/-! ## Steps -/

@[simp] theorem identifier_yields {context : String} {s : Symbol} :
    (identifier context).Yields c s d ↔
      c.current.kind = .identifier ∧ ⟨c.current.text, c.current.span⟩ = s ∧ c.advance = d := by
  simp only [identifier, Parse.yields_bind, Parse.yields_expectFor, Parse.yields_pure]
  constructor
  · rintro ⟨_, _, ⟨kind, rfl, rfl⟩, rfl, rfl⟩
    exact ⟨kind, rfl, rfl⟩
  · rintro ⟨kind, rfl, rfl⟩
    exact ⟨_, _, ⟨kind, rfl, rfl⟩, rfl, rfl⟩

@[simp] theorem spanFrom_yields {start : Position} {s : Span} :
    (spanFrom start).Yields c s d ↔ ⟨start, c.previousStop⟩ = s ∧ c = d := by
  simp only [spanFrom, Parse.yields_bind, Parse.yields_get, Parse.yields_pure]
  constructor
  · rintro ⟨_, _, ⟨rfl, rfl⟩, rfl, rfl⟩
    exact ⟨rfl, rfl⟩
  · rintro ⟨rfl, rfl⟩
    exact ⟨_, _, ⟨rfl, rfl⟩, rfl, rfl⟩

/-! ## What is read is derived -/

theorem parameters_sound {fuel : Nat} {names : List Symbol} (closed : Closed c.words)
    (h : (parameters fuel).Yields c names d) :
    ∃ ts, c.Reaches ts d ∧ DerivesNames ts (names.map Symbol.name) := by
  induction fuel generalizing c names with
  | zero => exact absurd h Parse.yields_exhausted
  | succ fuel ih =>
    simp only [parameters, Parse.yields_bind, identifier_yields, Parse.yields_kind] at h
    obtain ⟨_, _, ⟨kind, rfl, rfl⟩, _, _, ⟨rfl, rfl⟩, h⟩ := h
    have step := Cursor.reaches_advance closed (by rw [kind]; decide)
    split at h
    -- The comma takes the list on; without one it ends with this name.
    · rename_i comma
      simp only [Parse.yields_bind, Parse.yields_advance, Parse.yields_pure] at h
      obtain ⟨_, _, ⟨rfl, rfl⟩, others, d', h, rfl, rfl⟩ := h
      have step' := Cursor.reaches_advance step.2 (by rw [comma]; decide)
      obtain ⟨ts, reached, derived⟩ := ih step'.2 h
      exact ⟨_, step.trans (step'.trans reached), .more kind comma derived⟩
    · obtain ⟨rfl, rfl⟩ := Parse.yields_pure.mp h
      exact ⟨_, step, .one kind⟩

/-- Between the parentheses of a function there may be nothing. -/
theorem optionalParameters_sound {fuel : Nat} {names : List Symbol} (closed : Closed c.words)
    (h : (if c.current.kind = .closeParen then pure [] else
      parameters fuel : Parse (List Symbol)).Yields c names d) :
    ∃ ts, c.Reaches ts d ∧ DerivesParameters ts (names.map Symbol.name) := by
  split at h
  · obtain ⟨rfl, rfl⟩ := Parse.yields_pure.mp h
    exact ⟨[], Cursor.Reaches.refl closed, .none⟩
  · obtain ⟨ts, reached, derived⟩ := parameters_sound closed h
    exact ⟨ts, reached, .some derived⟩

theorem assigned_sound {fuel : Nat} {e : Expr} (closed : Closed c.words)
    (h : (assigned Table.language fuel).Yields c e d) :
    ∃ ts, c.Reaches ts d ∧ DerivesAssigned ts e.bare := by
  simp only [assigned, Parse.yields_bind, Parse.yields_expect, Parse.yields_pure] at h
  obtain ⟨_, _, ⟨equals, rfl, rfl⟩, value, d', h, _, _, ⟨semicolon, rfl, rfl⟩, rfl, rfl⟩ := h
  have step := Cursor.reaches_advance closed (by rw [equals]; decide)
  obtain ⟨ts, reached, derived, -⟩ := expr_sound fuel (by decide) step.2 h
  have last := Cursor.reaches_advance reached.2 (by rw [semicolon]; decide)
  exact ⟨_, step.trans (reached.trans last), .assigned equals derived semicolon⟩

/-- What is shown of a way to read statements. -/
def SoundStatement (read : Parse Stmt) : Prop :=
  ∀ ⦃c s d⦄, Closed c.words → read.Yields c s d →
    ∃ ts, c.Reaches ts d ∧ DerivesStatement ts s.bare

theorem blockBody_sound {read : Parse Stmt} (sound : SoundStatement read) {fuel : Nat}
    {ss : List Stmt} (closed : Closed c.words) (h : (blockBody read fuel).Yields c ss d) :
    ∃ ts, c.Reaches ts d ∧ DerivesStatements ts (Stmt.bareAll ss) := by
  induction fuel generalizing c ss with
  | zero => exact absurd h Parse.yields_exhausted
  | succ fuel ih =>
    simp only [blockBody, Parse.yields_bind, Parse.yields_kind] at h
    obtain ⟨_, _, ⟨rfl, rfl⟩, h⟩ := h
    split at h
    · obtain ⟨rfl, rfl⟩ := Parse.yields_pure.mp h
      exact ⟨[], Cursor.Reaches.refl closed, .nil⟩
    -- The end of the text inside a block is refused, so nothing was read here.
    · exact absurd h Parse.yields_misplaced
    · simp only [Parse.yields_bind, Parse.yields_pure] at h
      obtain ⟨first, d₁, h₁, others, d₂, h₂, rfl, rfl⟩ := h
      obtain ⟨ts, reached, derived⟩ := sound closed h₁
      obtain ⟨us, reached', derived'⟩ := ih reached.2 h₂
      exact ⟨_, reached.trans reached', .cons derived derived'⟩

theorem declaration_sound {fuel : Nat} {s : Stmt} (closed : Closed c.words)
    (word : c.current.kind = .letWord) (h : (declaration Table.language fuel).Yields c s d) :
    ∃ ts, c.Reaches ts d ∧ DerivesStatement ts s.bare := by
  simp only [declaration, Parse.yields_bind, Parse.yields_advance, identifier_yields,
    spanFrom_yields, Parse.yields_pure] at h
  obtain ⟨_, _, ⟨rfl, rfl⟩, _, _, ⟨kind, rfl, rfl⟩, value, d', h, _, _, ⟨rfl, rfl⟩, rfl, rfl⟩ := h
  have step := Cursor.reaches_advance closed (by rw [word]; decide)
  have step' := Cursor.reaches_advance step.2 (by rw [kind]; decide)
  obtain ⟨ts, reached, derived⟩ := assigned_sound step'.2 h
  exact ⟨_, step.trans (step'.trans reached), .declaration word kind derived⟩

theorem function_sound {fuel : Nat} {s : Stmt} (closed : Closed c.words)
    (word : c.current.kind = .functionWord) (h : (function Table.language fuel).Yields c s d) :
    ∃ ts, c.Reaches ts d ∧ DerivesStatement ts s.bare := by
  simp only [function, Parse.yields_bind, Parse.yields_advance, identifier_yields,
    Parse.yields_expect, Parse.yields_kind, Parse.yields_ite_bind, spanFrom_yields,
    Parse.yields_pure] at h
  -- The cursors between the parts, named in the order the definition reads them.
  obtain ⟨_, _, ⟨rfl, rfl⟩, _, _, ⟨kind, rfl, rfl⟩, _, _, ⟨opened, rfl, rfl⟩, _, _, ⟨rfl, rfl⟩, names,
    d₁, h₁, _, _, ⟨close, rfl, rfl⟩, body, d₂, h₂, _, _, ⟨rfl, rfl⟩, rfl, rfl⟩ := h
  have step := Cursor.reaches_advance closed (by rw [word]; decide)
  have step₁ := Cursor.reaches_advance step.2 (by rw [kind]; decide)
  have step₂ := Cursor.reaches_advance step₁.2 (by rw [opened]; decide)
  obtain ⟨ts, reached, derived⟩ := optionalParameters_sound step₂.2 h₁
  have step₃ := Cursor.reaches_advance reached.2 (by rw [close]; decide)
  obtain ⟨us, reached', derived'⟩ := assigned_sound step₃.2 h₂
  exact ⟨_, step.trans (step₁.trans (step₂.trans (reached.trans (step₃.trans reached')))),
    .function word kind opened derived close derived'⟩

theorem assignment_sound {fuel : Nat} {s : Stmt} (closed : Closed c.words)
    (h : (assignment Table.language fuel).Yields c s d) :
    ∃ ts, c.Reaches ts d ∧ DerivesStatement ts s.bare := by
  simp only [assignment, Parse.yields_bind, identifier_yields, spanFrom_yields,
    Parse.yields_pure] at h
  obtain ⟨_, _, ⟨kind, rfl, rfl⟩, value, d', h, _, _, ⟨rfl, rfl⟩, rfl, rfl⟩ := h
  have step := Cursor.reaches_advance closed (by rw [kind]; decide)
  obtain ⟨ts, reached, derived⟩ := assigned_sound step.2 h
  exact ⟨_, step.trans reached, .assignment kind derived⟩

theorem print_sound {fuel : Nat} {s : Stmt} (closed : Closed c.words)
    (word : c.current.kind = .printWord) (h : (print Table.language fuel).Yields c s d) :
    ∃ ts, c.Reaches ts d ∧ DerivesStatement ts s.bare := by
  simp only [print, Parse.yields_bind, Parse.yields_advance, Parse.yields_expect, spanFrom_yields,
    Parse.yields_pure] at h
  obtain ⟨_, _, ⟨rfl, rfl⟩, argument, d', h, _, _, ⟨semicolon, rfl, rfl⟩, _, _, ⟨rfl, rfl⟩, rfl, rfl⟩ := h
  have step := Cursor.reaches_advance closed (by rw [word]; decide)
  obtain ⟨ts, reached, derived, -⟩ := expr_sound fuel (by decide) step.2 h
  have last := Cursor.reaches_advance reached.2 (by rw [semicolon]; decide)
  exact ⟨_, step.trans (reached.trans last), .print word derived semicolon⟩

theorem loop_sound {read : Parse Stmt} (sound : SoundStatement read) {fuel : Nat} {s : Stmt}
    (closed : Closed c.words) (word : c.current.kind = .whileWord)
    (h : (loop Table.language read fuel).Yields c s d) :
    ∃ ts, c.Reaches ts d ∧ DerivesStatement ts s.bare := by
  simp only [loop, blockOf, Parse.yields_bind, Parse.yields_advance, Parse.yields_expect,
    Parse.yields_pure] at h
  obtain ⟨_, _, ⟨rfl, rfl⟩, test, d₁, h₁, _, _, ⟨_, _, ⟨opened, rfl, rfl⟩, body, d₂, h₂, _, _,
    ⟨close, rfl, rfl⟩, rfl, rfl⟩, rfl, rfl⟩ := h
  have step := Cursor.reaches_advance closed (by rw [word]; decide)
  obtain ⟨ts, reached, derived, -⟩ := expr_sound fuel (by decide) step.2 h₁
  have step' := Cursor.reaches_advance reached.2 (by rw [opened]; decide)
  obtain ⟨us, reached', derived'⟩ := blockBody_sound sound step'.2 h₂
  have last := Cursor.reaches_advance reached'.2 (by rw [close]; decide)
  exact ⟨_, step.trans (reached.trans (step'.trans (reached'.trans last))),
    .loop word derived opened derived' close⟩

/-- Every statement that is read is derived. -/
theorem statement_sound (fuel : Nat) : SoundStatement (statement Table.language fuel) := by
  induction fuel with
  | zero =>
    intro c s d _ h
    exact absurd h Parse.yields_exhausted
  | succ fuel ih =>
    intro c s d closed h
    simp only [statement, Parse.yields_bind, Parse.yields_get] at h
    obtain ⟨_, _, ⟨rfl, rfl⟩, h⟩ := h
    cases kind : c.current.kind with
    | letWord =>
      simp only [kind, Table.language] at h
      exact declaration_sound closed kind h
    | functionWord =>
      simp only [kind, Table.language] at h
      exact function_sound closed kind h
    | printWord =>
      simp only [kind, Table.language] at h
      exact print_sound closed kind h
    | whileWord =>
      simp only [kind, Table.language] at h
      exact loop_sound ih closed kind h
    | _ =>
      -- No other word opens a statement, but a name with an equals sign behind it does.
      simp only [kind, Table.language] at h
      split at h
      · exact assignment_sound closed h
      · exact absurd h Parse.yields_misplaced

/-- Every program that is read is derived. -/
theorem statements_sound {fuel count : Nat} {ss : List Stmt} (closed : Closed c.words)
    (h : (statements Table.language fuel count).Yields c ss d) :
    ∃ ts, c.Reaches ts d ∧ DerivesStatements ts (Stmt.bareAll ss) ∧ d.current.kind = .eof := by
  induction count generalizing c ss with
  | zero => exact absurd h Parse.yields_exhausted
  | succ count ih =>
    simp only [statements, Parse.yields_bind, Parse.yields_kind] at h
    obtain ⟨_, _, ⟨rfl, rfl⟩, h⟩ := h
    split at h
    -- Only at the end of the text does the reading of statements end.
    · rename_i ends
      obtain ⟨rfl, rfl⟩ := Parse.yields_pure.mp h
      exact ⟨[], Cursor.Reaches.refl closed, .nil, ends⟩
    · simp only [Parse.yields_bind, Parse.yields_pure] at h
      obtain ⟨first, d₁, h₁, others, d₂, h₂, rfl, rfl⟩ := h
      obtain ⟨ts, reached, derived⟩ := statement_sound fuel closed h₁
      obtain ⟨us, reached', derived', ends⟩ := ih reached.2 h₂
      exact ⟨_, reached.trans reached', .cons derived derived', ends⟩

/-! ## What is derived is read -/

variable {w : Word} {ts us rest : List Word} {e : Bare.Expr}

theorem names_complete {names : List String} (h : DerivesNames ts names) (closed : Closed c.words)
    (words : c.words = ts ++ w :: rest) (close : w.kind = .closeParen) :
    c.current.kind ≠ .closeParen ∧ ∃ xs d, d.words = w :: rest ∧ Closed d.words ∧
      xs.map Symbol.name = names ∧ ∀ fuel, c.words.length ≤ fuel → (parameters fuel).Yields c xs d := by
  -- On the derivation of the names, for the cursor that has their words ahead.
  induction h generalizing c with
  | one kind =>
    obtain ⟨words', closed'⟩ := Cursor.advance_of_words closed words (by rw [kind]; decide)
    obtain rfl := Cursor.current_of_words words
    have kind : c.current.kind = .identifier := kind
    refine ⟨by rw [kind]; decide, [⟨c.current.text, c.current.span⟩], c.advance, words', closed',
      rfl, fun fuel enough => ?_⟩
    -- A list of one name takes two words, so some fuel is left for it.
    cases fuel with
    | zero => exact absurd enough (Nat.not_succ_le_zero _)
    | succ fuel =>
      simp only [parameters, Parse.yields_bind, identifier_yields, Parse.yields_kind]
      refine ⟨_, _, ⟨kind, rfl, rfl⟩, _, _, ⟨rfl, rfl⟩, ?_⟩
      rw [Cursor.kind_of_words words', close, if_neg (by decide)]
      exact Parse.yields_pure.mpr ⟨rfl, rfl⟩
  | more kind comma _ ih =>
    rw [List.cons_append, List.cons_append] at words
    obtain ⟨words₁, closed₁⟩ := Cursor.advance_of_words closed words (by rw [kind]; decide)
    obtain ⟨words₂, closed₂⟩ := Cursor.advance_of_words closed₁ words₁ (by rw [comma]; decide)
    obtain rfl := Cursor.current_of_words words
    have kind : c.current.kind = .identifier := kind
    obtain ⟨-, xs, d, words₃, closed₃, rfl, yields⟩ := ih closed₂ words₂
    refine ⟨by rw [kind]; decide, ⟨c.current.text, c.current.span⟩ :: xs, d, words₃, closed₃,
      rfl, fun fuel enough => ?_⟩
    -- Two words fewer are left for the names behind the comma, as the fuel asks.
    have shorter : c.advance.advance.words.length < c.words.length := by
      rw [words₂, words]
      simp only [List.length_cons]
      omega
    cases fuel with
    | zero => exact absurd enough (Nat.not_succ_le_zero _)
    | succ fuel =>
      simp only [parameters, Parse.yields_bind, identifier_yields, Parse.yields_kind]
      refine ⟨_, _, ⟨kind, rfl, rfl⟩, _, _, ⟨rfl, rfl⟩, ?_⟩
      rw [if_pos ((Cursor.kind_of_words words₁).trans comma)]
      simp only [Parse.yields_bind, Parse.yields_advance, Parse.yields_pure]
      exact ⟨_, _, ⟨rfl, rfl⟩, xs, d, yields fuel (by omega), rfl, rfl⟩

/-- Between the parentheses of a function there may be nothing. -/
theorem optionalParameters_complete {names : List String} (h : DerivesParameters ts names)
    (closed : Closed c.words) (words : c.words = ts ++ w :: rest) (close : w.kind = .closeParen) :
    ∃ xs d, d.words = w :: rest ∧ Closed d.words ∧ xs.map Symbol.name = names ∧
      ∀ fuel, c.words.length ≤ fuel → (if c.current.kind = .closeParen then pure [] else
        parameters fuel : Parse (List Symbol)).Yields c xs d := by
  cases h with
  | none =>
    refine ⟨[], c, words, closed, rfl, fun fuel _ => ?_⟩
    rw [if_pos ((Cursor.kind_of_words words).trans close)]
    exact Parse.yields_pure.mpr ⟨rfl, rfl⟩
  | some h =>
    obtain ⟨ne, xs, d, words', closed', map, yields⟩ := names_complete h closed words close
    refine ⟨xs, d, words', closed', map, fun fuel enough => ?_⟩
    rw [if_neg ne]
    exact yields fuel enough

theorem assigned_complete (h : DerivesAssigned ts e) (closed : Closed c.words)
    (words : c.words = ts ++ w :: rest) :
    ∃ x d, d.words = w :: rest ∧ Closed d.words ∧ x.bare = e ∧
      ∀ fuel, c.words.length ≤ fuel → (assigned Table.language fuel).Yields c x d := by
  cases h with
  | assigned equals value semicolon =>
    rw [List.cons_append, List.append_assoc, List.singleton_append] at words
    obtain ⟨words₁, closed₁⟩ := Cursor.advance_of_words closed words (by rw [equals]; decide)
    obtain ⟨x, d, words₂, closed₂, rfl, reads⟩ :=
      expr_complete value closed₁ words₁ (by rw [semicolon]; rfl)
    obtain ⟨words₃, closed₃⟩ := Cursor.advance_of_words closed₂ words₂ (by rw [semicolon]; decide)
    refine ⟨x, d.advance, words₃, closed₃, rfl, fun fuel enough => ?_⟩
    have equals' := (Cursor.kind_of_words words).trans equals
    have semicolon' := (Cursor.kind_of_words words₂).trans semicolon
    simp only [assigned, Parse.yields_bind, Parse.yields_expect, Parse.yields_pure]
    -- The expression is read with the fuel that was enough for the words from the equals sign on.
    refine ⟨_, _, ⟨equals', rfl, rfl⟩, x, d, reads fuel ?_, _, _, ⟨semicolon', rfl, rfl⟩, rfl, rfl⟩
    rw [words₁]
    rw [words] at enough
    exact Nat.le_of_succ_le enough

/-- A statement is read from its words. -/
def CompleteStatement (ts : List Word) (s : Bare.Stmt) : Prop :=
  ∀ ⦃c w rest⦄, Closed c.words → c.words = ts ++ w :: rest →
    c.current.kind ≠ .closeCurly ∧ c.current.kind ≠ .eof ∧
      ∃ x d, d.words = w :: rest ∧ Closed d.words ∧ x.bare = s ∧
        ∀ fuel, c.words.length ≤ fuel → (statement Table.language fuel).Yields c x d

/-- The statements of a block are read up to the closing brace. -/
def CompleteBody (ts : List Word) (ss : List Bare.Stmt) : Prop :=
  ∀ ⦃c w rest⦄, Closed c.words → c.words = ts ++ w :: rest → w.kind = .closeCurly →
    ∃ xs d, d.words = w :: rest ∧ Closed d.words ∧ Stmt.bareAll xs = ss ∧
      ∀ fuel count, c.words.length ≤ fuel → c.words.length ≤ count →
        (blockBody (statement Table.language fuel) count).Yields c xs d

/-- How the statements go on that begin with a word of their own. -/
def opened (fuel : Nat) : Opener → Parse Stmt
  | .declaration => declaration Table.language fuel
  | .function => function Table.language fuel
  | .print => print Table.language fuel
  | .loop => loop Table.language (statement Table.language fuel) fuel

theorem statement_yields {fuel : Nat} {opener : Opener} {x : Stmt}
    (word : Table.language.opener? c.current.kind = some opener)
    (h : (opened fuel opener).Yields c x d) :
    (statement Table.language (fuel + 1)).Yields c x d := by
  simp only [statement, Parse.yields_bind, Parse.yields_get]
  refine ⟨_, _, ⟨rfl, rfl⟩, ?_⟩
  rw [word]
  cases opener <;> exact h

/-- A statement that begins with a word of its own. -/
theorem CompleteStatement.of_opened {s : Bare.Stmt} {v : Word} (opener : Opener)
    (word : Table.language.opener? v.kind = some opener)
    (h : ∀ ⦃c w rest⦄, Closed c.words → c.words = v :: (ts ++ w :: rest) →
      ∃ x d, d.words = w :: rest ∧ Closed d.words ∧ x.bare = s ∧
        ∀ fuel, (ts ++ w :: rest).length ≤ fuel → (opened fuel opener).Yields c x d) :
    CompleteStatement (v :: ts) s := by
  intro c w rest closed words
  obtain ⟨x, d, words', closed', bare, yields⟩ := h closed words
  rw [← Cursor.kind_of_words words] at word
  -- An opening word is neither the brace that closes a block nor the end of the text.
  refine ⟨?_, ?_, x, d, words', closed', bare, fun fuel enough => ?_⟩
  · intro close
    rw [close] at word
    cases word
  · intro ends
    rw [ends] at word
    cases word
  · rw [words] at enough
    cases fuel with
    | zero => exact absurd enough (Nat.not_succ_le_zero _)
    | succ fuel => exact statement_yields word (yields fuel (Nat.le_of_succ_le_succ enough))

theorem complete_declaration {v i : Word} (word : v.kind = .letWord)
    (identifier : i.kind = .identifier) (value : DerivesAssigned ts e) :
    CompleteStatement (v :: i :: ts) (.declaration i.text e) := by
  refine CompleteStatement.of_opened .declaration (by rw [word]; rfl) fun c w rest closed words => ?_
  obtain ⟨words₁, closed₁⟩ := Cursor.advance_of_words closed words (by rw [word]; decide)
  obtain ⟨words₂, closed₂⟩ := Cursor.advance_of_words closed₁ words₁ (by rw [identifier]; decide)
  obtain ⟨x, d, words₃, closed₃, rfl, yields⟩ := assigned_complete value closed₂ words₂
  obtain rfl := Cursor.current_of_words words₁
  refine ⟨.declaration ⟨c.advance.current.text, c.advance.current.span⟩ x
    ⟨c.current.span.start, d.previousStop⟩, d, words₃, closed₃, rfl, fun fuel enough => ?_⟩
  -- What is read, part by part; the fuel is enough since two words have been passed.
  simp only [opened, declaration, Parse.yields_bind, Parse.yields_advance, identifier_yields,
    spanFrom_yields, Parse.yields_pure]
  refine ⟨_, _, ⟨rfl, rfl⟩, _, _, ⟨identifier, rfl, rfl⟩, x, d, yields fuel ?_, _, _, ⟨rfl, rfl⟩,
    rfl, rfl⟩
  rw [words₂]
  exact Nat.le_of_succ_le enough

theorem complete_function {v i l r : Word} {names : List String} (word : v.kind = .functionWord)
    (identifier : i.kind = .identifier) (open' : l.kind = .openParen)
    (parameters : DerivesParameters ts names) (close : r.kind = .closeParen)
    (body : DerivesAssigned us e) :
    CompleteStatement (v :: i :: l :: (ts ++ r :: us)) (.function i.text names e) := by
  refine CompleteStatement.of_opened .function (by rw [word]; rfl) fun c w rest closed words => ?_
  rw [List.cons_append, List.cons_append, List.append_assoc, List.cons_append] at words
  obtain ⟨words₁, closed₁⟩ := Cursor.advance_of_words closed words (by rw [word]; decide)
  obtain ⟨words₂, closed₂⟩ := Cursor.advance_of_words closed₁ words₁ (by rw [identifier]; decide)
  obtain ⟨words₃, closed₃⟩ := Cursor.advance_of_words closed₂ words₂ (by rw [open']; decide)
  obtain ⟨xs, d₁, words₄, closed₄, rfl, yields⟩ :=
    optionalParameters_complete parameters closed₃ words₃ close
  obtain ⟨words₅, closed₅⟩ := Cursor.advance_of_words closed₄ words₄ (by rw [close]; decide)
  obtain ⟨x, d₂, words₆, closed₆, rfl, yields'⟩ := assigned_complete body closed₅ words₅
  obtain rfl := Cursor.current_of_words words₁
  refine ⟨.function ⟨c.advance.current.text, c.advance.current.span⟩ xs x
    ⟨c.current.span.start, d₂.previousStop⟩, d₂, words₆, closed₆, rfl, fun fuel enough => ?_⟩
  -- The kinds as the reading sees them, at the cursors that the parts have reached.
  have open'' := (Cursor.kind_of_words words₂).trans open'
  have close' := (Cursor.kind_of_words words₄).trans close
  simp only [List.cons_append, List.append_assoc, List.length_cons, List.length_append] at enough
  simp only [opened, function, Parse.yields_bind, Parse.yields_advance, identifier_yields,
    Parse.yields_expect, Parse.yields_kind, Parse.yields_ite_bind, spanFrom_yields,
    Parse.yields_pure]
  refine ⟨_, _, ⟨rfl, rfl⟩, _, _, ⟨identifier, rfl, rfl⟩, _, _, ⟨open'', rfl, rfl⟩, _, _, ⟨rfl, rfl⟩,
    xs, d₁, yields fuel ?_, _, _, ⟨close', rfl, rfl⟩, x, d₂, yields' fuel ?_, _, _, ⟨rfl, rfl⟩, rfl,
    rfl⟩
  -- Enough fuel for the parameters, which start behind the opening parenthesis.
  · rw [words₃]
    simp only [List.length_cons, List.length_append]
    omega
  -- And for the body, which starts behind the closing one.
  · rw [words₅]
    simp only [List.length_cons, List.length_append]
    omega

theorem complete_print {v s : Word} (word : v.kind = .printWord)
    (argument : Derives .expression ts e) (semicolon : s.kind = .semicolon) :
    CompleteStatement (v :: (ts ++ [s])) (.print e) := by
  refine CompleteStatement.of_opened .print (by rw [word]; rfl) fun c w rest closed words => ?_
  rw [List.append_assoc, List.singleton_append] at words
  obtain ⟨words₁, closed₁⟩ := Cursor.advance_of_words closed words (by rw [word]; decide)
  obtain ⟨x, d, words₂, closed₂, rfl, reads⟩ :=
    expr_complete argument closed₁ words₁ (by rw [semicolon]; rfl)
  obtain ⟨words₃, closed₃⟩ := Cursor.advance_of_words closed₂ words₂ (by rw [semicolon]; decide)
  refine ⟨.print x ⟨c.current.span.start, d.advance.previousStop⟩, d.advance, words₃, closed₃, rfl,
    fun fuel enough => ?_⟩
  have semicolon' := (Cursor.kind_of_words words₂).trans semicolon
  simp only [opened, print, Parse.yields_bind, Parse.yields_advance, Parse.yields_expect,
    spanFrom_yields, Parse.yields_pure]
  refine ⟨_, _, ⟨rfl, rfl⟩, x, d, reads fuel ?_, _, _, ⟨semicolon', rfl, rfl⟩, _, _, ⟨rfl, rfl⟩, rfl,
    rfl⟩
  rw [words₁]
  rwa [List.append_assoc, List.singleton_append] at enough

theorem complete_loop {v l r : Word} {ss : List Bare.Stmt} (word : v.kind = .whileWord)
    (test : Derives .expression ts e) (open' : l.kind = .openCurly) (body : CompleteBody us ss)
    (close : r.kind = .closeCurly) :
    CompleteStatement (v :: (ts ++ l :: (us ++ [r]))) (.loop e ss) := by
  refine CompleteStatement.of_opened .loop (by rw [word]; rfl) fun c w rest closed words => ?_
  rw [List.append_assoc, List.cons_append, List.append_assoc, List.singleton_append] at words
  obtain ⟨words₁, closed₁⟩ := Cursor.advance_of_words closed words (by rw [word]; decide)
  obtain ⟨x, d, words₂, closed₂, rfl, reads⟩ :=
    expr_complete test closed₁ words₁ (by rw [open']; rfl)
  obtain ⟨words₃, closed₃⟩ := Cursor.advance_of_words closed₂ words₂ (by rw [open']; decide)
  obtain ⟨xs, d', words₄, closed₄, rfl, yields⟩ := body closed₃ words₃ close
  obtain ⟨words₅, closed₅⟩ := Cursor.advance_of_words closed₄ words₄ (by rw [close]; decide)
  refine ⟨.loop x xs ⟨d.current.span.start, d'.current.span.stop⟩
    ⟨c.current.span.start, d'.current.span.stop⟩, d'.advance, words₅, closed₅, rfl,
    fun fuel enough => ?_⟩
  -- The braces, as the reading sees them.
  have open'' := (Cursor.kind_of_words words₂).trans open'
  have close' := (Cursor.kind_of_words words₄).trans close
  simp only [List.append_assoc, List.cons_append, List.length_cons, List.length_append] at enough
  simp only [opened, loop, blockOf, Parse.yields_bind, Parse.yields_advance, Parse.yields_expect,
    Parse.yields_pure]
  refine ⟨_, _, ⟨rfl, rfl⟩, x, d, reads fuel ?_, _, _, ⟨_, _, ⟨open'', rfl, rfl⟩, xs, d',
    yields fuel fuel ?_ ?_, _, _, ⟨close', rfl, rfl⟩, rfl, rfl⟩, rfl, rfl⟩
  -- The test and the body are both shorter than the whole statement.
  all_goals
    first | rw [words₁] | rw [words₃]
    simp only [List.length_cons, List.length_append]
    omega

theorem complete_assignment {i : Word} (identifier : i.kind = .identifier)
    (value : DerivesAssigned ts e) : CompleteStatement (i :: ts) (.assignment i.text e) := by
  intro c w rest closed words
  obtain ⟨words₁, closed₁⟩ := Cursor.advance_of_words closed words (by rw [identifier]; decide)
  obtain ⟨x, d, words₂, closed₂, rfl, yields⟩ := assigned_complete value closed₁ words₁
  obtain rfl := Cursor.current_of_words words
  have identifier : c.current.kind = .identifier := identifier
  -- An assignment is told from other statements by the word behind the name.
  have peek : c.peek = .assignment := by
    cases value with
    | assigned equals =>
      rw [Cursor.peek_of_words words]
      exact equals
  refine ⟨by rw [identifier]; decide, by rw [identifier]; decide,
    .assignment ⟨c.current.text, c.current.span⟩ x ⟨c.current.span.start, d.previousStop⟩, d, words₂,
    closed₂, rfl, fun fuel enough => ?_⟩
  rw [words] at enough
  cases fuel with
  | zero => exact absurd enough (Nat.not_succ_le_zero _)
  | succ fuel =>
    simp only [statement, Parse.yields_bind, Parse.yields_get]
    refine ⟨_, _, ⟨rfl, rfl⟩, ?_⟩
    simp only [identifier, Table.language, peek, and_self, if_true, assignment, Parse.yields_bind,
      identifier_yields, spanFrom_yields, Parse.yields_pure]
    refine ⟨_, _, ⟨trivial, rfl, rfl⟩, x, d, yields fuel ?_, _, _, ⟨rfl, rfl⟩, rfl, rfl⟩
    rw [words₁]
    exact Nat.le_of_succ_le_succ enough

theorem ne_nil_of_derivesStatement {s : Bare.Stmt} (h : DerivesStatement ts s) : ts ≠ [] := by
  cases h <;> exact List.cons_ne_nil _ _

/-- A statement is read if others follow it. -/
theorem CompleteStatement.reads {s : Bare.Stmt} (h : CompleteStatement ts s) (ne : ts ≠ [])
    (closed : Closed c.words) (words : c.words = ts ++ (us ++ w :: rest)) :
    c.current.kind ≠ .closeCurly ∧ c.current.kind ≠ .eof ∧
      ∃ x d, d.words = us ++ w :: rest ∧ Closed d.words ∧ x.bare = s ∧
        d.words.length < c.words.length ∧
        ∀ fuel, c.words.length ≤ fuel → (statement Table.language fuel).Yields c x d := by
  obtain ⟨v, vs, behind⟩ := List.exists_cons_of_ne_nil
    (List.append_ne_nil_of_right_ne_nil us (List.cons_ne_nil w rest))
  rw [behind] at words ⊢
  obtain ⟨open', inside, x, d, words', closed', bare, yields⟩ := h closed words
  refine ⟨open', inside, x, d, words', closed', bare, ?_, yields⟩
  have := List.length_pos_iff.mpr ne
  rw [words, words', List.length_append]
  omega

theorem complete_nil : CompleteBody [] [] := by
  intro c w rest closed words close
  refine ⟨[], c, words, closed, rfl, fun fuel count _ enough => ?_⟩
  cases count with
  | zero => exact absurd enough (Nat.not_succ_le_zero _)
  | succ count =>
    simp only [blockBody, Parse.yields_bind, Parse.yields_kind]
    refine ⟨_, _, ⟨rfl, rfl⟩, ?_⟩
    rw [(Cursor.kind_of_words words).trans close]
    exact Parse.yields_pure.mpr ⟨rfl, rfl⟩

theorem complete_cons {s : Bare.Stmt} {ss : List Bare.Stmt} (first : CompleteStatement ts s)
    (ne : ts ≠ []) (others : CompleteBody us ss) : CompleteBody (ts ++ us) (s :: ss) := by
  intro c w rest closed words close
  rw [List.append_assoc] at words
  obtain ⟨open', inside, x, d, words₁, closed₁, rfl, shorter, yields⟩ := first.reads ne closed words
  obtain ⟨xs, d', words₂, closed₂, rfl, yields'⟩ := others closed₁ words₁ close
  refine ⟨x :: xs, d', words₂, closed₂, rfl, fun fuel count enough enough' => ?_⟩
  cases count with
  | zero => exact absurd (Nat.lt_of_lt_of_le shorter enough') (Nat.not_lt_zero _)
  | succ count =>
    simp only [blockBody, Parse.yields_bind, Parse.yields_kind]
    refine ⟨_, _, ⟨rfl, rfl⟩, ?_⟩
    -- The first word is neither the closing brace nor the end.
    split
    · rename_i close'
      exact absurd close' open'
    · rename_i ends
      exact absurd ends inside
    · simp only [Parse.yields_bind, Parse.yields_pure]
      exact ⟨x, d, yields fuel enough, xs, d', yields' fuel count (by omega) (by omega), rfl, rfl⟩

mutual

/-- Every statement that is derived is read. -/
theorem complete_of_statement : {ts : List Word} → {s : Bare.Stmt} → DerivesStatement ts s →
    CompleteStatement ts s
  | _, _, .declaration word identifier value => complete_declaration word identifier value
  | _, _, .function word identifier open' parameters close body =>
    complete_function word identifier open' parameters close body
  | _, _, .assignment identifier value => complete_assignment identifier value
  | _, _, .print word argument semicolon => complete_print word argument semicolon
  | _, _, .loop word test open' body close =>
    complete_loop word test open' (complete_of_body body) close

theorem complete_of_body : {ts : List Word} → {ss : List Bare.Stmt} → DerivesStatements ts ss →
    CompleteBody ts ss
  | _, _, .nil => complete_nil
  | _, _, .cons first others =>
    complete_cons (complete_of_statement first) (ne_nil_of_derivesStatement first)
      (complete_of_body others)

end

/-- Every program that is derived is read up to the end. -/
theorem statements_complete {ss : List Bare.Stmt} (h : DerivesStatements ts ss) {c : Cursor}
    {w : Word} (closed : Closed c.words) (words : c.words = ts ++ [w]) (ends : w.kind = .eof) :
    ∃ xs d, Stmt.bareAll xs = ss ∧ ∀ fuel count, c.words.length ≤ fuel → c.words.length ≤ count →
      (statements Table.language fuel count).Yields c xs d := by
  induction ss generalizing ts c with
  -- Nothing is left but the last word, which is the end of the text.
  | nil =>
    cases h
    refine ⟨[], c, rfl, fun fuel count _ enough => ?_⟩
    cases count with
    | zero => exact absurd enough (Nat.not_succ_le_zero _)
    | succ count =>
      simp only [statements, Parse.yields_bind, Parse.yields_kind]
      refine ⟨_, _, ⟨rfl, rfl⟩, ?_⟩
      rw [if_pos ((Cursor.kind_of_words words).trans ends)]
      exact Parse.yields_pure.mpr ⟨rfl, rfl⟩
  | cons s ss ih =>
    cases h with
    | cons first others =>
      rw [List.append_assoc] at words
      -- The first statement takes words, so fewer are left than are counted for the others.
      obtain ⟨-, inside, x, d, words₁, closed₁, rfl, shorter, yields⟩ :=
        (complete_of_statement first).reads (ne_nil_of_derivesStatement first) closed words
      obtain ⟨xs, d', rfl, yields'⟩ := ih others closed₁ words₁
      refine ⟨x :: xs, d', rfl, fun fuel count enough enough' => ?_⟩
      cases count with
      | zero => exact absurd (Nat.lt_of_lt_of_le shorter enough') (Nat.not_lt_zero _)
      | succ count =>
        simp only [statements, Parse.yields_bind, Parse.yields_kind]
        refine ⟨_, _, ⟨rfl, rfl⟩, ?_⟩
        rw [if_neg inside]
        simp only [Parse.yields_bind, Parse.yields_pure]
        exact ⟨x, d, yields fuel enough, xs, d', yields' fuel count (by omega) (by omega), rfl, rfl⟩

end Grammar

/-! ## Lists of tokens -/

theorem closed_of_tokens {body : List Token} {stop : Token} (ends : stop.kind = .eof)
    (inside : ∀ t ∈ body, t.kind ≠ .eof) : Closed ((body ++ [stop]).map Token.word) := by
  induction body with
  | nil => exact .stop ends
  | cons t ts ih =>
    refine .cons (inside t List.mem_cons_self) (ih fun t' h => inside t' (List.mem_cons_of_mem t h))

theorem Tree.Block.ofTokens_eq_ok {first : Token} {others : List Token} {block : Tree.Block} :
    Tree.Block.ofTokens (first :: others) = .ok block ↔
      ∃ d, (Grammar.readProgram Grammar.Table.language).Yields (Cursor.start first others) block d := by
  -- The reading yields a tree exactly if running it ends in `ok`, and no other case gives one.
  unfold Tree.Block.ofTokens Parse.Yields
  simp only
  split
  · rename_i block' d h
    rw [h]
    constructor
    · rintro ⟨⟩
      exact ⟨d, rfl⟩
    · rintro ⟨d', ⟨⟩⟩
      rfl
  · rename_i stop d h
    rw [h]
    constructor
    · rintro ⟨⟩
    · rintro ⟨d', ⟨⟩⟩

theorem readProgram_yields {c d : Cursor} {block : Tree.Block} :
    (Grammar.readProgram Grammar.Table.language).Yields c block d ↔
      ∃ ss, (Grammar.statements Grammar.Table.language c.fuel c.fuel).Yields c ss d ∧
        ⟨ss, ⟨c.position, d.position⟩⟩ = block := by
  simp only [Grammar.readProgram, Parse.yields_bind, Parse.yields_get, Parse.yields_pure]
  constructor
  · rintro ⟨_, _, ⟨rfl, rfl⟩, ss, _, h, _, _, ⟨rfl, rfl⟩, rfl, rfl⟩
    exact ⟨ss, h, rfl⟩
  · rintro ⟨ss, h, rfl⟩
    exact ⟨_, _, ⟨rfl, rfl⟩, ss, d, h, _, _, ⟨rfl, rfl⟩, rfl, rfl⟩

/-- Nothing stands behind the end. -/
theorem Cursor.words_of_eof {c : Cursor} (closed : Closed c.words) (ends : c.current.kind = .eof) :
    c.words = [c.current.word] := by
  unfold words at closed ⊢
  rw [List.map_cons] at closed ⊢
  generalize c.ahead.map Token.word = ahead at closed ⊢
  cases closed with
  | stop => rfl
  | cons inside => exact absurd ends inside

/-- Tokens that the grammar derives a program from are read as this program. -/
theorem ofTokens_of_derives {ts : List Token} {us : List Word} {w : Word} {ss : List Bare.Stmt}
    (derived : DerivesStatements us ss) (words : ts.map Token.word = us ++ [w])
    (closed : Closed (ts.map Token.word)) (ends : w.kind = .eof) :
    ∃ block, Tree.Block.ofTokens ts = .ok block ∧ Tree.Stmt.bareAll block.body = ss := by
  cases ts with
  | nil => cases closed
  | cons first others =>
    obtain ⟨xs, d, rfl, read⟩ :=
      Grammar.statements_complete (c := Cursor.start first others) derived closed words ends
    have enough : (Cursor.start first others).words.length ≤ (Cursor.start first others).fuel := by
      simp only [Cursor.words, Cursor.fuel, List.length_map, List.length_cons]
      omega
    exact ⟨_, Tree.Block.ofTokens_eq_ok.mpr
      ⟨d, readProgram_yields.mpr ⟨xs, read _ _ enough enough, rfl⟩⟩, rfl⟩

/-- Tokens that are read as a program are words that the grammar derives this program from. -/
theorem derives_of_ofTokens {ts : List Token} {block : Tree.Block}
    (read : Tree.Block.ofTokens ts = .ok block) (closed : Closed (ts.map Token.word)) :
    ∃ us w, ts.map Token.word = us ++ [w] ∧
      DerivesStatements us (Tree.Stmt.bareAll block.body) := by
  cases ts with
  | nil => cases closed
  | cons first others =>
    obtain ⟨d, whole⟩ := Tree.Block.ofTokens_eq_ok.mp read
    obtain ⟨ss, yields, rfl⟩ := readProgram_yields.mp whole
    have closed' : Closed (Cursor.start first others).words := closed
    obtain ⟨us, reached, derived, stops⟩ := Grammar.statements_sound closed' yields
    refine ⟨us, d.current.word, ?_, derived⟩
    rw [← Cursor.words_of_eof reached.2 stops]
    exact reached.1

/-- **Exactly the programs of the grammar are read, as the trees that it gives them.**  The
tokens end with the end of the text, which is nowhere else. -/
theorem ofTokens_eq_ok_iff {body : List Token} {stop : Token} (ends : stop.kind = .eof)
    (inside : ∀ t ∈ body, t.kind ≠ .eof) (ss : List Bare.Stmt) :
    (∃ block, Tree.Block.ofTokens (body ++ [stop]) = .ok block ∧
        Tree.Stmt.bareAll block.body = ss) ↔
      DerivesStatements (body.map Token.word) ss := by
  obtain ⟨first, others, tokens⟩ : ∃ first others, body ++ [stop] = first :: others :=
    List.exists_cons_of_ne_nil (List.append_ne_nil_of_right_ne_nil body (List.cons_ne_nil stop []))
  -- The cursor at the start has the words of the whole list ahead.
  have words : (Cursor.start first others).words = body.map Token.word ++ [stop.word] := by
    unfold Cursor.words
    rw [show (Cursor.start first others).current :: (Cursor.start first others).ahead =
      body ++ [stop] from tokens.symm, List.map_append]
    rfl
  have closed : Closed (Cursor.start first others).words := by
    have closed := closed_of_tokens ends inside
    rwa [List.map_append, List.map_singleton, ← words] at closed
  rw [tokens]
  constructor
  · -- What was read reaches up to the end of the text, and nothing is left behind it.
    rintro ⟨block, read, rfl⟩
    obtain ⟨d, whole⟩ := Tree.Block.ofTokens_eq_ok.mp read
    obtain ⟨ss, yields, rfl⟩ := readProgram_yields.mp whole
    obtain ⟨ts, reached, derived, stops⟩ := Grammar.statements_sound closed yields
    have same := words.symm.trans reached.1
    rw [Cursor.words_of_eof reached.2 stops] at same
    rw [List.append_inj_left' same rfl]
    exact derived
  · -- A reading has as much fuel as there are tokens.
    intro derived
    obtain ⟨xs, d, rfl, read⟩ := Grammar.statements_complete derived closed words ends
    have enough : (Cursor.start first others).words.length ≤ (Cursor.start first others).fuel := by
      simp only [Cursor.words, Cursor.fuel, List.length_map, List.length_cons]
      omega
    refine ⟨_, Tree.Block.ofTokens_eq_ok.mpr ⟨d, readProgram_yields.mpr ⟨xs, ?_, rfl⟩⟩, rfl⟩
    exact read _ _ enough enough

/-- The words of `print a - b ** -c(d) - e;`. -/
def subtractions : List Token :=
  [⟨.printWord, "print"⟩, ⟨.identifier, "a"⟩, ⟨.dash, "-"⟩, ⟨.identifier, "b"⟩, ⟨.starStar, "**"⟩,
   ⟨.dash, "-"⟩, ⟨.identifier, "c"⟩, ⟨.openParen, "("⟩, ⟨.identifier, "d"⟩, ⟨.closeParen, ")"⟩,
   ⟨.dash, "-"⟩, ⟨.identifier, "e"⟩, ⟨.semicolon, ";"⟩].map fun w : Word =>
    ⟨w.kind, w.text, Span.empty .first⟩

theorem subtractions_derived :
    DerivesStatements (subtractions.map Token.word)
      [.print (.binary
        (.binary (.symbol "a") ⟨.dash, "-"⟩
          (.binary (.symbol "b") ⟨.starStar, "**"⟩
            (.unary ⟨.dash, "-"⟩ (.call "c" [.symbol "d"]))))
        ⟨.dash, "-"⟩ (.symbol "e"))] :=
  (ofTokens_eq_ok_iff (rfl : (Token.eof .first).kind = .eof) (by decide) _).mp ⟨_, rfl, rfl⟩

end Frontend

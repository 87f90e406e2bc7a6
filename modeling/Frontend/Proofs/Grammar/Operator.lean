import Frontend.Grammar.Expression
import Frontend.Proofs.Grammar.Derivation

/-!
# The table and the grammar

How the powers of the table and the categories of the grammar go together.

* **`Category.strength`**: the power of the operators of a category.
* **`Power.reads`**: the category of what is read with a power.
* **`Operates`**: the operators that may go on behind an expression, by category.
* **`Fits`** and **`Stops`**: two views of a token behind an expression, that it can go on
  with an expression of that category on its left, and that an operand read with that
  power ends in front of it.
-/

namespace Frontend

open Grammar

namespace Category

/-- The power of the operators of a category. -/
def strength : Category → Power
  | expression => .conditional
  | disjunction => .logicalOr
  | conjunction => .logicalAnd
  | comparison => .relational
  | sum => .additive
  | product => .multiplicative
  | power => .exponent
  | prefixed => .unary
  | postfixed => .call
  | primary => .primary

/-- The category of what stands in front of the operators of a category. -/
def operand : Category → Category
  | expression => disjunction
  | disjunction => disjunction
  | conjunction => conjunction
  | comparison => sum
  | sum => sum
  | product => product
  | power => prefixed
  | prefixed => prefixed
  | postfixed => primary
  | primary => primary

end Category

/-- The category of what is read with a power. -/
def Grammar.Power.reads : Power → Category
  | .lowest => .expression
  | .conditional => .disjunction
  | .logicalOr => .conjunction
  | .logicalAnd => .comparison
  | .relational => .sum
  | .additive => .product
  | .multiplicative => .power
  | .exponent | .unary => .prefixed
  | .call | .primary => .primary

/-- A kind of token goes on behind an expression, and what comes of it is in a category. -/
inductive Operates : Kind → Category → Continuation → Prop where
  | conditional : Operates .question .expression .conditional
  | chain {kind : Kind} {k l : Category} (chain : k.chain? = some l)
      (operator : kind ∈ k.operators) : Operates kind k .binary
  | comparison {kind : Kind} (operator : kind ∈ Category.comparison.operators) :
      Operates kind .comparison .binary
  | power {kind : Kind} (operator : kind ∈ Category.power.operators) :
      Operates kind .power .exponent
  | call : Operates .openParen .postfixed .call

/-- The table lists the operators of the grammar. -/
theorem continuation?_eq_some_iff {kind : Kind} {own : Power} {form : Continuation} :
    Table.language.continuation? kind = some (own, form) ↔
      ∃ k, Operates kind k form ∧ own = k.strength := by
  constructor
  · intro h
    -- The table is a match on the kind, so each entry is found by cases.
    cases kind with
    | question =>
      cases h
      exact ⟨_, .conditional, rfl⟩
    | or =>
      cases h
      exact ⟨.disjunction, .chain rfl (by decide), rfl⟩
    | and =>
      cases h
      exact ⟨.conjunction, .chain rfl (by decide), rfl⟩
    | less | lessEquals | greater | greaterEquals | equals | notEquals =>
      cases h
      exact ⟨_, .comparison (by decide), rfl⟩
    | plus | dash =>
      cases h
      exact ⟨.sum, .chain rfl (by decide), rfl⟩
    | star | slash | percent =>
      cases h
      exact ⟨.product, .chain rfl (by decide), rfl⟩
    | starStar =>
      cases h
      exact ⟨_, .power (by decide), rfl⟩
    | openParen =>
      cases h
      exact ⟨_, .call, rfl⟩
    | _ => cases h
  · rintro ⟨k, operates, rfl⟩
    cases operates with
    | conditional | call => rfl
    | chain chain operator =>
      cases k <;> cases chain <;> cases kind <;> first | rfl | exact absurd operator (by decide)
    | comparison operator | power operator =>
      cases kind <;> first | rfl | exact absurd operator (by decide)

/-- A token may stand behind an expression of a category. -/
def Fits (k : Category) (kind : Kind) : Prop :=
  ∀ ⦃m form⦄, Operates kind m form → m.operand ≤ k

/-- An operand that is read with a power ends in front of a token. -/
def Stops (p : Power) (kind : Kind) : Prop :=
  ∀ ⦃m form⦄, Operates kind m form → m.strength ≤ p

/-! ## Operators by power and by category -/

section

variable {p : Power} {k l m : Category} {kind : Kind} {form : Continuation}

theorem Operates.ne_prefixed (h : Operates kind m form) : m ≠ .prefixed := by
  cases h with
  | chain chain =>
    rintro rfl
    cases chain
  | conditional | comparison | power | call => decide

theorem Operates.continuation?_eq (h : Operates kind m form) :
    Table.language.continuation? kind = some (m.strength, form) :=
  continuation?_eq_some_iff.mpr ⟨m, h, rfl⟩

theorem Operates.ne_eof (h : Operates kind m form) : kind ≠ .eof := by
  rintro rfl
  cases h.continuation?_eq

/-- A token is an operator in one way only. -/
theorem Operates.unique {m' : Category} {form' : Continuation} (h : Operates kind m form)
    (h' : Operates kind m' form') : m.strength = m'.strength := by
  have same := h.continuation?_eq.symm.trans h'.continuation?_eq
  exact (Prod.mk.inj (Option.some.inj same)).1

theorem strength_injective (h : k.strength = l.strength) : k = l := by
  cases k <;> cases l <;> first | rfl | cases h

/-- An operator may stand behind its own left operand. -/
theorem Operates.fits (h : Operates kind m form) : Fits m.operand kind := by
  intro m' form' h'
  rw [strength_injective (h'.unique h)]
  exact Category.le_refl _

theorem le_operand (m : Category) : m ≤ m.operand := by
  cases m <;> decide

/-- Only calls go on with a parenthesis. -/
theorem Operates.ne_openParen (h : Operates kind m form) (other : form ≠ .call) :
    kind ≠ .openParen := by
  rintro rfl
  obtain ⟨-, rfl⟩ := Prod.mk.inj (Option.some.inj h.continuation?_eq)
  exact other rfl

/-- An operator that one goes on with makes something of the category that is read. -/
theorem reads_le_of_strength (tighter : ¬ m.strength ≤ p) : p.reads ≤ m := by
  revert tighter
  cases p <;> cases m <;> decide

theorem reads_le_prefixed (low : p ≤ .unary) : p.reads ≤ .prefixed := by
  revert low
  cases p <;> decide

/-- One goes on with the operators of the category that is read. -/
theorem not_strength_le_of_reads (low : p ≤ .unary) (h : p.reads ≤ m) (operator : m ≠ .prefixed) :
    ¬ m.strength ≤ p := by
  revert h operator low
  cases p <;> cases m <;> decide

/-- The operand on the right of a chain is read with the power of its operator. -/
theorem reads_strength_of_chain (chain : k.chain? = some l) : k.strength.reads = l := by
  cases k <;> cases chain <;> rfl

theorem strength_ne_relational_of_chain (chain : k.chain? = some l) : k.strength ≠ .relational := by
  cases k <;> cases chain <;> decide

theorem strength_le_unary_of_chain (chain : k.chain? = some l) : k.strength ≤ .unary := by
  cases k <;> cases chain <;> decide

theorem operand_eq_of_chain (chain : k.chain? = some l) : k.operand = k := by
  cases k <;> cases chain <;> rfl

theorem le_of_chain (chain : k.chain? = some l) : k ≤ l := by
  cases k <;> cases chain <;> decide

theorem Fits.mono (h : Fits k kind) (looser : k ≤ l) : Fits l kind :=
  fun _ _ operates => Category.le_trans (h operates) looser

/-- Anything may stand behind a primary expression. -/
theorem fits_primary : Fits .primary kind := by
  intro m form _
  cases m <;> decide

/-! What may stand behind an expression is where its last operand ends, and the other
way round. -/

theorem fits_iff_stops (same : ∀ m : Category, m.operand ≤ k ↔ m.strength ≤ p) :
    Fits k kind ↔ Stops p kind := by
  constructor
  · intro h m form operates
    exact (same m).mp (h operates)
  · intro h m form operates
    exact (same m).mpr (h operates)

theorem fits_chain_iff (chain : k.chain? = some l) : Fits k kind ↔ Stops k.strength kind := by
  apply fits_iff_stops
  intro m
  cases k <;> cases chain <;> cases m <;> decide

theorem fits_power_iff : Fits .power kind ↔ Stops .multiplicative kind :=
  fits_iff_stops fun m => by cases m <;> decide

theorem fits_prefixed_iff : Fits .prefixed kind ↔ Stops .unary kind :=
  fits_iff_stops fun m => by cases m <;> decide

theorem fits_expression_iff : Fits .expression kind ↔ Stops .lowest kind :=
  fits_iff_stops fun m => by cases m <;> decide

/-- A comparison is not followed by another one. -/
theorem fits_comparison_iff : Fits .comparison kind ↔
    Stops .relational kind ∧ Table.language.power? kind ≠ some .relational := by
  -- A comparison could be the left operand of another one by its power, but not by its category.
  have same (m : Category) :
      m.operand ≤ .comparison ↔ m.strength ≤ .relational ∧ m.strength ≠ .relational := by
    cases m <;> decide
  have power?_eq : Table.language.power? kind = some .relational ↔
      ∃ m form, Operates kind m form ∧ m.strength = .relational := by
    simp only [Table.power?, Option.map_eq_some_iff, Prod.exists, continuation?_eq_some_iff]
    constructor
    · rintro ⟨own, form, ⟨m, operates, rfl⟩, relational⟩
      exact ⟨m, form, operates, relational⟩
    · rintro ⟨m, form, operates, relational⟩
      exact ⟨_, form, ⟨m, operates, rfl⟩, relational⟩
  rw [Ne, power?_eq]
  constructor
  · intro h
    refine ⟨fun m form operates => ((same m).mp (h operates)).1, ?_⟩
    rintro ⟨m, form, operates, relational⟩
    exact ((same m).mp (h operates)).2 relational
  · rintro ⟨stops, single⟩ m form operates
    exact (same m).mpr ⟨stops operates, fun relational => single ⟨m, form, operates, relational⟩⟩

end

end Frontend

import Frontend.Proofs.Simplification.Literals

/-!
# The numbers of a simplified program

A literal has to be a finite number to be written out again.  Arithmetic on literals may have a
result that is infinite or no number at all; then it is left to the running program.

* **`Program.Writes`**: a number is written in a program, wherever that is.
* **`Program.FiniteOrWritten`**: a number that simplifying may write.  Negation keeps this.
* **`Stmt.numbers_simplify?`**: what holds of finite numbers, and of a number with both signs, holds
  of all numbers in a simplified statement if it holds of those in the statement.
* **`simplify_writes_finite`**: simplifying writes no other numbers than finite ones, apart from
  those that are there already and their opposites.
-/

namespace Frontend.Resolved

namespace Program

/-- The number is a literal somewhere in the program. -/
def Writes (p : Program) (x : Float) : Prop := Node.expr (.number x) ∈ p.nodes

/-- The number is finite, or it is a literal of the program up to its sign. -/
def FiniteOrWritten (p : Program) (x : Float) : Prop :=
  x.isFinite ∨ ∃ y, p.Writes y ∧ (x = y ∨ x = -y)

theorem FiniteOrWritten.neg {p : Program} {x : Float} (h : p.FiniteOrWritten x) :
    p.FiniteOrWritten (-x) := by
  rcases h with finite | ⟨y, written, same | opposite⟩
  · left
    rwa [Number.isFinite_neg]
  · subst same
    exact .inr ⟨x, written, .inr rfl⟩
  · subst opposite
    exact .inr ⟨y, written, .inl (Number.neg_neg_self y)⟩

end Program

namespace Stmt

variable {P : Float → Prop}

theorem numbers_stmt {s : Stmt} {ns : List Node} :
    Expr.Numbers P (.stmt s :: ns) ↔ Expr.Numbers P ns := by
  simp [Expr.Numbers]

mutual

/-- What holds of finite numbers, and of a number with both signs, holds of the numbers in what is
left of a statement if it holds of those in the statement. -/
theorem numbers_simplify? (finite : ∀ x, x.isFinite → P x) (negated : ∀ x, P x → P (-x)) :
    (s : Stmt) → Expr.Numbers P s.nodes → Expr.Numbers P (nodesAll s.simplify?.toList)
  | .declaration _ e, h | .function _ _ e, h | .print e, h => by
    have inner := Expr.numbers_simplify finite negated e (numbers_stmt.mp h)
    rw [simplify?, Option.toList_some, nodesAll_singleton]
    exact numbers_stmt.mpr inner
  | .assignment _ source, h => by
    have inner := Expr.numbers_simplify finite negated source (numbers_stmt.mp h)
    rw [simplify?]
    split
    · exact Expr.numbers_nil
    -- What is left of a statement writes the numbers that its parts write.
    · rw [Option.toList_some, nodesAll_singleton]
      exact numbers_stmt.mpr inner
  | .loop test body, h => by
    obtain ⟨ht, hb⟩ := Expr.numbers_append.mp (numbers_stmt.mp h)
    have ht := Expr.numbers_simplify finite negated test ht
    have hb := numbersAll_simplifyAll finite negated body hb
    rw [simplify?]
    split
    · exact Expr.numbers_nil
    · rw [Option.toList_some, nodesAll_singleton]
      exact numbers_stmt.mpr (Expr.numbers_append.mpr ⟨ht, hb⟩)

theorem numbersAll_simplifyAll (finite : ∀ x, x.isFinite → P x) (negated : ∀ x, P x → P (-x)) :
    (ss : List Stmt) → Expr.Numbers P (nodesAll ss) → Expr.Numbers P (nodesAll (simplifyAll ss))
  | [], _ => Expr.numbers_nil
  | s :: ss, h => by
    obtain ⟨first, others⟩ := Expr.numbers_append.mp h
    rw [simplifyAll_cons, nodesAll_append, Expr.numbers_append]
    exact ⟨numbers_simplify? finite negated s first,
      numbersAll_simplifyAll finite negated ss others⟩

end

end Stmt

/-- **Simplifying writes no number that could not be written out again.**  A literal of a simplified
program that is infinite or no number at all is one of the program, up to its sign.  In particular,
if all literals of the program are finite, they are finite afterwards. -/
theorem simplify_writes_finite (p : Program) :
    (∀ x, p.simplify.Writes x → x.isNaN ∨ x.isInf → ∃ y, p.Writes y ∧ (x = y ∨ x = -y)) ∧
      ((∀ y, p.Writes y → y.isFinite) → ∀ x, p.simplify.Writes x → x.isFinite) := by
  constructor
  · intro x written special
    -- Before simplifying, there are only the numbers that are written in the program.
    have start : Expr.Numbers p.FiniteOrWritten p.nodes := by
      intro y writtenBefore
      exact .inr ⟨y, writtenBefore, .inl rfl⟩
    have all : Expr.Numbers p.FiniteOrWritten p.simplify.nodes :=
      Stmt.numbersAll_simplifyAll (fun _ finite => .inl finite) (fun _ known => known.neg) p start
    -- A finite number is not special, so this one was written before, up to its sign.
    rcases all x written with finite | known
    · exact absurd special (Number.isFinite_iff.mp finite)
    · exact known
  · intro allFinite
    refine Stmt.numbersAll_simplifyAll (fun _ finite => finite) ?_ p allFinite
    intro x finite
    rwa [Number.isFinite_neg]

/-- Products and powers that are too great, and divisions by zero, in the body of a loop. -/
def tooGreat : Program :=
  [.loop (.boolean true) [
    .print (.binary .power (.unary .negate (.binary .multiply (.number 1e308) (.number 10)))
      (.number 2)),
    .print (.binary .add (.binary .divide (.number 1) (.number 0)) (.binary .power (.number 0)
      (.number (-1))))]]

/-- A program with a literal that is infinite. -/
def negatedInfinity : Program := [.print (.unary .negate (.number (1 / 0)))]

/-- Nothing in `tooGreat` becomes an infinite literal, and the one in `negatedInfinity` changes its
sign. -/
theorem tooGreat_stays_finite :
    ((∀ y, tooGreat.Writes y → y.isFinite) ∧ ∀ x, tooGreat.simplify.Writes x → x.isFinite) ∧
      negatedInfinity.simplify.Writes (-(1 / 0)) ∧ (-(1 / 0) : Float).isInf ∧
        ∃ y, negatedInfinity.Writes y ∧ (-(1 / 0) = y ∨ -(1 / 0) = -y) := by
  have finite : ∀ y, tooGreat.Writes y → y.isFinite := by
    -- All the numbers of the program are looked at, one by one.
    intro y written
    have listed : y ∈ [1e308, 10, 2, 1, 0, 0, -1] := by
      simpa [Program.Writes, Program.nodes, tooGreat, Stmt.nodesAll, Stmt.nodes, Expr.nodes]
        using written
    have all : ∀ x ∈ ([1e308, 10, 2, 1, 0, 0, -1] : List Float), x.isFinite := by
      decide +kernel
    exact all y listed
  have written : negatedInfinity.simplify.Writes (-(1 / 0)) :=
    List.mem_cons_of_mem _ List.mem_cons_self
  have infinite : (-(1 / 0) : Float).isInf := by decide
  exact ⟨⟨finite, (simplify_writes_finite tooGreat).2 finite⟩, written, infinite,
    (simplify_writes_finite negatedInfinity).1 _ written (.inr infinite)⟩

end Frontend.Resolved

import Frontend.Proofs.Run.Basic

/-!
# More fuel

Fuel only says how far a run may go.  What a program yields, it yields with any larger
amount of fuel, so that a run that ends is the only one (`Program.run_unique`).

A run with more fuel goes at least as far as one with less (`Run.Within`).  This is kept
by everything that a run is made of; it comes down to calls and loops, which take fuel.
-/

namespace Frontend.Resolved

namespace Run

variable {α β : Type}

/-- Whatever `r` yields, `r'` yields too. -/
def Within (r r' : Run α) : Prop := ∀ ⦃x t⦄, r.Yields x t → r'.Yields x t

theorem Within.refl (r : Run α) : r.Within r := fun _ _ h => h

theorem Within.halt (reason : Halt) (r : Run α) : (Run.halt reason).Within r := by
  intro x t h
  exact absurd h yields_halt

theorem Within.bind {r r' : Run α} {f f' : α → Run β} (h : r.Within r')
    (rest : ∀ x, (f x).Within (f' x)) : (r >>= f).Within (r' >>= f') := by
  intro y t yields
  obtain ⟨x, before, after, hx, hy, rfl⟩ := yields_bind.mp yields
  exact yields_bind.mpr ⟨x, before, after, h hx, rest x hy, rfl⟩

end Run

open Run

/-- The calls of `call` are within those of `call'`. -/
def CallsWithin (call call' : Caller) : Prop := ∀ f xs, (call f xs).Within (call' f xs)

section

variable {s : Store} {call call' : Caller} {frame : Bindings}

mutual

theorem eval_within (h : CallsWithin call call') :
    (e : Expr) → (e.eval s call frame).Within (e.eval s call' frame)
  | .number _ | .boolean _ | .var _ => Within.refl _
  | .unary operator operand => (eval_within h operand).bind fun _ => Within.refl _
  | .binary operator left right => by
    refine (eval_within h left).bind fun x => ?_
    split
    · exact Within.refl _
    · exact (eval_within h right).bind fun _ => Within.refl _
  | .conditional test consequent alternate => by
    refine (eval_within h test).bind fun x => ?_
    split
    · exact eval_within h consequent
    · exact eval_within h alternate
  | .call callee arguments => (evalAll_within h arguments).bind fun xs => h callee xs

theorem evalAll_within (h : CallsWithin call call') : (es : List Expr) →
    (Expr.evalAll s call frame es).Within (Expr.evalAll s call' frame es)
  | [] => Within.refl _
  | e :: es =>
    (eval_within h e).bind fun _ => (evalAll_within h es).bind fun _ => Within.refl _

end

end

theorem callDeclared_within (s : Store) {inner inner' : Caller} (h : CallsWithin inner inner') :
    CallsWithin (callDeclared s inner) (callDeclared s inner') := by
  intro f xs
  refine (Within.refl _).bind fun _ => ?_
  cases s.functions f.serial with
  | none => exact Within.refl _
  | some declared => exact (Within.refl _).bind fun _ => eval_within h declared.2

theorem callWith_within (m : Machine) (s : Store) (fuel : Nat) :
    CallsWithin (callWith m s fuel) (callWith m s (fuel + 1)) := by
  -- Calls in the body of a function have one unit less on both sides.
  induction fuel with
  | zero =>
    intro f xs
    unfold callWith
    split
    · exact Within.halt _ _
    · exact Within.refl _
  | succ fuel ih =>
    intro f xs
    unfold callWith
    split
    · exact callDeclared_within s ih f xs
    · exact Within.refl _

theorem evalIn_within (m : Machine) (s : Store) (fuel : Nat) (e : Expr) :
    (e.evalIn m fuel s).Within (e.evalIn m (fuel + 1) s) :=
  eval_within (callWith_within m s fuel) e

theorem repeatWhile_within {test test' : Store → Run Bool} {body body' : Store → Run Store}
    (tests : ∀ s, (test s).Within (test' s)) (bodies : ∀ s, (body s).Within (body' s)) (fuel : Nat) :
    ∀ (limit : Option Nat) (s : Store),
      (repeatWhile test body fuel limit s).Within (repeatWhile test' body' (fuel + 1) limit s) := by
  induction fuel with
  | zero =>
    intro limit s
    exact Within.halt _ _
  | succ fuel ih =>
    intro limit s
    rw [repeatWhile, repeatWhile]
    split
    · exact Within.refl _
    · refine (tests s).bind fun holds => ?_
      split
      · exact (bodies s).bind fun s => ih _ s
      · exact Within.refl _

mutual

theorem exec_within (m : Machine) (fuel : Nat) : (statement : Stmt) → (s : Store) →
    (Stmt.exec m fuel statement s).Within (Stmt.exec m (fuel + 1) statement s)
  | .declaration _ initializer, s => (evalIn_within m s fuel initializer).bind fun _ => Within.refl _
  | .function .., _ => Within.refl _
  | .assignment _ source, s => (evalIn_within m s fuel source).bind fun _ => Within.refl _
  | .print argument, s => (evalIn_within m s fuel argument).bind fun _ => Within.refl _
  | .loop test body, s =>
    repeatWhile_within (fun s => (evalIn_within m s fuel test).bind fun _ => Within.refl _)
      (fun s => execAll_within m fuel body s) fuel m.loopLimit s

theorem execAll_within (m : Machine) (fuel : Nat) : (statements : List Stmt) → (s : Store) →
    (Stmt.execAll m fuel statements s).Within (Stmt.execAll m (fuel + 1) statements s)
  | [], _ => Within.refl _
  | statement :: statements, s =>
    (exec_within m fuel statement s).bind fun s => execAll_within m fuel statements s

end

variable {m : Machine} {p : Program}

/-- What a program yields, it yields with more fuel. -/
theorem Program.run_more {fuel fuel' : Nat} (more : fuel ≤ fuel') :
    (p.run m fuel).Within (p.run m fuel') := by
  induction more with
  | refl => exact Within.refl _
  | step _ ih => exact fun _ _ h => execAll_within m _ p Store.empty (ih h)

/-- A program has at most one run that ends. -/
theorem Program.run_unique {fuel fuel' : Nat} {s s' : Store} {t t' : List Event}
    (h : (p.run m fuel).Yields s t) (h' : (p.run m fuel').Yields s' t') : s = s' ∧ t = t' := by
  -- Both are the run with the larger amount.
  have here := p.run_more (Nat.le_max_left fuel fuel') h
  have there := p.run_more (Nat.le_max_right fuel fuel') h'
  exact here.unique there

end Frontend.Resolved

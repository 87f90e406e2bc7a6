import Frontend.Proofs.Simplification.Tolerance

/-!
# A simplified program follows the program

The simulation behind simplification, for any tolerance.

* **`Stores`**: the two programs agree on their variables, and every function of the
  simplified one has a simplified body.  This is the invariant of a run.
* **`eval_follows`**: expressions, by induction on the tree; a binary operator goes by
  the rule that was applied to it.
* **`callWith_follows`**: calls, by induction on the fuel, which bounds their depth.
* **`execAll_follows`**: statements.  A statement that simplification drops leaves the
  stores related.

Both programs run with the same fuel: simplifying never adds a call or a round.
-/

namespace Frontend.Resolved

/-! ## Assignments of a variable to itself

The constant `π` has a value without ever being assigned one.  Nothing that an
assignment reads may stand for `π` and for its target at once, or the assignment would
have an effect. -/

mutual

/-- Nothing that is assigned to is `π` under the same serial number. -/
def Stmt.SparesPi : Stmt → Prop
  | .assignment target source => source.All fun v => v.serial = target.serial → v.name ≠ "π"
  | .loop _ body => Stmt.SparesPiAll body
  | .declaration .. | .function .. | .print .. => True

/-- `SparesPi` for every statement. -/
def Stmt.SparesPiAll : List Stmt → Prop
  | [] => True
  | s :: ss => s.SparesPi ∧ Stmt.SparesPiAll ss

end

/-! ## Literals and what cannot be seen -/

theorem eval_literal (s : Store) (call : Caller) (frame : Bindings) (x : Value) :
    x.literal.eval s call frame = pure x := by
  cases x <;> rfl

theorem decides_eq_false {operator : BinaryOperator} (hand : operator ≠ .and)
    (hor : operator ≠ .or) (x : Value) : operator.decides x = false := by
  cases operator <;> first | rfl | contradiction

theorem not_logical_of_rightNeutral? {operator : BinaryOperator} {n : Float}
    (h : operator.rightNeutral? = some n) : operator ≠ .and ∧ operator ≠ .or := by
  constructor <;> rintro rfl <;> cases h

theorem not_logical_of_leftNeutral? {operator : BinaryOperator} {n : Float}
    (h : operator.leftNeutral? = some n) : operator ≠ .and ∧ operator ≠ .or := by
  constructor <;> rintro rfl <;> cases h

/-- The truth of a literal, as folding has it, is that of its value in a running program. -/
theorem truthiness?_literal (x : Value) : x.literal.truthiness? = some x.truth := by
  cases x <;> rfl

/-- A literal with a truth is a value with that truth. -/
theorem eq_literal_of_truthiness? {e : Expr} {b : Bool} (h : e.truthiness? = some b) :
    ∃ x : Value, e = x.literal ∧ x.truth = b := by
  cases e with
  | number value =>
    have same := (truthiness?_literal (.number value)).symm.trans h
    exact ⟨.number value, rfl, Option.some.inj same⟩
  | boolean value =>
    have same := (truthiness?_literal (.boolean value)).symm.trans h
    exact ⟨.boolean value, rfl, Option.some.inj same⟩
  | var | binary | unary | conditional | call => cases h

/-- Arithmetic that calls nothing cannot be seen. -/
theorem silent_of_isFiniteArithmetic {s : Store} {call : Caller} {frame : Bindings} (e : Expr)
    (h : e.isFiniteArithmetic) {y : Value} {u : List Event}
    (yields : (e.eval s call frame).Yields y u) : u.filter Event.visible = [] := by
  fun_induction Expr.isFiniteArithmetic e generalizing y u with
  | case1 value =>
    obtain ⟨-, rfl⟩ := Run.yields_pure.mp yields
    rfl
  | case2 v =>
    simp only [Expr.eval] at yields
    split at yields
    · obtain ⟨-, rfl⟩ := Run.yields_pure.mp yields
      rfl
    · exact absurd yields Run.yields_halt
  | case3 operand ih =>
    -- What the operand does cannot be seen, and neither can the event of the operator.
    simp only [Expr.eval, evalUnary, Run.yields_bind, Run.yields_event, Run.yields_pure] at yields
    obtain ⟨x, before, after, hx, ⟨_, _, _, rfl, ⟨-, rfl⟩, rfl⟩, rfl⟩ := yields
    rw [List.filter_append, ih h hx]
    rfl
  | case4 operator left right ihl ihr =>
    simp only [Bool.and_eq_true] at h
    simp only [Expr.eval, evalBinary, Run.yields_bind] at yields
    obtain ⟨x, before, after, hx, yields, rfl⟩ := yields
    rw [List.filter_append, ihl h.1.2 hx, List.nil_append]
    split at yields
    · obtain ⟨-, rfl⟩ := Run.yields_pure.mp yields
      rfl
    · simp only [Run.yields_bind, Run.yields_event, Run.yields_pure] at yields
      obtain ⟨z, between, _, hz, ⟨_, _, _, rfl, ⟨-, rfl⟩, rfl⟩, rfl⟩ := yields
      rw [List.filter_append, ihr h.2 hz]
      rfl
  | case5 => cases h

namespace Tolerance

variable {m : Machine} {T : Tolerance m}

/-! ## Binary operators, rule by rule -/

section

variable {operator : BinaryOperator} {left right : Expr} {runLeft runRight : Run Value}
  {z n : Float}

/-- A value like a number is a number. -/
theorem eq_number_of_like {x : Value} (h : T.Like x (.number z)) :
    ∃ a, x = .number a ∧ T.same a z := by
  cases x with
  | number a => exact ⟨a, rfl, h⟩
  | boolean b => cases h

theorem numbers_follows {a b : Float} (hand : operator ≠ .and) (hor : operator ≠ .or)
    (hl : T.Follows T.Like runLeft (Pure.pure (.number a)))
    (hr : T.Follows T.Like runRight (Pure.pure (.number b))) :
    T.Follows T.Like (evalBinary operator left right runLeft runRight)
      (Pure.pure (operator.apply (.number a) (.number b))) := by
  refine hl.skip fun x hx => ?_
  rw [decides_eq_false hand hor]
  refine hr.skip fun y hy => ?_
  refine (follows_unseen rfl).skip fun _ permitted => ?_
  exact Follows.pure (T.binary hx hy permitted)

theorem booleans_follows {a b : Bool}
    (hl : T.Follows T.Like runLeft (Pure.pure (.boolean a)))
    (hr : T.Follows T.Like runRight (Pure.pure (.boolean b))) :
    T.Follows T.Like (evalBinary operator left right runLeft runRight)
      (Pure.pure (if operator.decides (.boolean a) then Value.boolean a
        else operator.apply (.boolean a) (.boolean b))) := by
  refine hl.skip fun x hx => ?_
  -- The left operand may decide, and then the right one does not run in either program.
  rw [T.decides_eq operator hx]
  split
  · exact Follows.pure hx
  · refine hr.skip fun y hy => ?_
    refine (follows_unseen rfl).skip fun _ permitted => ?_
    exact Follows.pure (T.binary hx hy permitted)

theorem rightNeutral_follows {run : Run Value} (neutral : operator.rightNeutral? = some n)
    (simplified : right.simplify = .number z) (hz : z == n)
    (hl : T.Follows T.Like runLeft run)
    (hr : T.Follows T.Like runRight (Pure.pure (.number z))) :
    T.Follows T.Like (evalBinary operator left right runLeft runRight) run := by
  obtain ⟨hand, hor⟩ := not_logical_of_rightNeutral? neutral
  -- The left operand runs in both programs, the right one only in the first.
  refine hl.bind_left fun x x' hx => ?_
  rw [decides_eq_false hand hor]
  refine hr.skip fun y hy => ?_
  obtain ⟨a, rfl, same⟩ := eq_number_of_like hy
  refine (follows_unseen rfl).skip fun _ permitted => ?_
  exact Follows.pure (T.like_trans (T.rightNeutral neutral simplified hz same permitted) hx)

theorem leftNeutral_follows {run : Run Value} (neutral : operator.leftNeutral? = some n)
    (simplified : left.simplify = .number z) (hz : z == n)
    (hl : T.Follows T.Like runLeft (Pure.pure (.number z)))
    (hr : T.Follows T.Like runRight run) :
    T.Follows T.Like (evalBinary operator left right runLeft runRight) run := by
  obtain ⟨hand, hor⟩ := not_logical_of_leftNeutral? neutral
  refine hl.skip fun x hx => ?_
  obtain ⟨a, rfl, same⟩ := eq_number_of_like hx
  rw [decides_eq_false hand hor]
  refine hr.bind_left fun y y' hy => ?_
  refine (follows_unseen rfl).skip fun _ permitted => ?_
  exact Follows.pure (T.like_trans (T.leftNeutral neutral simplified hz same permitted) hy)

theorem zeroRight_follows {run : Run Value} (simplified : right.simplify = .number z)
    (hz : z == 0) (arithmetic : left.simplify.isFiniteArithmetic)
    (silent : ∀ y u, run.Yields y u → u.filter Event.visible = [])
    (hl : T.Follows T.Like runLeft run)
    (hr : T.Follows T.Like runRight (Pure.pure (.number z))) :
    T.Follows T.Like (evalBinary .multiply left right runLeft runRight)
      (Pure.pure (.number 0)) := by
  -- The left operand runs only in the first program, but nobody sees it.
  refine (hl.of_silent silent).skip fun x _ => ?_
  rw [decides_eq_false (by decide) (by decide)]
  refine hr.skip fun y hy => ?_
  obtain ⟨a, rfl, same⟩ := eq_number_of_like hy
  refine (follows_unseen rfl).skip fun _ permitted => ?_
  exact Follows.pure (T.zeroRight simplified hz arithmetic same permitted)

theorem zeroLeft_follows {run : Run Value} (simplified : left.simplify = .number z)
    (hz : z == 0) (arithmetic : right.simplify.isFiniteArithmetic)
    (silent : ∀ y u, run.Yields y u → u.filter Event.visible = [])
    (hl : T.Follows T.Like runLeft (Pure.pure (.number z)))
    (hr : T.Follows T.Like runRight run) :
    T.Follows T.Like (evalBinary .multiply left right runLeft runRight)
      (Pure.pure (.number 0)) := by
  refine hl.skip fun x hx => ?_
  obtain ⟨a, rfl, same⟩ := eq_number_of_like hx
  rw [decides_eq_false (by decide) (by decide)]
  refine (hr.of_silent silent).skip fun y _ => ?_
  refine (follows_unseen rfl).skip fun _ permitted => ?_
  exact Follows.pure (T.zeroLeft simplified hz arithmetic same permitted)

theorem kept_follows {left' right' : Expr} {runLeft' runRight' : Run Value}
    (hl : T.Follows T.Like runLeft runLeft') (hr : T.Follows T.Like runRight runRight') :
    T.Follows T.Like (evalBinary operator left right runLeft runRight)
      (evalBinary operator left' right' runLeft' runRight') := by
  refine hl.bind fun x x' hx => ?_
  rw [T.decides_eq operator hx]
  split
  · exact Follows.pure hx
  · refine hr.bind fun y y' hy => ?_
    refine (follows_silent rfl rfl).bind fun _ _ permitted => ?_
    exact Follows.pure (T.binary hx hy permitted)

end

/-- Whatever an operator was folded into follows the operator. -/
theorem folded_follows {operator : BinaryOperator} {left right l r e : Expr}
    {runLeft runRight : Run Value} {s : Store} {call : Caller} {frame : Bindings}
    (folded : Expr.Folded operator l r e) (simplifiedLeft : left.simplify = l)
    (simplifiedRight : right.simplify = r)
    (hl : T.Follows T.Like runLeft (l.eval s call frame))
    (hr : T.Follows T.Like runRight (r.eval s call frame)) :
    T.Follows T.Like (evalBinary operator left right runLeft runRight)
      (e.eval s call frame) := by
  -- One case for each rule: what it leaves behaves as the operation did.
  cases folded with
  | numbers h =>
    obtain ⟨rfl, hand, hor⟩ := Expr.eq_literal_of_foldNumbers? h
    rw [eval_literal]
    exact numbers_follows hand hor hl hr
  | booleans h =>
    obtain rfl := Expr.eq_literal_of_foldBooleans? h
    rw [eval_literal]
    exact booleans_follows hl hr
  | rightNeutral neutral hz => exact rightNeutral_follows neutral simplifiedRight hz hl hr
  | leftNeutral neutral hz => exact leftNeutral_follows neutral simplifiedLeft hz hl hr
  -- The factor that is dropped prints nothing and calls nothing, but may fail to be finite.
  | zeroRight hz arithmetic =>
    exact zeroRight_follows simplifiedRight hz (simplifiedLeft ▸ arithmetic)
      (fun _ _ => silent_of_isFiniteArithmetic _ arithmetic) hl hr
  | zeroLeft hz arithmetic =>
    exact zeroLeft_follows simplifiedLeft hz (simplifiedRight ▸ arithmetic)
      (fun _ _ => silent_of_isFiniteArithmetic _ arithmetic) hl hr
  | kept => exact kept_follows hl hr

/-- Whatever a unary operator was folded into follows the operator. -/
theorem unary_follows (operator : UnaryOperator) {e : Expr} {run : Run Value} {s : Store}
    {call : Caller} {frame : Bindings} (h : T.Follows T.Like run (e.eval s call frame)) :
    T.Follows T.Like (evalUnary operator run)
      ((Expr.foldUnary operator e).eval s call frame) := by
  -- An operator that was applied to a literal ahead of time.
  have literal {y : Value} (h : T.Follows T.Like run (Pure.pure y)) :
      T.Follows T.Like (evalUnary operator run) (Pure.pure (operator.apply y)) := by
    refine h.skip fun x hx => ?_
    refine (follows_unseen rfl).skip fun _ _ => ?_
    exact Follows.pure (T.like_unary operator hx)
  unfold Expr.foldUnary
  split
  · rename_i value
    have negated : Value.number (-value) = UnaryOperator.negate.apply (.number value) := by
      simp only [UnaryOperator.apply, Value.toNumber]
    simp only [Expr.eval, negated] at h ⊢
    exact literal h
  · exact literal h
  · refine h.bind fun x x' hx => ?_
    refine (follows_silent rfl rfl).bind fun _ _ _ => ?_
    exact Follows.pure (T.like_unary operator hx)

/-! ## Expressions -/

/-- Bindings that count as the same. -/
def Binds (T : Tolerance m) (b b' : Bindings) : Prop := ∀ n, Option.Rel T.Like (b n) (b' n)

/-- Like values, and the same functions with simplified bodies. -/
structure Stores (T : Tolerance m) (s s' : Store) : Prop where
  globals : T.Binds s.globals s'.globals
  functions (n : Nat) :
    s'.functions n = (s.functions n).map fun (parameters, body) => (parameters, body.simplify)

/-- Calls with like arguments follow each other. -/
def Callers (T : Tolerance m) (call call' : Caller) : Prop :=
  ∀ f xs xs', List.Forall₂ T.same xs xs' → T.Follows T.Like (call f xs) (call' f xs')

theorem binds_none : T.Binds (fun _ => none) fun _ => none := fun _ => .none

theorem binds_set {b b' : Bindings} {x x' : Value} (h : T.Binds b b') (serial : Nat)
    (hx : T.Like x x') : T.Binds (b.set serial x) (b'.set serial x') := by
  intro n
  unfold Bindings.set
  by_cases here : n = serial
  · rw [if_pos here, if_pos here]
    exact .some hx
  · rw [if_neg here, if_neg here]
    exact h n

theorem rel_or {a a' b b' : Option Value} (ha : Option.Rel T.Like a a')
    (hb : Option.Rel T.Like b b') : Option.Rel T.Like (a.or b) (a'.or b') := by
  cases ha with
  | some h => exact .some h
  | none => exact hb

theorem stores_assign {s s' : Store} {x x' : Value} (h : T.Stores s s') (serial : Nat)
    (hx : T.Like x x') :
    T.Stores { s with globals := s.globals.set serial x }
      { s' with globals := s'.globals.set serial x' } :=
  ⟨binds_set h.globals serial hx, h.functions⟩

theorem value?_like {s s' : Store} {frame frame' : Bindings} (stores : T.Stores s s')
    (frames : T.Binds frame frame') (v : Variable) :
    Option.Rel T.Like (s.value? frame v) (s'.value? frame' v) := by
  have bound := rel_or (frames v.serial) (stores.globals v.serial)
  unfold Store.value?
  generalize (frame v.serial).or (s.globals v.serial) = found at bound
  generalize (frame' v.serial).or (s'.globals v.serial) = found' at bound
  cases bound with
  | some h => exact .some h
  | none =>
    -- Without a value on either side, only the name matters.
    by_cases constant : v.name = "π"
    · simp only [if_pos constant]
      exact .some (T.like_refl _)
    · simp only [if_neg constant]
      exact .none

section

variable {s s' : Store} {call call' : Caller} {frame frame' : Bindings}

mutual

/-- A simplified expression follows the expression. -/
theorem eval_follows (stores : T.Stores s s') (callers : T.Callers call call')
    (frames : T.Binds frame frame') :
    (e : Expr) → T.Follows T.Like (e.eval s call frame) (e.simplify.eval s' call' frame')
  | .number _ | .boolean _ => Follows.pure (T.like_refl _)
  | .var v => by
    -- Both stores have like values under one serial number, or neither has one.
    have like := value?_like stores frames v
    simp only [Expr.simplify, Expr.eval]
    generalize s.value? frame v = found at like
    generalize s'.value? frame' v = found' at like
    cases like with
    | some h => exact Follows.pure h
    | none => exact Follows.halt
  | .unary operator operand => by
    have ih := eval_follows stores callers frames operand
    simp only [Expr.simplify, Expr.eval]
    exact unary_follows operator ih
  | .binary operator left right =>
    folded_follows (Expr.foldBinary_folded operator left.simplify right.simplify) rfl rfl
      (eval_follows stores callers frames left) (eval_follows stores callers frames right)
  | .conditional test consequent alternate => by
    have ht := eval_follows stores callers frames test
    have hc := eval_follows stores callers frames consequent
    have ha := eval_follows stores callers frames alternate
    simp only [Expr.simplify, Expr.eval]
    split
    · -- The test is a literal now.  It may have been evaluated before, but nobody saw it.
      rename_i holds
      obtain ⟨x', literal, truth⟩ := eq_literal_of_truthiness? holds
      rw [literal, eval_literal] at ht
      refine ht.skip fun x hx => ?_
      rw [T.like_truth hx, truth]
      exact hc
    · rename_i holds
      obtain ⟨x', literal, truth⟩ := eq_literal_of_truthiness? holds
      rw [literal, eval_literal] at ht
      refine ht.skip fun x hx => ?_
      rw [T.like_truth hx, truth]
      exact ha
    -- The test is still to be evaluated, and comes out alike.
    · refine ht.bind fun x x' hx => ?_
      rw [T.like_truth hx]
      split
      · exact hc
      · exact ha
  | .call callee arguments => by
    refine (evalAll_follows stores callers frames arguments).bind fun xs xs' related => ?_
    exact callers callee xs xs' related

/-- Simplified arguments follow the arguments. -/
theorem evalAll_follows (stores : T.Stores s s') (callers : T.Callers call call')
    (frames : T.Binds frame frame') : (es : List Expr) →
      T.Follows (List.Forall₂ T.same) (Expr.evalAll s call frame es)
        (Expr.evalAll s' call' frame' (Expr.simplifyAll es))
  | [] => Follows.pure .nil
  | e :: es => by
    refine (eval_follows stores callers frames e).bind fun x x' hx => ?_
    refine (evalAll_follows stores callers frames es).bind fun xs xs' related => ?_
    exact Follows.pure (.cons (T.like_toNumber hx) related)

end

end

/-! ## Calls -/

/-- Frames of like arguments. -/
theorem binds_frameOf (parameters : List Variable) {xs xs' : List Float}
    (related : List.Forall₂ T.same xs xs') :
    T.Binds (frameOf parameters xs) (frameOf parameters xs') := by
  -- On the arguments, with the parameters taken from the front as they are bound.
  induction related generalizing parameters with
  | nil => cases parameters <;> exact binds_none
  | cons h _ ih =>
    cases parameters with
    | nil => exact binds_none
    | cons v vs =>
      intro n
      refine rel_or (ih vs n) ?_
      -- The parameter itself has the argument, any other one is bound further back.
      by_cases here : n = v.serial
      · rw [if_pos here, if_pos here]
        exact .some h
      · rw [if_neg here, if_neg here]
        exact .none

theorem receiveAll_follows (parameters : List Variable) {xs xs' : List Float}
    (related : List.Forall₂ T.same xs xs') :
    T.Follows (fun _ _ => True) (receiveAll parameters xs) (receiveAll parameters xs') := by
  induction related generalizing parameters with
  | nil => cases parameters <;> exact Follows.pure trivial
  | cons _ _ ih =>
    cases parameters with
    | nil => exact Follows.pure trivial
    | cons v vs => exact (follows_silent rfl rfl).bind fun _ _ _ => ih vs

theorem callBuiltin_follows : T.Callers (callBuiltin m) (callBuiltin m) := by
  intro f xs xs' related
  refine (call_follows f related).bind fun _ _ _ => ?_
  cases h : m.library f.name xs with
  | none => exact Follows.halt
  | some y =>
    obtain ⟨y', h', same⟩ := T.library f.name related h
    rw [h']
    exact Follows.pure same

theorem callDeclared_follows {s s' : Store} {inner inner' : Caller} (stores : T.Stores s s')
    (callers : T.Callers inner inner') :
    T.Callers (callDeclared s inner) (callDeclared s' inner') := by
  intro f xs xs' related
  refine (call_follows f related).bind fun _ _ _ => ?_
  -- The function has the same parameters in both programs, and a simplified body.
  rw [stores.functions]
  cases s.functions f.serial with
  | none => exact Follows.halt
  | some declared =>
    obtain ⟨parameters, body⟩ := declared
    refine (receiveAll_follows parameters related).bind fun _ _ _ => ?_
    exact eval_follows stores callers (binds_frameOf parameters related) body

/-- Calls of functions with simplified bodies follow those of the functions, however deep
they go. -/
theorem callWith_follows {s s' : Store} (stores : T.Stores s s') (fuel : Nat) :
    T.Callers (callWith m s fuel) (callWith m s' fuel) := by
  -- A call within a body has less fuel than the call of the function.
  induction fuel with
  | zero =>
    intro f xs xs' related
    unfold callWith
    split
    · exact Follows.halt
    · exact callBuiltin_follows f xs xs' related
  | succ fuel ih =>
    intro f xs xs' related
    unfold callWith
    split
    · exact callDeclared_follows stores ih f xs xs' related
    · exact callBuiltin_follows f xs xs' related

theorem evalIn_follows {s s' : Store} (stores : T.Stores s s') (fuel : Nat) (e : Expr) :
    T.Follows T.Like (e.evalIn m fuel s) (e.simplify.evalIn m fuel s') :=
  eval_follows stores (callWith_follows stores fuel) binds_none e

/-! ## Statements -/

theorem assign_follows {s s' : Store} {x x' : Value} (stores : T.Stores s s') (v : Variable)
    (hx : T.Like x x') : T.Follows T.Stores (s.assign v x) (s'.assign v x') :=
  (follows_silent rfl rfl).bind fun _ _ _ => Follows.pure (stores_assign stores v.serial hx)

theorem stores_define {s s' : Store} (stores : T.Stores s s') (f : Function)
    (parameters : List Variable) (body : Expr) :
    T.Stores (s.define f parameters body) (s'.define f parameters body.simplify) := by
  refine ⟨stores.globals, fun n => ?_⟩
  unfold Store.define
  by_cases here : n = f.serial
  · simp only [if_pos here]
    rfl
  · simp only [if_neg here]
    exact stores.functions n

/-- A variable that gets a value like its own has not changed. -/
theorem binds_set_left {b b' : Bindings} {x x' : Value} {serial : Nat} (h : T.Binds b b')
    (own : b' serial = some x') (hx : T.Like x x') : T.Binds (b.set serial x) b' := by
  intro n
  unfold Bindings.set
  by_cases here : n = serial
  · subst here
    rw [if_pos rfl, own]
    exact .some hx
  · rw [if_neg here]
    exact h n

/-- An assignment of a variable to itself can be dropped. -/
theorem selfAssignment_follows {s s' : Store} {target v : Variable} {run : Run Value}
    {call : Caller} (stores : T.Stores s s') (self : v.serial = target.serial)
    (spares : v.name ≠ "π")
    (h : T.Follows T.Like run ((Expr.var v).eval s' call fun _ => none)) :
    T.Follows T.Stores (run >>= fun x => s.assign target x) (Pure.pure s') := by
  simp only [Expr.eval, Store.value?, if_neg spares, Option.none_or] at h
  cases own : s'.globals v.serial with
  | none =>
    -- A variable without a value cannot be read, so the first program does not get here.
    rw [own] at h
    exact h.of_halt
  | some x' =>
    rw [own] at h
    refine h.skip fun x hx => ?_
    refine (follows_unseen rfl).skip fun _ _ => ?_
    rw [self] at own
    exact Follows.pure ⟨binds_set_left stores.globals own hx, stores.functions⟩

theorem repeatWhile_follows {test test' : Store → Run Bool} {body body' : Store → Run Store}
    (tests : ∀ s s', T.Stores s s' → T.Follows (· = ·) (test s) (test' s'))
    (bodies : ∀ s s', T.Stores s s' → T.Follows T.Stores (body s) (body' s')) (fuel : Nat) :
    ∀ (limit : Option Nat) {s s' : Store}, T.Stores s s' →
      T.Follows T.Stores (repeatWhile test body fuel limit s)
        (repeatWhile test' body' fuel limit s') := by
  induction fuel with
  | zero =>
    intro limit s s' _
    exact Follows.halt
  | succ fuel ih =>
    intro limit s s' stores
    unfold repeatWhile
    split
    · exact Follows.pure stores
    -- Both tests give the same answer, so both loops go on or both stop.
    · refine (tests s s' stores).bind fun b b' same => ?_
      subst same
      split
      · exact (bodies s s' stores).bind fun _ _ stores => ih _ stores
      · exact Follows.pure stores

/-- A loop that is never entered can be dropped. -/
theorem deadLoop_follows {test : Store → Run Bool} {body : Store → Run Store} {s s' : Store}
    (never : T.Follows (· = ·) (test s) (Pure.pure false)) (stores : T.Stores s s')
    (fuel : Nat) (limit : Option Nat) :
    T.Follows T.Stores (repeatWhile test body fuel limit s) (Pure.pure s') := by
  -- One unit of fuel is needed to find out that there is no round.
  cases fuel with
  | zero => exact Follows.halt
  | succ fuel =>
    unfold repeatWhile
    split
    · exact Follows.pure stores
    · refine never.skip fun b same => ?_
      subst same
      exact Follows.pure stores

/-- The test of a loop. -/
theorem test_follows {s s' : Store} (stores : T.Stores s s') (fuel : Nat) (test : Expr) :
    T.Follows (· = ·) (do return (← test.evalIn m fuel s).truth)
      (do return (← test.simplify.evalIn m fuel s').truth) :=
  (evalIn_follows stores fuel test).bind fun _ _ hx => Follows.pure (T.like_truth hx)

/-- What is left of a statement, if anything. -/
def execLeft (m : Machine) (fuel : Nat) (left : Option Stmt) (s : Store) : Run Store :=
  match left with
  | some statement => Stmt.exec m fuel statement s
  | none => Pure.pure s

theorem execAll_simplifyAll (fuel : Nat) (statement : Stmt) (statements : List Stmt) (s : Store) :
    Stmt.execAll m fuel (Stmt.simplifyAll (statement :: statements)) s =
      execLeft m fuel statement.simplify? s >>=
        Stmt.execAll m fuel (Stmt.simplifyAll statements) := by
  simp only [Stmt.simplifyAll]
  cases statement.simplify? with
  | some left => rfl
  | none => exact (Run.pure_andThen s _).symm

mutual

/-- What is left of a statement follows the statement. -/
theorem exec_follows (fuel : Nat) : (statement : Stmt) → statement.SparesPi →
    ∀ {s s' : Store}, T.Stores s s' →
      T.Follows T.Stores (Stmt.exec m fuel statement s) (execLeft m fuel statement.simplify? s')
  | .declaration v initializer, _, s, s', stores => by
    refine (evalIn_follows stores fuel initializer).bind fun x x' hx => ?_
    exact assign_follows stores v hx
  | .function f parameters body, _, s, s', stores =>
    Follows.pure (stores_define stores f parameters body)
  | .assignment target source, spares, s, s', stores => by
    have h := evalIn_follows stores fuel source
    -- Simplifying may make a variable of the source, but none that the source does not have.
    have spares := Expr.all_simplify source spares
    simp only [Stmt.simplify?]
    split
    · rename_i self
      cases simplified : source.simplify with
      | var v =>
        rw [simplified] at h self spares
        exact selfAssignment_follows stores (eq_of_beq self) (spares (eq_of_beq self)) h
      | number | boolean | binary | unary | conditional | call =>
        rw [simplified] at self
        cases self
    · exact h.bind fun x x' hx => assign_follows stores target hx
  | .print argument, _, s, s', stores => by
    refine (evalIn_follows stores fuel argument).bind fun x x' hx => ?_
    exact (print_follows hx).bind fun _ _ _ => Follows.pure stores
  | .loop test body, spares, s, s', stores => by
    simp only [Stmt.simplify?]
    split
    · rename_i never
      obtain ⟨x', literal, truth⟩ := eq_literal_of_truthiness? never
      have h := test_follows stores fuel test
      simp only [literal, Expr.evalIn, eval_literal, Run.pure_andThen, truth] at h
      exact deadLoop_follows h stores fuel m.loopLimit
    · exact repeatWhile_follows (fun s s' stores => test_follows stores fuel test)
        (fun s s' stores => execAll_follows fuel body spares stores) fuel m.loopLimit stores

/-- What is left of statements follows the statements. -/
theorem execAll_follows (fuel : Nat) : (statements : List Stmt) → Stmt.SparesPiAll statements →
    ∀ {s s' : Store}, T.Stores s s' →
      T.Follows T.Stores (Stmt.execAll m fuel statements s)
        (Stmt.execAll m fuel (Stmt.simplifyAll statements) s')
  | [], _, s, s', stores => Follows.pure stores
  | statement :: statements, spares, s, s', stores => by
    rw [execAll_simplifyAll]
    refine (exec_follows fuel statement spares.1 stores).bind fun s s' stores => ?_
    exact execAll_follows fuel statements spares.2 stores

end

theorem stores_empty : T.Stores Store.empty Store.empty := ⟨binds_none, fun _ => rfl⟩

/-- The simplified program follows the program. -/
theorem run_follows (fuel : Nat) (p : Program) (spares : Stmt.SparesPiAll p) :
    T.Follows T.Stores (p.run m fuel) (p.simplify.run m fuel) :=
  execAll_follows fuel p spares stores_empty

end Tolerance

end Frontend.Resolved

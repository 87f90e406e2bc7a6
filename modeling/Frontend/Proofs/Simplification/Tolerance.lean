import Mathlib.Data.List.Forall2
import Frontend.Proofs.Run.Basic
import Frontend.Proofs.Simplification.Rules

/-!
# Runs that follow each other

When a run of one program follows a run of another, step by step, up to a tolerance.

* **`Tolerance`**: which numbers count as the same, and which events a run may have.
  It lists what the rules of folding need, operator by operator: that sameness is kept
  by everything a run computes, and that the operands which a rule drops are indeed
  neutral for the events permitted.
* **`Follows`**: whenever one run yields something and all its events are permitted,
  then the other run yields the same, with the same calls and the same output.
* Following is compositional: `Follows.bind` puts pieces together, and the lemmas around
  it are for pieces that one side does not have.
-/

namespace Frontend

/-- Values of one kind; numbers are related by `same`. -/
def Value.Like (same : Float → Float → Prop) : Value → Value → Prop
  | .number x, .number y => same x y
  | .boolean a, .boolean b => a = b
  | _, _ => False

namespace Resolved

/-- Whether an event can be seen from outside: the calls and the output. -/
def Event.visible : Event → Bool
  | .call _ _ | .print _ => true
  | .unary .. | .binary .. | .receive .. => false

/-- Which numbers count as the same, which events a run may have, and why simplifying
cannot be noticed then. -/
structure Tolerance (m : Machine) where
  /-- Numbers that count as the same. -/
  same : Float → Float → Prop
  /-- Events that a run may have. -/
  permits : Event → Prop
  refl (x : Float) : same x x
  trans {x y z : Float} : same x y → same y z → same x z
  /-- Truth is kept. -/
  truth {x y : Float} : same x y → (Value.number x).truth = (Value.number y).truth
  /-- Negation is kept. -/
  negate {x y : Float} : same x y → same (-x) (-y)
  /-- The values of binary operators are kept. -/
  binary {operator : BinaryOperator} {left right : Expr} {x x' y y' : Value} :
    x.Like same x' → y.Like same y' →
      permits (.binary operator left right x y (operator.apply x y)) →
      (operator.apply x y).Like same (operator.apply x' y')
  /-- The values of built-in functions are kept. -/
  library (name : String) {xs xs' : List Float} {y : Float} :
    List.Forall₂ same xs xs' → m.library name xs = some y →
      ∃ y', m.library name xs' = some y' ∧ same y y'
  /-- What is neutral on the right does nothing. -/
  rightNeutral {operator : BinaryOperator} {left right : Expr} {x : Value} {z z' n : Float} :
    operator.rightNeutral? = some n → right.simplify = .number z' → z' == n → same z z' →
      permits (.binary operator left right x (.number z) (operator.apply x (.number z))) →
      (operator.apply x (.number z)).Like same x
  /-- What is neutral on the left does nothing. -/
  leftNeutral {operator : BinaryOperator} {left right : Expr} {x : Value} {z z' n : Float} :
    operator.leftNeutral? = some n → left.simplify = .number z' → z' == n → same z z' →
      permits (.binary operator left right (.number z) x (operator.apply (.number z) x)) →
      (operator.apply (.number z) x).Like same x
  /-- A product with a zero on the right is zero. -/
  zeroRight {left right : Expr} {x : Value} {z z' : Float} :
    right.simplify = .number z' → z' == 0 → left.simplify.isFiniteArithmetic → same z z' →
      permits (.binary .multiply left right x (.number z)
        (BinaryOperator.multiply.apply x (.number z))) →
      (BinaryOperator.multiply.apply x (.number z)).Like same (.number 0)
  /-- A product with a zero on the left is zero. -/
  zeroLeft {left right : Expr} {x : Value} {z z' : Float} :
    left.simplify = .number z' → z' == 0 → right.simplify.isFiniteArithmetic → same z z' →
      permits (.binary .multiply left right (.number z) x
        (BinaryOperator.multiply.apply (.number z) x)) →
      (BinaryOperator.multiply.apply (.number z) x).Like same (.number 0)

namespace Tolerance

variable {m : Machine} (T : Tolerance m)

/-- Values that count as the same. -/
def Like : Value → Value → Prop := Value.Like T.same

theorem like_refl (x : Value) : T.Like x x := by
  cases x with
  | number x => exact T.refl x
  | boolean b => rfl

theorem like_trans {x y z : Value} (hxy : T.Like x y) (hyz : T.Like y z) : T.Like x z := by
  cases x <;> cases y <;> cases z <;> first | exact T.trans hxy hyz | exact hxy.trans hyz | trivial

theorem like_truth {x y : Value} (h : T.Like x y) : x.truth = y.truth := by
  cases x <;> cases y <;> first | exact T.truth h | exact h | trivial

theorem like_toNumber {x y : Value} (h : T.Like x y) : T.same x.toNumber y.toNumber := by
  cases x with
  | number x =>
    cases y with
    | number y => exact h
    | boolean b => cases h
  | boolean a =>
    cases y with
    | number y => cases h
    | boolean b =>
      cases (show a = b from h)
      exact T.refl _

theorem like_unary (operator : UnaryOperator) {x y : Value} (h : T.Like x y) :
    T.Like (operator.apply x) (operator.apply y) := by
  cases operator with
  | negate => exact T.negate (T.like_toNumber h)
  | not =>
    show (!x.truth) = !y.truth
    rw [T.like_truth h]

theorem decides_eq (operator : BinaryOperator) {x y : Value} (h : T.Like x y) :
    operator.decides x = operator.decides y := by
  cases operator <;> simp only [BinaryOperator.decides, T.like_truth h]

/-! ## Events -/

/-- Visible events that count as the same. -/
def Match : Event → Event → Prop
  | .call f xs, .call g ys => f = g ∧ List.Forall₂ T.same xs ys
  | .print x, .print y => T.Like x y
  | _, _ => False

/-- Events whose visible ones count as the same, in the same order. -/
def Traces (t u : List Event) : Prop :=
  List.Forall₂ T.Match (t.filter Event.visible) (u.filter Event.visible)

theorem traces_nil : T.Traces [] [] := .nil

theorem traces_append {t t' u u' : List Event} (h : T.Traces t u) (h' : T.Traces t' u') :
    T.Traces (t ++ t') (u ++ u') := by
  unfold Traces
  rw [List.filter_append, List.filter_append]
  exact List.rel_append h h'

/-! ## Following -/

/-- Whenever `r` yields something and has no other events than the permitted ones, then
`r'` yields something related by `R`, with the same visible events. -/
def Follows {α β : Type} (R : α → β → Prop) (r : Run α) (r' : Run β) : Prop :=
  ∀ ⦃x t⦄, r.Yields x t → (∀ e ∈ t, T.permits e) →
    ∃ y u, r'.Yields y u ∧ R x y ∧ T.Traces t u

variable {T} {α β γ δ : Type} {R R' : α → β → Prop} {S : γ → δ → Prop}

theorem Follows.pure {x : α} {y : β} (h : R x y) : T.Follows R (pure x) (pure y) := by
  intro x' t yields _
  obtain ⟨rfl, rfl⟩ := Run.yields_pure.mp yields
  exact ⟨y, [], Run.yields_pure.mpr ⟨rfl, rfl⟩, h, T.traces_nil⟩

theorem Follows.halt {reason : Halt} {r' : Run β} : T.Follows R (Run.halt reason) r' := by
  intro x t yields _
  exact absurd yields Run.yields_halt

theorem Follows.bind {r : Run α} {r' : Run β} {f : α → Run γ} {f' : β → Run δ}
    (h : T.Follows R r r') (rest : ∀ x y, R x y → T.Follows S (f x) (f' y)) :
    T.Follows S (r >>= f) (r' >>= f') := by
  intro z t yields permitted
  obtain ⟨x, before, after, hx, hz, rfl⟩ := Run.yields_bind.mp yields
  rw [List.forall_mem_append] at permitted
  obtain ⟨y, before', hy, related, traces⟩ := h hx permitted.1
  obtain ⟨w, after', hw, related', traces'⟩ := rest x y related hz permitted.2
  exact ⟨w, before' ++ after', Run.yields_bind.mpr ⟨y, before', after', hy, hw, rfl⟩, related',
    T.traces_append traces traces'⟩

/-- The rest of the first run adds nothing that can be seen. -/
theorem Follows.bind_left {r : Run α} {r' : Run β} {f : α → Run γ} {Q : γ → β → Prop}
    (h : T.Follows R r r') (rest : ∀ x y, R x y → T.Follows Q (f x) (Pure.pure y)) :
    T.Follows Q (r >>= f) r' := by
  intro z t yields permitted
  -- Putting nothing behind the second run leaves it as it is.
  obtain ⟨w, u, hw, related, traces⟩ := (h.bind rest) yields permitted
  obtain ⟨y, before, after, hy, hpure, rfl⟩ := Run.yields_bind.mp hw
  obtain ⟨rfl, rfl⟩ := Run.yields_pure.mp hpure
  exact ⟨w, before, hy, related, by simpa using traces⟩

/-- The beginning of the first run can be done without. -/
theorem Follows.skip {r : Run α} {b : β} {f : α → Run γ} {r' : Run δ}
    (h : T.Follows R r (Pure.pure b)) (rest : ∀ x, R x b → T.Follows S (f x) r') :
    T.Follows S (r >>= f) r' := by
  intro z t yields permitted
  obtain ⟨x, before, after, hx, hz, rfl⟩ := Run.yields_bind.mp yields
  rw [List.forall_mem_append] at permitted
  obtain ⟨y, u, hy, related, traces⟩ := h hx permitted.1
  obtain ⟨rfl, rfl⟩ := Run.yields_pure.mp hy
  obtain ⟨w, after', hw, related', traces'⟩ := rest x related hz permitted.2
  exact ⟨w, after', hw, related', T.traces_append traces traces'⟩

/-- What follows a run that halts does not matter. -/
theorem Follows.of_halt {r : Run α} {reason : Halt} {f : α → Run γ} {r' : Run δ}
    (h : T.Follows R r (Run.halt reason)) : T.Follows S (r >>= f) r' := by
  intro z t yields permitted
  obtain ⟨x, before, after, hx, -, rfl⟩ := Run.yields_bind.mp yields
  rw [List.forall_mem_append] at permitted
  obtain ⟨y, u, hy, -, -⟩ := h hx permitted.1
  exact absurd hy Run.yields_halt

/-- A run that is followed by one which nobody sees can be done without. -/
theorem Follows.of_silent {r : Run α} {r' : Run β} (h : T.Follows R r r')
    (silent : ∀ y u, r'.Yields y u → u.filter Event.visible = []) :
    T.Follows (fun x _ => ∃ y, R x y) r (Pure.pure ()) := by
  intro x t yields permitted
  obtain ⟨y, u, yields', related, traces⟩ := h yields permitted
  -- The other run is only needed to know that this one shows nothing either.
  refine ⟨(), [], Run.yields_pure.mpr ⟨rfl, rfl⟩, ⟨y, related⟩, ?_⟩
  unfold Traces at traces ⊢
  rw [silent y u yields'] at traces
  exact traces

/-- An event that nobody sees, on both sides or on the first one only. -/
theorem follows_silent {e e' : Event} (h : e.visible = false) (h' : e'.visible = false) :
    T.Follows (fun _ _ => T.permits e) (Run.event e) (Run.event e') := by
  intro x t yields permitted
  have single := Run.yields_event.mp yields
  subst single
  refine ⟨(), [e'], Run.yields_event.mpr rfl, permitted e (List.mem_singleton.mpr rfl), ?_⟩
  simp [Traces, h, h']

theorem follows_unseen {e : Event} (h : e.visible = false) :
    T.Follows (fun _ _ => T.permits e) (Run.event e) (Pure.pure ()) := by
  intro x t yields permitted
  have single := Run.yields_event.mp yields
  subst single
  refine ⟨(), [], Run.yields_pure.mpr ⟨rfl, rfl⟩, permitted e (List.mem_singleton.mpr rfl), ?_⟩
  simp [Traces, h]

theorem follows_seen {e e' : Event} (h : e.visible) (h' : e'.visible) (same : T.Match e e') :
    T.Follows (fun _ _ => True) (Run.event e) (Run.event e') := by
  intro x t yields _
  have single := Run.yields_event.mp yields
  subst single
  refine ⟨(), [e'], Run.yields_event.mpr rfl, trivial, ?_⟩
  simp [Traces, h, h', same]

theorem call_follows (f : Function) {xs xs' : List Float} (related : List.Forall₂ T.same xs xs') :
    T.Follows (fun _ _ => True) (Run.event (.call f xs)) (Run.event (.call f xs')) :=
  follows_seen rfl rfl ⟨rfl, related⟩

theorem print_follows {x x' : Value} (h : T.Like x x') :
    T.Follows (fun _ _ => True) (Run.event (.print x)) (Run.event (.print x')) :=
  follows_seen rfl rfl h

end Tolerance

end Resolved

end Frontend

import Frontend.Resolved.OfTree

/-!
# Looking names up

Small facts about scopes that everything about resolved names rests on.
-/

namespace Frontend

namespace Scope

variable {s s' : Scope} {symbol : Symbol} {entity : Entity}

theorem find?_of_single (single : s.outer = []) (name : String) :
    s.find? name = s.locals.find? name := by
  simp only [find?, frames, single, List.findSome?_cons, List.findSome?_nil]
  cases s.locals.find? name <;> rfl

/-- With one frame around, a name is looked up there if the innermost frame does not have it. -/
theorem find?_of_outer {frame : Frame} (outer : s.outer = [frame]) (name : String) :
    s.find? name = (s.locals.find? name).or (frame.find? name) := by
  simp only [find?, frames, outer, List.findSome?_cons, List.findSome?_nil]
  cases s.locals.find? name with
  | some u => rfl
  | none => cases frame.find? name <;> rfl

/-- A name is declared unless the innermost frame has it. -/
theorem declare_eq_ok (h : s.declare symbol entity = .ok s') :
    s.locals.find? symbol.name = none ∧ s'.locals = (symbol.name, entity) :: s.locals ∧
      s'.outer = s.outer ∧ s'.next = s.next + 1 := by
  unfold declare at h
  split at h
  · cases h
  · rename_i absent
    cases h
    exact ⟨absent, rfl, rfl, rfl⟩

theorem resolve_eq_ok (h : s.resolve symbol = .ok entity) : s.find? symbol.name = some entity := by
  unfold resolve at h
  split at h
  · rename_i found
    cases h
    exact found
  · cases h

theorem resolveVariable_eq_ok {v : Variable} (h : s.resolveVariable symbol = .ok v) :
    s.find? symbol.name = some (.var v) := by
  unfold resolveVariable at h
  split at h
  · cases h
  · rename_i found
    cases h
    exact resolve_eq_ok found
  · cases h

theorem resolveFunction_eq_ok {f : Function} (h : s.resolveFunction symbol = .ok f) :
    s.find? symbol.name = some (.func f) := by
  unfold resolveFunction at h
  split at h
  · cases h
  · rename_i found
    cases h
    exact resolve_eq_ok found
  · cases h

end Scope

end Frontend

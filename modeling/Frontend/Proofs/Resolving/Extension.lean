import Frontend.Proofs.Resolving.Checks
import Frontend.Proofs.Resolving.Scope
import Mathlib.Data.List.Nodup

/-!
# More names in a frame

What a scope finds once more names were declared in its innermost frame.

* **`Entity.declared`**: what is declared by making an entity.
* **`Scope.Extends`**: a scope is another one with entities that were made since, each under its
  own name.  Nothing that the frame had is hidden by that.
* **`Extends.find?_locals`**: what the frame has then.
* **`Extends.declare`**: one more declaration.
-/

namespace Frontend

/-- What an entity means to those who use its name. -/
def Entity.meaning : Entity → Meaning
  | .var v => .variable v.readOnly
  | .func f => .function f.arity

/-- What is declared by making an entity. -/
def Entity.declared (u : Entity) : Declared := ⟨u.name, u.meaning⟩

/-- The entities of the given name are the declarations of that name. -/
theorem find?_declared (made : List Entity) (name : String) :
    (made.map Entity.declared).find? (fun d => d.name == name) =
      (made.find? fun u => u.name == name).map Entity.declared := by
  rw [List.find?_map]
  rfl

/-- Among entities with different names, each is found under its own. -/
theorem find?_name_iff {made : List Entity} (distinct : (made.map Entity.name).Nodup)
    {name : String} {u : Entity} :
    (made.find? fun v => v.name == name) = some u ↔ u ∈ made ∧ u.name = name := by
  constructor
  · intro found
    exact ⟨List.mem_of_find?_eq_some found, by simpa using List.find?_some found⟩
  · rintro ⟨member, rfl⟩
    have some : (made.find? fun v => v.name == u.name).isSome := by
      rw [List.find?_isSome]
      exact ⟨u, member, beq_self_eq_true u.name⟩
    obtain ⟨v, found⟩ := Option.isSome_iff_exists.mp some
    have same : v.name = u.name := by simpa using List.find?_some found
    rw [found, List.inj_on_of_nodup_map distinct (List.mem_of_find?_eq_some found) member same]

/-- In a frame the latest entity comes first.  As long as no name is there twice, this makes no
difference to what is found. -/
theorem Frame.find?_reverse {made : List Entity} (distinct : (made.map Entity.name).Nodup)
    (name : String) : Frame.find? (made.map fun u => (u.name, u)).reverse name =
      made.find? fun u => u.name == name := by
  induction made with
  | nil => rfl
  | cons u us ih =>
    rw [List.map_cons, List.nodup_cons] at distinct
    obtain ⟨other, distinct⟩ := distinct
    have rest := ih distinct
    unfold Frame.find? at rest ⊢
    rw [List.map_cons, List.reverse_cons, List.lookup_append, rest, List.find?_cons]
    -- Names are distinct, so the latest entity of a name is also the first one made.
    by_cases same : u.name = name
    · subst same
      have none : (us.find? fun v => v.name == u.name) = none := by
        rw [List.find?_eq_none]
        intro v member equal
        exact other (List.mem_map.mpr ⟨v, member, eq_of_beq equal⟩)
      simp [none]
    · have own : (u.name == name) = false := beq_eq_false_iff_ne.mpr same
      have own' : (name == u.name) = false := beq_eq_false_iff_ne.mpr (Ne.symm same)
      simp [List.lookup_cons, own, own']

namespace Scope

/-- `s'` is `s` with the entities in `made`, in the order in which they were declared. -/
structure Extends (s : Scope) (made : List Entity) (s' : Scope) : Prop where
  outer : s'.outer = s.outer
  /-- The latest entity comes first, and what the frame had before comes behind all of them. -/
  locals : s'.locals = (made.map fun u => (u.name, u)).reverse ++ s.locals
  distinct : (made.map Entity.name).Nodup
  fresh : ∀ u ∈ made, s.locals.find? u.name = none

theorem Extends.refl (s : Scope) : s.Extends [] s :=
  ⟨rfl, rfl, List.nodup_nil, fun _ none => absurd none List.not_mem_nil⟩

variable {s s' s'' : Scope} {made : List Entity} {symbol : Symbol} {u : Entity} {name : String}

namespace Extends

/-- The innermost frame has what was made, and what it had before. -/
theorem find?_locals (h : s.Extends made s') (name : String) : s'.locals.find? name =
    (made.find? fun u => u.name == name).or (s.locals.find? name) := by
  rw [← Frame.find?_reverse h.distinct, h.locals]
  exact List.lookup_append

/-- The same of the whole scope. -/
theorem find?_eq (h : s.Extends made s') (name : String) :
    s'.find? name = (made.find? fun u => u.name == name).or (s.find? name) := by
  have whole (t : Scope) : t.find? name = (t.locals.find? name).or
      (t.outer.findSome? fun frame => frame.find? name) := by
    simp only [Scope.find?, frames, List.findSome?_cons]
    cases t.locals.find? name <;> rfl
  rw [whole, whole, h.find?_locals, h.outer, Option.or_assoc]

/-- What the frame had is not hidden. -/
theorem keeps (h : s.Extends made s') (found : s.locals.find? name = some u) :
    s'.locals.find? name = some u := by
  -- Had an entity been made under this name, it would not have been fresh.
  have none : (made.find? fun v => v.name == name) = none := by
    rw [List.find?_eq_none]
    intro v member equal
    have fresh := h.fresh v member
    rw [eq_of_beq equal, found] at fresh
    cases fresh
  rw [h.find?_locals, none, Option.none_or, found]

/-- The frame has a name if it had it before, or if an entity was made under it, which then is
what the name stands for. -/
theorem find?_locals_iff (h : s.Extends made s') : s'.locals.find? name = some u ↔
    s.locals.find? name = some u ∨ u ∈ made ∧ u.name = name := by
  constructor
  · intro found
    rw [h.find?_locals, Option.or_eq_some_iff] at found
    rcases found with new | ⟨-, before⟩
    · exact .inr ((find?_name_iff h.distinct).mp new)
    · exact .inl before
  · rintro (before | new)
    · exact h.keeps before
    · rw [h.find?_locals, (find?_name_iff h.distinct).mpr new, Option.some_or]

/-- A declaration makes one entity more. -/
theorem declare (h : s.Extends made s') (named : u.name = symbol.name)
    (declared : s'.declare symbol u = .ok s'') : s.Extends (made ++ [u]) s'' := by
  obtain ⟨absent, locals, outer, -⟩ := declare_eq_ok declared
  rw [h.find?_locals, Option.or_eq_none_iff, ← named] at absent
  obtain ⟨new, fresh⟩ := absent
  constructor
  case outer => rw [outer, h.outer]
  case locals =>
    rw [locals, h.locals, ← named, List.map_append, List.reverse_append]
    rfl
  case distinct =>
    -- The frame did not have the new name, so that none of those made before has it.
    rw [List.map_append, List.nodup_append]
    refine ⟨h.distinct, List.nodup_singleton u.name, ?_⟩
    intro name listed other single same
    obtain ⟨v, member, rfl⟩ := List.mem_map.mp listed
    obtain rfl := List.mem_singleton.mp single
    exact absurd (beq_iff_eq.mpr same) (List.find?_eq_none.mp new v member)
  case fresh =>
    intro v member
    rcases List.mem_append.mp member with before | here
    · exact h.fresh v before
    · rw [List.mem_singleton.mp here]
      exact fresh

/-- Serial numbers may be skipped. -/
theorem advance (h : s.Extends made s') (next : Nat) :
    s.Extends made { s' with next := next } := ⟨h.outer, h.locals, h.distinct, h.fresh⟩

end Extends

end Scope

end Frontend

import Frontend.Proofs.Resolving.Scope
import Mathlib.Data.Finmap

/-!
# Scopes as stacks of finite maps

Frames are entered and left and names are declared, in any order and from the scope at the
beginning of a program on.  The scope answers as a stack of finite maps does.

* **`Scope.Action`**: one thing that is done to a scope.  A history is a list of them.
* **`Environment`**: a stack of finite maps.  The same things can be done to it.
* **`Scope.Refines`**: a scope has the frames that an environment has.  Each action keeps this
  (`Refines.perform`), and so does every history (`refines_behind`).
-/

namespace Frontend

/-- What is done to a scope. -/
inductive Scope.Action where
  /-- A new frame is entered. -/
  | push
  /-- The innermost frame is left. -/
  | pop
  /-- A symbol is declared to stand for an entity. -/
  | declare (symbol : Symbol) (u : Entity)

open Scope (Action)

namespace Scope

/-- The scope behind an action.  The outermost frame is never left, and a declaration that fails
is none. -/
def perform (s : Scope) : Action → Scope
  | .push => s.push
  | .pop => s.pop?.getD s
  | .declare symbol u =>
    match s.declare symbol u with
    | .ok s' => s'
    | .error _ => s

/-- The scope behind a history. -/
def behind (history : List Action) : Scope := history.foldl perform root

theorem behind_concat (history : List Action) (action : Action) :
    behind (history ++ [action]) = (behind history).perform action := by
  simp [behind]

theorem perform_of_declare_ok {s s' : Scope} {symbol : Symbol} {u : Entity}
    (h : s.declare symbol u = .ok s') : s.perform (.declare symbol u) = s' := by
  simp [perform, h]

theorem perform_of_declare_error {s : Scope} {symbol : Symbol} {u : Entity} {d : Diagnostic}
    (h : s.declare symbol u = .error d) : s.perform (.declare symbol u) = s := by
  simp [perform, h]

end Scope

/-! ## Stacks of finite maps -/

/-- Finitely many names and the entities that they stand for. -/
abbrev NameMap : Type := Finmap fun _ : String => Entity

/-- A stack of finite maps. -/
structure Environment where
  /-- The innermost map. -/
  current : NameMap
  /-- The maps around it, from the inside out. -/
  around : List NameMap

namespace Environment

/-- The maps from the inside out. -/
def maps (e : Environment) : List NameMap := e.current :: e.around

/-- What a name stands for in the innermost map that has it. -/
def find? (e : Environment) (name : String) : Option Entity :=
  e.maps.findSome? fun map => map.lookup name

/-- The environment behind an action.  A name that the innermost map has is not changed. -/
def perform (e : Environment) : Action → Environment
  | .push => ⟨∅, e.maps⟩
  | .pop =>
    match e.around with
    | [] => e
    | map :: rest => ⟨map, rest⟩
  | .declare symbol u =>
    if symbol.name ∈ e.current then e else ⟨e.current.insert symbol.name u, e.around⟩

/-- One map, which has the built-in names. -/
def root : Environment := ⟨((Builtin.entities 0).map fun u => ⟨u.name, u⟩).toFinmap, []⟩

/-- The environment behind a history. -/
def behind (history : List Action) : Environment := history.foldl perform root

theorem behind_concat (history : List Action) (action : Action) :
    behind (history ++ [action]) = (behind history).perform action := by
  simp [behind]

theorem distinct_root : ((Builtin.entities 0).map fun u =>
    (⟨u.name, u⟩ : Sigma fun _ : String => Entity)).NodupKeys := by
  unfold List.NodupKeys
  decide

theorem lookup_root {name : String} {u : Entity} :
    root.current.lookup name = some u ↔ u ∈ Builtin.entities 0 ∧ u.name = name := by
  rw [root, Finmap.dlookup_list_toFinmap, ← Option.mem_def, List.mem_dlookup_iff distinct_root,
    List.mem_map]
  constructor
  · intro ⟨v, member, same⟩
    cases same
    exact ⟨member, rfl⟩
  · intro ⟨member, named⟩
    subst named
    exact ⟨u, member, rfl⟩

end Environment

/-! ## A scope and its environment -/

/-- A frame has the names that a map has, with the same entities. -/
def Frame.Is (frame : Frame) (map : NameMap) : Prop := ∀ name, frame.find? name = map.lookup name

theorem Frame.Is.insert {frame : Frame} {map : NameMap} (h : frame.Is map) (name : String)
    (u : Entity) : Frame.Is ((name, u) :: frame) (map.insert name u) := by
  intro other
  by_cases same : other = name
  · subst same
    rw [Finmap.lookup_insert, find?, List.lookup_cons_self]
  · have apart : (other == name) = false := beq_eq_false_iff_ne.mpr same
    rw [Finmap.lookup_insert_of_ne map same, ← h other, find?, List.lookup_cons, apart]
    rfl

namespace Scope

/-- The frames of a scope are the maps of an environment. -/
structure Refines (s : Scope) (e : Environment) : Prop where
  locals : s.locals.Is e.current
  outer : List.Forall₂ Frame.Is s.outer e.around

theorem refines_root : root.Refines Environment.root := by
  refine ⟨?_, .nil⟩
  intro name
  rw [Environment.root, Finmap.dlookup_list_toFinmap]
  show Frame.find? ((Builtin.entities 0).map fun u => (u.name, u)) name = _
  -- Nothing matters of the built-in names but that there are finitely many.
  induction Builtin.entities 0 with
  | nil => rfl
  | cons u us ih =>
    rw [List.map_cons, List.map_cons, Frame.find?, List.lookup_cons]
    by_cases same : name = u.name
    · subst same
      simp
    · have apart : (name == u.name) = false := beq_eq_false_iff_ne.mpr same
      rw [List.dlookup_cons_ne _ (⟨u.name, u⟩ : Sigma fun _ : String => Entity) same, apart]
      exact ih

namespace Refines

variable {s : Scope} {e : Environment}

theorem find?_eq (h : s.Refines e) (name : String) : s.find? name = e.find? name := by
  have whole : List.Forall₂ Frame.Is s.frames e.maps := .cons h.locals h.outer
  unfold Scope.find? Environment.find?
  generalize s.frames = frames, e.maps = maps at whole
  induction whole with
  | nil => rfl
  | cons first _ ih => rw [List.findSome?_cons, List.findSome?_cons, first name, ih]

/-- A declaration fails exactly if the innermost map has the name. -/
theorem declare_eq_error_iff (h : s.Refines e) (symbol : Symbol) (u : Entity) (d : Diagnostic) :
    s.declare symbol u = .error d ↔
      d = ⟨.duplicate symbol.name, symbol.span.start⟩ ∧ symbol.name ∈ e.current := by
  have here := h.locals symbol.name
  unfold declare
  split
  · rename_i v found
    rw [found] at here
    have taken : symbol.name ∈ e.current := Finmap.mem_of_lookup_eq_some here.symm
    simp [taken, eq_comm]
  · rename_i absent
    rw [absent] at here
    have free : symbol.name ∉ e.current := Finmap.lookup_eq_none.mp here.symm
    simp [free]

/-- Every action does the same to a scope and to its environment. -/
theorem perform (h : s.Refines e) (action : Action) :
    (s.perform action).Refines (e.perform action) := by
  cases action with
  | push => exact ⟨fun _ => rfl, .cons h.locals h.outer⟩
  | pop =>
    have outer := h.outer
    unfold Scope.perform Scope.pop? Environment.perform
    -- There is an outer frame exactly if there is a map around, and they go together.
    cases frames : s.outer with
    | nil =>
      rw [frames] at outer
      cases maps : e.around with
      | nil => exact h
      | cons map rest =>
        rw [maps] at outer
        cases outer
    | cons frame others =>
      rw [frames] at outer
      cases maps : e.around with
      | nil =>
        rw [maps] at outer
        cases outer
      | cons map rest =>
        rw [maps] at outer
        obtain ⟨first, others⟩ := List.forall₂_cons.mp outer
        exact ⟨first, others⟩
  | declare symbol u =>
    -- Both refuse a name that the innermost map has already.
    have fails := h.declare_eq_error_iff symbol u
    rw [Environment.perform]
    cases declared : s.declare symbol u with
    | ok s' =>
      rw [declared] at fails
      have free : symbol.name ∉ e.current := by
        intro taken
        cases (fails _).mpr ⟨rfl, taken⟩
      obtain ⟨-, locals, outer, -⟩ := declare_eq_ok declared
      rw [perform_of_declare_ok declared, if_neg free]
      constructor
      · rw [locals]
        exact h.locals.insert symbol.name u
      · rw [outer]
        exact h.outer
    | error d =>
      rw [perform_of_declare_error declared, if_pos ((fails d).mp declared).2]
      exact h

end Refines

/-- Every history leads to a scope and to its environment. -/
theorem refines_behind (history : List Action) :
    (behind history).Refines (Environment.behind history) := by
  induction history using List.reverseRecOn with
  | nil => exact refines_root
  | append_singleton history action ih =>
    rw [behind_concat, Environment.behind_concat]
    exact ih.perform action

end Scope

end Frontend

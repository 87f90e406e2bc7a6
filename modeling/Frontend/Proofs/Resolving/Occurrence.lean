import Frontend.Proofs.Grammar.Derivation
import Frontend.Proofs.Resolving.Checks
import Frontend.Resolved.Basic
import Mathlib.Data.List.Nodup

/-!
# Occurrences of names

What a name refers to, and which entity a resolved program has there.

* **`Occurrence`**: a symbol that uses a name.  `Stmt.occurrences` has those of a program as
  written, and `Stmt.uses` the entities of a resolved program, both in the order of the text.
* **`Declaration`**: what a name can refer to, told by where it is declared.
* **`Occurrence.RefersTo`**: the declaration that an occurrence refers to.  It is a matter of
  names and places alone and knows nothing of scopes or entities.
* **`created?`**: the entity that a resolved program made for a declaration.
* **`Expr.plain`**: a tree without places and entities, of a program as written and of a
  resolved program alike.

A declaration has one entity (`created?` is a function), and no two declarations have the
same one as long as serial numbers are not used twice (`eq_of_created?`).
-/

namespace Frontend

/-! ## Declarations -/

/-- A symbol that uses a name, and its place. -/
structure Occurrence where
  site : Site
  symbol : Symbol

/-- What a name can refer to. -/
inductive Declaration where
  /-- An entry of the table of built-in names. -/
  | builtin (index : Nat)
  /-- A `let` or a function, by its number in the order of the text. -/
  | declared (index : Nat)
  /-- A parameter, by its number, of the function with the number `owner`. -/
  | parameter (owner index : Nat)
deriving DecidableEq

/-- The names that are declared before a place, in the order of the text. -/
def Site.earlierNames (site : Site) : List String := site.earlier.map Declared.name

/-- The names in the table of built-in names. -/
def Builtin.names : List String := Builtin.table.map Builtin.name

/-- The declaration that an occurrence refers to. -/
inductive Occurrence.RefersTo (o : Occurrence) : Declaration → Prop
  /-- A parameter of the function that the occurrence is in.  That function is the latest
  declaration before it. -/
  | parameter {index} (h : o.site.parameters[index]? = some o.symbol.name) :
      o.RefersTo (.parameter (o.site.earlier.length - 1) index)
  /-- An earlier declaration, unless a parameter has the name. -/
  | declared {index} (visible : o.symbol.name ∉ o.site.parameters)
      (h : o.site.earlierNames[index]? = some o.symbol.name) : o.RefersTo (.declared index)
  /-- A built-in name, unless a parameter or an earlier declaration has the name. -/
  | builtin {index} (visible : o.symbol.name ∉ o.site.parameters)
      (free : o.symbol.name ∉ o.site.earlierNames)
      (h : Builtin.names[index]? = some o.symbol.name) : o.RefersTo (.builtin index)

/-- What is declared by the declaration with the number `owner`: first itself, and then its
parameters. -/
def Declaration.inside (owner : Nat) : Nat → Declaration
  | 0 => .declared owner
  | place + 1 => .parameter owner place

/-- No two parameters and no two earlier declarations have the same name. -/
structure Site.Distinct (site : Site) : Prop where
  parameters : site.parameters.Nodup
  earlier : site.earlierNames.Nodup

theorem Builtin.nodup_names : Builtin.names.Nodup := by decide

section Unique

variable {α : Type} {xs : List α} {x : α} {i j : Nat}

/-- A list without duplicates has everything at one place. -/
theorem index_unique (distinct : xs.Nodup) (hi : xs[i]? = some x) (hj : xs[j]? = some x) :
    i = j := by
  have bound := (List.getElem?_eq_some_iff.mp hi).1
  exact (List.getElem?_inj bound distinct).mp (hi.trans hj.symm)

/-- Among distinct names, an occurrence refers to one declaration. -/
theorem Occurrence.RefersTo.unique {o : Occurrence} (distinct : o.site.Distinct)
    {d d' : Declaration} (h : o.RefersTo d) (h' : o.RefersTo d') : d = d' := by
  -- The three ways to refer exclude each other: each demands that those before it fail.
  cases h with
  | parameter at_ =>
    have bound := List.mem_of_getElem? at_
    cases h' with
    | parameter at_' => rw [index_unique distinct.parameters at_ at_']
    | declared visible => exact absurd bound visible
    | builtin visible => exact absurd bound visible
  | declared visible at_ =>
    cases h' with
    | parameter at_' => exact absurd (List.mem_of_getElem? at_') visible
    | declared visible' at_' => rw [index_unique distinct.earlier at_ at_']
    | builtin visible' free => exact absurd (List.mem_of_getElem? at_) free
  | builtin visible free at_ =>
    cases h' with
    | parameter at_' => exact absurd (List.mem_of_getElem? at_') visible
    | declared visible' at_' => exact absurd (List.mem_of_getElem? at_') free
    | builtin visible' free' at_' => rw [index_unique Builtin.nodup_names at_ at_']

end Unique

/-! ## Entities -/

/-- What a `let` or a function makes. -/
structure Creation where
  entity : Entity
  /-- The parameters of a function. -/
  parameters : List Variable

/-- All entities that are made together. -/
def Creation.entities (c : Creation) : List Entity := c.entity :: c.parameters.map Entity.var

/-- Their serial numbers. -/
def Creation.serials (c : Creation) : List Nat := c.entities.map Entity.serial

/-- The name of what is declared. -/
def Creation.name (c : Creation) : String := c.entity.name

/-- How it stands in a frame. -/
def Creation.record (c : Creation) : String × Entity := (c.name, c.entity)

/-- The entity of a declaration, for what `made` has in the order of the text. -/
def created? (made : List Creation) : Declaration → Option Entity
  | .builtin index => (Builtin.entities 0)[index]?
  | .declared index => made[index]?.map Creation.entity
  | .parameter owner index => (made[owner]?.bind fun c => c.parameters[index]?).map Entity.var

/-- All entities, with those of built-in names first. -/
def entitiesOf (made : List Creation) : List Entity :=
  Builtin.entities 0 ++ made.flatMap Creation.entities

/-- No serial number is used twice. -/
def Unmistakable (made : List Creation) : Prop := ((entitiesOf made).map Entity.serial).Nodup

section Created

variable {made : List Creation} {d d' : Declaration} {u u' : Entity}

/-- What is made later changes no entity. -/
theorem created?_append (h : created? made d = some u) (more : List Creation) :
    created? (made ++ more) d = some u := by
  have kept {index : Nat} {c : Creation} (h : made[index]? = some c) :
      (made ++ more)[index]? = some c := by
    have bound := (List.getElem?_eq_some_iff.mp h).1
    rw [List.getElem?_append_left bound, h]
  cases d with
  | builtin index => exact h
  | declared index =>
    obtain ⟨c, at_, same⟩ := Option.map_eq_some_iff.mp h
    simp only [created?, kept at_, Option.map_some, same]
  | parameter owner index =>
    obtain ⟨v, found, same⟩ := Option.map_eq_some_iff.mp h
    obtain ⟨c, at_, place⟩ := Option.bind_eq_some_iff.mp found
    simp only [created?, kept at_, Option.bind_some, place, Option.map_some, same]

/-- Where an entity comes from: it belongs to a built-in name, or it is the entity with the
number `place` of those that are made together. -/
theorem exists_of_created? (h : created? made d = some u) :
    (∃ index, d = .builtin index ∧ (Builtin.entities 0)[index]? = some u) ∨
      ∃ owner place c, d = .inside owner place ∧ made[owner]? = some c ∧
        c.entities[place]? = some u := by
  cases d with
  | builtin index => exact .inl ⟨index, rfl, h⟩
  | declared index =>
    obtain ⟨c, at_, same⟩ := Option.map_eq_some_iff.mp h
    exact .inr ⟨index, 0, c, rfl, at_, congrArg some same⟩
  | parameter owner index =>
    obtain ⟨v, found, same⟩ := Option.map_eq_some_iff.mp h
    obtain ⟨c, at_, place⟩ := Option.bind_eq_some_iff.mp found
    refine .inr ⟨owner, index + 1, c, rfl, at_, ?_⟩
    simp only [Creation.entities, List.getElem?_cons_succ, List.getElem?_map, place,
      Option.map_some, same]

/-- In a list whose serial numbers differ, an entity is at one place. -/
theorem place_unique {us : List Entity} {i j : Nat} (distinct : (us.map Entity.serial).Nodup)
    (hi : us[i]? = some u) (hj : us[j]? = some u') (same : u.serial = u'.serial) : i = j := by
  have left : (us.map Entity.serial)[i]? = some u.serial := by
    rw [List.getElem?_map, hi, Option.map_some]
  have right : (us.map Entity.serial)[j]? = some u.serial := by
    rw [List.getElem?_map, hj, Option.map_some, same]
  exact index_unique distinct left right

/-- What is not used twice is used neither among built-in names, nor among what is made
together, nor for both of two makings. -/
theorem Unmistakable.parts (unmistakable : Unmistakable made) :
    ((Builtin.entities 0).map Entity.serial).Nodup ∧ (∀ c ∈ made, c.serials.Nodup) ∧
      made.Pairwise (fun c c' => c.serials.Disjoint c'.serials) ∧
        ∀ u ∈ Builtin.entities 0, ∀ c ∈ made, ∀ u' ∈ c.entities, u.serial ≠ u'.serial := by
  unfold Unmistakable entitiesOf at unmistakable
  rw [List.map_append, List.nodup_append, List.map_flatMap, List.nodup_flatMap] at unmistakable
  obtain ⟨builtins, ⟨together, apart⟩, others⟩ := unmistakable
  refine ⟨builtins, together, apart, ?_⟩
  intro u hu c hc u' hu'
  have listed : u'.serial ∈ made.flatMap fun c => c.entities.map Entity.serial :=
    List.mem_flatMap.mpr ⟨c, hc, List.mem_map_of_mem hu'⟩
  exact others _ (List.mem_map_of_mem hu) _ listed

/-- Entities with one serial number are made together. -/
theorem Unmistakable.owner_unique (unmistakable : Unmistakable made) {i j : Nat} {c c' : Creation}
    (hi : made[i]? = some c) (hj : made[j]? = some c') (hu : u ∈ c.entities)
    (hu' : u' ∈ c'.entities) (same : u.serial = u'.serial) : i = j := by
  obtain ⟨-, -, apart, -⟩ := unmistakable.parts
  rw [List.pairwise_iff_getElem] at apart
  obtain ⟨boundi, rfl⟩ := List.getElem?_eq_some_iff.mp hi
  obtain ⟨boundj, rfl⟩ := List.getElem?_eq_some_iff.mp hj
  have left : u.serial ∈ made[i].serials := List.mem_map_of_mem hu
  have right : u.serial ∈ made[j].serials := same ▸ List.mem_map_of_mem hu'
  rcases Nat.lt_trichotomy i j with less | equal | greater
  · exact absurd right (apart i j boundi boundj less left)
  · exact equal
  · exact absurd left (apart j i boundj boundi greater right)

/-- **Different declarations have different entities.** -/
theorem eq_of_created? (unmistakable : Unmistakable made) (h : created? made d = some u)
    (h' : created? made d' = some u') (same : u.serial = u'.serial) : d = d' := by
  obtain ⟨builtins, together, -, others⟩ := unmistakable.parts
  -- By the kind of the declarations: of the library, or of the block with its parameters.
  rcases exists_of_created? h with ⟨index, hd, at_⟩ | ⟨owner, place, c, hd, made_, at_⟩
  · rcases exists_of_created? h' with ⟨index', hd', at_'⟩ | ⟨owner', place', c', hd', made_', at_'⟩
    · rw [hd, hd', place_unique builtins at_ at_' same]
    · exact absurd same (others u (List.mem_of_getElem? at_) c' (List.mem_of_getElem? made_') u'
        (List.mem_of_getElem? at_'))
  · rcases exists_of_created? h' with ⟨index', hd', at_'⟩ | ⟨owner', place', c', hd', made_', at_'⟩
    · exact absurd same.symm (others u' (List.mem_of_getElem? at_') c (List.mem_of_getElem? made_) u
        (List.mem_of_getElem? at_))
    -- Serial numbers of one owner are unlike, and those of two owners as well.
    · have owners : owner = owner' := unmistakable.owner_unique made_ made_'
        (List.mem_of_getElem? at_) (List.mem_of_getElem? at_') same
      subst owners
      cases made_.symm.trans made_'
      rw [hd, hd', place_unique (together c (List.mem_of_getElem? made_)) at_ at_' same]

end Created

/-! ## Programs as written -/

namespace Tree

mutual

/-- The symbols in an expression. -/
def Expr.occurrences (site : Site) : Expr → List Occurrence
  | .number .. | .boolean .. => []
  | .symbol s => [⟨site, s⟩]
  | .binary left _ right _ => left.occurrences site ++ right.occurrences site
  | .unary _ operand _ => operand.occurrences site
  | .conditional test consequent alternate _ =>
    test.occurrences site ++ (consequent.occurrences site ++ alternate.occurrences site)
  | .call callee arguments _ => ⟨site, callee⟩ :: Expr.occurrencesAll site arguments

/-- The symbols in expressions. -/
def Expr.occurrencesAll (site : Site) : List Expr → List Occurrence
  | [] => []
  | e :: es => e.occurrences site ++ Expr.occurrencesAll site es

end

mutual

/-- All symbols in an expression stand at its place. -/
theorem Expr.site_of_mem_occurrences {site : Site} {o : Occurrence} : (e : Expr) →
    o ∈ e.occurrences site → o.site = site
  -- All occurrences of an expression are at the site that the expression is seen from.
  | .number .., h | .boolean .., h => by cases h
  | .symbol s, h => by
    rw [List.mem_singleton.mp h]
  | .binary left _ right _, h => by
    rcases List.mem_append.mp h with h | h
    · exact left.site_of_mem_occurrences h
    · exact right.site_of_mem_occurrences h
  | .unary _ operand _, h => operand.site_of_mem_occurrences h
  | .conditional test consequent alternate _, h => by
    rcases List.mem_append.mp h with h | h
    · exact test.site_of_mem_occurrences h
    · rcases List.mem_append.mp h with h | h
      · exact consequent.site_of_mem_occurrences h
      · exact alternate.site_of_mem_occurrences h
  | .call callee arguments _, h => by
    rcases List.mem_cons.mp h with h | h
    · rw [h]
    · exact Expr.site_of_mem_occurrencesAll arguments h

theorem Expr.site_of_mem_occurrencesAll {site : Site} {o : Occurrence} : (es : List Expr) →
    o ∈ Expr.occurrencesAll site es → o.site = site
  | [], h => by cases h
  | e :: es, h => by
    rcases List.mem_append.mp h with h | h
    · exact e.site_of_mem_occurrences h
    · exact Expr.site_of_mem_occurrencesAll es h

end

mutual

/-- The symbols in a statement that use a name.  A function sees itself, and what is declared
in the body of a loop is seen behind it. -/
def Stmt.occurrences (earlier : List Declared) : Stmt → List Occurrence
  | .declaration _ value _ => value.occurrences ⟨[], earlier⟩
  | .function s parameters body _ =>
    body.occurrences ⟨parameters.map Symbol.name, earlier ++ [⟨s.name, .function parameters.length⟩]⟩
  | .assignment s value _ => ⟨⟨[], earlier⟩, s⟩ :: value.occurrences ⟨[], earlier⟩
  | .print argument _ => argument.occurrences ⟨[], earlier⟩
  | .loop test body _ _ => test.occurrences ⟨[], earlier⟩ ++ Stmt.occurrencesAll earlier body
  | .block body _ => Stmt.occurrencesAll earlier body

/-- The symbols in statements that use a name. -/
def Stmt.occurrencesAll (earlier : List Declared) : List Stmt → List Occurrence
  | [] => []
  | s :: ss => s.occurrences earlier ++ Stmt.occurrencesAll (earlier ++ s.declares) ss

end

/-- The symbols in a program that use a name, in the order of the text. -/
def Block.occurrences (block : Block) : List Occurrence := Stmt.occurrencesAll [] block.body

mutual

/-- An expression without its places.  The kind of the token says which operator it is. -/
def Expr.plain : Expr → Bare.Expr
  | .number value _ => .number value
  | .boolean value _ => .boolean value
  | .symbol s => .symbol s.name
  | .binary left operator right _ => .binary left.plain ⟨operator.kind, ""⟩ right.plain
  | .unary operator operand _ => .unary ⟨operator.kind, ""⟩ operand.plain
  | .conditional test consequent alternate _ =>
    .conditional test.plain consequent.plain alternate.plain
  | .call callee arguments _ => .call callee.name (Expr.plainAll arguments)

/-- Expressions without their places. -/
def Expr.plainAll : List Expr → List Bare.Expr
  | [] => []
  | e :: es => e.plain :: Expr.plainAll es

end

mutual

/-- A statement without its places. -/
def Stmt.plain : Stmt → Bare.Stmt
  | .declaration s value _ => .declaration s.name value.plain
  | .function s parameters body _ => .function s.name (parameters.map Symbol.name) body.plain
  | .assignment s value _ => .assignment s.name value.plain
  | .print argument _ => .print argument.plain
  | .loop test body _ _ => .loop test.plain (Stmt.plainAll body)
  | .block body _ => .block (Stmt.plainAll body)

/-- Statements without their places. -/
def Stmt.plainAll : List Stmt → List Bare.Stmt
  | [] => []
  | s :: ss => s.plain :: Stmt.plainAll ss

end

end Tree

/-! ## Resolved programs -/

namespace BinaryOperator

/-- The kind of the token that an operator is written with. -/
def kind : BinaryOperator → Kind
  | or => .or
  | and => .and
  | less => .less
  | lessEqual => .lessEquals
  | equal => .equals
  | notEqual => .notEquals
  | greaterEqual => .greaterEquals
  | greater => .greater
  | add => .plus
  | subtract => .dash
  | multiply => .star
  | divide => .slash
  | modulo => .percent
  | power => .starStar

theorem kind_of_ofKind? {k : Kind} {operator : BinaryOperator} (h : ofKind? k = some operator) :
    operator.kind = k := by
  cases k <;> cases h <;> rfl

end BinaryOperator

namespace UnaryOperator

/-- The kind of the token that an operator is written with. -/
def kind : UnaryOperator → Kind
  | negate => .dash
  | not => .not

theorem kind_of_ofKind? {k : Kind} {operator : UnaryOperator} (h : ofKind? k = some operator) :
    operator.kind = k := by
  cases k <;> cases h <;> rfl

end UnaryOperator

namespace Resolved

mutual

/-- The entities that an expression uses. -/
def Expr.uses : Expr → List Entity
  | .number _ | .boolean _ => []
  | .var v => [.var v]
  | .binary _ left right => left.uses ++ right.uses
  | .unary _ operand => operand.uses
  | .conditional test consequent alternate => test.uses ++ (consequent.uses ++ alternate.uses)
  | .call callee arguments => .func callee :: Expr.usesAll arguments

/-- The entities that expressions use. -/
def Expr.usesAll : List Expr → List Entity
  | [] => []
  | e :: es => e.uses ++ Expr.usesAll es

end

mutual

/-- The entities that a statement uses. -/
def Stmt.uses : Stmt → List Entity
  | .declaration _ initializer => initializer.uses
  | .function _ _ body => body.uses
  | .assignment target source => .var target :: source.uses
  | .print argument => argument.uses
  | .loop test body => test.uses ++ Stmt.usesAll body

/-- The entities that statements use. -/
def Stmt.usesAll : List Stmt → List Entity
  | [] => []
  | s :: ss => s.uses ++ Stmt.usesAll ss

end

/-- The entities that a program uses, in the order of the text. -/
def Program.uses (p : Program) : List Entity := Stmt.usesAll p

mutual

/-- What a statement makes. -/
def Stmt.creations : Stmt → List Creation
  | .declaration v _ => [⟨.var v, []⟩]
  | .function f parameters _ => [⟨.func f, parameters⟩]
  | .assignment .. | .print _ => []
  | .loop _ body => Stmt.creationsAll body

/-- What statements make. -/
def Stmt.creationsAll : List Stmt → List Creation
  | [] => []
  | s :: ss => s.creations ++ Stmt.creationsAll ss

end

/-- What a program makes, in the order of the text. -/
def Program.creations (p : Program) : List Creation := Stmt.creationsAll p

mutual

/-- An expression with names instead of entities. -/
def Expr.plain : Expr → Bare.Expr
  | .number value => .number value
  | .boolean value => .boolean value
  | .var v => .symbol v.name
  | .binary operator left right => .binary left.plain ⟨operator.kind, ""⟩ right.plain
  | .unary operator operand => .unary ⟨operator.kind, ""⟩ operand.plain
  | .conditional test consequent alternate =>
    .conditional test.plain consequent.plain alternate.plain
  | .call callee arguments => .call callee.name (Expr.plainAll arguments)

/-- Expressions with names instead of entities. -/
def Expr.plainAll : List Expr → List Bare.Expr
  | [] => []
  | e :: es => e.plain :: Expr.plainAll es

end

mutual

/-- A statement with names instead of entities. -/
def Stmt.plain : Stmt → Bare.Stmt
  | .declaration v initializer => .declaration v.name initializer.plain
  | .function f parameters body => .function f.name (parameters.map Variable.name) body.plain
  | .assignment target source => .assignment target.name source.plain
  | .print argument => .print argument.plain
  | .loop test body => .loop test.plain (Stmt.plainAll body)

/-- Statements with names instead of entities. -/
def Stmt.plainAll : List Stmt → List Bare.Stmt
  | [] => []
  | s :: ss => s.plain :: Stmt.plainAll ss

end

end Resolved

end Frontend

import Frontend.Proofs.Resolving.Judgement

/-!
# What resolving names rejects

Resolving the names of a program that was read fails exactly if one of its checks is
violated, and then with the first violation.

* **`Check.violationIn?_root`**: the checks of a program are those of its statements in the scope
  with the built-in names.
* **`Judged`**: a step and the checks that decide it.
* **`judged_ofBlock`**: the checks of a program decide about it.
-/

namespace Frontend

/-! ## The scope at the beginning -/

namespace Scope

/-- The entities of built-in names are found as what the names were declared as. -/
theorem lookup_builtin (bs : List Builtin) (first : Nat) (name : String) :
    (((bs.mapIdx fun index b => b.entity (first + index)).map fun e => (e.name, e)).lookup name).map
        Entity.meaning =
      ((bs.map Builtin.declared).find? fun d => d.name == name).map Declared.meaning := by
  -- The serial numbers differ from the start of the table on, but they mean nothing.
  induction bs generalizing first with
  | nil => rfl
  | cons b bs ih =>
    have meaning : (b.entity first).meaning = b.declared.meaning := by
      unfold Builtin.entity Builtin.declared
      cases b.meaning <;> rfl
    have own : b.declared.name = b.name := rfl
    have next := ih (first + 1)
    simp only [Nat.add_right_comm first 1, Nat.add_assoc] at next
    rw [List.mapIdx_cons, List.map_cons, List.map_cons, List.lookup_cons, List.find?_cons,
      Builtin.name_entity, own, Nat.add_zero]
    by_cases same : b.name = name
    · simp [same, meaning]
    · have other : (b.name == name) = false := beq_eq_false_iff_ne.mpr same
      have other' : (name == b.name) = false := beq_eq_false_iff_ne.mpr (Ne.symm same)
      simp only [other, other']
      exact next

end Scope

namespace Site

variable (site : Site) (name : String)

theorem bindingIn_root : site.bindingIn Scope.root name = site.binding name := by
  have builtin := Scope.lookup_builtin Builtin.table 0 name
  unfold bindingIn binding global?
  rw [Scope.find?_of_single rfl, Option.map_or]
  split
  · rfl
  · exact congrArg _ builtin

theorem takenIn_root : site.takenIn Scope.root name = (site.global? name).isSome := by
  have builtin := congrArg Option.isSome (Scope.lookup_builtin Builtin.table 0 name)
  rw [Option.isSome_map, Option.isSome_map] at builtin
  rw [takenIn, global?, Option.isSome_or]
  exact congrArg _ builtin

end Site

/-- With the built-in names around, a check of a statement is a check of the program. -/
theorem Check.violationIn?_root (c : Check) : c.violationIn? Scope.root = c.violation? := by
  have same : c.demand.faultIn? Scope.root c.site c.symbol.name =
      c.demand.fault? c.site c.symbol.name := by
    cases c.demand with
    | declared | writable | newName | newParameter =>
      simp only [Demand.faultIn?, Demand.fault?, Site.bindingIn_root, Site.takenIn_root]
    | isVariable | isFunction | arity =>
      rcases found : c.site.binding c.symbol.name with _ | (_ | _) <;>
        simp only [Demand.faultIn?, Demand.fault?, Site.bindingIn_root, found]
  rw [violationIn?, same, violation?]

/-- The first violation is that of the first check that is violated. -/
theorem FirstViolated.firstViolation_eq {cs : List Check} {c : Check} {d : Diagnostic}
    (h : FirstViolated Scope.root cs c d) : firstViolation cs = some d := by
  obtain ⟨⟨before, after, rfl, passes⟩, violated⟩ := h
  have none : firstViolation before = none := by
    rw [firstViolation, List.findSome?_eq_none_iff]
    intro b member
    rw [← b.violationIn?_root]
    exact passes b member
  rw [firstViolation_append, none, Option.none_or, firstViolation, List.findSome?_cons,
    ← c.violationIn?_root, violated]

namespace Resolved

/-! ## Programs -/

/-- The checks decide about a step: it succeeds if none is violated, and otherwise fails
with the first violation. -/
def Judged {α : Type} (cs : List Check) : Except Stop α → Prop
  | .ok _ => firstViolation cs = none
  | .error stop => (firstViolation cs).map Stop.fault = some stop

theorem judged_ofBlock {block : Tree.Block} (known : Tree.Stmt.KnownAll block.body) :
    Judged block.checks (Program.ofBlock block) := by
  -- The block is settled from the root scope, to which the checks refer.
  have settled := settled_stmtsOfTrees (.refl Scope.root) block.body known
  unfold Program.ofBlock
  rcases resolved : Stmt.ofTrees Scope.root block.body with ⟨⟨statements, _ | stop⟩, s⟩
  · rw [resolved] at settled
    cases settled with
    | resolved passes =>
      -- Seen from the root, a violation is a violation in the block.
      have none : ∀ c ∈ block.checks, c.violation? = none := by
        intro c member
        rw [← c.violationIn?_root]
        exact passes c member
      exact List.findSome?_eq_none_iff.mpr none
  · rw [resolved] at settled
    cases settled with
    | stopped first => exact congrArg (Option.map Stop.fault) first.firstViolation_eq

/-- The names of a program that was read can be resolved exactly if no check is violated.
Otherwise the first violation is the answer, with its cause and its position. -/
theorem ofBlock_fails_by_first_violation {tokens : List Token} {block : Tree.Block}
    (h : Tree.Block.ofTokens tokens = .ok block) :
    ((∃ p, Program.ofBlock block = .ok p) ↔ ∀ c ∈ block.checks, c.violation? = none) ∧
      ∀ stop, Program.ofBlock block = .error stop ↔
        ∃ d, firstViolation block.checks = some d ∧ stop = .fault d := by
  have judged := judged_ofBlock (known_ofTokens h)
  cases resolved : Program.ofBlock block with
  | ok p =>
    rw [resolved] at judged
    -- All checks pass, so there is none to be the first one violated.
    have passes : firstViolation block.checks = none := judged
    refine ⟨⟨fun _ => List.findSome?_eq_none_iff.mp passes, fun _ => ⟨p, rfl⟩⟩, ?_⟩
    intro stop
    constructor
    · intro h
      cases h
    · rintro ⟨d, violated, -⟩
      rw [passes] at violated
      cases violated
  | error stop =>
    rw [resolved] at judged
    obtain ⟨d, violated, rfl⟩ := Option.map_eq_some_iff.mp judged
    constructor
    · constructor
      · rintro ⟨p, h⟩
        cases h
      -- Were all checks passed, there would be no violation to begin with.
      · intro passes
        have none := List.findSome?_eq_none_iff.mpr passes
        rw [firstViolation, none] at violated
        cases violated
    · intro stop
      constructor
      · rintro ⟨⟩
        exact ⟨d, violated, rfl⟩
      · rintro ⟨d', violated', rfl⟩
        rw [violated] at violated'
        cases violated'
        rfl

/-- A function with the name of a variable from the body of a loop, with two parameters of
one name, and with an unknown name in its body. -/
def manyFaults : String := "while false \x7b let n = 1; \x7d function n(a, a) = b;"

/-- Only its name is reported. -/
theorem manyFaults_fails_at_name : ∃ ts block, tokens manyFaults = .ok ts ∧
    Tree.Block.ofTokens ts = .ok block ∧
      Program.ofBlock block = .error (.fault ⟨.duplicate "n", ⟨36, 1, 37⟩⟩) := by
  have evaluated : (parsed manyFaults).toOption.map (fun block => firstViolation block.checks) =
      some (some ⟨.duplicate "n", ⟨36, 1, 37⟩⟩) := by
    decide +kernel
  obtain ⟨block, read, violated⟩ := Option.map_eq_some_iff.mp evaluated
  obtain ⟨ts, scanned, whole⟩ := exists_ofTokens_eq (eq_ok_of_toOption read)
  exact ⟨ts, block, scanned, whole,
    ((ofBlock_fails_by_first_violation whole).2 _).mpr ⟨_, violated, rfl⟩⟩

end Resolved

end Frontend

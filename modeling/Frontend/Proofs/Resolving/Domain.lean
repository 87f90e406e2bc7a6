import Frontend.Proofs.Grammar.Failure
import Frontend.Proofs.Resolving.Judgement

/-!
# Trees that can be resolved

Resolving names knows some operators and some forms of statements.  It gives up at any other
operator, and at a block that stands where a statement should be.  Whatever tokens are read, the
tree has neither, so that only a violated check can keep it from being resolved.

* **`Stmt.EveryStatement`**: all statements in a tree are such, in the bodies of loops as well.
* **`fault_of_ofTrees`**: resolving statements stops at violated checks only.
* **`read_in_domain`**: this is so for all that is read.
-/

namespace Frontend

namespace Tree

mutual

/-- A statement and all statements in it are such. -/
def Stmt.EveryStatement (P : Stmt → Prop) : Stmt → Prop
  | .declaration name value span => P (.declaration name value span)
  | .function name parameters body span => P (.function name parameters body span)
  | .assignment target value span => P (.assignment target value span)
  | .print argument span => P (.print argument span)
  | .loop test body braces span => P (.loop test body braces span) ∧ Stmt.EveryStatementAll P body
  | .block body span => P (.block body span) ∧ Stmt.EveryStatementAll P body

/-- Statements and all statements in them are such. -/
def Stmt.EveryStatementAll (P : Stmt → Prop) : List Stmt → Prop
  | [] => True
  | s :: ss => s.EveryStatement P ∧ Stmt.EveryStatementAll P ss

end

/-- A block where a statement should be. -/
def Stmt.IsBlock (s : Stmt) : Prop := ∃ body span, s = .block body span

mutual

/-- Nowhere in a tree that can be resolved, a block stands by itself. -/
theorem Stmt.Known.no_block : (s : Stmt) → s.Known → s.EveryStatement (¬ ·.IsBlock)
  | .declaration .., _ | .function .., _ | .assignment .., _ | .print .., _ => by
    rintro ⟨_, _, same⟩
    cases same
  | .loop _ body _ _, known => by
    refine ⟨?_, Stmt.KnownAll.no_block body known.2⟩
    rintro ⟨_, _, same⟩
    cases same
  | .block .., known => known.elim

theorem Stmt.KnownAll.no_block : (ss : List Stmt) → Stmt.KnownAll ss →
    Stmt.EveryStatementAll (¬ ·.IsBlock) ss
  | [], _ => trivial
  | s :: ss, known => ⟨Stmt.Known.no_block s known.1, Stmt.KnownAll.no_block ss known.2⟩

end

end Tree

namespace Resolved

/-- With operators of the language only and no block by itself, resolving statements stops at
violated checks only, whatever the scope is. -/
theorem fault_of_ofTrees {trees : List Tree.Stmt} (known : Tree.Stmt.KnownAll trees) (s : Scope)
    {stop : Stop} (failed : (Stmt.ofTrees s trees).1.2 = some stop) : ∃ d, stop = .fault d := by
  have settled := settled_stmtsOfTrees (.refl s) trees known
  rcases resolved : Stmt.ofTrees s trees with ⟨⟨statements, failure⟩, s'⟩
  rw [resolved] at failed settled
  obtain rfl : failure = some stop := failed
  cases settled with
  | stopped => exact ⟨_, rfl⟩

/-- **Whatever is read can be resolved, unless one of its checks is violated.**  All operators in
the tree of a program are operators of the language.  None of its statements, in whatever list they
are, is a block by itself.  So neither the program nor its statements in any other scope are ever
given up for another reason. -/
theorem read_in_domain {tokens : List Token} {block : Tree.Block}
    (h : Tree.Block.ofTokens tokens = .ok block) :
    Tree.Stmt.KnownAll block.body ∧
    Tree.Stmt.EveryStatementAll (¬ ·.IsBlock) block.body ∧
    (∀ s stop, (Stmt.ofTrees s block.body).1.2 = some stop → ∃ d, stop = .fault d) ∧
    ∀ stop, Program.ofBlock block = .error stop → ∃ d, stop = .fault d := by
  -- No block that is read has an unknown operator or a block by itself in it.
  have known := known_ofTokens h
  refine ⟨known, Tree.Stmt.KnownAll.no_block _ known,
    fun s stop failed => fault_of_ofTrees known s failed, ?_⟩
  intro stop failed
  unfold Program.ofBlock at failed
  split at failed
  · cases failed
  · rename_i resolved
    cases failed
    exact fault_of_ofTrees known Scope.root (by rw [resolved])

/-- A loop in a loop, as no text has it: all tokens stand at one place, a name is a reserved word,
and there are braces behind the end. -/
def stray : List Token :=
  [⟨.whileWord, "while"⟩, ⟨.not, "!"⟩, ⟨.identifier, "let"⟩, ⟨.openCurly, "\x7b"⟩,
   ⟨.whileWord, "while"⟩, ⟨.dash, "-"⟩, ⟨.number, "2"⟩, ⟨.starStar, "**"⟩, ⟨.identifier, "b"⟩,
   ⟨.openCurly, "\x7b"⟩, ⟨.closeCurly, "\x7d"⟩, ⟨.closeCurly, "\x7d"⟩, ⟨.eof, ""⟩, ⟨.openCurly, "\x7b"⟩].map
    Word.token

/-- Whatever stands for the names, it is only a violated check that `stray` can stop at. -/
theorem stray_in_domain : ∃ block, Tree.Block.ofTokens stray = .ok block ∧
    Tree.Stmt.KnownAll block.body ∧
    Tree.Stmt.EveryStatementAll (¬ ·.IsBlock) block.body ∧
    (∀ s stop, (Stmt.ofTrees s block.body).1.2 = some stop → ∃ d, stop = .fault d) ∧
    Program.ofBlock block = .error (.fault ⟨.undeclared "let", .first⟩) := by
  -- The source is read and resolved by evaluation; only the outcome is kept.
  have evaluated : (Tree.Block.ofTokens stray).toOption.map (fun block =>
      (Program.ofBlock block).map fun _ => ()) =
        some (.error (.fault ⟨.undeclared "let", .first⟩)) := by
    decide +kernel
  obtain ⟨block, accepted, outcome⟩ := Option.map_eq_some_iff.mp evaluated
  have read := eq_ok_of_toOption accepted
  obtain ⟨known, noBlock, faults, -⟩ := read_in_domain read
  refine ⟨block, read, known, noBlock, faults, ?_⟩
  cases resolved : Program.ofBlock block with
  | ok p =>
    rw [resolved] at outcome
    cases outcome
  | error stop =>
    rw [resolved] at outcome
    rw [Except.error.inj outcome]

end Resolved

end Frontend

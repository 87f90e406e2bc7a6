import Frontend.Proofs.Grammar.Spelling
import Frontend.Proofs.Token.Lexeme
import Frontend.Proofs.Token.Tiling
import Mathlib.Logic.Relation

/-!
# Spans nest

Every node of a tree has a run of tokens: from the first to the last token of what it was read
from, without the parentheses around it.  Its span is taken from the ends of this run, and the
runs of its parts follow each other inside.

* **`Tree.Node`**: the nodes of a tree, with their parts.  The operator that stands between the
  operands of an expression is a part, too.
* **`Framed`**: a run of tokens with the nodes that it frames.
* **`framed_of_spells`**, **`framed_of_spellsStatement`**: what tokens spell is framed by a run of
  them.
* **`spans_nest`**: what follows for a text, whose tokens stand in order and are not empty.
-/

namespace Frontend

open Frontend.Tree (Expr Stmt Block)

/-! ## Nodes -/

/-- Tokens without a semicolon. -/
def Unclosed (ts : List Token) : Prop := ∀ t ∈ ts, t.kind ≠ .semicolon

/-- The first semicolon of a run is its last token. -/
def EndsWithSemicolon (run : List Token) : Prop :=
  ∃ words s, run = words ++ [s] ∧ s.kind = .semicolon ∧ Unclosed words

namespace Tree

/-- A node of a tree, or an operator in it. -/
inductive Node where
  | expr (e : Expr)
  | operator (t : Token)
  | stmt (s : Stmt)
  | block (b : Block)

namespace Node

/-- The text that a node was read from. -/
def span : Node → Span
  | expr e => e.span
  | operator t => t.span
  | stmt s => s.span
  | block b => b.span

/-- A name. -/
def name (s : Symbol) : Node := expr (.symbol s)

/-- The parts of a node, as they follow each other. -/
def parts : Node → List Node
  | expr (.number ..) | expr (.boolean ..) | expr (.symbol _) | operator _ => []
  | expr (.binary left token right _) => [expr left, operator token, expr right]
  | expr (.unary token operand _) => [operator token, expr operand]
  | expr (.conditional test consequent alternate _) => [expr test, expr consequent, expr alternate]
  | expr (.call callee arguments _) => name callee :: arguments.map expr
  | stmt (.declaration identifier value _) => [name identifier, expr value]
  | stmt (.function identifier parameters body _) =>
    name identifier :: (parameters.map name ++ [expr body])
  | stmt (.assignment target value _) => [name target, expr value]
  | stmt (.print argument _) => [expr argument]
  | stmt (.loop test body braces _) => [expr test, block ⟨body, braces⟩]
  | stmt (.block body span) => [block ⟨body, span⟩]
  | block b => b.body.map stmt

/-- The second node is a part of the first one. -/
def Has (n part : Node) : Prop := part ∈ n.parts

/-- How a run of tokens ends that a node is read from.  A statement ends with a semicolon, the first
one from its beginning on, and a loop with the brace that closes its block. -/
def EndsIn (run : List Token) : Node → Prop
  | expr _ | operator _ => True
  | stmt (.loop _ _ braces span) => span.stop = braces.stop ∧
    ∃ words r, run = words ++ [r] ∧ r.kind = .closeCurly
  | stmt _ => EndsWithSemicolon run
  | block _ => ∃ l inside r, run = l :: (inside ++ [r]) ∧ l.kind = .openCurly ∧
    r.kind = .closeCurly

end Node

end Tree

open Frontend.Tree (Node)

/-! ## Runs of tokens -/

/-- The first token of a run starts at `p`. -/
def StartsAt (run : List Token) (p : Position) : Prop := ∃ t, run.head? = some t ∧ t.span.start = p

/-- The last token of a run ends at `p`. -/
def StopsAt (run : List Token) (p : Position) : Prop := ∃ t, run.getLast? = some t ∧ t.span.stop = p

theorem StartsAt.before {run : List Token} {p : Position} (h : StartsAt run p) (back : List Token) :
    StartsAt (run ++ back) p := by
  obtain ⟨t, head, same⟩ := h
  refine ⟨t, ?_, same⟩
  rw [List.head?_append, head]
  rfl

theorem StopsAt.behind {run : List Token} {p : Position} (h : StopsAt run p) (front : List Token) :
    StopsAt (front ++ run) p := by
  obtain ⟨t, last, same⟩ := h
  refine ⟨t, ?_, same⟩
  rw [List.getLast?_append, last]
  rfl

mutual

/-- A node has its span from the ends of a run of tokens, in which its parts follow each other. -/
inductive Framed : List Token → Node → Prop where
  | intro {run : List Token} {n : Node} (starts : StartsAt run n.span.start)
      (stops : StopsAt run n.span.stop) (ends : n.EndsIn run) (parts : FramedAll run n.parts) :
      Framed run n

/-- Nodes with runs of their own, one behind the other, with other tokens between them. -/
inductive FramedAll : List Token → List Node → Prop where
  | nil {ts : List Token} : FramedAll ts []
  | cons {front run back : List Token} {n : Node} {ns : List Node} (first : Framed run n)
      (others : FramedAll back ns) : FramedAll (front ++ (run ++ back)) (n :: ns)

end

/-- A part of the tokens frames a node. -/
def FramedIn (ts : List Token) (n : Node) : Prop := ∃ run, run <:+: ts ∧ Framed run n

namespace FramedAll

variable {ts us : List Token} {n : Node} {ns ms : List Node}

theorem behind (front : List Token) (h : FramedAll ts ns) : FramedAll (front ++ ts) ns := by
  cases h with
  | nil => exact .nil
  | cons first others =>
    rw [← List.append_assoc]
    exact .cons first others

theorem append (h : FramedAll ts ns) (h' : FramedAll us ms) : FramedAll (ts ++ us) (ns ++ ms) := by
  induction ns generalizing ts with
  | nil => exact h'.behind ts
  | cons n ns ih =>
    cases h with
    | @cons front run back _ _ first others =>
      rw [List.append_assoc, List.append_assoc]
      exact .cons first (ih others)

/-- Tokens behind the last part do not matter. -/
theorem before (back : List Token) (h : FramedAll ts ns) : FramedAll (ts ++ back) ns := by
  have whole : FramedAll (ts ++ back) (ns ++ []) := h.append .nil
  rwa [List.append_nil] at whole

theorem single (h : Framed ts n) : FramedAll ts [n] := by
  have whole : FramedAll ([] ++ (ts ++ [])) [n] := .cons h .nil
  rwa [List.nil_append, List.append_nil] at whole

theorem of_framedIn (h : FramedIn ts n) : FramedAll ts [n] := by
  obtain ⟨run, ⟨front, back, same⟩, framed⟩ := h
  rw [← same]
  exact ((single framed).behind front).before back

/-- Each of the nodes is framed by a part of the tokens. -/
theorem framedIn (h : FramedAll ts ns) : ∀ n ∈ ns, FramedIn ts n := by
  induction ns generalizing ts with
  | nil =>
    intro n none
    cases none
  | cons m ns ih =>
    cases h with
    | @cons front run back _ _ first others =>
      rw [List.forall_mem_cons]
      refine ⟨⟨run, ⟨front, back, List.append_assoc front run back⟩, first⟩, ?_⟩
      intro n member
      obtain ⟨run', inside, framed⟩ := ih others n member
      refine ⟨run', inside.trans ⟨front ++ run, [], ?_⟩, framed⟩
      rw [List.append_nil, List.append_assoc]

end FramedAll

theorem FramedIn.of_part {ts us : List Token} {n : Node} (h : FramedIn ts n) (inside : ts <:+: us) :
    FramedIn us n := by
  obtain ⟨run, inside', framed⟩ := h
  exact ⟨run, inside'.trans inside, framed⟩

theorem FramedIn.of_framed {ts : List Token} {n : Node} (h : Framed ts n) : FramedIn ts n :=
  ⟨ts, List.infix_refl ts, h⟩

theorem Framed.starts {run : List Token} {n : Node} (h : Framed run n) :
    StartsAt run n.span.start := by
  cases h with
  | intro starts _ _ _ => exact starts

theorem Framed.stops {run : List Token} {n : Node} (h : Framed run n) :
    StopsAt run n.span.stop := by
  cases h with
  | intro _ stops _ _ => exact stops

theorem Framed.ends {run : List Token} {n : Node} (h : Framed run n) : n.EndsIn run := by
  cases h with
  | intro _ _ ends _ => exact ends

/-- The parts of a node that is framed are framed by parts of its run. -/
theorem Framed.framedIn {run : List Token} {n : Node} (h : Framed run n) :
    ∀ part ∈ n.parts, FramedIn run part := by
  cases h with
  | intro _ _ _ parts => exact parts.framedIn

/-- Parts of parts are framed, too. -/
theorem FramedIn.of_transGen {ts : List Token} {n m : Node} (h : ∀ part ∈ n.parts, FramedIn ts part)
    (below : Relation.TransGen Node.Has n m) : FramedIn ts m := by
  induction below with
  | single part => exact h _ part
  | tail _ part ih =>
    obtain ⟨run, inside, framed⟩ := ih
    exact (framed.framedIn _ part).of_part inside

/-! ## What is spelled is framed -/

/-- A token that is a node of its own. -/
theorem framed_token {t : Token} {n : Node} (span : n.span = t.span) (parts : n.parts = [])
    (ends : n.EndsIn [t]) : Framed [t] n := by
  refine .intro ⟨t, rfl, ?_⟩ ⟨t, rfl, ?_⟩ ends ?_
  · rw [span]
  · rw [span]
  · rw [parts]
    exact .nil

theorem framed_operator (t : Token) : Framed [t] (.operator t) := framed_token rfl rfl trivial

theorem framed_name (t : Token) : Framed [t] (.name ⟨t.text, t.span⟩) :=
  framed_token rfl rfl trivial

mutual

/-- An expression is framed by its tokens without the parentheses around it. -/
theorem framed_of_spells : {ts : List Token} → {e : Expr} → Spells ts e → FramedIn ts (.expr e)
  | _, _, .number .. => .of_framed (framed_token rfl rfl trivial)
  | _, _, .boolean .. => .of_framed (framed_token rfl rfl trivial)
  | _, _, .symbol .. => .of_framed (framed_name _)
  | _, _, .group (l := l) (r := r) _ inner _ => (framed_of_spells inner).of_part ⟨[l], [r], rfl⟩
  | _, _, .unary (o := o) _ operand => by
    obtain ⟨run, ⟨front, back, rfl⟩, framed⟩ := framed_of_spells operand
    refine ⟨[o] ++ (front ++ run), ⟨[], back, ?_⟩, .intro ⟨o, rfl, rfl⟩ ?_ trivial ?_⟩
    · simp only [List.append_assoc, List.nil_append, List.cons_append]
    · exact (framed.stops.behind front).behind [o]
    · exact (FramedAll.single (framed_operator o)).append ((FramedAll.single framed).behind front)
  | _, _, .binary (o := o) left _ right => by
    obtain ⟨run, ⟨front, back, rfl⟩, framed⟩ := framed_of_spells left
    obtain ⟨run', ⟨front', back', rfl⟩, framed'⟩ := framed_of_spells right
    -- A parenthesis in front of the left operand is left out, and so is one behind the right one.
    refine ⟨run ++ ((back ++ [o]) ++ (front' ++ run')), ⟨front, back', ?_⟩,
      .intro (framed.starts.before _) ?_ trivial ?_⟩
    · simp only [List.append_assoc, List.nil_append, List.cons_append]
    · exact ((framed'.stops.behind front').behind (back ++ [o])).behind run
    · have operator := (FramedAll.single (framed_operator o)).behind back
      exact (FramedAll.single framed).append
        (operator.append ((FramedAll.single framed').behind front'))
  | _, _, @Spells.conditional q c _ us _ _ _ _ test _ consequent _ alternate => by
    obtain ⟨run, ⟨front, back, rfl⟩, framed⟩ := framed_of_spells test
    obtain ⟨run', ⟨front', back', rfl⟩, framed'⟩ := framed_of_spells alternate
    have middle := FramedAll.of_framedIn (framed_of_spells consequent)
    refine ⟨run ++ ((back ++ [q]) ++ (us ++ ([c] ++ (front' ++ run')))), ⟨front, back', ?_⟩,
      .intro (framed.starts.before _) ?_ trivial ?_⟩
    · simp only [List.append_assoc, List.nil_append, List.cons_append]
    · exact ((((framed'.stops.behind front').behind [c]).behind us).behind (back ++ [q])).behind run
    · have last := ((FramedAll.single framed').behind front').behind [c]
      exact (FramedAll.single framed).append ((middle.append last).behind (back ++ [q]))
  | _, _, @Spells.call l r _ us _ _ callee _ arguments _ => by
    obtain ⟨run, ⟨front, back, rfl⟩, framed⟩ := framed_of_spells callee
    have values := framedAll_of_spellsArguments arguments
    refine ⟨run ++ ((back ++ [l]) ++ (us ++ [r])), ⟨front, [], ?_⟩,
      .intro (framed.starts.before _) ?_ trivial ?_⟩
    · simp only [List.append_assoc, List.nil_append, List.cons_append, List.append_nil]
    · have close : StopsAt [r] r.span.stop := ⟨r, rfl, rfl⟩
      exact ((close.behind us).behind (back ++ [l])).behind run
    · exact (FramedAll.single framed).append ((values.before [r]).behind (back ++ [l]))

theorem framedAll_of_spellsArguments : {ts : List Token} → {es : List Expr} →
    SpellsArguments ts es → FramedAll ts (es.map Node.expr)
  | _, _, .none => .nil
  | _, _, .some h => framedAll_of_spellsMany h

theorem framedAll_of_spellsMany : {ts : List Token} → {es : List Expr} → SpellsMany ts es →
    FramedAll ts (es.map Node.expr)
  | _, _, .one h => .of_framedIn (framed_of_spells h)
  | _, _, .more (w := w) first _ others =>
    (FramedAll.of_framedIn (framed_of_spells first)).append
      ((framedAll_of_spellsMany others).behind [w])

end

theorem framedAll_of_spellsNames {ts : List Token} {names : List Symbol}
    (h : SpellsNames ts names) : FramedAll ts (names.map Node.name) := by
  induction h with
  | @one t kind => exact .single (framed_name t)
  | @more t w ts names kind comma others ih =>
    exact (FramedAll.single (framed_name t)).append (ih.behind [w])

theorem framedAll_of_spellsParameters {ts : List Token} {names : List Symbol}
    (h : SpellsParameters ts names) : FramedAll ts (names.map Node.name) := by
  cases h with
  | none => exact .nil
  | some h => exact framedAll_of_spellsNames h

namespace Unclosed

variable {t : Token} {ts us : List Token}

theorem nil : Unclosed [] := by
  intro t none
  cases none

theorem cons (h : t.kind ≠ .semicolon) (h' : Unclosed ts) : Unclosed (t :: ts) :=
  List.forall_mem_cons.mpr ⟨h, h'⟩

theorem append (h : Unclosed ts) (h' : Unclosed us) : Unclosed (ts ++ us) :=
  List.forall_mem_append.mpr ⟨h, h'⟩

/-- A word of another kind. -/
theorem word {kind : Kind} (h : t.kind = kind) (other : kind ≠ .semicolon)
    (h' : Unclosed ts) : Unclosed (t :: ts) := by
  rw [← h] at other
  exact cons other h'

end Unclosed

theorem unary_ne_semicolon {kind : Kind} (h : (UnaryOperator.ofKind? kind).isSome) :
    kind ≠ .semicolon := by
  intro same
  rw [same] at h
  cases h

theorem binary_ne_semicolon {kind : Kind} (h : (BinaryOperator.ofKind? kind).isSome) :
    kind ≠ .semicolon := by
  intro same
  rw [same] at h
  cases h

mutual

/-- There is no semicolon in an expression. -/
theorem unclosed_of_spells : {ts : List Token} → {e : Expr} → Spells ts e → Unclosed ts
  -- A semicolon is none of the tokens that stand beside the parts of an expression.
  | _, _, .number kind _ => .word kind (by decide) .nil
  | _, _, .boolean (.inl kind) => .word kind (by decide) .nil
  | _, _, .boolean (.inr kind) => .word kind (by decide) .nil
  | _, _, .symbol kind => .word kind (by decide) .nil
  | _, _, .group opened inner closed =>
    .word opened (by decide) ((unclosed_of_spells inner).append (.word closed (by decide) .nil))
  | _, _, .unary operator operand =>
    .cons (unary_ne_semicolon operator) (unclosed_of_spells operand)
  | _, _, .binary left operator right =>
    (unclosed_of_spells left).append
      (.cons (binary_ne_semicolon operator) (unclosed_of_spells right))
  | _, _, .conditional test question consequent colon alternate =>
    (unclosed_of_spells test).append (.word question (by decide)
      ((unclosed_of_spells consequent).append (.word colon (by decide)
        (unclosed_of_spells alternate))))
  | _, _, .call callee opened arguments closed =>
    (unclosed_of_spells callee).append (.word opened (by decide)
      ((unclosed_of_spellsArguments arguments).append (.word closed (by decide) .nil)))

theorem unclosed_of_spellsArguments : {ts : List Token} → {es : List Expr} →
    SpellsArguments ts es → Unclosed ts
  | _, _, .none => .nil
  | _, _, .some h => unclosed_of_spellsMany h

theorem unclosed_of_spellsMany : {ts : List Token} → {es : List Expr} → SpellsMany ts es →
    Unclosed ts
  | _, _, .one h => unclosed_of_spells h
  | _, _, .more first comma others =>
    (unclosed_of_spells first).append (.word comma (by decide) (unclosed_of_spellsMany others))

end

theorem unclosed_of_spellsNames {ts : List Token} {names : List Symbol} (h : SpellsNames ts names) :
    Unclosed ts := by
  induction h with
  | one kind => exact .word kind (by decide) .nil
  | more kind comma others ih => exact .word kind (by decide) (.word comma (by decide) ih)

theorem unclosed_of_spellsParameters {ts : List Token} {names : List Symbol}
    (h : SpellsParameters ts names) : Unclosed ts := by
  cases h with
  | none => exact .nil
  | some h => exact unclosed_of_spellsNames h

theorem EndsWithSemicolon.behind {run front : List Token} (h : EndsWithSemicolon run)
    (unclosed : Unclosed front) : EndsWithSemicolon (front ++ run) := by
  obtain ⟨words, s, rfl, semicolon, inside⟩ := h
  exact ⟨front ++ words, s, (List.append_assoc ..).symm, semicolon, unclosed.append inside⟩

/-- A value and the semicolon behind it. -/
theorem endsWithSemicolon_of_spells {ts : List Token} {e : Expr} {s : Token} (h : Spells ts e)
    (semicolon : s.kind = .semicolon) : EndsWithSemicolon (ts ++ [s]) :=
  ⟨ts, s, rfl, semicolon, unclosed_of_spells h⟩

theorem of_spellsAssigned {ts : List Token} {e : Expr} {stop : Position}
    (h : SpellsAssigned ts e stop) :
    FramedAll ts [.expr e] ∧ StopsAt ts stop ∧ EndsWithSemicolon ts := by
  cases h with
  | @assigned q s ts e equals value semicolon =>
    refine ⟨((FramedAll.of_framedIn (framed_of_spells value)).before [s]).behind [q], ?_, ?_⟩
    · have close : StopsAt [s] s.span.stop := ⟨s, rfl, rfl⟩
      exact (close.behind ts).behind [q]
    · exact (endsWithSemicolon_of_spells value semicolon).behind (.word equals (by decide) .nil)

mutual

/-- A statement is framed by all of its tokens. -/
theorem framed_of_spellsStatement : {ts : List Token} → {s : Stmt} → SpellsStatement ts s →
    Framed ts (.stmt s)
  | _, _, .declaration (w := w) (i := i) word identifier value => by
    obtain ⟨parts, stops, ends⟩ := of_spellsAssigned value
    refine .intro ⟨w, rfl, rfl⟩ (stops.behind [w, i]) ?_ ?_
    · exact ends.behind (.word word (by decide) (.word identifier (by decide) .nil))
    · exact ((FramedAll.single (framed_name i)).append parts).behind [w]
  | _, _, @SpellsStatement.function w i l r ts _ _ _ _ word identifier opened parameters closed
      body => by
    obtain ⟨parts, stops, ends⟩ := of_spellsAssigned body
    have names := framedAll_of_spellsParameters parameters
    have inside := unclosed_of_spellsParameters parameters
    refine .intro ⟨w, rfl, rfl⟩ (((stops.behind [r]).behind ts).behind [w, i, l]) ?_ ?_
    · have close : Unclosed [r] := .word closed (by decide) .nil
      exact ((ends.behind close).behind inside).behind (.word word (by decide)
        (.word identifier (by decide) (.word opened (by decide) .nil)))
    · have names := names.append (parts.behind [r])
      exact ((FramedAll.single (framed_name i)).append (names.behind [l])).behind [w]
  | _, _, .assignment (i := i) identifier value => by
    obtain ⟨parts, stops, ends⟩ := of_spellsAssigned value
    refine .intro ⟨i, rfl, rfl⟩ (stops.behind [i]) ?_ ?_
    · exact ends.behind (.word identifier (by decide) .nil)
    · exact (FramedAll.single (framed_name i)).append parts
  | _, _, @SpellsStatement.print w s ts _ word argument semicolon => by
    have close : StopsAt [s] s.span.stop := ⟨s, rfl, rfl⟩
    refine .intro ⟨w, rfl, rfl⟩ ((close.behind ts).behind [w]) ?_ ?_
    · exact (endsWithSemicolon_of_spells argument semicolon).behind (.word word (by decide) .nil)
    · exact ((FramedAll.of_framedIn (framed_of_spells argument)).before [s]).behind [w]
  | _, _, @SpellsStatement.loop w l r ts us _ ss word condition opened statements closed => by
    have close : StopsAt [r] r.span.stop := ⟨r, rfl, rfl⟩
    have body := framedAll_of_spellsStatements statements
    -- The block is a node of its own, with the braces around the statements.
    have block : Framed (l :: (us ++ [r])) (.block ⟨ss, ⟨l.span.start, r.span.stop⟩⟩) := by
      refine .intro ⟨l, rfl, rfl⟩ ((close.behind us).behind [l]) ⟨l, us, r, rfl, opened, closed⟩ ?_
      exact (body.before [r]).behind [l]
    refine .intro ⟨w, rfl, rfl⟩ ((block.stops.behind ts).behind [w]) ⟨rfl, ?_⟩ ?_
    · refine ⟨w :: (ts ++ l :: us), r, ?_, closed⟩
      simp only [List.append_assoc, List.cons_append]
    · have test := FramedAll.of_framedIn (framed_of_spells condition)
      exact (test.append (FramedAll.single block)).behind [w]

theorem framedAll_of_spellsStatements : {ts : List Token} → {ss : List Stmt} →
    SpellsStatements ts ss → FramedAll ts (ss.map Node.stmt)
  | _, _, .nil => .nil
  | _, _, .cons first others =>
    (FramedAll.single (framed_of_spellsStatement first)).append
      (framedAll_of_spellsStatements others)

end

/-! ## Tokens in order -/

/-- Tokens that stand in the order of the text, and none of which is empty. -/
structure InOrder (ts : List Token) : Prop where
  ordered : ts.Pairwise fun t t' => t.span.stop.offset ≤ t'.span.start.offset
  nonempty : ∀ t ∈ ts, t.span.start.offset < t.span.stop.offset

namespace InOrder

variable {ts run : List Token} {p : Position}

theorem of_part (h : InOrder ts) (inside : run <:+: ts) : InOrder run :=
  ⟨h.ordered.sublist inside.sublist, fun t member => h.nonempty t (inside.subset member)⟩

/-- No token starts in front of the first one. -/
theorem le_start (h : InOrder run) (starts : StartsAt run p) :
    ∀ t ∈ run, p.offset ≤ t.span.start.offset := by
  obtain ⟨first, head, rfl⟩ := starts
  obtain ⟨others, rfl⟩ := List.head?_eq_some_iff.mp head
  rw [List.forall_mem_cons]
  refine ⟨Nat.le_refl _, ?_⟩
  intro t member
  have behind := (List.pairwise_cons.mp h.ordered).1 t member
  have here := h.nonempty first List.mem_cons_self
  omega

/-- No token stops behind the last one. -/
theorem stop_le (h : InOrder run) (stops : StopsAt run p) :
    ∀ t ∈ run, t.span.stop.offset ≤ p.offset := by
  obtain ⟨last, final, rfl⟩ := stops
  obtain ⟨others, rfl⟩ := List.getLast?_eq_some_iff.mp final
  intro t member
  rcases List.mem_append.mp member with front | here
  · have before := (List.pairwise_append.mp h.ordered).2.2 t front last (List.mem_singleton_self _)
    have nonempty := h.nonempty last (List.mem_append_right _ (List.mem_singleton_self _))
    omega
  · rw [List.mem_singleton.mp here]

end InOrder

theorem StartsAt.exists_mem {run : List Token} {p : Position} (h : StartsAt run p) :
    ∃ t ∈ run, t.span.start = p := by
  obtain ⟨t, head, same⟩ := h
  exact ⟨t, List.mem_of_head? head, same⟩

theorem StopsAt.exists_mem {run : List Token} {p : Position} (h : StopsAt run p) :
    ∃ t ∈ run, t.span.stop = p := by
  obtain ⟨t, last, same⟩ := h
  exact ⟨t, List.mem_of_getLast? last, same⟩

/-- A node that is framed is not empty. -/
theorem Framed.start_lt_stop {run : List Token} {n : Node} (h : Framed run n)
    (order : InOrder run) : n.span.start.offset < n.span.stop.offset := by
  obtain ⟨first, member, same⟩ := h.starts.exists_mem
  have nonempty := order.nonempty first member
  have stop := order.stop_le h.stops first member
  rw [← same]
  omega

/-- What is framed by a part of a run lies between the ends of the run. -/
theorem FramedIn.inside {run : List Token} {n : Node} (h : FramedIn run n) (order : InOrder run)
    {p q : Position} (starts : StartsAt run p) (stops : StopsAt run q) :
    p.offset ≤ n.span.start.offset ∧ n.span.stop.offset ≤ q.offset := by
  obtain ⟨run', inside, framed⟩ := h
  obtain ⟨first, member, same⟩ := framed.starts.exists_mem
  obtain ⟨last, member', same'⟩ := framed.stops.exists_mem
  rw [← same, ← same']
  exact ⟨order.le_start starts first (inside.subset member),
    order.stop_le stops last (inside.subset member')⟩

/-- Nodes that are framed one behind the other do not overlap. -/
theorem FramedAll.ordered {ts : List Token} {ns : List Node} (h : FramedAll ts ns)
    (order : InOrder ts) :
    ns.Pairwise fun n m => n.span.stop.offset ≤ m.span.start.offset := by
  induction ns generalizing ts with
  | nil => exact .nil
  | cons n ns ih =>
    cases h with
    | @cons front run back _ _ first others =>
      have later : InOrder (run ++ back) := order.of_part (List.suffix_append _ _).isInfix
      refine List.pairwise_cons.mpr ⟨?_, ih others (later.of_part (List.suffix_append _ _).isInfix)⟩
      -- A later node starts with a token behind the run of the first one.
      intro m member
      obtain ⟨run', inside, framed⟩ := others.framedIn m member
      obtain ⟨t, here, same⟩ := first.stops.exists_mem
      obtain ⟨t', there, same'⟩ := framed.starts.exists_mem
      rw [← same, ← same']
      exact (List.pairwise_append.mp later.ordered).2.2 t here t' (inside.subset there)

/-! ## Whole texts -/

namespace Tree.Node

/-- Where a node stands: its span reaches from the beginning of a token to the end of a token, and
is not empty. -/
structure Placed (ts : List Token) (n : Node) : Prop where
  run : ∃ front run back, ts = front ++ run ++ back ∧ StartsAt run n.span.start ∧
    StopsAt run n.span.stop ∧ n.EndsIn run
  nonempty : n.span.start.offset < n.span.stop.offset

/-- How the parts of a node stand: inside its span, in the order of the text, and apart from each
other. -/
structure Nested (n : Node) : Prop where
  inside : ∀ part ∈ n.parts, n.span.start.offset ≤ part.span.start.offset ∧
    part.span.stop.offset ≤ n.span.stop.offset
  ordered : n.parts.Pairwise fun part part' => part.span.stop.offset ≤ part'.span.start.offset

end Tree.Node

theorem FramedIn.placed {ts : List Token} {n : Node} (h : FramedIn ts n) (order : InOrder ts)
    (back : List Token) : n.Placed (ts ++ back) := by
  obtain ⟨run, ⟨front, behind, rfl⟩, framed⟩ := h
  refine ⟨⟨front, run, behind ++ back, ?_, framed.starts, framed.stops, framed.ends⟩, ?_⟩
  · simp only [List.append_assoc]
  · exact framed.start_lt_stop (order.of_part ⟨front, behind, rfl⟩)

theorem FramedIn.nested {ts : List Token} {n : Node} (h : FramedIn ts n) (order : InOrder ts) :
    n.Nested := by
  obtain ⟨run, inside, framed⟩ := h
  have order' := order.of_part inside
  constructor
  · intro part member
    exact (framed.framedIn part member).inside order' framed.starts framed.stops
  · cases framed with
    | intro _ _ _ parts => exact parts.ordered order'

/-- The tokens of a text stand in order, and none but its end is empty. -/
theorem inOrder_of_tokens {source : String} {ts front back : List Token} {stop : Token}
    (scanned : tokens source = .ok ts) (same : ts = front ++ stop :: back) :
    InOrder front ∧ ∀ t ∈ front, t.span.stop.offset ≤ stop.span.start.offset := by
  have tiling := Token.tiling_of_scan (Token.scan_eq_of_tokens scanned)
  obtain ⟨words, ended, proper⟩ := tiling.ended
  -- The last token is not among those in front of another one.
  have inside : words = front ++ (stop :: back).dropLast := by
    rw [same] at ended
    have shorter := congrArg List.dropLast ended
    rw [List.dropLast_concat, List.dropLast_append_of_ne_nil (List.cons_ne_nil _ _)] at shorter
    exact shorter.symm
  have ordered := tiling.ordered
  rw [same] at ordered
  obtain ⟨ordered, -, before⟩ := List.pairwise_append.mp ordered
  refine ⟨⟨ordered, ?_⟩, ?_⟩
  · intro t member
    apply tiling.nonempty t
    · rw [same]
      exact List.mem_append_left _ member
    · apply proper
      rw [inside]
      exact List.mem_append_left _ member
  · intro t member
    exact before t member stop List.mem_cons_self

/-- **Spans nest.**  In a program that was read from a text, the parts of every node stand inside
its span, in order and apart from each other, and so does the operator between two operands.  Every
node but the program as a whole reaches from the beginning of a token to the end of a token and is
not empty.  A statement ends with its semicolon, and a loop with the brace that closes its block. -/
theorem spans_nest {source : String} {ts : List Token} {block : Block}
    (scanned : tokens source = .ok ts) (read : Tree.Block.ofTokens ts = .ok block) :
    (∀ n, Relation.ReflTransGen Node.Has (.block block) n → n.Nested) ∧
      ∀ n, Relation.TransGen Node.Has (.block block) n → n.Placed ts := by
  cases ts with
  | nil =>
    -- A text has tokens, the last of which stands for its end.
    obtain ⟨words, ended, -⟩ := (Token.tiling_of_scan (Token.scan_eq_of_tokens scanned)).ended
    exact absurd ended.symm (List.append_ne_nil_of_right_ne_nil words (List.cons_ne_nil _ _))
  | cons first others =>
    obtain ⟨front, stop, back, same, -, spelled, span⟩ := spells_ofTokens read
    obtain ⟨order, before⟩ := inOrder_of_tokens scanned same
    have parts := framedAll_of_spellsStatements spelled
    have below : ∀ n, Relation.TransGen Node.Has (.block block) n → FramedIn front n := by
      intro n below
      exact FramedIn.of_transGen (n := .block block) parts.framedIn below
    constructor
    · intro n reached
      rcases Relation.reflTransGen_iff_eq_or_transGen.mp reached with whole | part
      · -- The program ends where the end of the text starts, so that it is no run of its tokens.
        rw [whole]
        refine ⟨?_, parts.ordered order⟩
        intro part member
        obtain ⟨run, inside, framed⟩ := parts.framedIn part member
        obtain ⟨t, here, start⟩ := framed.starts.exists_mem
        obtain ⟨t', there, stopped⟩ := framed.stops.exists_mem
        have head : StartsAt front first.span.start := by
          cases front with
          | nil => cases (inside.subset here)
          | cons _ _ =>
            cases same
            exact ⟨first, rfl, rfl⟩
        rw [show (Node.block block).span = _ from span, ← start, ← stopped]
        exact ⟨order.le_start head t (inside.subset here), before t' (inside.subset there)⟩
      · exact (below n part).nested order
    · intro n part
      rw [same]
      exact (below n part).placed order _

/-- Parentheses around operands and names, calls, and loops inside each other. -/
def nestedLoops : String :=
  "while (a) < ((b)) { let c = -(f(a, (b)) + a); while c { print (c) ? a : b; } }"

theorem nestedLoops_nest : ∃ ts block, tokens nestedLoops = .ok ts ∧
    Tree.Block.ofTokens ts = .ok block ∧ block.body.length = 1 ∧
      (∀ n, Relation.ReflTransGen Node.Has (.block block) n → n.Nested) ∧
        ∀ n, Relation.TransGen Node.Has (.block block) n → n.Placed ts := by
  have single : (parsed nestedLoops).toOption.map (fun block => block.body.length) = some 1 := by
    decide +kernel
  obtain ⟨block, read, same⟩ := Option.map_eq_some_iff.mp single
  obtain ⟨ts, scanned, accepted⟩ := exists_ofTokens_eq (eq_ok_of_toOption read)
  exact ⟨ts, block, scanned, accepted, same, spans_nest scanned accepted⟩

end Frontend

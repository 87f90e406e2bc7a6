import Frontend.Proofs.Grammar.Forward
import Frontend.Proofs.Grammar.Moved
import Frontend.Proofs.Grammar.Statement

/-!
# Two readings side by side

Two lists of tokens that begin with the same words are read in the same way, for as long as
the readings stay among these words.  Nothing depends on the places of the tokens, and only
one step looks further than at the token to be read.

* **`SharedFront`**: the first `n` words of two lists are the same.
* **`Level`**: two cursors at the token with the same number, among the first `n`.
* **`Tracks`**: started at such cursors, two steps come to the same outcome, unless the first
  of them leaves the first `n` tokens.
* **`readProgram_tracks`**: this is so for the reading of whole programs.
-/

namespace Frontend

/-! ## Two lists -/

/-- The first list ends with the end of the text, and its first `n` words are those of the
second one. -/
structure SharedFront (n : Nat) (ts ts' : List Token) : Prop where
  closed : Closed (ts.map Token.word)
  words : ∀ i < n, (ts[i]?).map Token.word = (ts'[i]?).map Token.word

/-- Positions at which tokens with the same number start, among the first `n` of two lists, where
the first one has the given text. -/
def SameStart (n : Nat) (ts ts' : List Token) (text : String) (p p' : Position) : Prop :=
  ∃ i < n, ∃ t t', ts[i]? = some t ∧ ts'[i]? = some t' ∧ t.text = text ∧
    t.span.start = p ∧ t'.span.start = p'

/-- Cursors at the token with the same number, among the first `n` of two lists. -/
structure Level (n : Nat) (ts ts' : List Token) (c c' : Cursor) : Prop where
  tokens : c.tokens = ts
  tokens' : c'.tokens = ts'
  index : c.index = c'.index
  inside : c.index < n

variable {n : Nat} {ts ts' : List Token}

namespace Level

variable {c c' : Cursor}

/-- The token to be read is the same word on both sides. -/
theorem moved (shared : SharedFront n ts ts') (level : Level n ts ts' c c') :
    c.current.Moved (SameStart n ts ts') c'.current := by
  have here : ts[c.index]? = some c.current := by rw [← level.tokens, c.getElem?_index]
  have there : ts'[c.index]? = some c'.current := by
    rw [← level.tokens', level.index, c'.getElem?_index]
  have same := shared.words c.index level.inside
  rw [here, there] at same
  exact ⟨Option.some.inj same, c.index, level.inside, _, _, here, there, rfl, rfl, rfl⟩

theorem kind_eq (shared : SharedFront n ts ts') (level : Level n ts ts' c c') :
    c.current.kind = c'.current.kind :=
  congrArg Word.kind (level.moved shared).word

/-- There is a token behind every one but the end. -/
theorem exists_ahead (shared : SharedFront n ts ts') (level : Level n ts ts' c c')
    (word : c.current.kind ≠ .eof) : ∃ next others, c.ahead = next :: others := by
  have closed := shared.closed
  rw [← level.tokens, Cursor.tokens, List.map_append] at closed
  have left := closed.of_append (List.cons_ne_nil _ _)
  apply List.exists_cons_of_ne_nil
  intro none
  rw [none] at left
  exact absurd rfl (left.tail word).ne_nil

theorem index_advance (shared : SharedFront n ts ts') (level : Level n ts ts' c c')
    (word : c.current.kind ≠ .eof) : c.advance.index = c.index + 1 := by
  obtain ⟨next, others, ahead⟩ := level.exists_ahead shared word
  exact Cursor.index_advance ahead

/-- Both cursors move on, unless the first one leaves the shared words. -/
theorem advance (shared : SharedFront n ts ts') (level : Level n ts ts' c c')
    (word : c.current.kind ≠ .eof) (inside : c.index + 1 < n) :
    Level n ts ts' c.advance c'.advance := by
  -- Only the first list is known to be closed, so that both move follows from the shared word.
  obtain ⟨next, others, ahead⟩ := level.exists_ahead shared word
  have here : ts[c.index + 1]? = some next := by
    rw [← level.tokens, c.getElem?_succ_index, ahead]
    rfl
  have same := shared.words (c.index + 1) inside
  rw [here, ← level.tokens', level.index, c'.getElem?_succ_index] at same
  have moved := Cursor.index_advance ahead
  cases ahead' : c'.ahead with
  | nil =>
    -- The second list would have no token where the first one has a shared one.
    rw [ahead'] at same
    cases same
  | cons next' others' =>
    have moved' := Cursor.index_advance ahead'
    refine ⟨?_, ?_, ?_, ?_⟩
    · rw [c.tokens_advance, level.tokens]
    · rw [c'.tokens_advance, level.tokens']
    · rw [moved, moved', level.index]
    · rwa [moved]

/-- Behind the same word, the cursors see the same kind. -/
theorem peek_eq (level : Level n ts ts' c c')
    (same : (ts[c.index + 1]?).map Token.word = (ts'[c.index + 1]?).map Token.word) :
    c.peek = c'.peek := by
  rw [← level.tokens, c.getElem?_succ_index, ← level.tokens', level.index,
    c'.getElem?_succ_index] at same
  -- Whether there is a token behind is part of what is equal.
  unfold Cursor.peek
  cases ahead : c.ahead with
  | nil =>
    cases ahead' : c'.ahead with
    | nil => rfl
    | cons next' others' =>
      rw [ahead, ahead'] at same
      cases same
  | cons next others =>
    cases ahead' : c'.ahead with
    | nil =>
      rw [ahead, ahead'] at same
      cases same
    | cons next' others' =>
      rw [ahead, ahead'] at same
      exact congrArg Word.kind (Option.some.inj same)

end Level

/-! ## Outcomes -/

variable (n ts ts') in
/-- The outcomes of two steps are the same, or the first one has left the shared words. -/
inductive Outcome {α : Type} (R : α → α → Prop) (j : Nat) :
    EStateM.Result Stop Cursor α → EStateM.Result Stop Cursor α → Prop where
  /-- Both yield something, and neither stands in front of the token with number `j`. -/
  | yields {x y : α} {d d' : Cursor} (related : R x y) (level : Level n ts ts' d d')
      (reached : j ≤ d.index) : Outcome R j (.ok x d) (.ok y d')
  /-- Both stop for the same reason at the token with the same number. -/
  | fails {fault : Fault} {p p' : Position} {d d' : Cursor}
      (same : SameFault (SameStart n ts ts') fault p p') :
      Outcome R j (.error (.fault ⟨fault, p⟩) d) (.error (.fault ⟨fault, p'⟩) d')
  /-- The first one leaves the shared words and yields something. -/
  | passes {x : α} {d : Cursor} {r : EStateM.Result Stop Cursor α} (past : n ≤ d.index) :
      Outcome R j (.ok x d) r
  /-- The first one leaves the shared words and stops. -/
  | stops {stop : Stop} {d : Cursor} {r : EStateM.Result Stop Cursor α} (past : n ≤ d.index) :
      Outcome R j (.error stop d) r
  /-- The first one stops at the last shared word, a name, where the words behind it differ. -/
  | glances {d : Cursor} {r : EStateM.Result Stop Cursor α} (tokens : d.tokens = ts)
      (last : d.index + 1 = n) (name : d.current.kind = .identifier)
      (differ : (ts[n]?).map Token.word ≠ (ts'[n]?).map Token.word) :
      Outcome R j (.error (.fault
        ⟨.misplaced d.current.text "expected a statement", d.position⟩) d) r

variable (n ts ts') in
/-- Started at cursors side by side, the first of which `P` is true of, two steps come to the
same outcome. -/
def Tracks {α : Type} (P : Cursor → Prop) (j : Nat) (R : α → α → Prop) (p q : Parse α) : Prop :=
  ∀ c c', Level n ts ts' c c' → P c → Outcome n ts ts' R j (p.run c) (q.run c')

/-- Where a step leaves the shared words, its outcome does not matter. -/
theorem Outcome.of_final {α : Type} {R : α → α → Prop} {j : Nat} {p : Parse α} {c : Cursor}
    {r : EStateM.Result Stop Cursor α} (past : n ≤ (p.final c).index) :
    Outcome n ts ts' R j (p.run c) r := by
  unfold Parse.final at past
  generalize p.run c = r' at past ⊢
  cases r' with
  | ok x d => exact .passes past
  | error stop d => exact .stops past

/-- A cursor that does not stand in front of the token with number `i`. -/
def From (i : Nat) (c : Cursor) : Prop := i ≤ c.index

/-- A cursor that stands at a token of a kind, too. -/
def At (i : Nat) (kind : Kind) (c : Cursor) : Prop := i ≤ c.index ∧ c.current.kind = kind

namespace Tracks

variable {α β : Type} {P : Cursor → Prop} {R : α → α → Prop} {R' : β → β → Prop} {i j l : Nat}
  {p q : Parse α}

theorem mono {P' : Cursor → Prop} (h : Tracks n ts ts' P j R p q) (stronger : ∀ c, P' c → P c)
    (less : l ≤ j) : Tracks n ts ts' P' l R p q := by
  intro c c' level pre
  have outcome := h c c' level (stronger c pre)
  generalize p.run c = r, q.run c' = r' at outcome ⊢
  cases outcome with
  | yields related level reached => exact .yields related level (Nat.le_trans less reached)
  | fails same => exact .fails same
  | passes past => exact .passes past
  | stops past => exact .stops past
  | glances tokens last name differ => exact .glances tokens last name differ

theorem at_kind {k : Kind} (h : Tracks n ts ts' (From i) j R p q) :
    Tracks n ts ts' (At i k) j R p q :=
  h.mono (fun _ pre => pre.1) (Nat.le_refl j)

theorem pure {x y : α} (h : R x y) (reached : j ≤ i) :
    Tracks n ts ts' (From i) j R (Pure.pure x) (Pure.pure y) :=
  fun _ _ level pre => .yields h level (Nat.le_trans reached pre)

/-- One step after the other, where it does not matter what comes of the first one beyond the
shared words. -/
theorem bind {f g : α → Parse β} [∀ x, Parse.Forward (f x)] (first : Tracks n ts ts' P j R p q)
    (rest : ∀ x y, R x y → Tracks n ts ts' (From j) l R' (f x) (g y)) :
    Tracks n ts ts' P l R' (p >>= f) (q >>= g) := by
  intro c c' level pre
  have outcome := first c c' level pre
  rw [Parse.run_bind, Parse.run_bind]
  generalize p.run c = r, q.run c' = r' at outcome ⊢
  cases outcome with
  | yields related level reached => exact rest _ _ related _ _ level reached
  | fails same => exact .fails same
  | @passes x d _ past =>
    -- Beyond the shared words it is enough that the second step does not come back.
    have forward := @Parse.Forward.index_le _ (f x) _ d
    exact Outcome.of_final (Nat.le_trans past forward)
  | stops past => exact .stops past
  | glances tokens last name differ => exact .glances tokens last name differ

/-- Nothing is said of cursors beyond the shared words. -/
theorem of_past (past : ∀ c, P c → n ≤ c.index) : Tracks n ts ts' P j R p q := by
  intro c c' level pre
  have inside := level.inside
  have outside := past c pre
  omega

theorem fail {fault : Fault} {x y : Position} (same : SameFault (SameStart n ts ts') fault x y) :
    Tracks n ts ts' P j R (Parse.fail fault x) (Parse.fail fault y) :=
  fun _ _ _ _ => .fails same

variable (shared : SharedFront n ts ts')
include shared

/-- A step that goes by the kind of the token to be read. -/
theorem kind {f g : Kind → Parse α} (h : ∀ k, Tracks n ts ts' (At i k) j R (f k) (g k)) :
    Tracks n ts ts' (From i) j R (Parse.kind >>= f) (Parse.kind >>= g) := by
  intro c c' level pre
  have step := h c.current.kind c c' level ⟨pre, rfl⟩
  have same : (Parse.kind >>= g).run c' = (g c.current.kind).run c' := by
    rw [level.kind_eq shared]
    rfl
  rw [same]
  exact step

theorem advance {k : Kind} (word : k ≠ .eof) :
    Tracks n ts ts' (At i k) (i + 1) (Token.Moved (SameStart n ts ts')) Parse.advance
      Parse.advance := by
  rintro c c' level ⟨from', rfl⟩
  have next := level.index_advance shared word
  by_cases inside : c.index + 1 < n
  · refine .yields (level.moved shared) (level.advance shared word inside) ?_
    omega
  · refine .passes ?_
    omega

/-- A step that goes by the token to be read. -/
theorem current {f g : Token → Parse α}
    (h : ∀ t t', t.Moved (SameStart n ts ts') t' → Tracks n ts ts' (At i t.kind) j R (f t) (g t')) :
    Tracks n ts ts' (From i) j R (Parse.current >>= f) (Parse.current >>= g) := by
  intro c c' level pre
  exact h _ _ (level.moved shared) c c' level ⟨pre, rfl⟩

theorem misplaced (reason : String) :
    Tracks n ts ts' (From i) j R (Parse.misplaced reason) (Parse.misplaced reason) := by
  refine current shared fun t t' moved => ?_
  have text : t.text = t'.text := congrArg Word.text moved.word
  rw [text]
  exact fail ⟨t.text, text.symm, moved.start⟩

theorem expectOr {k : Kind} (word : k ≠ .eof) {fault : Fault} {x y : Position}
    (same : SameFault (SameStart n ts ts') fault x y) :
    Tracks n ts ts' (From i) (i + 1) (Token.Moved (SameStart n ts ts'))
      (Parse.expectOr k ⟨fault, x⟩) (Parse.expectOr k ⟨fault, y⟩) := by
  refine current shared fun t t' moved => ?_
  have kind : t.kind = t'.kind := congrArg Word.kind moved.word
  rw [← kind]
  by_cases listed : t.kind = k
  · rw [if_pos listed, if_pos listed]
    exact advance shared (listed ▸ word)
  · rw [if_neg listed, if_neg listed]
    exact fail same

/-- A token of a kind is read, or the same diagnostic is given for the token that stands there. -/
theorem expect {k : Kind} (word : k ≠ .eof) :
    Tracks n ts ts' (From i) (i + 1) (Token.Moved (SameStart n ts ts')) (Parse.expect k)
      (Parse.expect k) := by
  refine current shared fun t t' moved => ?_
  have text : t.text = t'.text := congrArg Word.text moved.word
  rw [text]
  have same : SameFault (SameStart n ts ts') (.unexpected t'.text) t.span.start t'.span.start :=
    ⟨t.text, text.symm, moved.start⟩
  exact (expectOr shared word same).at_kind

theorem expectFor {k : Kind} (word : k ≠ .eof) (reason : String) :
    Tracks n ts ts' (From i) (i + 1) (Token.Moved (SameStart n ts ts')) (Parse.expectFor k reason)
      (Parse.expectFor k reason) := by
  refine current shared fun t t' moved => ?_
  have text : t.text = t'.text := congrArg Word.text moved.word
  rw [text]
  have same : SameFault (SameStart n ts ts') (.misplaced t'.text reason) t.span.start
      t'.span.start := ⟨t.text, text.symm, moved.start⟩
  exact (expectOr shared word same).at_kind

end Tracks

/-! ## Expressions -/

namespace Grammar

open Frontend.Tree (Expr Stmt Block)
open Parse (Forward)

variable (n ts ts') in
/-- From the token with number `i` on, two ways to read the expressions inside others come to the
same outcome. -/
def TracksInner (i : Nat) (inner inner' : Power → Parse Expr) : Prop :=
  ∀ j, i ≤ j → ∀ power, Tracks n ts ts' (From j) (j + 1) (Expr.Moved (SameStart n ts ts'))
    (inner power) (inner' power)

variable {inner inner' : Power → Parse Expr} {i j : Nat} {left left' : Expr}
variable (shared : SharedFront n ts ts')
include shared

section

variable [∀ power, Forward (inner power)]

theorem opening_tracks (track : TracksInner n ts ts' (i + 1) inner inner') (le : i ≤ j) :
    Tracks n ts ts' (From j) (j + 1) (Expr.Moved (SameStart n ts ts'))
      (opening Table.language inner) (opening Table.language inner') := by
  refine Tracks.kind shared fun kind => ?_
  cases opens : Table.language.opening? kind with
  | none => exact (Tracks.misplaced shared _).at_kind
  | some what =>
    -- Every form but the missing one passes the opening token, which is the same word.
    have next := Tracks.advance shared (i := j) (openings_kind opens)
    have later : i + 1 ≤ j + 1 := Nat.succ_le_succ le
    cases what with
    | number =>
      show Tracks _ _ _ _ _ _ (Parse.advance >>= numberOf) (Parse.advance >>= numberOf)
      refine next.bind fun t t' moved => ?_
      -- The same text reads as the same number, or fails at the same token on both sides.
      have text : t.text = t'.text := congrArg Word.text moved.word
      rw [numberOf, numberOf, text]
      cases Number.ofText? t'.text with
      | some value => exact Tracks.pure .number (Nat.le_refl _)
      | none => exact Tracks.fail ⟨t.text, text.symm, moved.start⟩
    | boolean =>
      refine next.bind fun t t' moved => ?_
      have kind : t.kind = t'.kind := congrArg Word.kind moved.word
      rw [kind]
      exact Tracks.pure .boolean (Nat.le_refl _)
    | symbol =>
      refine next.bind fun t t' moved => ?_
      have name : Symbol.Moved (SameStart n ts ts') ⟨t.text, t.span⟩ ⟨t'.text, t'.span⟩ :=
        ⟨congrArg Word.text moved.word, moved.start⟩
      exact Tracks.pure (.symbol name) (Nat.le_refl _)
    | unary =>
      refine next.bind fun t t' moved => ?_
      refine (track _ later _).bind fun e e' operand => ?_
      exact Tracks.pure (.unary moved.word operand) (by omega)
    | group =>
      refine (Tracks.expect shared (by decide)).at_kind.bind fun _ _ _ => ?_
      refine (track _ later _).bind fun e e' inside => ?_
      refine (Tracks.expect shared (by decide)).bind fun _ _ _ => ?_
      exact Tracks.pure inside (by omega)

theorem arguments_tracks (track : TracksInner n ts ts' i inner inner') (le : i ≤ j)
    {fuel fuel' : Nat} (enough : n ≤ j + fuel) (enough' : n ≤ j + fuel') :
    Tracks n ts ts' (From j) (j + 1) (Expr.MovedAll (SameStart n ts ts'))
      (arguments inner fuel) (arguments inner' fuel') := by
  induction fuel generalizing j fuel' with
  -- Without fuel all shared tokens have been passed, and nothing more is claimed.
  | zero => exact Tracks.of_past fun c pre => Nat.le_trans enough pre
  | succ fuel ih =>
    cases fuel' with
    | zero => exact Tracks.of_past fun c pre => Nat.le_trans enough' pre
    | succ fuel' =>
      refine (track j le _).bind fun e e' first => ?_
      refine Tracks.kind shared fun kind => ?_
      by_cases comma : kind = .comma
      · subst comma
        refine (Tracks.advance shared (by decide)).bind fun _ _ _ => ?_
        refine (ih (by omega) (by omega) (by omega)).bind fun es es' others => ?_
        exact Tracks.pure (.cons first others) (by omega)
      -- One argument and no comma: both end here.
      · rw [if_neg comma, if_neg comma]
        exact (Tracks.pure (.cons first .nil) (Nat.le_refl _)).at_kind

theorem branches_tracks (track : TracksInner n ts ts' i inner inner') (le : i ≤ j)
    (test : left.Moved (SameStart n ts ts') left') :
    Tracks n ts ts' (From j) (j + 1) (Expr.Moved (SameStart n ts ts'))
      (branches inner left) (branches inner' left') := by
  refine (Tracks.expect shared (by decide)).bind fun _ _ _ => ?_
  refine (track _ (by omega) _).bind fun a a' consequent => ?_
  refine (Tracks.expectFor shared (by decide) _).bind fun _ _ _ => ?_
  refine (track _ (by omega) _).bind fun b b' alternate => ?_
  exact Tracks.pure (.conditional test consequent alternate) (by omega)

theorem rightOperand_tracks (track : TracksInner n ts ts' i inner inner') (le : i ≤ j)
    (moved : left.Moved (SameStart n ts ts') left') {kind : Kind} (word : kind ≠ .eof)
    (power : Power) :
    Tracks n ts ts' (At j kind) (j + 1) (Expr.Moved (SameStart n ts ts'))
      (rightOperand inner left power) (rightOperand inner' left' power) := by
  refine (Tracks.advance shared word).bind fun t t' operator => ?_
  refine (track _ (by omega) _).bind fun b b' right => ?_
  exact Tracks.pure (.binary moved operator.word right) (by omega)

theorem refuseComparison_tracks :
    Tracks n ts ts' (From j) j (fun _ _ => True)
      (refuseComparison Table.language) (refuseComparison Table.language) := by
  refine Tracks.kind shared fun kind => ?_
  by_cases relational : Table.language.power? kind = some .relational
  · rw [if_pos relational]
    exact (Tracks.misplaced shared _).at_kind
  · rw [if_neg relational]
    exact (Tracks.pure trivial (Nat.le_refl _)).at_kind

theorem callOf_tracks (track : TracksInner n ts ts' i inner inner') (le : i ≤ j)
    (moved : left.Moved (SameStart n ts ts') left') {fuel fuel' : Nat} (enough : n ≤ j + 1 + fuel)
    (enough' : n ≤ j + 1 + fuel') :
    Tracks n ts ts' (From j) (j + 1) (Expr.Moved (SameStart n ts ts'))
      (callOf inner fuel left) (callOf inner' fuel' left') := by
  cases moved with
  | symbol name =>
    rw [callOf_symbol, callOf_symbol]
    refine (Tracks.expect shared (by decide)).bind fun _ _ _ => ?_
    refine Tracks.kind shared fun kind => ?_
    -- The closing parenthesis is one word on both sides, so both have arguments or neither has.
    have values : Tracks n ts ts' (From (j + 1)) (j + 1) (Expr.MovedAll (SameStart n ts ts'))
        (if kind = .closeParen then pure [] else arguments inner fuel)
        (if kind = .closeParen then pure [] else arguments inner' fuel') := by
      by_cases close : kind = .closeParen
      · rw [if_pos close, if_pos close]
        exact Tracks.pure .nil (Nat.le_refl _)
      · rw [if_neg close, if_neg close]
        have some := arguments_tracks shared track (by omega) enough enough'
        -- Having arguments ends further on than the empty list; the smaller bound serves both.
        exact some.mono (fun _ pre => pre) (Nat.le_succ _)
    refine values.at_kind.bind fun es es' arguments => ?_
    refine (Tracks.expect shared (by decide)).bind fun _ _ _ => ?_
    exact Tracks.pure (.call name arguments) (by omega)
  | _ => exact Tracks.misplaced shared _

/-- What an operator makes of the expression on its left. -/
theorem continuation_tracks (track : TracksInner n ts ts' i inner inner') (le : i ≤ j)
    (moved : left.Moved (SameStart n ts ts') left') {fuel fuel' : Nat} (enough : n ≤ j + 1 + fuel)
    (enough' : n ≤ j + 1 + fuel') {kind : Kind} {own : Power} {form : Continuation}
    (goes : Table.language.continuation? kind = some (own, form)) :
    Tracks n ts ts' (At j kind) (j + 1) (Expr.Moved (SameStart n ts ts'))
      (continuation Table.language inner fuel left own form)
      (continuation Table.language inner' fuel' left' own form) := by
  have word : kind ≠ .eof := by
    rintro rfl
    cases goes
  cases form with
  | conditional => exact (branches_tracks shared track le moved).at_kind
  | binary =>
    refine (rightOperand_tracks shared track le moved word own).bind fun e e' whole => ?_
    by_cases relational : own = .relational
    · rw [if_pos relational, if_pos relational]
      refine (refuseComparison_tracks shared).bind fun _ _ _ => ?_
      exact Tracks.pure whole (Nat.le_refl _)
    -- Only a comparison is followed by a look at the next token.
    · rw [if_neg relational, if_neg relational]
      exact Tracks.pure whole (Nat.le_refl _)
  | exponent => exact rightOperand_tracks shared track le moved word _
  | call => exact (callOf_tracks shared track le moved enough enough').at_kind

/-- The loop.  Every round reads at least one token, and so the fuel lasts up to the end of the
shared words. -/
theorem continueWhile_tracks (track : TracksInner n ts ts' i inner inner') (le : i ≤ j)
    (moved : left.Moved (SameStart n ts ts') left') {count count' : Nat} (enough : n ≤ j + count)
    (enough' : n ≤ j + count') (power : Power) :
    Tracks n ts ts' (From j) j (Expr.Moved (SameStart n ts ts'))
      (continueWhile Table.language inner power count left)
      (continueWhile Table.language inner' power count' left') := by
  induction count generalizing j left left' count' with
  | zero => exact Tracks.of_past fun c pre => Nat.le_trans enough pre
  | succ count ih =>
    cases count' with
    | zero => exact Tracks.of_past fun c pre => Nat.le_trans enough' pre
    | succ count' =>
      refine Tracks.kind shared fun kind => ?_
      cases goes : Table.language.continuation? kind with
      | none => exact (Tracks.pure moved (Nat.le_refl _)).at_kind
      | some entry =>
        obtain ⟨own, form⟩ := entry
        by_cases loose : own ≤ power
        · simp only [if_pos loose]
          exact (Tracks.pure moved (Nat.le_refl _)).at_kind
        · simp only [if_neg loose]
          -- A continuation passes a token, so less fuel is enough for what follows.
          have enough : n ≤ j + 1 + count := by omega
          have enough' : n ≤ j + 1 + count' := by omega
          have step := continuation_tracks shared track le moved enough enough' goes
          refine step.bind fun e e' longer => ?_
          have rest := ih (by omega) longer enough enough'
          exact rest.mono (fun _ pre => pre) (Nat.le_succ _)

end

/-- Expressions are read in the same way, with any fuel that lasts up to the end of the shared
words. -/
theorem expr_tracks {fuel fuel' : Nat} (enough : n ≤ i + fuel) (enough' : n ≤ i + fuel') :
    TracksInner n ts ts' i (expr Table.language fuel) (expr Table.language fuel') := by
  induction fuel generalizing i fuel' with
  | zero =>
    intro j le power
    exact Tracks.of_past fun c pre => Nat.le_trans (Nat.le_trans enough le) pre
  | succ fuel ih =>
    intro j le power
    cases fuel' with
    | zero => exact Tracks.of_past fun c pre => Nat.le_trans (Nat.le_trans enough' le) pre
    | succ fuel' =>
      have track : TracksInner n ts ts' (i + 1) (expr Table.language fuel)
          (expr Table.language fuel') := ih (by omega) (by omega)
      refine (opening_tracks shared track le).bind fun e e' moved => ?_
      exact continueWhile_tracks shared track (by omega) moved (by omega) (by omega) power

/-! ## Statements -/

theorem identifier_tracks (context : String) :
    Tracks n ts ts' (From j) (j + 1) (Symbol.Moved (SameStart n ts ts'))
      (identifier context) (identifier context) := by
  refine (Tracks.expectFor shared (by decide) _).bind fun t t' moved => ?_
  exact Tracks.pure ⟨congrArg Word.text moved.word, moved.start⟩ (Nat.le_refl _)

theorem parameters_tracks {fuel fuel' : Nat} (enough : n ≤ j + fuel) (enough' : n ≤ j + fuel') :
    Tracks n ts ts' (From j) (j + 1) (List.Forall₂ (Symbol.Moved (SameStart n ts ts')))
      (parameters fuel) (parameters fuel') := by
  induction fuel generalizing j fuel' with
  -- As for arguments: no fuel means that the shared tokens are passed.
  | zero => exact Tracks.of_past fun c pre => Nat.le_trans enough pre
  | succ fuel ih =>
    cases fuel' with
    | zero => exact Tracks.of_past fun c pre => Nat.le_trans enough' pre
    | succ fuel' =>
      refine (identifier_tracks shared _).bind fun s s' first => ?_
      refine Tracks.kind shared fun kind => ?_
      by_cases comma : kind = .comma
      · subst comma
        refine (Tracks.advance shared (by decide)).bind fun _ _ _ => ?_
        refine (ih (by omega) (by omega)).bind fun ss ss' others => ?_
        exact Tracks.pure (.cons first others) (by omega)
      · rw [if_neg comma, if_neg comma]
        exact (Tracks.pure (.cons first .nil) (Nat.le_refl _)).at_kind

theorem assigned_tracks {fuel fuel' : Nat} (enough : n ≤ j + fuel) (enough' : n ≤ j + fuel') :
    Tracks n ts ts' (From j) (j + 1) (Expr.Moved (SameStart n ts ts'))
      (assigned Table.language fuel) (assigned Table.language fuel') := by
  refine (Tracks.expect shared (by decide)).bind fun _ _ _ => ?_
  refine (expr_tracks shared enough enough' _ (Nat.le_succ j) _).bind fun e e' value => ?_
  refine (Tracks.expect shared (by decide)).bind fun _ _ _ => ?_
  exact Tracks.pure value (by omega)

omit shared in
theorem spanFrom_tracks (x y : Position) :
    Tracks n ts ts' (From j) j (fun _ _ => True) (spanFrom x) (spanFrom y) :=
  fun _ _ level pre => .yields trivial level pre

section

variable {fuel fuel' : Nat} (enough : n ≤ j + 1 + fuel) (enough' : n ≤ j + 1 + fuel')
include enough enough'

theorem declaration_tracks {kind : Kind} (word : kind ≠ .eof) :
    Tracks n ts ts' (At j kind) (j + 1) (Stmt.Moved (SameStart n ts ts'))
      (declaration Table.language fuel) (declaration Table.language fuel') := by
  refine (Tracks.advance shared word).bind fun _ _ _ => ?_
  refine (identifier_tracks shared _).bind fun i i' identifier => ?_
  refine (assigned_tracks shared (by omega) (by omega)).bind fun e e' value => ?_
  refine (spanFrom_tracks _ _).bind fun _ _ _ => ?_
  exact Tracks.pure (.declaration identifier value) (by omega)

theorem function_tracks {kind : Kind} (word : kind ≠ .eof) :
    Tracks n ts ts' (At j kind) (j + 1) (Stmt.Moved (SameStart n ts ts'))
      (function Table.language fuel) (function Table.language fuel') := by
  rw [function_eq, function_eq]
  refine (Tracks.advance shared word).bind fun _ _ _ => ?_
  refine (identifier_tracks shared _).bind fun i i' identifier => ?_
  refine (Tracks.expect shared (by decide)).bind fun _ _ _ => ?_
  refine Tracks.kind shared fun kind => ?_
  -- With parameters the reading gets further than without, so the bound is the common one.
  have names : Tracks n ts ts' (From (j + 1 + 1 + 1)) (j + 1)
      (List.Forall₂ (Symbol.Moved (SameStart n ts ts')))
      (if kind = .closeParen then pure [] else parameters fuel)
      (if kind = .closeParen then pure [] else parameters fuel') := by
    by_cases close : kind = .closeParen
    · rw [if_pos close, if_pos close]
      exact Tracks.pure .nil (by omega)
    · rw [if_neg close, if_neg close]
      have some := parameters_tracks shared enough enough'
      exact some.mono (fun _ pre => Nat.le_trans (by omega) pre) (by omega)
  refine names.at_kind.bind fun is is' parameters => ?_
  refine (Tracks.expect shared (by decide)).bind fun _ _ _ => ?_
  refine (assigned_tracks shared (by omega) (by omega)).bind fun e e' body => ?_
  refine (spanFrom_tracks _ _).bind fun _ _ _ => ?_
  exact Tracks.pure (.function identifier parameters body) (by omega)

theorem assignment_tracks :
    Tracks n ts ts' (From j) (j + 1) (Stmt.Moved (SameStart n ts ts'))
      (assignment Table.language fuel) (assignment Table.language fuel') := by
  refine (identifier_tracks shared _).bind fun i i' target => ?_
  refine (assigned_tracks shared (by omega) (by omega)).bind fun e e' value => ?_
  refine (spanFrom_tracks _ _).bind fun _ _ _ => ?_
  exact Tracks.pure (.assignment target value) (by omega)

theorem print_tracks {kind : Kind} (word : kind ≠ .eof) :
    Tracks n ts ts' (At j kind) (j + 1) (Stmt.Moved (SameStart n ts ts'))
      (print Table.language fuel) (print Table.language fuel') := by
  refine (Tracks.advance shared word).bind fun _ _ _ => ?_
  refine (expr_tracks shared enough enough' _ (Nat.le_refl _) _).bind fun e e' argument => ?_
  refine (Tracks.expect shared (by decide)).bind fun _ _ _ => ?_
  refine (spanFrom_tracks _ _).bind fun _ _ _ => ?_
  exact Tracks.pure (.print argument) (by omega)

end

section

variable {read read' : Parse Stmt} [Forward read]

/-- Statements up to a closing brace, each of which is at least one token. -/
theorem blockBody_tracks (track : ∀ j, i ≤ j →
      Tracks n ts ts' (From j) (j + 1) (Stmt.Moved (SameStart n ts ts')) read read') (le : i ≤ j)
    {count count' : Nat} (enough : n ≤ j + count) (enough' : n ≤ j + count') :
    Tracks n ts ts' (From j) j (Stmt.MovedAll (SameStart n ts ts')) (blockBody read count)
      (blockBody read' count') := by
  induction count generalizing j count' with
  | zero => exact Tracks.of_past fun c pre => Nat.le_trans enough pre
  | succ count ih =>
    cases count' with
    | zero => exact Tracks.of_past fun c pre => Nat.le_trans enough' pre
    | succ count' =>
      refine Tracks.kind shared fun kind => ?_
      split
      -- The brace that closes, the end of the text, and a statement: the same case on both sides.
      · exact (Tracks.pure .nil (Nat.le_refl _)).at_kind
      · exact (Tracks.misplaced shared _).at_kind
      · refine (track j le).at_kind.bind fun s s' first => ?_
        refine (ih (by omega) (by omega) (by omega)).bind fun ss ss' others => ?_
        exact Tracks.pure (.cons first others) (by omega)

theorem loop_tracks {kind : Kind} (word : kind ≠ .eof) (track : ∀ k, j + 1 ≤ k →
      Tracks n ts ts' (From k) (k + 1) (Stmt.Moved (SameStart n ts ts')) read read')
    {fuel fuel' : Nat} (enough : n ≤ j + 1 + fuel) (enough' : n ≤ j + 1 + fuel') :
    Tracks n ts ts' (At j kind) (j + 1) (Stmt.Moved (SameStart n ts ts'))
      (loop Table.language read fuel) (loop Table.language read' fuel') := by
  refine (Tracks.advance shared word).bind fun _ _ _ => ?_
  refine (expr_tracks shared enough enough' _ (Nat.le_refl _) _).bind fun e e' test => ?_
  -- The block as a reading by itself, whose two braces are words of both lists.
  have block : Tracks n ts ts' (From (j + 1 + 1)) (j + 1)
      (fun b b' => Stmt.MovedAll (SameStart n ts ts') b.body b'.body)
      (blockOf read fuel) (blockOf read' fuel') := by
    refine (Tracks.expect shared (by decide)).bind fun _ _ _ => ?_
    refine (blockBody_tracks shared track (by omega) (by omega) (by omega)).bind
      fun ss ss' body => ?_
    refine (Tracks.expect shared (by decide)).bind fun _ _ _ => ?_
    exact Tracks.pure body (by omega)
  refine block.bind fun b b' body => ?_
  exact Tracks.pure (.loop test body) (Nat.le_refl _)

end

omit shared in
/-- An assignment is told from other statements by its second token. -/
theorem run_statement (fuel : Nat) (c : Cursor) :
    (statement Table.language (fuel + 1)).run c =
      match Table.language.opener? c.current.kind with
      | some .declaration => (declaration Table.language fuel).run c
      | some .function => (function Table.language fuel).run c
      | some .print => (print Table.language fuel).run c
      | some .loop => (loop Table.language (statement Table.language fuel) fuel).run c
      | none =>
        if c.current.kind = .identifier ∧ c.peek = .assignment then
          (assignment Table.language fuel).run c
        else (Parse.misplaced "expected a statement" : Parse Stmt).run c := by
  show EStateM.run (match Table.language.opener? c.current.kind with
    | some .declaration => declaration Table.language fuel
    | some .function => function Table.language fuel
    | some .print => print Table.language fuel
    | some .loop => loop Table.language (statement Table.language fuel) fuel
    | none =>
      if c.current.kind = .identifier ∧ c.peek = .assignment then assignment Table.language fuel
      else Parse.misplaced "expected a statement") c = _
  split
  · rfl
  · rfl
  · rfl
  · rfl
  · split <;> rfl

omit shared in
/-- An assignment reads its target first. -/
theorem index_advance_le_assignment (fuel : Nat) {c : Cursor}
    (name : c.current.kind = .identifier) :
    c.advance.index ≤ ((assignment Table.language fuel).final c).index := by
  have first : (identifier "as assignment target").run c = .ok _ c.advance :=
    identifier_yields.mpr ⟨name, rfl, rfl⟩
  unfold assignment
  rw [Parse.final_bind, first]
  exact Parse.Forward.index_le _

/-- Where a statement begins with a name, the token behind the name decides, which may be no
shared word. -/
theorem outcome_of_name {fuel fuel' : Nat} (enough : n ≤ j + 1 + fuel)
    (enough' : n ≤ j + 1 + fuel') {c c' : Cursor} (level : Level n ts ts' c c') (pre : From j c)
    (name : c.current.kind = .identifier) :
    Outcome n ts ts' (Stmt.Moved (SameStart n ts ts')) (j + 1)
      (if c.peek = .assignment then (assignment Table.language fuel).run c
        else (Parse.misplaced "expected a statement" : Parse Stmt).run c)
      (if c'.peek = .assignment then (assignment Table.language fuel').run c'
        else (Parse.misplaced "expected a statement" : Parse Stmt).run c') := by
  -- Two different words behind the name: the name is the last shared token.
  have outside (differ : c.peek ≠ c'.peek) : c.index + 1 = n := by
    have inside := level.inside
    by_contra more
    exact differ (level.peek_eq (shared.words _ (by omega)))
  by_cases assigns : c.peek = .assignment
  · rw [if_pos assigns]
    by_cases assigns' : c'.peek = .assignment
    · rw [if_pos assigns']
      exact assignment_tracks shared enough enough' c c' level pre
    · -- The first one reads the name as a target, and so leaves the shared words.
      have last := outside (by rw [assigns]; exact Ne.symm assigns')
      have moved := level.index_advance shared (by rw [name]; decide)
      have forward := index_advance_le_assignment fuel name
      exact Outcome.of_final (by omega)
  · rw [if_neg assigns]
    by_cases assigns' : c'.peek = .assignment
    · -- Only the second one reads a target: then what they glance at differs.
      have last := outside (by rw [assigns']; exact assigns)
      refine .glances level.tokens last name ?_
      intro same
      rw [← last] at same
      exact assigns ((level.peek_eq same).trans assigns')
    · rw [if_neg assigns']
      exact Tracks.misplaced shared _ c c' level pre

theorem statement_tracks {fuel fuel' : Nat} (enough : n ≤ j + fuel) (enough' : n ≤ j + fuel') :
    Tracks n ts ts' (From j) (j + 1) (Stmt.Moved (SameStart n ts ts'))
      (statement Table.language fuel) (statement Table.language fuel') := by
  induction fuel generalizing j fuel' with
  | zero => exact Tracks.of_past fun c pre => Nat.le_trans enough pre
  | succ fuel ih =>
    cases fuel' with
    | zero => exact Tracks.of_past fun c pre => Nat.le_trans enough' pre
    | succ fuel' =>
      intro c c' level pre
      have enough : n ≤ j + 1 + fuel := by omega
      have enough' : n ≤ j + 1 + fuel' := by omega
      -- The opening word is shared, and so is the choice between the statements.
      rw [run_statement, run_statement, ← level.kind_eq shared]
      cases opens : Table.language.opener? c.current.kind with
      | some opener =>
        have word : c.current.kind ≠ .eof := by
          intro ends
          rw [ends] at opens
          cases opens
        have here : At j c.current.kind c := ⟨pre, rfl⟩
        cases opener with
        | declaration => exact declaration_tracks shared enough enough' word c c' level here
        | function => exact function_tracks shared enough enough' word c c' level here
        | print => exact print_tracks shared enough enough' word c c' level here
        | loop =>
          have inner : ∀ k, j + 1 ≤ k → Tracks n ts ts' (From k) (k + 1)
              (Stmt.Moved (SameStart n ts ts')) (statement Table.language fuel)
              (statement Table.language fuel') := by
            intro k le
            exact ih (by omega) (by omega)
          exact loop_tracks shared word inner enough enough' c c' level here
      | none =>
        by_cases name : c.current.kind = .identifier
        · simp only [name, true_and]
          exact outcome_of_name shared enough enough' level pre name
        · simp only [name, false_and, if_false]
          exact Tracks.misplaced shared _ c c' level pre

/-- Statements up to the end of the text, which is the end of the first list. -/
theorem statements_tracks {fuel fuel' : Nat} (enough : n ≤ fuel) (enough' : n ≤ fuel')
    {count count' : Nat} (many : n ≤ j + count) (many' : n ≤ j + count') :
    Tracks n ts ts' (From j) j (Stmt.MovedAll (SameStart n ts ts'))
      (statements Table.language fuel count) (statements Table.language fuel' count') := by
  induction count generalizing j count' with
  | zero => exact Tracks.of_past fun c pre => Nat.le_trans many pre
  | succ count ih =>
    cases count' with
    | zero => exact Tracks.of_past fun c pre => Nat.le_trans many' pre
    | succ count' =>
      refine Tracks.kind shared fun kind => ?_
      by_cases ends : kind = .eof
      · rw [if_pos ends, if_pos ends]
        exact (Tracks.pure .nil (Nat.le_refl _)).at_kind
      · rw [if_neg ends, if_neg ends]
        have first : Tracks n ts ts' (From j) (j + 1) (Stmt.Moved (SameStart n ts ts'))
            (statement Table.language fuel) (statement Table.language fuel') :=
          statement_tracks shared (by omega) (by omega)
        refine first.at_kind.bind fun s s' moved => ?_
        refine (ih (by omega) (by omega)).bind fun ss ss' others => ?_
        exact Tracks.pure (.cons moved others) (by omega)

/-- Whole programs are read in the same way, for as long as the reading stays among the shared
words. -/
theorem readProgram_tracks {c c' : Cursor} (level : Level n ts ts' c c') (first : c.index = 0)
    (enough : n ≤ ts.length) (enough' : n ≤ ts'.length) :
    Outcome n ts ts' (fun b b' => Stmt.MovedAll (SameStart n ts ts') b.body b'.body) 0
      ((readProgram Table.language).run c) ((readProgram Table.language).run c') := by
  -- Each side has fuel for its own tokens, and the shared ones are among them.
  have fuel : n ≤ c.fuel := by
    have long := c.length_le_fuel first
    rw [level.tokens] at long
    exact Nat.le_trans enough long
  have fuel' : n ≤ c'.fuel := by
    have long := c'.length_le_fuel (level.index.symm.trans first)
    rw [level.tokens'] at long
    exact Nat.le_trans enough' long
  have body := statements_tracks shared (j := 0) fuel fuel' (Nat.le_add_left_of_le fuel)
    (Nat.le_add_left_of_le fuel')
  have position (p p' : Position) (ss ss' : List Stmt)
      (moved : Stmt.MovedAll (SameStart n ts ts') ss ss') :
      Tracks n ts ts' (From 0) 0 (fun b b' => Stmt.MovedAll (SameStart n ts ts') b.body b'.body)
        (do return ⟨ss, ⟨p, (← get).position⟩⟩ : Parse Block)
        (do return ⟨ss', ⟨p', (← get).position⟩⟩) :=
    fun _ _ level pre => .yields moved level pre
  have whole := body.bind fun ss ss' moved => position c.position c'.position ss ss' moved
  exact whole c c' level (Nat.zero_le _)

end Grammar

/-! ## Lists of tokens -/

/-- The reading of a list and its outcome. -/
theorem Tree.Block.ofTokens_cons (first : Token) (others : List Token) :
    Tree.Block.ofTokens (first :: others) =
      match (Grammar.readProgram Grammar.Table.language).run (Cursor.start first others) with
      | .ok block _ => .ok block
      | .error stop _ => .error stop := rfl

/-- Tokens of the same words are read as the same program, or not read for the same reason. -/
theorem ofTokens_moved (closed : Closed (ts.map Token.word))
    (same : ts.map Token.word = ts'.map Token.word) :
    SameResult (SameStart ts.length ts ts')
      (fun b b' => Tree.Stmt.MovedAll (SameStart ts.length ts ts') b.body b'.body)
      (Tree.Block.ofTokens ts) (Tree.Block.ofTokens ts') := by
  have length : ts.length = ts'.length := by simpa using congrArg List.length same
  have shared : SharedFront ts.length ts ts' := by
    refine ⟨closed, fun i _ => ?_⟩
    rw [← List.getElem?_map, same, List.getElem?_map]
  cases ts with
  | nil => cases closed
  | cons first others =>
    cases ts' with
    | nil => cases same
    | cons first' others' =>
      have level : Level (first :: others).length (first :: others) (first' :: others')
          (Cursor.start first others) (Cursor.start first' others') :=
        ⟨rfl, rfl, rfl, Nat.succ_pos _⟩
      have outcome := Grammar.readProgram_tracks shared level rfl (Nat.le_refl _)
        (Nat.le_of_eq length)
      -- A cursor does not leave the list that it stands in.
      have inside := (Grammar.readProgram Grammar.Table.language).final
        (Cursor.start first others) |>.index_lt_length
      rw [Parse.Forward.tokens_eq] at inside
      unfold Parse.final at inside
      rw [Tree.Block.ofTokens_cons, Tree.Block.ofTokens_cons]
      generalize (Grammar.readProgram Grammar.Table.language).run (Cursor.start first others) = r,
        (Grammar.readProgram Grammar.Table.language).run (Cursor.start first' others') = r'
        at outcome inside ⊢
      cases outcome with
      | yields moved => exact .ok moved
      | fails same => exact .fault same
      | passes past => exact absurd inside (Nat.not_lt_of_le past)
      | stops past => exact absurd inside (Nat.not_lt_of_le past)
      | glances _ _ _ differ =>
        rw [List.getElem?_eq_none (Nat.le_refl _), List.getElem?_eq_none (Nat.le_of_eq length.symm)]
          at differ
        exact absurd rfl differ

end Frontend

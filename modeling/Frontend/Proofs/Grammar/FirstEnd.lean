import Frontend.Proofs.Grammar.Termination

/-!
# What stands behind the first end of a text

The scanner puts one end of the text behind all other tokens.  A list that is put together in
another way may have several of them, or none.

* **`View.upToEnd`**: what stands behind the next end of the text is left out of what is seen.
  No cursor ever passes that end, and in front of it nothing shows what is behind it.
* **`first_end_decides`**: so a list is read like its part up to the first end of the text, and
  one without an end of the text is never accepted.
-/

namespace Frontend

/-- The tokens up to the first end of the text. -/
def upToEnd : List Token → List Token
  | [] => []
  | t :: ts => t :: if t.kind = .eof then [] else upToEnd ts

theorem upToEnd_append {front back : List Token} {stop : Token}
    (inside : ∀ t ∈ front, t.kind ≠ .eof) (ends : stop.kind = .eof) :
    upToEnd (front ++ stop :: back) = front ++ [stop] := by
  induction front with
  | nil =>
    show stop :: (if stop.kind = .eof then [] else upToEnd back) = [stop]
    rw [if_pos ends]
  | cons t front ih =>
    rw [List.forall_mem_cons] at inside
    show t :: (if t.kind = .eof then [] else upToEnd (front ++ stop :: back)) = _
    rw [if_neg inside.1, ih inside.2]
    rfl

/-! ## Leaving out what is behind -/

/-- The cursor in the list without the tokens behind the next end of the text. -/
def Cursor.upToEnd (c : Cursor) : Cursor :=
  ⟨c.behind, c.current, if c.current.kind = .eof then [] else Frontend.upToEnd c.ahead⟩

namespace Cursor

variable {c : Cursor}

theorem peek_upToEnd (word : c.current.kind ≠ .eof) : c.upToEnd.peek = c.peek := by
  unfold upToEnd peek
  rw [if_neg word]
  cases c.ahead <;> rfl

theorem upToEnd_advance (word : c.current.kind ≠ .eof) :
    c.advance.upToEnd = c.upToEnd.advance := by
  obtain ⟨behind, current, ahead⟩ := c
  unfold upToEnd advance
  rw [if_neg word]
  cases ahead with
  | nil =>
    show Cursor.mk behind current (if current.kind = .eof then [] else []) = _
    rw [ite_self]
    rfl
  | cons next others => rfl

end Cursor

/-- A cursor sees as much as it does without the tokens behind the next end of the text. -/
def View.upToEnd : View where
  see := Cursor.upToEnd
  Covers _ := True
  current_see _ := rfl
  previousStop_see _ := rfl
  peek_see _ word := Cursor.peek_upToEnd word
  covers_advance _ _ := trivial
  see_advance _ word := Cursor.upToEnd_advance word

/-! ## Programs -/

namespace Tree.Block

/-- If a reading has enough fuel, it does the same without the tokens behind the first end. -/
theorem ofTokensWithin_upToEnd {ts : List Token} {fuel : Nat}
    (enough : ofTokensWithin fuel ts ≠ .error .exhausted) :
    ofTokensWithin fuel (Frontend.upToEnd ts) = ofTokensWithin fuel ts := by
  cases ts with
  | nil => rfl
  | cons first others =>
    have seen : (Cursor.start first others).upToEnd =
        Cursor.start first (if first.kind = .eof then [] else Frontend.upToEnd others) := rfl
    have follows : Follows View.upToEnd (Grammar.programWithin fuel) (Grammar.programWithin fuel)
        (Cursor.start first others) := Grammar.programWithin_follows (Nat.le_refl fuel)
    -- The outcomes are the same up to the place where they are reached.
    rcases (follows trivial).2 with ⟨d, stopped⟩ | same
    · exact absurd stopped (run_ne_exhausted enough)
    · rw [show View.upToEnd.see (Cursor.start first others) = _ from seen] at same
      exact (congrArg ofResult same).trans (ofResult_shown View.upToEnd _)

/-- A program that is accepted has an end of the text. -/
theorem exists_end_of_ofTokens {ts : List Token} {block : Block} (some : ts ≠ [])
    (accepted : ofTokens ts = .ok block) : ∃ t ∈ ts, t.kind = .eof := by
  obtain ⟨first, others, rfl⟩ := List.exists_cons_of_ne_nil some
  obtain ⟨front, stop, back, same, ends, -⟩ := spells_ofTokens accepted
  refine ⟨stop, ?_, ends⟩
  rw [same]
  exact List.mem_append_right front List.mem_cons_self

end Tree.Block

/-- **The first end of the text decides.**  A list of tokens is read like its part up to the first
end of the text, with the same tree or the same reason to stop, and a list that has tokens but no
end of the text is never accepted. -/
theorem first_end_decides :
    (∀ front stop back, (∀ t ∈ front, t.kind ≠ .eof) → stop.kind = .eof →
        Tree.Block.ofTokens (front ++ stop :: back) = Tree.Block.ofTokens (front ++ [stop])) ∧
      ∀ ts, ts ≠ [] → (∀ t ∈ ts, t.kind ≠ .eof) → ∀ block, Tree.Block.ofTokens ts ≠ .ok block := by
  constructor
  · intro front stop back inside ends
    have bounded : Bounded (front ++ stop :: back) :=
      Or.inr (Or.inl ⟨stop, List.mem_append_right front List.mem_cons_self, ends⟩)
    have bounded' : Bounded (front ++ [stop]) :=
      Or.inr (Or.inl ⟨stop, List.mem_append_right front List.mem_cons_self, ends⟩)
    -- Both are read with the fuel for the longer list.
    have enough : (front ++ stop :: back).length < (front ++ stop :: back).length + 1 :=
      Nat.lt_succ_self _
    have enough' : (front ++ [stop]).length < (front ++ stop :: back).length + 1 := by
      simp only [List.length_append, List.length_cons, List.length_nil]
      omega
    have ended := Tree.Block.ofTokensWithin_ne_exhausted bounded enough
    rw [Tree.Block.ofTokens_eq_of_lt bounded enough, Tree.Block.ofTokens_eq_of_lt bounded' enough',
      ← Tree.Block.ofTokensWithin_upToEnd ended, upToEnd_append inside ends]
  · intro ts some inside block accepted
    obtain ⟨t, member, ends⟩ := Tree.Block.exists_end_of_ofTokens some accepted
    exact inside t member ends

/-- The words of `print true;`. -/
def printTrue : List Token :=
  [⟨.printWord, "print", Span.empty .first⟩, ⟨.trueWord, "true", Span.empty .first⟩,
   ⟨.semicolon, ";", Span.empty .first⟩]

/-- With an end of the text the words of `printTrue` are a program, also with the same words behind
it, and without one they are none. -/
theorem printTrue_needs_end :
    Tree.Block.ofTokens (printTrue ++ Token.eof .first :: printTrue) =
        Tree.Block.ofTokens (printTrue ++ [Token.eof .first]) ∧
      (Tree.Block.ofTokens (printTrue ++ [Token.eof .first])).toOption.isSome ∧
        ∀ block, Tree.Block.ofTokens printTrue ≠ .ok block := by
  refine ⟨first_end_decides.1 _ _ printTrue (by decide) rfl, rfl, ?_⟩
  exact first_end_decides.2 _ (by decide) (by decide)

end Frontend

import Frontend.Grammar.Cursor

/-!
# What a step of reading yields

Reading is a chain of steps, most of which only look at the current token.

* **`Parse.Yields`**: a step yields something and moves the cursor.  Each way to make a
  step has a rule that says when it yields what; a chain of steps is taken apart, or put
  together, by these rules alone.
* **`Word`**: a token without its place.  What is read depends on nothing else.
* **`Closed`**: words that end with the end of the text, which is nowhere else.  There a
  cursor that reads a word other than the end really moves on (`Cursor.words_eq_cons`).
-/

namespace Frontend

/-! ## Steps -/

namespace Parse

variable {α β : Type} {c d : Cursor}

/-- Read at `c`, a step yields `x` and leaves the cursor at `d`. -/
def Yields (p : Parse α) (c : Cursor) (x : α) (d : Cursor) : Prop := p.run c = .ok x d

@[simp] theorem yields_pure {x y : α} : (pure x : Parse α).Yields c y d ↔ x = y ∧ c = d := by
  constructor
  · intro h
    cases h
    exact ⟨rfl, rfl⟩
  · rintro ⟨rfl, rfl⟩
    rfl

@[simp] theorem yields_bind {p : Parse α} {f : α → Parse β} {y : β} :
    (p >>= f).Yields c y d ↔ ∃ x e, p.Yields c x e ∧ (f x).Yields e y d := by
  show EStateM.bind p f c = _ ↔ _
  constructor
  · intro h
    unfold EStateM.bind at h
    split at h
    · rename_i x e first
      exact ⟨x, e, first, h⟩
    · cases h
  · rintro ⟨x, e, first, rest⟩
    unfold EStateM.bind
    rw [show p c = .ok x e from first]
    exact rest

/-- A step that is chosen, and what comes after it in any case. -/
theorem yields_ite_bind {P : Prop} [Decidable P] {p q : Parse α} {f : α → Parse β} {y : β} :
    (if P then p >>= f else q >>= f).Yields c y d ↔
      ∃ x e, (if P then p else q).Yields c x e ∧ (f x).Yields e y d := by
  split <;> exact yields_bind

@[simp] theorem yields_get {x : Cursor} : (get : Parse Cursor).Yields c x d ↔ c = x ∧ c = d := by
  constructor
  · intro h
    cases h
    exact ⟨rfl, rfl⟩
  · rintro ⟨rfl, rfl⟩
    rfl

@[simp] theorem yields_current {t : Token} : current.Yields c t d ↔ c.current = t ∧ c = d := by
  constructor
  · intro h
    cases h
    exact ⟨rfl, rfl⟩
  · rintro ⟨rfl, rfl⟩
    rfl

@[simp] theorem yields_kind {k : Kind} : kind.Yields c k d ↔ c.current.kind = k ∧ c = d := by
  constructor
  · intro h
    cases h
    exact ⟨rfl, rfl⟩
  · rintro ⟨rfl, rfl⟩
    rfl

@[simp] theorem yields_advance {t : Token} :
    advance.Yields c t d ↔ c.current = t ∧ c.advance = d := by
  constructor
  · intro h
    cases h
    exact ⟨rfl, rfl⟩
  · rintro ⟨rfl, rfl⟩
    rfl

@[simp] theorem yields_throw {stop : Stop} {x : α} : ¬ (throw stop : Parse α).Yields c x d := by
  intro h
  cases h

@[simp] theorem yields_fail {fault : Fault} {p : Position} {x : α} :
    ¬ (fail fault p : Parse α).Yields c x d := by
  intro h
  cases h

@[simp] theorem yields_misplaced {reason : String} {x : α} :
    ¬ (misplaced reason : Parse α).Yields c x d := by
  intro h
  cases h

@[simp] theorem yields_exhausted {x : α} : ¬ (exhausted : Parse α).Yields c x d := by
  intro h
  cases h

@[simp] theorem yields_expectOr {k : Kind} {otherwise : Diagnostic} {t : Token} :
    (expectOr k otherwise).Yields c t d ↔ c.current.kind = k ∧ c.current = t ∧ c.advance = d := by
  simp only [expectOr, yields_bind, yields_current]
  constructor
  · rintro ⟨_, _, ⟨rfl, rfl⟩, h⟩
    split at h
    · rename_i same
      exact ⟨same, yields_advance.mp h⟩
    · exact absurd h yields_throw
  · rintro ⟨same, h⟩
    refine ⟨_, _, ⟨rfl, rfl⟩, ?_⟩
    rw [if_pos same]
    exact yields_advance.mpr h

@[simp] theorem yields_expect {k : Kind} {t : Token} :
    (expect k).Yields c t d ↔ c.current.kind = k ∧ c.current = t ∧ c.advance = d := by
  simp only [expect, yields_bind, yields_current]
  constructor
  · rintro ⟨_, _, ⟨rfl, rfl⟩, h⟩
    exact yields_expectOr.mp h
  · intro h
    exact ⟨_, _, ⟨rfl, rfl⟩, yields_expectOr.mpr h⟩

@[simp] theorem yields_expectFor {k : Kind} {reason : String} {t : Token} :
    (expectFor k reason).Yields c t d ↔ c.current.kind = k ∧ c.current = t ∧ c.advance = d := by
  simp only [expectFor, yields_bind, yields_current]
  constructor
  · rintro ⟨_, _, ⟨rfl, rfl⟩, h⟩
    exact yields_expectOr.mp h
  · intro h
    exact ⟨_, _, ⟨rfl, rfl⟩, yields_expectOr.mpr h⟩

end Parse

/-! ## Words -/

/-- A token without its place. -/
structure Word where
  kind : Kind
  text : String
deriving DecidableEq

/-- The word that a token is. -/
def Token.word (t : Token) : Word := ⟨t.kind, t.text⟩

@[simp] theorem Token.kind_word (t : Token) : t.word.kind = t.kind := rfl

/-- Words that end with the end of the text, which is nowhere else. -/
inductive Closed : List Word → Prop where
  | stop {w : Word} (h : w.kind = .eof) : Closed [w]
  | cons {w : Word} {ws : List Word} (h : w.kind ≠ .eof) (rest : Closed ws) : Closed (w :: ws)

namespace Closed

theorem ne_nil {ws : List Word} (h : Closed ws) : ws ≠ [] := by
  cases h <;> exact List.cons_ne_nil _ _

theorem tail {w : Word} {ws : List Word} (h : Closed (w :: ws)) (word : w.kind ≠ .eof) :
    Closed ws := by
  cases h with
  | stop stop => exact absurd stop word
  | cons _ rest => exact rest

theorem of_append {front back : List Word} (h : Closed (front ++ back)) (ne : back ≠ []) :
    Closed back := by
  induction front with
  | nil => exact h
  | cons w ws ih =>
    rw [List.cons_append] at h
    generalize together : ws ++ back = rest at h ih
    cases h with
    | stop => exact absurd (List.append_eq_nil_iff.mp together).2 ne
    | cons _ rest => exact ih rest

end Closed

namespace Cursor

/-- The words to be read. -/
def words (c : Cursor) : List Word := (c.current :: c.ahead).map Token.word

/-- Reading a word other than the end takes it off. -/
theorem words_eq_cons {c : Cursor} (h : Closed c.words) (word : c.current.kind ≠ .eof) :
    c.words = c.current.word :: c.advance.words := by
  unfold words advance
  cases ahead : c.ahead with
  | nil =>
    -- The last token stays where it is, but that is the end.
    rw [words, ahead] at h
    exact absurd rfl (h.tail word).ne_nil
  | cons next rest => rfl

end Cursor

end Frontend

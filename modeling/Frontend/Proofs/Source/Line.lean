import Frontend.Proofs.Source.Position
import Frontend.Source.Line

/-!
# The line of a position

Which of the lines of a text a position is on, and where on this line.

* **`WholeLines`**: lines with their line feeds, one after the other.  Every text is a number of
  them with the beginning of a line behind them.
* **`IsLine`**: a line of a text, with what is in front of it and behind it.
* **`IsLine.exists_getElem?_lines`**: it is found under its number, but for a carriage return.
* **`behind_on_line`**: the line and the column of a position, unless they have overflowed.
-/

namespace Frontend.Source

/-- Lines without line feeds in them, each with a line feed behind it. -/
inductive WholeLines : List Char → Prop where
  | nil : WholeLines []
  | cons {line rest : List Char} (plain : '\n' ∉ line) (others : WholeLines rest) :
      WholeLines (line ++ '\n' :: rest)

variable {before line after text : List Char}

/-- Every text is made of whole lines and the beginning of one more. -/
theorem exists_wholeLines (text : List Char) :
    ∃ before line, text = before ++ line ∧ WholeLines before ∧ '\n' ∉ line := by
  induction text with
  | nil => exact ⟨[], [], rfl, .nil, List.not_mem_nil⟩
  | cons c rest ih =>
    obtain ⟨before, line, rfl, whole, plain⟩ := ih
    by_cases feed : c = '\n'
    · subst feed
      exact ⟨'\n' :: before, line, rfl, @WholeLines.cons [] _ List.not_mem_nil whole, plain⟩
    · have other : '\n' ≠ c := Ne.symm feed
      -- The character stands in front of the first whole line, or of the last line.
      cases whole with
      | nil => exact ⟨[], c :: line, rfl, .nil, by simp [other, plain]⟩
      | @cons line' rest plain' others =>
        refine ⟨(c :: line') ++ '\n' :: rest, line, rfl, .cons ?_ others, plain⟩
        simp [other, plain']

/-- Whole lines end with a line feed. -/
theorem WholeLines.getLast? (h : WholeLines text) (ne : text ≠ []) :
    text.getLast? = some '\n' := by
  induction h with
  | nil => exact absurd rfl ne
  | @cons line rest _ _ ih =>
    rw [List.getLast?_append_cons]
    cases rest with
    | nil => rfl
    | cons c rest =>
      rw [List.getLast?_cons_cons]
      exact ih (List.cons_ne_nil _ _)

/-- A line of a text: whole lines are in front of it, and it goes on to a line feed or to the end
of the text. -/
structure IsLine (before line after : List Char) : Prop where
  starts : WholeLines before
  plain : '\n' ∉ line
  stops : ∀ c ∈ after.head?, c = '\n'

/-- Every place in a text is on one of its lines. -/
theorem exists_isLine (front back : List Char) :
    ∃ before line tail after, front = before ++ line ∧ back = tail ++ after ∧
      IsLine before (line ++ tail) after := by
  obtain ⟨before, line, rfl, whole, plain⟩ := exists_wholeLines front
  refine ⟨before, line, back.takeWhile fun c => c != '\n', back.dropWhile fun c => c != '\n', rfl,
    List.takeWhile_append_dropWhile.symm, whole, ?_, ?_⟩
  · rw [List.mem_append, not_or]
    refine ⟨plain, ?_⟩
    intro member
    have other := List.mem_takeWhile_imp member
    cases other
  · intro c first
    have stops := List.head?_dropWhile_not (fun c => c != '\n') back
    rw [Option.mem_def.mp first] at stops
    simpa using stops

/-! ## Lines by their numbers -/

/-- A character with no line feed behind it is the first one of a line. -/
theorem lines_cons {c : Char} {rest : List Char} (other : c ≠ '\n')
    (next : ∀ d ∈ rest.head?, d ≠ '\n') :
    lines (c :: rest) = match lines rest with
      | [] => [[c]]
      | line :: more => (c :: line) :: more := by
  have apart : ∀ rest', c = '\r' → rest = '\n' :: rest' → False := by
    rintro rest' - rfl
    exact next '\n' rfl rfl
  exact lines.eq_4 c rest other apart

/-- Behind a line, its line feed and a carriage return in front of it are dropped. -/
theorem lines_cons_line (plain : '\n' ∉ line) (rest : List Char) :
    ∃ l, lines (line ++ '\n' :: rest) = l :: lines rest ∧ (line = l ∨ line = l ++ ['\r']) := by
  induction line with
  | nil => exact ⟨[], lines_lineFeed rest, Or.inl rfl⟩
  | cons c line ih =>
    rw [List.mem_cons, not_or] at plain
    obtain ⟨l, found, ends⟩ := ih plain.2
    -- Whether a carriage return ends the line depends on what follows, so two characters are seen.
    cases line with
    | nil =>
      by_cases returns : c = '\r'
      · subst returns
        exact ⟨[], by simp [lines], Or.inr rfl⟩
      · refine ⟨[c], ?_, Or.inl rfl⟩
        have alone : lines (c :: '\n' :: rest) = [c] :: lines rest := by
          -- The character neither ends a line nor begins a line end.
          rw [lines]
          · rw [lines_lineFeed]
          · exact Ne.symm plain.1
          · intro rest' same
            exact absurd same returns
        exact alone
    | cons d line =>
      have next : ∀ x ∈ (d :: line ++ '\n' :: rest).head?, x ≠ '\n' := by
        rintro x ⟨⟩ rfl
        exact plain.2 List.mem_cons_self
      -- A character in front of an ordinary one belongs to the line, whatever ends it.
      refine ⟨c :: l, ?_, ?_⟩
      · rw [List.cons_append, lines_cons (Ne.symm plain.1) next, found]
      · rcases ends with same | returns
        · exact Or.inl (by rw [same])
        · exact Or.inr (by rw [returns, List.cons_append])

/-- The last line of a text, which no line feed ends. -/
theorem lines_last (plain : '\n' ∉ line) (ne : line ≠ []) : lines line = [line] := by
  induction line with
  | nil => exact absurd rfl ne
  | cons c line ih =>
    rw [List.mem_cons, not_or] at plain
    cases line with
    | nil => rw [lines_cons (Ne.symm plain.1) (fun _ none => by cases none), lines]
    | cons d line =>
      have next : ∀ x ∈ (d :: line).head?, x ≠ '\n' := by
        rintro x ⟨⟩ rfl
        exact plain.2 List.mem_cons_self
      rw [lines_cons (Ne.symm plain.1) next, ih plain.2 (List.cons_ne_nil _ _)]

/-- Whole lines are as many lines as they have line feeds. -/
theorem WholeLines.getElem?_lines (h : WholeLines before) (text : List Char) (k : Nat) :
    (lines (before ++ text))[before.count '\n' + k]? = (lines text)[k]? := by
  induction h with
  | nil => simp
  | @cons line rest plain _ ih =>
    obtain ⟨l, found, -⟩ := lines_cons_line plain (rest ++ text)
    have feeds : (line ++ '\n' :: rest).count '\n' + k = (rest.count '\n' + k) + 1 := by
      rw [List.count_append, List.count_eq_zero_of_not_mem plain, List.count_cons_self]
      omega
    rw [feeds, List.append_assoc, List.cons_append, found, List.getElem?_cons_succ, ih]

/-- A line of a text is found by the number of line feeds in front of it.  A carriage return is
dropped from it only if a line feed follows. -/
theorem IsLine.exists_getElem?_lines (h : IsLine before line after) (ne : line ++ after ≠ []) :
    ∃ l, (lines (before ++ (line ++ after)))[before.count '\n']? = some l ∧
      (line = l ∨ line = l ++ ['\r'] ∧ after.head? = some '\n') := by
  have found := h.starts.getElem?_lines (line ++ after) 0
  rw [Nat.add_zero] at found
  rw [found]
  -- A last line has no line feed, and is taken as it is.
  cases after with
  | nil =>
    rw [List.append_nil] at ne ⊢
    rw [lines_last h.plain ne]
    exact ⟨line, rfl, Or.inl rfl⟩
  | cons c rest =>
    -- Any other line stops at a line feed, which may have a carriage return in front.
    obtain rfl := h.stops c rfl
    obtain ⟨l, same, ends⟩ := lines_cons_line h.plain rest
    rw [same]
    exact ⟨l, rfl, ends.imp_right fun returns => ⟨returns, rfl⟩⟩

/-- Behind whole lines there is no line unless there is some text. -/
theorem WholeLines.getElem?_lines_self (h : WholeLines before) :
    (lines before)[before.count '\n']? = none := by
  have found := h.getElem?_lines [] 0
  rw [List.append_nil, Nat.add_zero] at found
  rw [found]
  rfl

/-! ## Positions on a line -/

/-- The number of a line is one more than that of the line feeds in front of it, and a column is
one more than the number of characters in front of it. -/
theorem behind_on_line (whole : WholeLines before) (plain : '\n' ∉ line)
    (fits : Position.Fits (before ++ line)) :
    (Position.behind (before ++ line)).line.toNat = before.count '\n' + 1 ∧
      (Position.behind (before ++ line)).column.toNat = line.length + 1 := by
  have feeds : (before ++ line).count '\n' = before.count '\n' := by
    rw [List.count_append, List.count_eq_zero_of_not_mem plain, Nat.add_zero]
  -- The line itself has no line feed, so the column counts all of its characters.
  have inline : ∀ c ∈ line.reverse, (c != '\n') = true := by
    intro c member
    rw [bne_iff_ne]
    rintro rfl
    exact plain (List.mem_reverse.mp member)
  have here : (before ++ line).rtakeWhile (fun c => c != '\n') = line := by
    -- In front of it stands a line feed or nothing at all.
    have none : before.reverse.takeWhile (fun c => c != '\n') = [] := by
      cases backwards : before.reverse with
      | nil => rfl
      | cons c rest =>
        have some : before ≠ [] := by
          rintro rfl
          cases backwards
        have last := whole.getLast? some
        rw [← List.head?_reverse, backwards] at last
        obtain rfl := Option.some.inj last
        rfl
    rw [List.rtakeWhile, List.reverse_append, List.takeWhile_append_of_pos inline, none,
      List.append_nil, List.reverse_reverse]
  constructor
  · rw [fits.line, feeds, Nat.add_comm]
  · rw [fits.column, here, Nat.add_comm]

end Frontend.Source

import Frontend.Proofs.Source.Line
import Frontend.Source.Reading
import Mathlib.Algebra.GroupWithZero.Nat
import Mathlib.Data.List.Infix

/-!
# Moving through a text

A reading is moved by numbers of bytes.  Where it comes to is a matter of their sum, and what
stands there is found again by line and column.

* **`Reading.advanceAll?`**: moves one after the other.
* **`Reading.StaysBetween`**: moves that all end between two characters.
* **`Reading.Addable`**: moves for which 64 bits suffice.
* **`Reading.advance?_append`**: a move over the first part of what is ahead leads behind it.
* **`Reading.advanceAll?_eq`**: so do moves one after the other.
* **`Source.exists_line?_of_char`**: a character that ends no line is in the line and the column of
  its position.
* **`reading_depends_on_sum`**: what both say about any place in a text.
-/

namespace Frontend

open Position (behind)

namespace Reading

/-- Moves a reading by one number of bytes after the other; nothing if one of the moves is
refused. -/
def advanceAll? (overflow : Overflow) (r : Reading) (counts : List Nat) : Option Reading :=
  counts.foldlM (advance? overflow) r

/-- After each of the moves the sum so far, or the size of the text if that is less, is a place
between two characters. -/
def StaysBetween (source : String) (counts : List Nat) : Prop :=
  ∀ part ∈ counts.inits, String.Pos.Raw.IsValid source ⟨min part.sum source.utf8ByteSize⟩

instance (source : String) (counts : List Nat) : Decidable (StaysBetween source counts) :=
  inferInstanceAs (Decidable (∀ part ∈ counts.inits, _))

/-- Each of the moves can be added, in 64 bits, to the place that those before it lead to. -/
def Addable (source : String) (counts : List Nat) : Prop :=
  ∀ part ∈ counts.inits, ∀ bytes ∈ part.getLast?,
    min part.dropLast.sum source.utf8ByteSize + bytes < UInt64.size

instance (source : String) (counts : List Nat) : Decidable (Addable source counts) :=
  inferInstanceAs (Decidable (∀ part ∈ counts.inits, ∀ bytes ∈ part.getLast?, _))

/-! ## One move -/

theorem utf8ByteSize_ofList_cons (c : Char) (rest : List Char) :
    (String.ofList (c :: rest)).utf8ByteSize = c.utf8Size + (String.ofList rest).utf8ByteSize := by
  rw [String.ofList_cons, String.utf8ByteSize_append, String.utf8ByteSize_singleton]

/-- A text is cut behind a part of it by the number of bytes of this part.  Too many bytes are as
many as all of the text has. -/
theorem split?_append (text back : List Char) {bytes : Nat}
    (size : min bytes (String.ofList (text ++ back)).utf8ByteSize =
      (String.ofList text).utf8ByteSize) :
    split? bytes (text ++ back) = some (text, back) := by
  -- Character by character: each takes at least one byte of those that are asked for.
  induction text generalizing bytes with
  | nil =>
    rw [List.nil_append] at size ⊢
    cases back with
    | nil => rfl
    | cons c rest =>
      have positive := c.utf8Size_pos
      -- Nothing is in front, though more text follows, so no bytes were asked for.
      have none : bytes = 0 := by
        rw [utf8ByteSize_ofList_cons] at size
        have empty : (String.ofList []).utf8ByteSize = 0 := rfl
        omega
      rw [split?, if_pos none]
  | cons c text ih =>
    have positive := c.utf8Size_pos
    rw [List.cons_append, utf8ByteSize_ofList_cons, utf8ByteSize_ofList_cons] at size
    have some : bytes ≠ 0 := by omega
    -- The character is taken as a whole, since all of `text` is to be passed.
    have whole : c.utf8Size ≤ bytes := by omega
    rw [List.cons_append, split?, if_neg some, if_pos whole, ih (by omega)]
    rfl

/-- A move by the bytes of the first part of what is ahead leads behind this part.  A move past the
end is one by the bytes of all that is ahead. -/
theorem advance?_append (overflow : Overflow) (p : Position) (text back : List Char) {bytes : Nat}
    (word : p.offset + bytes < UInt64.size)
    (size : min bytes (String.ofList (text ++ back)).utf8ByteSize =
      (String.ofList text).utf8ByteSize) :
    advance? overflow ⟨p, text ++ back⟩ bytes =
      overflow.outcome (p.overflows text) ⟨p.after text, back⟩ := by
  rw [advance?, if_pos word, split?_append text back size]
  rfl

/-! ## Moves one after the other -/

theorem advanceAll?_concat (overflow : Overflow) (r : Reading) (counts : List Nat) (bytes : Nat) :
    r.advanceAll? overflow (counts ++ [bytes]) =
      (r.advanceAll? overflow counts).bind (·.advance? overflow bytes) := by
  simp [advanceAll?, List.foldlM_append]

section StaysBetween

variable {source : String} {counts : List Nat} {bytes : Nat}

theorem StaysBetween.of_concat (h : StaysBetween source (counts ++ [bytes])) :
    StaysBetween source counts := by
  intro part member
  have shorter : part <+: counts := (List.mem_inits part counts).mp member
  exact h part ((List.mem_inits _ _).mpr (shorter.trans (List.prefix_append counts [bytes])))

theorem StaysBetween.sum (h : StaysBetween source counts) :
    String.Pos.Raw.IsValid source ⟨min counts.sum source.utf8ByteSize⟩ :=
  h counts ((List.mem_inits _ _).mpr List.prefix_rfl)

theorem Addable.of_concat (h : Addable source (counts ++ [bytes])) : Addable source counts := by
  intro part member
  have shorter : part <+: counts := (List.mem_inits part counts).mp member
  exact h part ((List.mem_inits _ _).mpr (shorter.trans (List.prefix_append counts [bytes])))

theorem Addable.last (h : Addable source (counts ++ [bytes])) :
    min counts.sum source.utf8ByteSize + bytes < UInt64.size := by
  have last := h _ ((List.mem_inits _ _).mpr List.prefix_rfl) bytes
  rw [List.dropLast_concat, List.getLast?_concat] at last
  exact last rfl

/-- Between two characters a text is cut in two. -/
theorem exists_append_of_isValid {place : Nat} (between : String.Pos.Raw.IsValid source ⟨place⟩) :
    ∃ front back, source.toList = front ++ back ∧ (behind front).offset = place := by
  obtain ⟨front, back, whole, here⟩ := String.Pos.Raw.isValid_iff_exists_append.mp between
  refine ⟨front.toList, back.toList, ?_, ?_⟩
  · rw [whole, String.toList_append]
  · show (String.ofList front.toList).utf8ByteSize = place
    rw [String.ofList_toList]
    exact (congrArg String.Pos.Raw.byteIdx here).symm

/-- Of two beginnings of one text, the one with fewer bytes is the beginning of the other. -/
theorem exists_eq_append_of_le {front back front' back' : List Char}
    (same : front ++ back = front' ++ back') (le : (behind front).offset ≤ (behind front').offset) :
    ∃ text, front' = front ++ text ∧ back = text ++ back' := by
  obtain ⟨text, longer, rest⟩ | ⟨text, shorter, rest⟩ := List.append_eq_append_iff.mp same
  · exact ⟨text, longer, rest⟩
  · cases text with
    | nil => exact ⟨[], by simpa using shorter.symm, by simpa using rest.symm⟩
    | cons c text =>
      have lt := Position.offset_behind_lt front' (List.cons_ne_nil c text)
      rw [← shorter] at lt
      omega

/-- **Where moves lead depends on their sum**: behind the beginning of the text that has so many
bytes. -/
theorem advanceAll?_eq (overflow : Overflow) (stays : StaysBetween source counts)
    (addable : Addable source counts) {front back : List Char}
    (text : source.toList = front ++ back)
    (sum : (behind front).offset = min counts.sum source.utf8ByteSize) :
    (ofText source).advanceAll? overflow counts =
      overflow.outcome (Position.first.overflows front) ⟨behind front, back⟩ := by
  have size : source.utf8ByteSize = (behind source.toList).offset := by
    show _ = (String.ofList source.toList).utf8ByteSize
    rw [String.ofList_toList]
  -- Induction on the moves; the invariant is the place to which those so far have led.
  induction counts using List.reverseRecOn generalizing front back with
  | nil =>
    have none : front = [] := by
      by_contra some
      have lt := Position.offset_behind_lt [] some
      rw [List.nil_append, sum] at lt
      simp at lt
    subst none
    rw [List.nil_append] at text
    rw [← text]
    cases overflow <;> rfl
  | append_singleton counts bytes ih =>
    obtain ⟨front', back', text', sum'⟩ := exists_append_of_isValid stays.of_concat.sum
    have word := addable.last
    rw [List.sum_append, List.sum_singleton] at sum
    rw [← sum'] at word
    have le : (behind front').offset ≤ (behind front).offset := by omega
    obtain ⟨passed, rfl, rfl⟩ := exists_eq_append_of_le (text'.symm.trans text) le
    have ahead : (behind source.toList).offset =
        (behind front').offset + (String.ofList (passed ++ back)).utf8ByteSize := by
      rw [text', Position.offset_behind_append]
    have here := Position.offset_behind_append front' passed
    have last := advance?_append overflow (behind front') passed back word (by omega)
    have both := overflow.outcome_bind (Position.first.overflows front') _
      (f := fun r : Reading => r.advance? overflow bytes) last
    rw [advanceAll?_concat, ih stays.of_concat addable.of_concat text' sum', both,
      Position.after_behind, Position.overflows_append, Position.after_first]

end StaysBetween

end Reading

/-! ## What stands at a position -/

/-- A character that is no line feed and no carriage return in front of one is in the line and the
column of its position, unless these have overflowed. -/
theorem Source.exists_line?_of_char {source : String} {front rest : List Char} {c : Char}
    (text : source.toList = front ++ c :: rest) (fits : Position.Fits front) (other : c ≠ '\n')
    (apart : ¬ (c = '\r' ∧ rest.head? = some '\n')) :
    ∃ line, line? source (behind front).line.toNat = some line ∧
      line.toList[(behind front).column.toNat - 1]? = some c := by
  obtain ⟨before, left, tail, after, rfl, split, isLine⟩ := exists_isLine front (c :: rest)
  cases tail with
  | nil =>
    -- The line would end in front of the character.
    rw [List.nil_append] at split
    subst split
    exact absurd (isLine.stops c rfl) other
  | cons d tail =>
    rw [List.cons_append] at split
    obtain ⟨rfl, rfl⟩ := List.cons.inj split
    obtain ⟨l, found, ends⟩ := isLine.exists_getElem?_lines (by simp)
    have plain : '\n' ∉ left := by
      intro feed
      exact isLine.plain (List.mem_append_left _ feed)
    obtain ⟨number, column⟩ := behind_on_line isLine.starts plain fits
    refine ⟨String.ofList l, ?_, ?_⟩
    · have whole : source.toList = before ++ (left ++ c :: tail ++ after) := by
        rw [text]
        simp only [List.append_assoc, List.cons_append]
      rw [number, line?, whole, found]
      rfl
    · rw [column, Nat.add_sub_cancel, String.toList_ofList]
      obtain rfl | ⟨returns, feed⟩ := ends
      · simp
      · -- The carriage return that is dropped is not the character itself.
        rcases List.eq_nil_or_concat' tail with rfl | ⟨tail', r, rfl⟩
        · obtain ⟨rfl, single⟩ := List.append_inj' returns rfl
          exact absurd ⟨(List.cons.inj single).1, feed⟩ apart
        · rw [← List.cons_append, ← List.append_assoc] at returns
          obtain ⟨rfl, -⟩ := List.append_inj' returns rfl
          simp

/-- **A position is a matter of how far a reading has come, and its line and column find the
character again.**  Moves of the same sum, past the end or not, all lead to the same position, if
64 bits suffice to add them up.  Only at the end of a text of `2 ^ 32 - 1` bytes may a count have
overflowed.  A character that ends no line is the one in this column of this line. -/
theorem reading_depends_on_sum (overflow : Overflow) {source : String} {place : Nat}
    (short : source.utf8ByteSize < UInt32.size) (between : String.Pos.Raw.IsValid source ⟨place⟩) :
    ∃ front back p, source.toList = front ++ back ∧ (String.ofList front).utf8ByteSize = place ∧
      p = ⟨place, .ofNat (1 + front.count '\n'),
        .ofNat (1 + (front.rtakeWhile fun c => c != '\n').length)⟩ ∧
      (∀ counts, Reading.StaysBetween source counts → Reading.Addable source counts →
        min counts.sum source.utf8ByteSize = place →
        (Reading.ofText source).advanceAll? overflow counts =
          overflow.outcome (Position.first.overflows front) ⟨p, back⟩) ∧
      (place < UInt32.size - 1 → Position.first.overflows front = false ∧
        p.line.toNat = 1 + front.count '\n' ∧
        p.column.toNat = 1 + (front.rtakeWhile fun c => c != '\n').length) ∧
      ∀ c rest, back = c :: rest → c ≠ '\n' → ¬ (c = '\r' ∧ rest.head? = some '\n') →
        ∃ line, Source.line? source p.line.toNat = some line ∧
          line.toList[p.column.toNat - 1]? = some c := by
  obtain ⟨front, back, text, here⟩ := Reading.exists_append_of_isValid between
  have room (less : place < UInt32.size - 1) : Position.first.overflows front = false :=
    Position.not_overflows_of_short (by omega)
  refine ⟨front, back, behind front, text, here, ?_, ?_, ?_, ?_⟩
  · rw [← here]
    rfl
  · intro counts stays addable sum
    exact Reading.advanceAll?_eq overflow stays addable text (here.trans sum.symm)
  · intro less
    have fits := Position.fits_of_not_overflows (room less)
    exact ⟨room less, fits.line, fits.column⟩
  · intro c rest first other apart
    rw [first] at text
    -- Something is left of the text, so that the counts have room.
    have less : place < source.utf8ByteSize := by
      have lt := Position.offset_behind_lt front (List.cons_ne_nil c rest)
      have size : (behind source.toList).offset = source.utf8ByteSize := by
        show (String.ofList source.toList).utf8ByteSize = _
        rw [String.ofList_toList]
      rw [← text, size, here] at lt
      exact lt
    have fits := Position.fits_of_not_overflows (room (by omega))
    exact Source.exists_line?_of_char text fits other apart

/-- A text with line ends of both kinds and a carriage return within a line. -/
def mixedLines : String := "a\r\n\nπ\rb"

/-- One move and four moves lead to its last character, the third one of the third line. -/
theorem mixedLines_read : mixedLines.utf8ByteSize < UInt32.size ∧
    String.Pos.Raw.IsValid mixedLines ⟨7⟩ ∧
    Reading.StaysBetween mixedLines [1, 3, 2, 1] ∧ Reading.Addable mixedLines [1, 3, 2, 1] ∧
    Reading.StaysBetween mixedLines [7] ∧ Reading.Addable mixedLines [7] ∧
    (Reading.ofText mixedLines).advanceAll? .stops [1, 3, 2, 1] =
      (Reading.ofText mixedLines).advanceAll? .stops [7] ∧
    ∃ line, Source.line? mixedLines 3 = some line ∧ line.toList[2]? = some 'b' := by
  have short : mixedLines.utf8ByteSize < UInt32.size := by decide +kernel
  have between : String.Pos.Raw.IsValid mixedLines ⟨7⟩ := by decide +kernel
  have stays : Reading.StaysBetween mixedLines [1, 3, 2, 1] := by decide +kernel
  have addable : Reading.Addable mixedLines [1, 3, 2, 1] := by decide +kernel
  have stays' : Reading.StaysBetween mixedLines [7] := by decide +kernel
  have addable' : Reading.Addable mixedLines [7] := by decide +kernel
  have last : (Reading.ofText mixedLines).advanceAll? .stops [7] = some ⟨⟨7, 3, 3⟩, ['b']⟩ := by
    decide +kernel
  -- Behind the seven bytes the rest of the source and the position are known.
  obtain ⟨_, back, p, -, -, -, moves, room, found⟩ :=
    reading_depends_on_sum .stops short between
  have often := moves [1, 3, 2, 1] stays addable (by decide +kernel)
  have once := moves [7] stays' addable' (by decide +kernel)
  rw [(room (by decide)).1] at once
  obtain ⟨rfl, rfl⟩ := Reading.mk.inj (Option.some.inj (once.symm.trans last))
  -- Four moves and a single one come out at the same place.
  have same := often.trans (moves [7] stays' addable' (by decide +kernel)).symm
  exact ⟨short, between, stays, addable, stays', addable', same,
    found 'b' [] rfl (by decide) (by simp)⟩

/-- A move of so many bytes that 64 bits do not suffice is refused, though a move by the same sum
leads to the end of the text. -/
theorem endless_move_refused :
    Reading.StaysBetween "ab" [1, 2 ^ 64 - 1] ∧ Reading.StaysBetween "ab" [2] ∧
    min [1, 2 ^ 64 - 1].sum "ab".utf8ByteSize = min [2].sum "ab".utf8ByteSize ∧
    (Reading.ofText "ab").advanceAll? .wraps [1, 2 ^ 64 - 1] = none ∧
    (Reading.ofText "ab").advanceAll? .stops [1, 2 ^ 64 - 1] = none ∧
    (Reading.ofText "ab").advanceAll? .wraps [2] = some ⟨⟨2, 1, 3⟩, []⟩ ∧
    (Reading.ofText "ab").advanceAll? .stops [2] = some ⟨⟨2, 1, 3⟩, []⟩ := by
  decide +kernel

end Frontend

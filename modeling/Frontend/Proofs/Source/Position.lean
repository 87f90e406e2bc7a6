import Frontend.Source.Position
import Mathlib.Data.List.DropRight

/-!
# Positions in closed form

A position says where it is: each of its three counts can be read off the text in front of
it, without the way that led there.

* **`Position.behind`**: the position that a text determines for what follows it.
* **`Position.after_first`**: moving over a text from its beginning leads to just that
  position, so that `Position.next` keeps all three counts as it should.
* **`Position.extract_behind`**: the offsets of two positions cut out of the bytes of a text
  what stands between them.
* **`Position.Fits`**: a text whose line and column have not overflowed.  Every text is one that
  is moved over without an overflow, and every short text is.
-/

namespace Frontend

namespace Overflow

variable {α β : Type}

theorem outcome_bind (overflow : Overflow) (happens happens' : Bool) {x : α}
    {y : β} {f : α → Option β} (next : f x = overflow.outcome happens' y) :
    (overflow.outcome happens x).bind f = overflow.outcome (happens || happens') y := by
  cases overflow with
  | wraps => exact next
  | stops =>
    cases happens with
    | false => exact next
    | true => rfl

end Overflow

namespace Position

/-- The position behind `front`, for a text that begins with `front`. -/
def behind (front : List Char) : Position where
  offset := (String.ofList front).utf8ByteSize
  line := .ofNat (1 + front.count '\n')
  column := .ofNat (1 + (front.rtakeWhile fun c => c != '\n').length)

/-- Behind one more character is the next position. -/
theorem behind_concat (front : List Char) (c : Char) :
    behind (front ++ [c]) = (behind front).next c := by
  have offset : (String.ofList (front ++ [c])).utf8ByteSize
      = (String.ofList front).utf8ByteSize + c.utf8Size := by
    rw [String.ofList_append, String.utf8ByteSize_append, ← String.singleton_eq_ofList,
      String.utf8ByteSize_singleton]
  unfold behind next
  rw [offset, List.count_append]
  by_cases feed : c = '\n'
  · rw [if_pos feed, List.rtakeWhile_concat_neg _ _ _ (by simp [feed])]
    simp [feed, ← Nat.add_assoc, UInt32.ofNat_add]
  · rw [if_neg feed, List.rtakeWhile_concat_pos _ _ _ (by simp [feed])]
    simp [feed, ← Nat.add_assoc, UInt32.ofNat_add]

/-- From behind one text, moving over another leads behind both. -/
theorem after_behind (front text : List Char) : (behind front).after text = behind (front ++ text) := by
  induction text generalizing front with
  | nil => rw [after_nil, List.append_nil]
  | cons c rest ih => rw [after_cons, ← behind_concat, ih, List.append_assoc, List.singleton_append]

/-- From the beginning, moving over a text leads behind it. -/
theorem after_first (text : List Char) : first.after text = behind text :=
  after_behind [] text

/-- Offsets grow by the bytes that are moved over. -/
theorem offset_behind_append (front text : List Char) :
    (behind (front ++ text)).offset = (behind front).offset + (String.ofList text).utf8ByteSize := by
  unfold behind
  rw [String.ofList_append, String.utf8ByteSize_append]

theorem offset_behind_le (front text : List Char) :
    (behind front).offset ≤ (behind (front ++ text)).offset := by
  rw [offset_behind_append]
  exact Nat.le_add_right _ _

/-- Offsets grow strictly with every character. -/
theorem offset_behind_lt (front : List Char) {text : List Char} (h : text ≠ []) :
    (behind front).offset < (behind (front ++ text)).offset := by
  have some : String.ofList text ≠ "" := by simpa using h
  have positive : (String.ofList text).utf8ByteSize ≠ 0 := by
    rwa [ne_eq, String.utf8ByteSize_eq_zero_iff]
  rw [offset_behind_append]
  omega

/-- The bytes of a text between two offsets are those of what stands between them. -/
theorem extract_behind (front text back : List Char) :
    (String.ofList (front ++ text ++ back)).toByteArray.extract (behind front).offset
        (behind (front ++ text)).offset = (String.ofList text).toByteArray := by
  have start : (behind front).offset = (String.ofList front).toByteArray.size :=
    String.size_toByteArray.symm
  have stop : (behind (front ++ text)).offset = (String.ofList (front ++ text)).toByteArray.size :=
    String.size_toByteArray.symm
  rw [String.ofList_append, String.toByteArray_append, stop, ByteArray.extract_append_size_left,
    String.ofList_append, String.toByteArray_append, ByteArray.size_append]
  exact ByteArray.extract_append_eq_right start rfl

/-- `p` is a position in `text`: the one behind some part that `text` begins with. -/
def IsIn (p : Position) (text : List Char) : Prop := ∃ front, front <+: text ∧ p = behind front

/-! ## Room for the counts -/

/-- Neither the line nor the column behind `front` has overflowed. -/
structure Fits (front : List Char) : Prop where
  line : (behind front).line.toNat = 1 + front.count '\n'
  column : (behind front).column.toNat = 1 + (front.rtakeWhile fun c => c != '\n').length

theorem fits_of_lt {front : List Char} (line : 1 + front.count '\n' < UInt32.size)
    (column : 1 + (front.rtakeWhile fun c => c != '\n').length < UInt32.size) : Fits front :=
  ⟨UInt32.toNat_ofNat_of_lt line, UInt32.toNat_ofNat_of_lt column⟩

theorem overflows_first_concat (front : List Char) (c : Char) :
    first.overflows (front ++ [c]) = (first.overflows front || (behind front).isFull c) := by
  rw [overflows_append, after_first]
  simp [overflows]

/-- What is moved over without an overflow fits. -/
theorem fits_of_not_overflows {front : List Char} (h : first.overflows front = false) :
    Fits front := by
  induction front using List.reverseRecOn with
  | nil => exact ⟨rfl, rfl⟩
  | append_singleton front c ih =>
    rw [overflows_first_concat, Bool.or_eq_false_iff] at h
    obtain ⟨line, column⟩ := ih h.1
    -- Both counters are below the size of the type, and neither is full before `c`.
    have lineRoom := (behind front).line.toNat_lt_size
    have columnRoom := (behind front).column.toNat_lt_size
    have room := h.2
    unfold isFull at room
    by_cases feed : c = '\n'
    · rw [if_pos feed, beq_eq_false_iff_ne] at room
      -- A line feed takes one more line and starts the columns anew.
      apply fits_of_lt
      · rw [feed, List.count_append, List.count_singleton_self]
        omega
      · rw [List.rtakeWhile_concat_neg _ _ _ (by simp [feed])]
        decide
    · rw [if_neg feed, beq_eq_false_iff_ne] at room
      -- Any other character takes one more column.
      apply fits_of_lt
      · rw [List.count_append, List.count_singleton, if_neg (by simp [feed])]
        omega
      · rw [List.rtakeWhile_concat_pos _ _ _ (by simp [feed]), List.length_append]
        simp only [List.length_singleton]
        omega

/-- A text has at least as many bytes as characters. -/
theorem length_le_offset_behind (front : List Char) : front.length ≤ (behind front).offset := by
  induction front using List.reverseRecOn with
  | nil => exact Nat.zero_le _
  | append_singleton front c ih =>
    have positive := c.utf8Size_pos
    have bytes : (behind (front ++ [c])).offset = (behind front).offset + c.utf8Size := by
      rw [behind_concat, next]
      split <;> rfl
    rw [List.length_append, List.length_singleton, bytes]
    omega

/-- What a text without an overflow begins with is moved over without one. -/
theorem not_overflows_of_prefix {p : Position} {front text : List Char} (h : front <+: text)
    (room : p.overflows text = false) : p.overflows front = false := by
  obtain ⟨back, rfl⟩ := h
  rw [overflows_append, Bool.or_eq_false_iff] at room
  exact room.1

theorem fits_of_short {front : List Char} (short : (behind front).offset + 1 < UInt32.size) :
    Fits front := by
  have length := length_le_offset_behind front
  have feeds : front.count '\n' ≤ front.length := List.count_le_length
  have line := (List.rtakeWhile_suffix (fun c => c != '\n') front).length_le
  exact fits_of_lt (by omega) (by omega)

/-- Short texts are moved over without an overflow. -/
theorem not_overflows_of_short {front : List Char} (short : (behind front).offset < UInt32.size - 1) :
    first.overflows front = false := by
  induction front using List.reverseRecOn with
  | nil => rfl
  | append_singleton front c ih =>
    have less := offset_behind_lt front (List.cons_ne_nil c [])
    have here := length_le_offset_behind (front ++ [c])
    have fits : Fits front := fits_of_short (by omega)
    obtain ⟨line, column⟩ := fits
    have feeds : front.count '\n' ≤ front.length := List.count_le_length
    have inline := (List.rtakeWhile_suffix (fun c => c != '\n') front).length_le
    rw [List.length_append, List.length_singleton] at here
    rw [overflows_first_concat, ih (by omega), Bool.false_or, isFull, beq_eq_false_iff_ne]
    split <;> omega

end Position

end Frontend

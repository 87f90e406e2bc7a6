import Frontend.Diagnostic.Report
import Frontend.Proofs.Layout
import Frontend.Proofs.Source.Line
import Frontend.Proofs.Token.Concatenation
import Mathlib.Data.Nat.Digits.Defs

/-!
# The caret of a report

A report of what is wrong with a text has its caret below the first character of the token that
it is about.  If that is too far to the right for a field, there is no report.

* **`Diagnostic.Shows`**: a report shows a line, with its caret below one of its characters.
* **`Diagnostic.shows_of_line`**: the line is the one that the position is on, without the white
  space around it, and the character is the one at the position.
* **`Diagnostic.Offends`**: what a diagnostic with its caret below a character is about.
* **`exists_position_of_compile`**: a diagnostic is about a token, where it starts, or about the
  end of the text.
* **`Diagnostic.pointsInside`**, **`Diagnostic.pointsAtEnd`**: the reports of both.
-/

namespace Frontend

open Source (IsLine WholeLines)

namespace Diagnostic

/-! ## The line that is shown -/

section Shown

variable {indent body line l : List Char}

theorem shownLine_indent (blank : ∀ c ∈ indent, isIndent c)
    (solid : ∀ c ∈ body.head?, isIndent c = false) :
    indentWidth (indent ++ body) = indent.length ∧
      shownLine (indent ++ body) = body.rdropWhile Unicode.isBlank := by
  have taken : body.takeWhile isIndent = [] ∧ body.dropWhile isIndent = body := by
    cases body with
    | nil => exact ⟨rfl, rfl⟩
    | cons c rest =>
      have other : ¬ isIndent c = true := by simp [solid c rfl]
      exact ⟨List.takeWhile_cons_of_neg other, List.dropWhile_cons_of_neg other⟩
  constructor
  · rw [indentWidth, List.takeWhile_append_of_pos blank, taken.1, List.append_nil]
  · rw [shownLine, List.dropWhile_append_of_pos blank, taken.2]
    rfl

/-- A carriage return at the end makes no difference to what is shown. -/
theorem shownLine_of_line (blank : ∀ c ∈ indent, isIndent c)
    (solid : ∀ c ∈ body.head?, isIndent c = false) (same : line = indent ++ body)
    (ends : line = l ∨ line = l ++ ['\r']) :
    indentWidth l = indent.length ∧ shownLine l = body.rdropWhile Unicode.isBlank := by
  rcases ends with rfl | returns
  · rw [same]
    exact shownLine_indent blank solid
  · rw [same] at returns
    rcases List.eq_nil_or_concat' body with rfl | ⟨body', c, rfl⟩
    · -- Nothing that is taken off in front ends with a carriage return.
      rw [List.append_nil] at returns
      have last := blank '\r' (by simp [returns])
      cases last
    -- The carriage return is white space, so that it is taken off behind the line anyway.
    · rw [← List.append_assoc] at returns
      obtain ⟨rfl, single⟩ := List.append_inj' returns rfl
      obtain rfl := (List.cons.inj single).1
      have solid' : ∀ c ∈ body'.head?, isIndent c = false := by
        cases body' with
        | nil => exact fun _ none => by cases none
        | cons d rest => exact solid
      rw [List.rdropWhile_concat_pos _ _ _ (by decide)]
      exact shownLine_indent blank solid'

end Shown

/-! ## The excerpt -/

theorem padLeft?_of_le {fill : Char} {width : Nat} (text : String) (narrow : width ≤ widest) :
    padLeft? fill width text =
      some (String.ofList (List.replicate (width - text.length) fill) ++ text) :=
  if_pos narrow

theorem padLeft?_of_lt {fill : Char} {width : Nat} (text : String) (wide : widest < width) :
    padLeft? fill width text = none :=
  if_neg (Nat.not_le.mpr wide)

/-- The number of a line has ten digits at most. -/
theorem length_number_le (n : UInt32) : (toString n).length ≤ 10 := by
  have bound := n.toNat_lt_size
  have size : UInt32.size < 10 ^ 10 := by decide
  exact Nat.repr_length n.toNat 10 (by decide) (bound.trans size)

/-- A report shows the line `shown`, with its caret below the character number `place` of it,
counted from zero.  What stands in front of the line is as long as what stands below it.  Where a
caret does not fit in a field, there is no report. -/
def Shows (d : Diagnostic) (source file : String) (shown : List Char) (place : Nat) : Prop :=
  let margin := toString d.position.line ++ " | "
  let bar := String.ofList (List.replicate ((toString d.position.line).length + 1) ' ') ++ "|"
  margin.length = (bar ++ " ").length ∧
    d.report? source file =
      if place < widest then
        some (d.heading ++ "-> " ++ file ++ "\n" ++ bar ++ "\n" ++
          margin ++ String.ofList shown ++ "\n" ++
          (bar ++ " ") ++ String.ofList (List.replicate place '-') ++ "^" ++ "\n")
      else none

theorem shows_of_excerpt {d : Diagnostic} {source file : String} {l : List Char} {place : Nat}
    (found : Source.line? source d.position.line.toNat = some (String.ofList l))
    (column : caretColumn l d.position.column.toNat = place + 1) :
    d.Shows source file (shownLine l) place := by
  -- The bar stands in a field of twelve columns at most.
  have number := length_number_le d.position.line
  have bar : padLeft? ' ' ((toString d.position.line).length + 2) "|" =
      some (String.ofList (List.replicate ((toString d.position.line).length + 1) ' ') ++ "|") :=
    padLeft?_of_le "|" (Nat.le_trans (Nat.add_le_add_right number 2) (by decide))
  constructor
  · have gap : " | ".length = 3 := rfl
    have line : "|".length = 1 := rfl
    have blank : " ".length = 1 := rfl
    simp only [String.length_append, String.length_ofList, List.length_replicate, gap, line, blank]
  -- Only the caret can be too far to the right.
  · by_cases narrow : place < widest
    · have caret : padLeft? '-' (place + 1) "^" =
          some (String.ofList (List.replicate place '-') ++ "^") :=
        padLeft?_of_le "^" narrow
      rw [if_pos narrow, report?, found]
      simp only [excerpt?, String.toList_ofList, column, bar, caret, Option.pure_def,
        Option.bind_eq_bind, Option.bind_some, String.append_assoc]
    · -- The excerpt breaks off at its last line, and the report with it.
      have caret : padLeft? '-' (place + 1) "^" = none := padLeft?_of_lt "^" (by omega)
      rw [if_neg narrow, report?, found]
      simp only [excerpt?, String.toList_ofList, column, bar, caret, Option.bind_eq_bind,
        Option.bind_some, Option.bind_none]

/-- A report about a position on a line of the text shows this line. -/
theorem shows_of_line {d : Diagnostic} {source : String}
    {before indent above tail after : List Char} (file : String)
    (text : source.toList = before ++ (indent ++ (above ++ tail) ++ after))
    (line : IsLine before (indent ++ (above ++ tail)) after)
    (blank : ∀ c ∈ indent, isIndent c) (solid : ∀ c ∈ (above ++ tail).head?, isIndent c = false)
    (ne : indent ++ (above ++ tail) ++ after ≠ [])
    (fits : Position.Fits (before ++ (indent ++ above)))
    (position : d.position = Position.behind (before ++ (indent ++ above))) :
    d.Shows source file ((above ++ tail).rdropWhile Unicode.isBlank) above.length := by
  obtain ⟨l, found, ends⟩ := line.exists_getElem?_lines ne
  obtain ⟨width, shown⟩ := shownLine_of_line blank solid rfl (ends.imp_right And.left)
  have plain : '\n' ∉ indent ++ above := by
    intro feed
    apply line.plain
    rw [← List.append_assoc]
    exact List.mem_append_left tail feed
  obtain ⟨number, column⟩ := Source.behind_on_line line.starts plain fits
  rw [← position] at number column
  -- What was taken off in front is as long in the column as in the line.
  have caret : caretColumn l d.position.column.toNat = above.length + 1 := by
    rw [caretColumn, column, width, List.length_append]
    omega
  have here : Source.line? source d.position.line.toNat = some (String.ofList l) := by
    rw [number, Source.line?, text, found]
    rfl
  rw [← shown]
  exact shows_of_excerpt here caret

/-- A report about the end of a text without a last line shows no line. -/
theorem report_of_wholeLines {d : Diagnostic} {source : String} (file : String)
    (whole : WholeLines source.toList) (fits : Position.Fits source.toList)
    (position : d.position = Position.behind source.toList) :
    d.report? source file = some (d.heading ++ "-> " ++ file ++ "\n") := by
  rw [← List.append_nil source.toList] at fits position
  have number := (Source.behind_on_line whole List.not_mem_nil fits).1
  rw [← position] at number
  have none : Source.line? source d.position.line.toNat = none := by
    rw [number, Source.line?, whole.getElem?_lines_self]
    rfl
  rw [report?, none]
  simp only [Option.pure_def, Option.bind_eq_bind, Option.bind_some, String.append_empty]

end Diagnostic

/-! ## Positions of diagnostics -/

/-- What a diagnostic with its caret below `c` is about: `c` itself, or a token that begins with
it. -/
def Diagnostic.Offends (d : Diagnostic) (source : String) (c : Char) : Prop :=
  d.fault = .unrecognised (String.singleton c) ∨
    ∃ ts t, Token.scan source = .ok ts ∧ t ∈ ts ∧ t.span.start = d.position ∧
      t.text.toList.head? = some c ∧ d.fault.About t.text

namespace Token

/-- A token other than the end begins with a character that is no white space, at the position
where it starts. -/
theorem exists_char_of_mem {source : String} {ts : List Token} {t : Token}
    (h : scan source = .ok ts) (member : t ∈ ts) (word : t.kind ≠ .eof) :
    ∃ read c back, source.toList = read ++ c :: back ∧ t.span.start = Position.behind read ∧
      t.text.toList.head? = some c ∧ Unicode.isBlank c = false := by
  have tiles : Tiles [] source.toList ts := tiles_of_scanFrom h
  obtain ⟨before, lexeme, stands⟩ := tiles.exists_standsAt t member word
  obtain ⟨c, rest, text, solid⟩ := exists_cons_of_isLexeme (isLexeme_of_mem h member word)
  obtain ⟨back, whole⟩ := stands.isPrefix
  have same : lexeme = c :: rest := by rw [← text, stands.text, String.toList_ofList]
  rw [same] at whole
  refine ⟨before, c, rest ++ back, ?_, by rw [stands.span], by rw [text]; rfl, solid⟩
  rw [← whole.trans (List.nil_append _), List.append_assoc]
  rfl

end Token

/-- What fails fails with a diagnostic, either about a character that is no white space, where it
stands, or about the end of the text.  Scanning comes as far as that. -/
theorem exists_position_of_compile {source : String} {stage : Stage} {s : Stop}
    (failed : compile source stage = .error s) :
    ∃ d, s = .fault d ∧ ((∃ read c back, source.toList = read ++ c :: back ∧
        read <+: Token.passed source.toList ∧ d.position = Position.behind read ∧
        d.Offends source c ∧ Unicode.isBlank c = false) ∨
      Token.passed source.toList = source.toList ∧
        d.position = Position.behind source.toList) := by
  cases scanned : Token.scan source with
  | error d =>
    -- All stages begin with scanning, and fail as it does.
    have stops : compile source stage = .error (.fault d) := by
      have none : tokens source = .error (.fault d) := by
        rw [tokens, scanned]
        rfl
      cases stage <;> simp only [compile, parsed, analyzed, optimized, none] <;> rfl
    obtain rfl := Except.error.inj (failed.symm.trans stops)
    obtain ⟨c, back, text, rfl, solid⟩ := Token.exists_of_scanFrom_eq_error scanned
    exact ⟨_, rfl, Or.inl ⟨_, c, back, text, List.prefix_rfl, Position.after_first _, Or.inl rfl,
      solid⟩⟩
  | ok ts =>
    -- Of what fails later, layout knows that it names the place of a token.
    have same := compile_moved scanned scanned rfl stage
    rw [failed] at same
    cases same with
    | @fault f p _ h =>
      obtain ⟨text, about, i, -, t, _, found, -, rfl, rfl, -⟩ := h
      have member : t ∈ ts := List.mem_of_getElem? found
      have all : Token.passed source.toList = source.toList := Token.passed_of_scanFrom scanned
      refine ⟨_, rfl, ?_⟩
      by_cases ends : t.kind = .eof
      · refine Or.inr ⟨all, ?_⟩
        have tiles : Token.Tiles [] source.toList ts := Token.tiles_of_scanFrom scanned
        obtain ⟨body, rfl, inside⟩ := tiles.ended
        rcases List.mem_append.mp member with inner | last
        · exact absurd ends (inside t inner)
        · rw [List.mem_singleton.mp last]
          rfl
      -- Every other token has its first character at the place where it starts.
      · obtain ⟨read, c, back, whole, start, first, solid⟩ :=
          Token.exists_char_of_mem scanned member ends
        have begins : read <+: Token.passed source.toList := by
          rw [all]
          exact ⟨c :: back, whole.symm⟩
        exact Or.inl ⟨read, c, back, whole, begins, start,
          Or.inr ⟨ts, t, scanned, member, rfl, first, about⟩, solid⟩

/-- What a text has in front of a position and behind it, as a line with white space around it. -/
theorem exists_line (front back : List Char) :
    ∃ before indent above tail after, front = before ++ (indent ++ above) ∧ back = tail ++ after ∧
      IsLine before (indent ++ (above ++ tail)) after ∧
      (∀ x ∈ indent, Diagnostic.isIndent x) ∧
      ∀ x ∈ above.head?, Diagnostic.isIndent x = false := by
  -- The white space in front of the line is split off from what is in front of the place.
  obtain ⟨before, line, tail, after, rfl, rfl, isLine⟩ := Source.exists_isLine front back
  refine ⟨before, line.takeWhile Diagnostic.isIndent, line.dropWhile Diagnostic.isIndent, tail,
    after, ?_, rfl, ?_, ?_, ?_⟩
  · rw [List.takeWhile_append_dropWhile]
  · rwa [← List.append_assoc, List.takeWhile_append_dropWhile]
  · intro x member
    exact List.mem_takeWhile_imp member
  · intro x first
    have stops := List.head?_dropWhile_not Diagnostic.isIndent line
    rw [Option.mem_def.mp first] at stops
    simpa using stops

theorem isBlank_of_isIndent {c : Char} (h : Diagnostic.isIndent c = true) :
    Unicode.isBlank c = true := by
  simp only [Diagnostic.isIndent, Bool.or_eq_true, beq_iff_eq] at h
  rcases h with rfl | rfl <;> decide

/-- White space is taken off behind the last character that is none. -/
theorem rdropWhile_append_cons {p : Char → Bool} (front : List Char) {c : Char} (rest : List Char)
    (solid : p c = false) :
    (front ++ c :: rest).rdropWhile p = front ++ c :: rest.rdropWhile p := by
  have other : ¬ p c = true := by simp [solid]
  induction rest using List.reverseRecOn with
  | nil => rw [List.rdropWhile_concat_neg _ _ _ other, List.rdropWhile_nil]
  | append_singleton rest d ih =>
    rw [← List.cons_append, ← List.append_assoc]
    by_cases last : p d = true
    · rw [List.rdropWhile_concat_pos _ _ _ last, List.rdropWhile_concat_pos _ _ _ last, ih]
    · rw [List.rdropWhile_concat_neg _ _ _ last, List.rdropWhile_concat_neg _ _ _ last,
        List.append_assoc, List.cons_append]

theorem exists_rdropWhile_append (p : Char → Bool) (text : List Char) :
    ∃ white, text = text.rdropWhile p ++ white ∧ ∀ x ∈ white, p x = true := by
  refine ⟨text.rtakeWhile p, ?_, fun x member => List.mem_rtakeWhile_imp member⟩
  rw [List.rdropWhile, List.rtakeWhile, ← List.reverse_append, List.takeWhile_append_dropWhile,
    List.reverse_reverse]

/-- A diagnostic is about a character `c` of a text, and its report shows the line of `c` without
white space around it, with the caret below `c`, if it is not too far to the right. -/
def Diagnostic.PointsInside (d : Diagnostic) (source file : String) : Prop :=
  ∃ before indent above c below white after,
    source.toList = before ++ (indent ++ (above ++ c :: (below ++ white)) ++ after) ∧
    IsLine before (indent ++ (above ++ c :: (below ++ white))) after ∧
    (∀ x ∈ indent, isIndent x) ∧ (∀ x ∈ white, Unicode.isBlank x) ∧
    d.position = Position.behind (before ++ (indent ++ above)) ∧ d.Offends source c ∧
    d.Shows source file (above ++ c :: below) above.length

/-- The report of a diagnostic about the end of a text shows no line if the text is empty or ends
with a line feed, and else the last line, with the caret behind it. -/
def Diagnostic.PointsAtEnd (d : Diagnostic) (source file : String) : Prop :=
  if source.toList = [] ∨ source.toList.getLast? = some '\n' then
    d.report? source file = some (d.heading ++ "-> " ++ file ++ "\n")
  else
    ∃ before indent above, source.toList = before ++ (indent ++ above) ∧
      IsLine before (indent ++ above) [] ∧ (∀ x ∈ indent, isIndent x) ∧
      (∀ x ∈ above.head?, isIndent x = false) ∧
      d.Shows source file (above.rdropWhile Unicode.isBlank) above.length

namespace Diagnostic

/-- A report about a character that is no white space has its caret below this character. -/
theorem pointsInside {d : Diagnostic} {source : String} {read back : List Char} {c : Char}
    (text : source.toList = read ++ c :: back) (fits : Position.Fits read)
    (position : d.position = Position.behind read) (offends : d.Offends source c)
    (solid : Unicode.isBlank c = false) (file : String) :
    d.PointsInside source file := by
  obtain ⟨before, indent, above, tail, after, rfl, split, line, blank, head⟩ :=
    exists_line read (c :: back)
  cases tail with
  | nil =>
    -- The line would end in front of the character, which would be a line feed.
    rw [List.nil_append] at split
    subst split
    obtain rfl := line.stops c rfl
    cases solid
  | cons c' tail =>
    obtain ⟨rfl, rfl⟩ := List.cons.inj split
    have visible : isIndent c = false := by
      by_contra indented
      rw [isBlank_of_isIndent (by simpa using indented)] at solid
      cases solid
    have start : ∀ x ∈ (above ++ c :: tail).head?, isIndent x = false := by
      cases above with
      | nil =>
        rintro x ⟨⟩
        exact visible
      | cons y above => exact head
    obtain ⟨white, rest, blanks⟩ := exists_rdropWhile_append Unicode.isBlank tail
    have whole : source.toList = before ++ (indent ++ (above ++ c :: tail) ++ after) := by
      rw [text]
      simp only [List.append_assoc, List.cons_append]
      rfl
    have shows := shows_of_line file whole line blank start (by simp) fits position
    rw [rdropWhile_append_cons above tail solid] at shows
    rw [rest] at whole line
    exact ⟨before, indent, above, c, tail.rdropWhile Unicode.isBlank, white, after, whole, line,
      blank, blanks, position, offends, shows⟩

/-- A report about the end of a text has its caret behind the last line, if there is one. -/
theorem pointsAtEnd {d : Diagnostic} {source : String} (fits : Position.Fits source.toList)
    (ends : d.position = Position.behind source.toList) (file : String) :
    d.PointsAtEnd source file := by
  obtain ⟨before, indent, above, tail, after, text, split, line, blank, head⟩ :=
    exists_line source.toList []
  obtain ⟨rfl, rfl⟩ := List.append_eq_nil_iff.mp split.symm
  rw [List.append_nil] at line
  unfold PointsAtEnd
  -- Nothing is in front of the end on its line exactly if there is no last line.
  by_cases last : indent ++ above = []
  · rw [last, List.append_nil] at text
    have whole : WholeLines source.toList := by
      rw [text]
      exact line.starts
    have complete : source.toList = [] ∨ source.toList.getLast? = some '\n' := by
      by_cases empty : source.toList = []
      · exact Or.inl empty
      · exact Or.inr (whole.getLast? empty)
    rw [if_pos complete]
    exact report_of_wholeLines file whole fits ends
  · have open' : ¬ (source.toList = [] ∨ source.toList.getLast? = some '\n') := by
      rw [text]
      rintro (empty | feed)
      · exact last (List.append_eq_nil_iff.mp empty).2
      · rw [List.getLast?_append_of_ne_nil _ last] at feed
        exact line.plain (List.mem_of_getLast? feed)
    rw [if_neg open']
    refine ⟨before, indent, above, text, line, blank, head, ?_⟩
    -- Nothing is behind the end on its line either.
    have tailless : above ++ [] = above := List.append_nil above
    rw [← tailless] at line head
    have whole : source.toList = before ++ (indent ++ (above ++ []) ++ []) := by
      rw [text, tailless, List.append_nil]
    have shows := shows_of_line file whole line blank head (by simpa using last) (text ▸ fits)
      (ends.trans (congrArg Position.behind text))
    rwa [tailless] at shows

end Diagnostic

/-- **The caret of a report is below the first character of what is wrong.**  If that is the end
of the text, the caret is below its last line, if there is one.  There is a report unless the caret
would be behind the widest field.  All this is so for texts in which no count overflows, as it is
with every text of less than `2 ^ 32 - 1` bytes. -/
theorem report_points_at_fault {source : String} {stage : Stage} {s : Stop}
    (room : Position.first.overflows (Token.passed source.toList) = false)
    (failed : compile source stage = .error s) (file : String) :
    ∃ d, s = .fault d ∧
      (d.position ≠ Position.behind source.toList → d.PointsInside source file) ∧
      (d.position = Position.behind source.toList → d.PointsAtEnd source file) := by
  obtain ⟨d, rfl, place⟩ := exists_position_of_compile failed
  refine ⟨d, rfl, ?_, ?_⟩
  · intro inner
    -- What has been read up to the character has been moved over, so that it fits.
    obtain ⟨read, c, back, text, begins, position, offends, solid⟩ | ⟨-, ends⟩ := place
    · have fits := Position.fits_of_not_overflows (Position.not_overflows_of_prefix begins room)
      exact Diagnostic.pointsInside text fits position offends solid file
    · exact absurd ends inner
  · intro ends
    obtain ⟨read, c, back, text, -, position, -⟩ | ⟨all, -⟩ := place
    · -- Behind a character that is still to come, the text has more bytes.
      have later := Position.offset_behind_lt read (List.cons_ne_nil c back)
      rw [← text, ← ends, ← position] at later
      exact absurd later (Nat.lt_irrefl _)
    · rw [all] at room
      exact Diagnostic.pointsAtEnd (Position.fits_of_not_overflows room) ends file

/-- A text with an unknown name behind two blanks. -/
def unknownName : String := "let x = 1;\n  print y;\n"

/-- The caret is below the name. -/
theorem unknownName_reported : ∃ d, Stop.fault ⟨.undeclared "y", ⟨19, 2, 9⟩⟩ = .fault d ∧
    (d.position ≠ Position.behind unknownName.toList →
      d.PointsInside unknownName "program.bella") ∧
    (d.position = Position.behind unknownName.toList →
      d.PointsAtEnd unknownName "program.bella") := by
  have evaluated : (match compile unknownName .analyzed with
      | .error s => some s
      | .ok _ => none) = some (.fault ⟨.undeclared "y", ⟨19, 2, 9⟩⟩) := by
    decide +kernel
  have room : Position.first.overflows (Token.passed unknownName.toList) = false := by
    decide +kernel
  cases result : compile unknownName .analyzed with
  | ok _ =>
    rw [result] at evaluated
    cases evaluated
  | error s =>
    rw [result] at evaluated
    obtain rfl := Option.some.inj evaluated
    exact report_points_at_fault room result "program.bella"

/-- A name with some blanks behind it. -/
def farName (blanks : Nat) : List Char := 'a' :: List.replicate (blanks + 1) ' '

/-- Behind them, there is a character that starts no token. -/
def farOff (blanks : Nat) : String := String.ofList (farName blanks ++ ['#'])

section FarOff

variable {blanks : Nat}

theorem length_farName : (farName blanks).length = blanks + 2 := by
  rw [farName, List.length_cons, List.length_replicate]

theorem not_mem_farName : '\n' ∉ farName blanks := by
  intro feed
  rcases List.mem_cons.mp feed with same | blank
  · cases same
  · cases List.eq_of_mem_replicate blank

theorem fits_farName (short : blanks + 3 < UInt32.size) : Position.Fits (farName blanks) := by
  have feeds : (farName blanks).count '\n' = 0 := List.count_eq_zero_of_not_mem not_mem_farName
  have line := (List.rtakeWhile_suffix (fun c => c != '\n') (farName blanks)).length_le
  rw [length_farName] at line
  exact Position.fits_of_lt (by omega) (by omega)

theorem compile_farOff (stage : Stage) : compile (farOff blanks) stage =
    .error (.fault ⟨.unrecognised "#", Position.behind (farName blanks)⟩) := by
  -- Scanning takes the letter, skips the blanks, and then finds that no pattern applies.
  have name : Pattern.first? (farName blanks ++ ['#']) = some .word := rfl
  have size : Pattern.word.length (farName blanks ++ ['#']) = 1 := rfl
  have gap : ∀ c ∈ List.replicate (blanks + 1) ' ', Unicode.isBlank c = true := by
    intro c member
    rw [List.eq_of_mem_replicate member]
    decide
  have scanned : Token.scan (farOff blanks) =
      .error ⟨.unrecognised "#", Position.behind (farName blanks)⟩ := by
    rw [Token.scan, farOff, String.toList_ofList, Token.scanFrom_of_first? name, size, farName,
      List.cons_append, List.take_succ_cons, List.drop_succ_cons, List.take_zero, List.drop_zero,
      Token.scanFrom_append_blanks gap, Token.scanFrom_of_none rfl, ← Position.after_append,
      Position.after_first]
    rfl
  have none : tokens (farOff blanks) =
      .error (.fault ⟨.unrecognised "#", Position.behind (farName blanks)⟩) := by
    rw [tokens, scanned]
    rfl
  cases stage <;> simp only [compile, parsed, analyzed, optimized, none] <;> rfl

theorem shows_farOff (short : blanks + 3 < UInt32.size) (file : String) :
    Diagnostic.Shows ⟨.unrecognised "#", Position.behind (farName blanks)⟩ (farOff blanks) file
      ((farName blanks ++ ['#']).rdropWhile Unicode.isBlank) (blanks + 2) := by
  -- All of the text is one line, with no white space in front of it.
  have line : IsLine [] ([] ++ (farName blanks ++ ['#'])) [] := by
    refine ⟨.nil, ?_, fun c none => by cases none⟩
    rw [List.nil_append, List.mem_append, not_or]
    exact ⟨not_mem_farName, by decide⟩
  have text : (farOff blanks).toList = [] ++ ([] ++ (farName blanks ++ ['#']) ++ []) := by
    rw [farOff, String.toList_ofList, List.append_nil]
    rfl
  have solid : ∀ c ∈ (farName blanks ++ ['#']).head?, Diagnostic.isIndent c = false := by
    rintro c ⟨⟩
    decide
  have last : blanks + 2 = (farName blanks).length := length_farName.symm
  rw [last]
  exact Diagnostic.shows_of_line file text line (fun c none => by cases none) solid
    (List.cons_ne_nil _ _) (fits_farName short) rfl

end FarOff

/-- A caret in the column `2 ^ 16` is too far to the right: there is no report. -/
theorem farOff_not_reported : ∃ d, compile (farOff 65533) .parsed = .error (.fault d) ∧
    d.position ≠ Position.behind (farOff 65533).toList ∧ d.position.column.toNat = 2 ^ 16 ∧
    d.report? (farOff 65533) "test.bella" = none := by
  have short : 65533 + 3 < UInt32.size := by decide
  refine ⟨_, compile_farOff .parsed, ?_, ?_, ?_⟩
  · intro ends
    have later := Position.offset_behind_lt (farName 65533) (List.cons_ne_nil '#' [])
    rw [farOff, String.toList_ofList] at ends
    rw [← ends] at later
    exact absurd later (Nat.lt_irrefl _)
  · have column := (Source.behind_on_line .nil not_mem_farName (fits_farName short)).2
    rw [length_farName] at column
    exact column
  · have wide : ¬ 65533 + 2 < Diagnostic.widest := by decide
    exact (shows_farOff short "test.bella").2.trans (if_neg wide)

end Frontend

import Frontend.Proofs.Stages
import Frontend.Proofs.Token.Passed

/-!
# Tokens tile the text

Scanning loses nothing and invents nothing: the tokens of a text are parts of it, in order,
and what stands between them is white space and comments.

* **`Gap`**: white space and comments, which stand between tokens.
* **`Tiles`**: a text as gaps and lexemes in turn, together with the tokens of these lexemes.
  It knows the text that is already behind, from which every position follows.
* **`tiles_of_scanFrom`**: scanning tiles whatever is ahead of it.  One step either makes the
  next gap longer or starts with a lexeme.
* **`Tiling`**: what this says about a whole text and all of its tokens.
* **`scan_tiles`**: the same for a text of any size, with positions that are exact wherever no
  count can have gone on from zero.
-/

namespace Frontend

/-! ## Gaps -/

/-- White space and comments, in any number, in front of `ahead`.  A comment goes on to a
line feed or to the end of the text. -/
inductive Gap : List Char → List Char → Prop
  | nothing {ahead} : Gap [] ahead
  | blank {c text ahead} (h : Unicode.isBlank c) (rest : Gap text ahead) : Gap (c :: text) ahead
  | comment {words text ahead} (inline : '\n' ∉ words)
      (ends : ∀ c ∈ (text ++ ahead).head?, c = '\n') (rest : Gap text ahead) :
      Gap ('/' :: '/' :: (words ++ text)) ahead

namespace Gap

variable {text text' ahead : List Char}

/-- Two gaps next to each other are one. -/
theorem append (h : Gap text (text' ++ ahead)) (h' : Gap text' ahead) :
    Gap (text ++ text') ahead := by
  generalize same : text' ++ ahead = behind at h
  induction h with
  | nothing => exact h'
  | blank blank _ ih => exact .blank blank (ih same)
  | comment inline ends _ ih =>
    subst same
    rw [← List.append_assoc] at ends
    simpa using Gap.comment inline ends (ih rfl)

/-- White space is a gap. -/
theorem of_blanks (h : ∀ c ∈ text, Unicode.isBlank c) : Gap text ahead := by
  induction text with
  | nil => exact .nothing
  | cons c rest ih =>
    rw [List.forall_mem_cons] at h
    exact .blank h.1 (ih h.2)

end Gap

namespace Pattern

variable {text lexeme : List Char} {pattern : Pattern}

/-- The white space pattern takes nothing but white space. -/
theorem isBlank_of_mem_take : ∀ c ∈ text.take (blank.length text), Unicode.isBlank c := by
  have taken : text.take (blank.length text) = text.takeWhile Unicode.isBlank :=
    (List.prefix_iff_eq_take.mp (List.takeWhile_prefix _)).symm
  rw [taken]
  intro c h
  exact List.mem_takeWhile_imp h

/-- The white space pattern takes a gap. -/
theorem gap_of_blank (ahead : List Char) : Gap (text.take (blank.length text)) ahead :=
  Gap.of_blanks isBlank_of_mem_take

/-- The comment pattern takes a gap. -/
theorem gap_of_comment (h : comment.length text ≠ 0) :
    Gap (text.take (comment.length text)) (text.drop (comment.length text)) := by
  change commentLength text ≠ 0 at h
  show Gap (text.take (commentLength text)) (text.drop (commentLength text))
  unfold commentLength at *
  split at h
  · rename_i rest
    let words := rest.takeWhile fun c => c != '\n'
    let others := rest.dropWhile fun c => c != '\n'
    -- The comment is cut at its line feed, which stays in the text behind it.
    have whole : rest = words ++ others := List.takeWhile_append_dropWhile.symm
    have inline : '\n' ∉ words := by
      intro feed
      simpa using List.mem_takeWhile_imp feed
    have ends : ∀ c ∈ ([] ++ others).head?, c = '\n' := by
      intro c first
      have stopped := List.head?_dropWhile_not (fun c => c != '\n') rest
      rw [show (rest.dropWhile fun c => c != '\n').head? = some c from first] at stopped
      simpa using stopped
    -- Two slashes and the words are taken, and the rest is left.
    have taken : ('/' :: '/' :: rest).take (2 + words.length) = '/' :: '/' :: (words ++ []) := by
      rw [whole, Nat.add_comm, List.take_succ_cons, List.take_succ_cons, List.take_left,
        List.append_nil]
    have left : ('/' :: '/' :: rest).drop (2 + words.length) = others := by
      rw [whole, Nat.add_comm, List.drop_succ_cons, List.drop_succ_cons, List.drop_left]
    rw [show (rest.takeWhile fun c => c != '\n').length = words.length from rfl, taken, left]
    exact Gap.comment inline ends .nothing
  · exact absurd rfl h

/-- What makes no token is a gap. -/
theorem gap_of_first? (h : first? text = some pattern) (silent : pattern.kind? lexeme = none) :
    Gap (text.take (pattern.length text)) (text.drop (pattern.length text)) := by
  have taken := length_pos_of_first? h
  cases pattern with
  | blank => exact gap_of_blank _
  | comment => exact gap_of_comment (Nat.ne_of_gt taken)
  | number | word | symbol => cases silent

/-- No pattern makes a token of the kind that marks the end. -/
theorem ne_eof_of_first? {kind : Kind} (h : first? text = some pattern)
    (made : pattern.kind? lexeme = some kind) : kind ≠ .eof := by
  have listed : pattern ∈ table := List.mem_of_find?_eq_some h
  cases pattern with
  | blank | comment => cases made
  | number =>
    cases made
    decide
  | word =>
    cases made
    unfold Kind.ofReserved?
    split <;> decide
  | symbol own text =>
    -- Whether a symbol stands for the end is a matter of the table.
    cases made
    intro same
    subst same
    revert listed
    simp [table]

end Pattern

/-! ## Gaps and lexemes in turn -/

namespace Token

/-- The tokens of `text`, for a `text` that stands behind `front`: gaps and lexemes in turn,
at the end of which there is a token of its own. -/
inductive Tiles : List Char → List Char → List Token → Prop
  | stop {front gap} (clear : Gap gap []) :
      Tiles front gap [eof (Position.behind (front ++ gap))]
  | token {front gap lexeme ahead kind tokens} (clear : Gap gap (lexeme ++ ahead))
      (nonempty : lexeme ≠ []) (ne_eof : kind ≠ .eof)
      (rest : Tiles (front ++ gap ++ lexeme) ahead tokens) :
      Tiles front (gap ++ lexeme ++ ahead)
        (⟨kind, String.ofList lexeme,
            ⟨Position.behind (front ++ gap), Position.behind (front ++ gap ++ lexeme)⟩⟩ :: tokens)

section Tiles

variable {front text : List Char} {tokens : List Token}

/-- A gap in front of a text makes its first gap longer. -/
theorem Tiles.skip {gap : List Char} (clear : Gap gap text)
    (tiles : Tiles (front ++ gap) text tokens) : Tiles front (gap ++ text) tokens := by
  cases tiles with
  | stop clear' =>
    rw [← List.append_nil text] at clear
    rw [List.append_assoc]
    exact .stop (clear.append clear')
  | token clear' nonempty ne_eof rest =>
    rw [List.append_assoc] at clear
    rw [List.append_assoc front] at rest
    have tiles := Tiles.token (clear.append clear') nonempty ne_eof rest
    simpa only [List.append_assoc] using tiles

/-- Scanning tiles the text ahead. -/
theorem tiles_of_scanFrom (h : scanFrom (Position.behind front) text = .ok tokens) :
    Tiles front text tokens := by
  generalize place : Position.behind front = p at h
  fun_induction scanFrom p text generalizing front tokens with
  | case1 p =>
    cases h
    subst place
    have tiles : Tiles front [] [eof (Position.behind (front ++ []))] := .stop .nothing
    rwa [List.append_nil] at tiles
  | case2 p c rest missing => cases h
  | case3 => cases h
  | case4 p c rest pattern found size lexeme stop others =>
    rename_i read ih
    cases h
    subst place
    have whole : lexeme ++ (c :: rest).drop size = c :: rest := List.take_append_drop size _
    -- The next step starts where this one stops, which is behind the lexeme.
    have behind : stop = Position.behind (front ++ lexeme) := Position.after_behind front lexeme
    have tiles : Tiles (front ++ lexeme) ((c :: rest).drop size) others := ih behind.symm read
    unfold ofLexeme?
    rw [← whole, behind]
    -- A lexeme without a token belongs to the gap in front of the next one.
    cases made : pattern.kind? lexeme with
    | none => exact tiles.skip (Pattern.gap_of_first? found made)
    | some kind =>
      have nonempty : lexeme ≠ [] := by
        have taken : size ≠ 0 := Nat.ne_of_gt (Pattern.length_pos_of_first? found)
        intro empty
        rcases List.take_eq_nil_iff.mp empty with zero | nothing
        · exact taken zero
        · cases nothing
      have ne_eof := Pattern.ne_eof_of_first? found made
      rw [← List.append_nil front] at tiles
      have tiles := Tiles.token .nothing nonempty ne_eof tiles
      rwa [List.append_nil] at tiles

/-- The text as a whole is the same before and after the next lexeme. -/
theorem append_lexeme (front gap lexeme ahead : List Char) :
    front ++ (gap ++ lexeme ++ ahead) = front ++ gap ++ lexeme ++ ahead := by
  simp only [List.append_assoc]

/-- One token stands for the end, behind all the text, and it is the last one. -/
theorem Tiles.ended (tiles : Tiles front text tokens) :
    ∃ words, tokens = words ++ [eof (Position.behind (front ++ text))] ∧
      ∀ t ∈ words, t.kind ≠ .eof := by
  induction tiles with
  | stop clear =>
    refine ⟨[], rfl, ?_⟩
    intro t h
    cases h
  | token clear nonempty ne_eof rest ih =>
    obtain ⟨words, same, proper⟩ := ih
    rw [append_lexeme, same]
    exact ⟨_ :: words, rfl, List.forall_mem_cons.mpr ⟨ne_eof, proper⟩⟩

/-- No token starts in the text that is already behind. -/
theorem Tiles.le_start (tiles : Tiles front text tokens) :
    ∀ t ∈ tokens, (Position.behind front).offset ≤ t.span.start.offset := by
  induction tiles with
  | stop clear =>
    rw [List.forall_mem_singleton]
    exact Position.offset_behind_le _ _
  | token clear nonempty ne_eof rest ih =>
    rw [List.forall_mem_cons]
    refine ⟨Position.offset_behind_le _ _, ?_⟩
    intro t h
    have here := ih t h
    rw [List.append_assoc] at here
    exact Nat.le_trans (Position.offset_behind_le _ _) here

/-- Tokens come in the order of the text, each one behind those before it. -/
theorem Tiles.ordered (tiles : Tiles front text tokens) :
    tokens.Pairwise fun t t' => t.span.stop.offset ≤ t'.span.start.offset := by
  induction tiles with
  | stop clear => exact List.pairwise_singleton _ _
  | token clear nonempty ne_eof rest ih => exact List.pairwise_cons.mpr ⟨rest.le_start, ih⟩

/-- `t` is made of `lexeme`, which stands behind `before` in `whole`. -/
structure StandsAt (whole before lexeme : List Char) (t : Token) : Prop where
  isPrefix : before ++ lexeme <+: whole
  nonempty : lexeme ≠ []
  text : t.text = String.ofList lexeme
  span : t.span = ⟨Position.behind before, Position.behind (before ++ lexeme)⟩

section StandsAt

variable {whole before lexeme : List Char} {t : Token}

theorem StandsAt.start_lt_stop (h : StandsAt whole before lexeme t) :
    t.span.start.offset < t.span.stop.offset := by
  rw [h.span]
  exact Position.offset_behind_lt before h.nonempty

theorem StandsAt.bytes (h : StandsAt whole before lexeme t) :
    (String.ofList whole).toByteArray.extract t.span.start.offset t.span.stop.offset
      = t.text.toByteArray := by
  obtain ⟨back, same⟩ := h.isPrefix
  rw [h.span, h.text, ← same]
  exact Position.extract_behind before lexeme back

theorem StandsAt.start_isIn (h : StandsAt whole before lexeme t) : t.span.start.IsIn whole := by
  rw [h.span]
  exact ⟨before, (List.prefix_append before lexeme).trans h.isPrefix, rfl⟩

theorem StandsAt.stop_isIn (h : StandsAt whole before lexeme t) : t.span.stop.IsIn whole := by
  rw [h.span]
  exact ⟨before ++ lexeme, h.isPrefix, rfl⟩

end StandsAt

/-- Every token but the last one is made of a part of the text. -/
theorem Tiles.exists_standsAt (tiles : Tiles front text tokens) :
    ∀ t ∈ tokens, t.kind ≠ .eof → ∃ before lexeme, StandsAt (front ++ text) before lexeme t := by
  induction tiles with
  | stop clear =>
    rw [List.forall_mem_singleton]
    intro ne_eof
    exact absurd rfl ne_eof
  | @token front gap lexeme ahead kind tokens clear nonempty ne_eof rest ih =>
    rw [append_lexeme, List.forall_mem_cons]
    refine ⟨?_, ih⟩
    intro _
    exact ⟨front ++ gap, lexeme, List.prefix_append _ _, nonempty, rfl, rfl⟩

/-- Between `s` and `s'` there is nothing but a gap. -/
def Adjacent (whole : List Char) (s s' : Span) : Prop :=
  ∃ before gap ahead, whole = before ++ gap ++ ahead ∧ Gap gap ahead ∧
    s.stop = Position.behind before ∧ s'.start = Position.behind (before ++ gap)

/-- There are gaps in front of, between and behind the lexemes. -/
theorem Tiles.isChain (tiles : Tiles front text tokens) (p : Position) :
    List.IsChain (Adjacent (front ++ text))
      (⟨p, Position.behind front⟩ :: tokens.map Token.span) := by
  induction tiles generalizing p with
  | @stop front gap clear =>
    refine List.isChain_cons_cons.mpr ⟨⟨front, gap, [], ?_, clear, rfl, rfl⟩, .singleton _⟩
    rw [List.append_nil]
  | @token front gap lexeme ahead kind tokens clear nonempty ne_eof rest ih =>
    rw [append_lexeme]
    refine List.isChain_cons_cons.mpr ⟨⟨front, gap, lexeme ++ ahead, ?_, clear, rfl, rfl⟩, ih _⟩
    simp only [List.append_assoc]

end Tiles

/-! ## A whole text -/

/-- What the tokens of a text are as parts of this text. -/
structure Tiling (source : String) (tokens : List Token) : Prop where
  /-- The last token, and no other, stands for the end.  It is empty and behind all the text. -/
  ended : ∃ words, tokens = words ++ [eof (Position.behind source.toList)] ∧
    ∀ t ∈ words, t.kind ≠ .eof
  /-- Tokens come in the order of the text and do not overlap. -/
  ordered : tokens.Pairwise fun t t' => t.span.stop.offset ≤ t'.span.start.offset
  /-- No other token is empty. -/
  nonempty : ∀ t ∈ tokens, t.kind ≠ .eof → t.span.start.offset < t.span.stop.offset
  /-- The text of a token is what stands between its offsets, byte for byte. -/
  bytes : ∀ t ∈ tokens, t.kind ≠ .eof →
    source.toByteArray.extract t.span.start.offset t.span.stop.offset = t.text.toByteArray
  /-- From the beginning of the text to the first token, and from each token to the next one,
  there is nothing but white space and comments. -/
  gaps : List.IsChain (Adjacent source.toList) (Span.empty Position.first :: tokens.map span)
  /-- Every position is the one behind what the text has in front of it. -/
  positions : ∀ t ∈ tokens, t.span.start.IsIn source.toList ∧ t.span.stop.IsIn source.toList

/-- The tokens of a text and the gaps between them are the whole text, in order. -/
theorem tiling_of_scan {source : String} {tokens : List Token} (h : scan source = .ok tokens) :
    Tiling source tokens := by
  have tiles : Tiles [] source.toList tokens := tiles_of_scanFrom h
  have parts := tiles.exists_standsAt
  have ended := tiles.ended
  rw [List.nil_append] at parts ended
  refine ⟨ended, tiles.ordered, ?nonempty, ?bytes, tiles.isChain Position.first, ?positions⟩
  case nonempty =>
    intro t h ne_eof
    obtain ⟨before, lexeme, part⟩ := parts t h ne_eof
    exact part.start_lt_stop
  case bytes =>
    intro t h ne_eof
    obtain ⟨before, lexeme, part⟩ := parts t h ne_eof
    have bytes := part.bytes
    rwa [String.ofList_toList] at bytes
  case positions =>
    intro t h
    -- The last token is made of no part of the text: it stands behind all of it.
    by_cases ne_eof : t.kind ≠ .eof
    · obtain ⟨before, lexeme, part⟩ := parts t h ne_eof
      exact ⟨part.start_isIn, part.stop_isIn⟩
    · obtain ⟨words, same, proper⟩ := ended
      rw [same, List.mem_append, List.mem_singleton] at h
      rcases h with h | last
      · exact absurd (proper t h) ne_eof
      · subst last
        exact ⟨⟨_, List.prefix_rfl, rfl⟩, ⟨_, List.prefix_rfl, rfl⟩⟩

end Token

end Frontend

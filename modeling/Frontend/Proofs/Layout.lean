import Frontend.Proofs.Grammar.Tracking
import Frontend.Proofs.Resolving.Places
import Frontend.Proofs.Token.Lexeme

/-!
# Layout

What stands between the tokens of a text has no meaning.

* **`Token.respaced`**: the texts of tokens with single spaces between them.  It is scanned as
  the same words.
* **`Output.SameTree`**: the same tree up to its places.
* **`compile_moved`**: two texts of the same words are made into the same tree at every stage,
  or fail for the same reason at the token with the same number.
-/

namespace Frontend

namespace Token

/-- The texts of tokens, except for the end of the text, with single spaces between them. -/
def respaced (ts : List Token) : String :=
  " ".intercalate ((ts.filter fun t => t.kind != .eof).map text)

/-- Words with spaces between all of them. -/
theorem toList_intercalate_text (ws : List Word) :
    (" ".intercalate (ws.map Word.text)).toList = joined (fun _ _ => true) ws := by
  rw [String.toList_intercalate]
  induction ws with
  | nil => rfl
  | cons w ws ih =>
    cases ws with
    | nil => simp [joined, List.intercalate]
    | cons v ws =>
      simp only [List.map_cons, List.intercalate_cons_cons] at ih ⊢
      rw [ih, List.append_assoc]
      rfl

/-- With single spaces between them, the texts of tokens are scanned as the same words. -/
theorem scan_respaced {source : String} {ts : List Token} (h : scan source = .ok ts) :
    ∃ ts', scan (respaced ts) = .ok ts' ∧ ts'.map word = ts.map word := by
  obtain ⟨body, last, rfl, lexemes⟩ := isLexeme_of_scanFrom h
  have inside : ∀ t ∈ body, t.kind ≠ .eof := by
    intro t member
    obtain ⟨pattern, found, -, made⟩ := lexemes t member
    exact Pattern.ne_eof_of_first? found made
  -- What is written again are the tokens before the end of the text.
  have kept : (body ++ [eof last]).filter (fun t => t.kind != .eof) = body := by
    rw [List.filter_append, List.filter_eq_self.mpr (by simpa using inside)]
    simp [eof]
  have texts : body.map text = (body.map word).map Word.text := by
    rw [List.map_map]
    rfl
  have spaced : respaced (body ++ [eof last]) =
      String.ofList (joined (fun _ _ => true) (body.map word)) := by
    rw [respaced, kept, texts, ← toList_intercalate_text, String.ofList_toList]
  -- Each of them was a lexeme, and a blank behind every one keeps it one.
  have words : ∀ w ∈ body.map word, Pattern.IsLexeme w.kind w.text.toList := by
    rw [List.forall_mem_map]
    exact lexemes
  have touching : ∀ w v : Word, true = false → MayTouch w v := fun _ _ none => by cases none
  obtain ⟨ts', scanned, same⟩ := scan_joined touching words
  refine ⟨ts', ?_, ?_⟩
  · rw [spaced, scanned]
  · rw [same, List.map_append]
    rfl

end Token

/-- The same tree, up to its places. -/
def Output.SameTree : Output → Output → Prop
  | .phrases b, .phrases b' => Tree.Stmt.bareAll b.body = Tree.Stmt.bareAll b'.body
  | .program p, .program p' => p = p'
  | _, _ => False

section Stages

variable {source source' : String} {ts ts' : List Token}

theorem tokens_eq_of_scan (h : Token.scan source = .ok ts) : tokens source = .ok ts := by
  rw [tokens, h]
  rfl

/-- Texts of the same words have the same phrase tree, or none for the same reason. -/
theorem parsed_moved (h : Token.scan source = .ok ts) (h' : Token.scan source' = .ok ts')
    (same : ts.map Token.word = ts'.map Token.word) :
    SameResult (SameStart ts.length ts ts')
      (fun b b' => Tree.Stmt.MovedAll (SameStart ts.length ts ts') b.body b'.body ∧
        Tree.Stmt.KnownAll b.body) (parsed source) (parsed source') := by
  have read := ofTokens_moved (Token.closed_of_scan h) same
  have known (b : Tree.Block) (whole : Tree.Block.ofTokens ts = .ok b) :
      Tree.Stmt.KnownAll b.body := known_ofTokens whole
  rw [parsed, tokens_eq_of_scan h, parsed, tokens_eq_of_scan h']
  show SameResult _ _ (Tree.Block.ofTokens ts) (Tree.Block.ofTokens ts')
  generalize Tree.Block.ofTokens ts = r, Tree.Block.ofTokens ts' = r' at read known ⊢
  cases read with
  | ok moved => exact .ok ⟨moved, known _ rfl⟩
  | fault at' => exact .fault at'

/-- At every stage, texts of the same words are made into the same tree, or fail for the same
reason at the token with the same number. -/
theorem compile_moved (h : Token.scan source = .ok ts) (h' : Token.scan source' = .ok ts')
    (same : ts.map Token.word = ts'.map Token.word) (stage : Stage) :
    SameResult (SameStart ts.length ts ts') Output.SameTree (compile source stage)
      (compile source' stage) := by
  have trees := parsed_moved h h' same
  have programs : SameResult (SameStart ts.length ts ts') Eq (analyzed source) (analyzed source') :=
    trees.bind fun b b' moved => Resolved.ofBlock_moved moved.1 moved.2
  cases stage with
  | parsed => exact trees.map fun b b' moved => moved.1.bare_eq
  | analyzed => exact programs.map fun p p' same => same
  | optimized =>
    have simplified : SameResult (SameStart ts.length ts ts') Eq (optimized source)
        (optimized source') := programs.bind fun p p' same => .ok (congrArg _ same)
    exact simplified.map fun p p' same => same

end Stages

/-- **Layout has no meaning.**  A text with nothing but single spaces between its tokens has the
same words as before.  Two texts of the same words are made into the same tree at every stage, or
fail for the same reason, at the token with the same number. -/
theorem layout_has_no_meaning {source : String} {ts : List Token}
    (h : Token.scan source = .ok ts) :
    (∃ ts', Token.scan (Token.respaced ts) = .ok ts' ∧ ts'.map Token.word = ts.map Token.word) ∧
    ∀ {source' : String} {ts' : List Token}, Token.scan source' = .ok ts' →
      ts'.map Token.word = ts.map Token.word → ∀ stage,
        (∃ o o', compile source stage = .ok o ∧ compile source' stage = .ok o' ∧ o.SameTree o') ∨
        ∃ (fault : Fault) (i : Nat) (t t' : Token), ts[i]? = some t ∧ ts'[i]? = some t' ∧
          compile source stage = .error (.fault ⟨fault, t.span.start⟩) ∧
          compile source' stage = .error (.fault ⟨fault, t'.span.start⟩) := by
  refine ⟨Token.scan_respaced h, ?_⟩
  intro source' ts' h' same stage
  have result := compile_moved h h' same.symm stage
  -- The two compilations are related at every stage, whatever the stage gives.
  generalize compile source stage = r, compile source' stage = r' at result ⊢
  cases result with
  | @ok o o' tree => exact Or.inl ⟨o, o', rfl, rfl, tree⟩
  | @fault fault p p' start =>
    -- The faults are at tokens of one index, which the relation of positions says.
    obtain ⟨_, -, i, -, t, t', here, there, -, rfl, rfl⟩ := start
    exact Or.inr ⟨fault, i, t, t', here, there, rfl, rfl⟩

/-- A text with a comment, two lines and few spaces. -/
def narrow : String := "let a=2**-3;// tight\nprint a;"

/-- Its tokens, and another text of the same words. -/
theorem narrow_respaced : ∃ ts, Token.scan narrow = .ok ts ∧
    (∃ ts', Token.scan "let a = 2 ** - 3 ; print a ;" = .ok ts' ∧
      ts'.map Token.word = ts.map Token.word) ∧
    ∀ {source' : String} {ts' : List Token}, Token.scan source' = .ok ts' →
      ts'.map Token.word = ts.map Token.word → ∀ stage,
        (∃ o o', compile narrow stage = .ok o ∧ compile source' stage = .ok o' ∧ o.SameTree o') ∨
        ∃ (fault : Fault) (i : Nat) (t t' : Token), ts[i]? = some t ∧ ts'[i]? = some t' ∧
          compile narrow stage = .error (.fault ⟨fault, t.span.start⟩) ∧
          compile source' stage = .error (.fault ⟨fault, t'.span.start⟩) := by
  have texts : (Token.scan narrow).toOption.map Token.respaced
      = some "let a = 2 ** - 3 ; print a ;" := by
    decide +kernel
  obtain ⟨ts, found, spaced⟩ := Option.map_eq_some_iff.mp texts
  have scanned : Token.scan narrow = .ok ts := eq_ok_of_toOption found
  have layout := layout_has_no_meaning scanned
  rw [spaced] at layout
  exact ⟨ts, scanned, layout⟩

end Frontend

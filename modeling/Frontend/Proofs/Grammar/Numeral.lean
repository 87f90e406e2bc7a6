import Frontend.Proofs.Grammar.Blame
import Frontend.Proofs.Number.Unsigned

/-!
# The numbers in a tree

The scanner decides by its patterns what a number looks like, and the parser decides by reading
the text of the token.  They agree: no number token of a text is ever refused, and the numbers in
the tree are neither below zero nor without a value.

* **`Token.exists_number_of_scan`**: every number token of a text can be read.
* **`Tree.Expr.EveryNumber`**: all numbers in an expression are such.
* **`everyNumber_of_spells`**: the numbers in an expression are read from its number tokens.
* **`numerals_are_read`**: what follows for the program in a text.
-/

namespace Frontend

open Frontend.Tree (Expr Stmt)

/-! ## Number tokens -/

namespace Pattern

/-- Only the pattern of numbers makes number tokens. -/
theorem eq_number_of_first? {text lexeme : List Char} {pattern : Pattern}
    (h : first? text = some pattern) (made : pattern.kind? lexeme = some .number) :
    pattern = .number := by
  have listed : pattern ∈ table := List.mem_of_find?_eq_some h
  cases pattern with
  | blank | comment => cases made
  | number => rfl
  | word =>
    -- No reserved word is a number, so a lexeme of letters never becomes one.
    have other : (Kind.ofReserved? (String.ofList lexeme)).getD .identifier ≠ .number := by
      unfold Kind.ofReserved?
      split <;> decide
    exact absurd (Option.some.inj made) other
  | symbol kind own =>
    cases made
    revert listed
    simp [table]

end Pattern

/-- A token of a text that is a number stands for a number without a sign. -/
theorem Token.exists_number_of_scan {source : String} {ts : List Token} {t : Token}
    (h : scan source = .ok ts) (member : t ∈ ts) (number : t.kind = .number) :
    ∃ value, Number.ofText? t.text = some value ∧ Number.Unsigned value := by
  have word : t.kind ≠ .eof := by
    rw [number]
    decide
  obtain ⟨pattern, found, whole, made⟩ := isLexeme_of_mem h member word
  rw [number] at made
  obtain rfl := Pattern.eq_number_of_first? found made
  have nonempty : t.text ≠ "" := by
    intro empty
    rw [empty] at found
    cases found
  exact Number.exists_ofText? nonempty whole

/-! ## Numbers in trees -/

namespace Tree

variable (P : Float → Prop)

mutual

/-- Every number in an expression is such. -/
def Expr.EveryNumber : Expr → Prop
  | .number value _ => P value
  | .boolean .. | .symbol _ => True
  | .binary left _ right _ => left.EveryNumber ∧ right.EveryNumber
  | .unary _ operand _ => operand.EveryNumber
  | .conditional test consequent alternate _ =>
    test.EveryNumber ∧ consequent.EveryNumber ∧ alternate.EveryNumber
  | .call _ arguments _ => Expr.EveryNumberAll arguments

/-- Every number in expressions is such. -/
def Expr.EveryNumberAll : List Expr → Prop
  | [] => True
  | e :: es => e.EveryNumber ∧ Expr.EveryNumberAll es

end

end Tree

/-- Whatever number can be read from one of the tokens is such. -/
def EveryReading (P : Float → Prop) (ts : List Token) : Prop :=
  ∀ t ∈ ts, t.kind = .number → ∀ value, Number.ofText? t.text = some value → P value

namespace EveryReading

variable {P : Float → Prop} {t : Token} {ts us : List Token}

theorem append : EveryReading P (ts ++ us) ↔ EveryReading P ts ∧ EveryReading P us :=
  List.forall_mem_append

theorem tail (h : EveryReading P (t :: ts)) : EveryReading P ts := (List.forall_mem_cons.mp h).2

end EveryReading

section

variable {P : Float → Prop}

mutual

/-- The numbers in an expression are read from its number tokens. -/
theorem everyNumber_of_spells : {ts : List Token} → {e : Expr} → Spells ts e →
    EveryReading P ts → e.EveryNumber P
  | _, _, .number kind reads, readings => readings _ List.mem_cons_self kind _ reads
  | _, _, .boolean _, _ | _, _, .symbol _, _ => trivial
  | _, _, .group _ inner _, readings =>
    everyNumber_of_spells inner (EveryReading.append.mp readings.tail).1
  | _, _, .unary _ operand, readings => by
    have inside := everyNumber_of_spells operand readings.tail
    exact inside
  | _, _, .binary left _ right, readings => by
    obtain ⟨front, back⟩ := EveryReading.append.mp readings
    exact ⟨everyNumber_of_spells left front, everyNumber_of_spells right back.tail⟩
  | _, _, .conditional test _ consequent _ alternate, readings => by
    obtain ⟨front, back⟩ := EveryReading.append.mp readings
    obtain ⟨between, last⟩ := EveryReading.append.mp back.tail
    exact ⟨everyNumber_of_spells test front, everyNumber_of_spells consequent between,
      everyNumber_of_spells alternate last.tail⟩
  | _, _, .call _ _ arguments _, readings => by
    have inside := (EveryReading.append.mp (EveryReading.append.mp readings).2.tail).1
    exact everyNumber_of_spellsArguments arguments inside

theorem everyNumber_of_spellsArguments : {ts : List Token} → {es : List Expr} →
    SpellsArguments ts es → EveryReading P ts → Expr.EveryNumberAll P es
  | _, _, .none, _ => trivial
  | _, _, .some h, readings => everyNumber_of_spellsMany h readings

theorem everyNumber_of_spellsMany : {ts : List Token} → {es : List Expr} → SpellsMany ts es →
    EveryReading P ts → Expr.EveryNumberAll P es
  | _, _, .one h, readings => ⟨everyNumber_of_spells h readings, trivial⟩
  | _, _, .more first _ others, readings => by
    obtain ⟨front, back⟩ := EveryReading.append.mp readings
    exact ⟨everyNumber_of_spells first front, everyNumber_of_spellsMany others back.tail⟩

end

/-- The numbers in a program are read from the number tokens of the list. -/
theorem everyNumber_ofTokens {tokens : List Token} {block : Tree.Block}
    (h : Tree.Block.ofTokens tokens = .ok block) (readings : EveryReading P tokens) :
    Stmt.EveryAll (Expr.EveryNumber P) block.body := by
  refine (spelled_ofTokens h).mono fun e spelled => ?_
  obtain ⟨front, ts, behind, rfl, spells⟩ := spelled
  have inside := (EveryReading.append.mp (EveryReading.append.mp readings).2).1
  exact everyNumber_of_spells spells inside

end

/-! ## The numbers of a text -/

/-- **What the scanner takes for a number is read as one, without a sign.**  If a text can be
scanned, each of its number tokens stands for such a number, no reading of the program stops at
one that does not, and the tree has no other numbers. -/
theorem numerals_are_read {source : String} {ts : List Token} (scanned : tokens source = .ok ts) :
    (∀ t ∈ ts, t.kind = .number →
      ∃ value, Number.ofText? t.text = some value ∧ Number.Unsigned value) ∧
    (∀ text p, Tree.Block.ofTokens ts ≠ .error (.fault ⟨.malformedNumber text, p⟩)) ∧
    ∀ block, Tree.Block.ofTokens ts = .ok block →
      Stmt.EveryAll (Expr.EveryNumber Number.Unsigned) block.body := by
  have legible : ∀ t ∈ ts, t.kind = .number →
      ∃ value, Number.ofText? t.text = some value ∧ Number.Unsigned value := by
    intro t member number
    exact Token.exists_number_of_scan (Token.scan_eq_of_tokens scanned) member number
  refine ⟨legible, ?_, ?_⟩
  -- A number is only blamed as malformed if its text is unreadable, which `legible` rules out.
  · intro text p failed
    obtain ⟨t, member, blamed⟩ := blamed_of_ofTokens failed
    cases blamed with
    | malformedNumber number unread =>
      obtain ⟨value, read, -⟩ := legible t member number
      rw [unread] at read
      cases read
  · intro block read
    -- The tree's numbers are readings of number tokens, and every such reading is unsigned.
    refine everyNumber_ofTokens read ?_
    intro t member number value reads
    obtain ⟨value', reads', unsigned⟩ := legible t member number
    obtain rfl := Option.some.inj (reads.symm.trans reads')
    exact unsigned

/-- A number that is too great, one that is too small, and two with zeros to spare. -/
def extremes : String := "let a = -1e999; while 0E-7 < 2e-99999 { print f(00.50e+00); }"

theorem extremes_are_read : ∃ ts block, tokens extremes = .ok ts ∧
    Tree.Block.ofTokens ts = .ok block ∧
    (ts.filter fun t => t.kind = .number).map Token.text =
      ["1e999", "0E-7", "2e-99999", "00.50e+00"] ∧
    (∀ t ∈ ts, t.kind = .number →
      ∃ value, Number.ofText? t.text = some value ∧ Number.Unsigned value) ∧
    Stmt.EveryAll (Expr.EveryNumber Number.Unsigned) block.body := by
  have texts : (tokens extremes).toOption.map
      (fun ts => (ts.filter fun t => t.kind = .number).map Token.text) =
        some ["1e999", "0E-7", "2e-99999", "00.50e+00"] := by
    decide +kernel
  have accepted : (parsed extremes).toOption.isSome := by
    decide +kernel
  obtain ⟨block, read⟩ := Option.isSome_iff_exists.mp accepted
  obtain ⟨ts, scanned, whole⟩ := exists_ofTokens_eq (eq_ok_of_toOption read)
  obtain ⟨legible, -, unsigned⟩ := numerals_are_read scanned
  rw [scanned] at texts
  exact ⟨ts, block, scanned, whole, Option.some.inj texts, legible, unsigned block whole⟩

end Frontend

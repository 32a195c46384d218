import PlotLisp.Reader

/-!
# The grammar of expressions

Quotes only mark the words between them, and comments and blanks mark nothing. What
is left of a sequence of tokens are its terminals, which follow the grammar

* `form ::= opening atom item* closing`
* `item ::= atom | form`

A derivation says how. No sequence of terminals has two of them.
-/

namespace PlotLisp

/-- A word, and whether it stands between quotes. -/
structure Word where
  content : String
  quoted : Bool

/-- The atom that a word denotes: a text between quotes, and otherwise a number, a
symbol, or nothing. -/
def Word.atom (word : Word) : Atom :=
  if word.quoted then .text word.content else .ofWord word.content

/-- A word that denotes something. -/
structure AtomWord where
  word : Word
  present : word.atom.isAbsent = false

/-- The atom of a word that denotes one. -/
def AtomWord.atom (word : AtomWord) : Atom :=
  word.word.atom

/-- Words that denote something are equal when the words are. -/
@[ext] theorem AtomWord.ext {left right : AtomWord} (words : left.word = right.word) :
    left = right := by
  cases left
  cases right
  cases words
  rfl

/-- What the grammar is about. -/
inductive Terminal where
  | opening
  | closing
  | word (word : Word)

namespace Lexeme

/-- The number of quotes among the tokens. -/
def quoteCount (lexemes : List Lexeme) : Nat :=
  lexemes.countP fun lexeme => lexeme.token == .quote

/-- The terminals of tokens that come after this many quotes. A word is quoted when
the number of quotes before it is odd. -/
def terminals (quotes : Nat) : List Lexeme → List Terminal
  | [] => []
  | lexeme :: rest =>
      match lexeme.token with
      | .opening => .opening :: terminals quotes rest
      | .closing => .closing :: terminals quotes rest
      | .word content => .word ⟨content, quotes % 2 == 1⟩ :: terminals quotes rest
      | .quote => terminals (quotes + 1) rest
      | .comment | .lineBreak | .blank => terminals quotes rest

/-- No closing parenthesis comes after an odd number of quotes, the given ones
included. -/
def ClosesOutsideQuotes (quotes : Nat) (lexemes : List Lexeme) : Prop :=
  ∀ before lexeme after, lexemes = before ++ lexeme :: after → lexeme.token = .closing →
    (quotes + quoteCount before) % 2 = 0

/-- The quotes up to and including a token. -/
def quotesThrough (quotes : Nat) (lexeme : Lexeme) : Nat :=
  quotes + quoteCount [lexeme]

/-- The quotes of a sequence are those of its first token and of the rest. -/
theorem quoteCount_cons (lexeme : Lexeme) (rest : List Lexeme) :
    quoteCount (lexeme :: rest) = quoteCount [lexeme] + quoteCount rest := by
  simp only [quoteCount, List.countP_cons, List.countP_nil]
  omega

/-- Closing outside quotes is a matter of the first token and then of the rest, with the quotes
counted on. -/
theorem closesOutsideQuotes_cons {quotes : Nat} {lexeme : Lexeme} {rest : List Lexeme} :
    ClosesOutsideQuotes quotes (lexeme :: rest) ↔
      (lexeme.token = .closing → quotes % 2 = 0) ∧
        ClosesOutsideQuotes (quotesThrough quotes lexeme) rest := by
  constructor
  · intro closes
    refine ⟨closes [] lexeme rest rfl, fun before other after split closing => ?_⟩
    have even := closes (lexeme :: before) other after (congrArg (lexeme :: ·) split) closing
    rw [quoteCount_cons, ← Nat.add_assoc] at even
    exact even
  · rintro ⟨first, others⟩ before other after split closing
    cases before with
    | nil =>
        obtain ⟨rfl, -⟩ := List.cons.inj split
        exact first closing
    | cons _ before =>
        obtain ⟨rfl, same⟩ := List.cons.inj split
        rw [quoteCount_cons, ← Nat.add_assoc]
        exact others before other after same closing

/-- Tokens without terminals have no closing parenthesis at their end. -/
theorem getLast?_ne_closing {quotes : Nat} {lexemes : List Lexeme}
    (none : terminals quotes lexemes = []) :
    lexemes.getLast?.map Lexeme.token ≠ some .closing := by
  induction lexemes generalizing quotes with
  | nil => nofun
  | cons lexeme rest inductionHypothesis =>
      obtain ⟨token, line⟩ := lexeme
      cases rest with
      | nil => cases token <;> simp_all [terminals]
      | cons next others =>
          rw [List.getLast?_cons_cons]
          cases token with
          | opening | closing | word => cases none
          | quote | comment | lineBreak | blank => exact inductionHypothesis none

end Lexeme

/-- A derivation from `item` in the grammar. -/
inductive Derivation where
  | atom (word : AtomWord)
  | form (head : AtomWord) (items : List Derivation)

namespace Derivation

/-- The derivation is one from `form`. -/
def IsForm : Derivation → Prop
  | atom _ => False
  | form _ _ => True

mutual

/-- The terminals that a derivation derives. -/
def spelling : Derivation → List Terminal
  | atom word => [.word word.word]
  | form head items => .opening :: .word head.word :: (spellings items ++ [.closing])

/-- The terminals that a sequence of derivations derives. -/
def spellings : List Derivation → List Terminal
  | [] => []
  | item :: rest => item.spelling ++ spellings rest

end

mutual

/-- The expression that a derivation stands for. -/
def tree : Derivation → Expression
  | atom word => .leaf word.atom
  | form head items => .form head.atom (trees items)

/-- The expressions that derivations stand for, in order. -/
def trees : List Derivation → List Expression
  | [] => []
  | item :: rest => item.tree :: trees rest

end

/-- No derivation starts with a closing parenthesis. -/
theorem spelling_append_ne_closing (item : Derivation) (following rest : List Terminal) :
    item.spelling ++ following ≠ .closing :: rest := by
  cases item <;> simp [spelling]

mutual

/-- A derivation is determined by any sequence of terminals that it begins. -/
theorem spelling_append_injective :
    ∀ (left right : Derivation) {following following' : List Terminal},
      left.spelling ++ following = right.spelling ++ following' →
      left = right ∧ following = following'
  | atom word, atom word', following, following', same => by
      simp only [spelling, List.cons_append, List.nil_append, List.cons.injEq,
        Terminal.word.injEq] at same
      exact ⟨congrArg atom (AtomWord.ext same.1), same.2⟩
  | atom _, form _ _, _, _, same | form _ _, atom _, _, _, same => by
      simp [spelling] at same
  | form head items, form head' items', following, following', same => by
      simp only [spelling, List.cons_append, List.append_assoc, List.nil_append,
        List.cons.injEq, Terminal.word.injEq, true_and] at same
      obtain ⟨heads, others⟩ := same
      obtain ⟨rfl, rfl⟩ := spellings_closing_injective items items' others
      obtain rfl : head = head' := AtomWord.ext heads
      exact ⟨rfl, rfl⟩

/-- Derivations in a row are determined by their terminals up to a closing parenthesis. -/
theorem spellings_closing_injective :
    ∀ (left right : List Derivation) {following following' : List Terminal},
      spellings left ++ .closing :: following = spellings right ++ .closing :: following' →
      left = right ∧ following = following'
  | [], [], following, following', same => by
      simpa [spellings] using same
  | [], item :: rest, following, following', same => by
      rw [spellings, spellings, List.append_assoc] at same
      exact absurd same.symm (item.spelling_append_ne_closing _ _)
  | item :: rest, [], following, following', same => by
      rw [spellings, spellings, List.append_assoc] at same
      exact absurd same (item.spelling_append_ne_closing _ _)
  | item :: rest, item' :: rest', following, following', same => by
      rw [spellings, spellings, List.append_assoc, List.append_assoc] at same
      obtain ⟨rfl, others⟩ := spelling_append_injective item item' same
      obtain ⟨rfl, rfl⟩ := spellings_closing_injective rest rest' others
      exact ⟨rfl, rfl⟩

end

/-- The grammar is unambiguous. -/
theorem spelling_injective {left right : Derivation} (same : left.spelling = right.spelling) :
    left = right :=
  (spelling_append_injective left right (congrArg (· ++ []) same)).1

end Derivation

end PlotLisp

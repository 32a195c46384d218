import PlotLisp.Proofs.Reader.Grammar
import PlotLisp.Proofs.Token.Layout

/-!
# Where tokens stand

Every token of a text stands somewhere in it: what is before that place has the tokens that
come before, and the line of the token counts the line breaks up to its end. A word outside
of literals stands between delimiters, and behind the quote that opens a literal there is
nothing but its content up to the next quote.
-/

namespace PlotLisp

open Scanner

/-- The characters of a token. -/
def Lexeme.characters (lexeme : Lexeme) : List Char :=
  lexeme.token.text.toList

/-- The content is a word that cannot be extended to either side. -/
structure IsMaximalWord (left content right : List Char) : Prop where
  nonempty : content ≠ []
  inside : ∀ character ∈ content, delimits character = false
  left : ∀ character ∈ left.getLast?, delimits character = true
  right : ∀ character ∈ right.head?, delimits character = true

/-- The tokens after an opening quote on the given line, with this text behind it: at most one
word with everything up to the next quote, and that quote if there is one. -/
def ContentFollows (line : Nat) (right : List Char) (after : List Lexeme) : Prop :=
  let content := right.takeWhile (· != '"')
  ∃ others, after = Stretch.contentLexemes content (line + content.count '\n') ++ others ∧
    others.head?.map Lexeme.token = if '"' ∈ right then some .quote else none

/-- A token of a text that begins on the line `first` stands between two parts of that text.
A token is outside of literals when there is an even number of quotes before it. -/
structure Lexeme.Placed (text : List Char) (first : Nat) (before : List Lexeme) (lexeme : Lexeme)
    (after : List Lexeme) (left right : List Char) : Prop where
  spelled : text = left ++ lexeme.characters ++ right
  earlier : Scanner.run (betweenTokens first) left = before
  line : lexeme.line = first + (left ++ lexeme.characters).count '\n'
  word {content : String} (word : lexeme.token = .word content)
    (outside : Lexeme.quoteCount before % 2 = 0) : IsMaximalWord left content.toList right
  literal (quote : lexeme.token = .quote) (outside : Lexeme.quoteCount before % 2 = 0) :
    ContentFollows lexeme.line right after

namespace Stretch

variable {stretch : Stretch} {content following left right tail : List Char} {character : Char}
  {line : Nat} {lexeme : Lexeme} {before after middle others : List Lexeme}

/-- The content of a literal counts as no quote. -/
@[simp] theorem quoteCount_contentLexemes (content : List Char) (line : Nat) :
    Lexeme.quoteCount (contentLexemes content line) = 0 := by
  unfold contentLexemes
  split <;> rfl

/-- Quotes are counted part by part. -/
@[simp] theorem quoteCount_append (front back : List Lexeme) :
    Lexeme.quoteCount (front ++ back) = Lexeme.quoteCount front + Lexeme.quoteCount back :=
  List.countP_append

/-- A quote counts as one. -/
@[simp] theorem quoteCount_quote (line : Nat) (rest : List Lexeme) :
    Lexeme.quoteCount (⟨.quote, line⟩ :: rest) = Lexeme.quoteCount rest + 1 := by
  simp [Lexeme.quoteCount]

/-! ## The tokens of literals -/

/-- The opening quote of a literal stands at its start, with the content and then the next quote
behind it. -/
theorem placed_openingQuote (unquoted : '"' ∉ content)
    (closes : ∀ character ∈ tail.head?, character = '"')
    (tokens : others.head?.map Lexeme.token = tail.head?.map fun _ => Token.quote) :
    Lexeme.Placed ('"' :: (content ++ tail)) line [] ⟨.quote, line⟩
      (contentLexemes content (line + content.count '\n') ++ others) [] (content ++ tail) where
  spelled := by simp [Lexeme.characters, Token.text]
  earlier := rfl
  line := by simp [Lexeme.characters, Token.text]
  word := nofun
  literal _ _ := by
    have all : (content ++ tail).takeWhile (· != '"') = content := by
      apply takeWhile_append_of_head?
      · intro other member
        simpa using fun same : other = '"' => unquoted (same ▸ member)
      · intro other begun
        simp [closes other begun]
    refine ⟨others, by rw [all], ?_⟩
    cases tail with
    | nil => simpa [unquoted] using tokens
    | cons quote rest => simpa [closes quote rfl] using tokens

/-- The content of a literal stands right behind its opening quote, on the line where it ends. -/
theorem placed_content :
    Lexeme.Placed ('"' :: (content ++ tail)) line [⟨.quote, line⟩]
      ⟨.word (String.ofList content), line + content.count '\n'⟩ after ['"'] tail where
  spelled := by simp [Lexeme.characters, Token.text]
  earlier := by simp [Scanner.run, step, betweenTokens, pendingWord, finish]
  line := by simp [Lexeme.characters, Token.text]
  word _ outside := by simp [Lexeme.quoteCount] at outside
  literal := nofun

/-- The closing quote stands right behind the content. -/
theorem placed_closingQuote (unquoted : '"' ∉ content) :
    Lexeme.Placed ('"' :: (content ++ '"' :: following)) line
      (⟨.quote, line⟩ :: contentLexemes content (line + content.count '\n'))
      ⟨.quote, line + content.count '\n'⟩ after ('"' :: content) following where
  spelled := by simp [Lexeme.characters, Token.text]
  earlier := by
    have taken := @run_text_append (openLiteral content) [] line unquoted rfl
    simpa [text, lexemes, Scanner.run, finish, betweenTokens, pendingWord] using taken
  line := by simp [Lexeme.characters, Token.text]
  word := nofun
  literal _ outside := by simp at outside

/-! ## The tokens of a stretch -/

/-- A token of two sequences in a row is one of the first or one of the second. -/
theorem split_append {front back : List Lexeme}
    (split : front ++ back = before ++ lexeme :: after) :
    (∃ middle, front = before ++ lexeme :: middle ∧ after = middle ++ back) ∨
      ∃ earlier, before = front ++ earlier ∧ back = earlier ++ lexeme :: after := by
  rcases List.append_eq_append_iff.mp split with ⟨earlier, rfl, rfl⟩ | ⟨some, rfl, same⟩
  · exact .inr ⟨earlier, rfl, rfl⟩
  · rcases List.cons_eq_append_iff.mp same with ⟨rfl, rfl⟩ | ⟨middle, rfl, rfl⟩
    · exact .inr ⟨[], by simp, rfl⟩
    · exact .inl ⟨middle, rfl, rfl⟩

/-- A single token is the only one there is to split off. -/
theorem split_singleton {only : Lexeme} (split : [only] = before ++ lexeme :: middle) :
    before = [] ∧ lexeme = only ∧ middle = [] := by
  rcases List.singleton_eq_append_iff.mp split with ⟨rfl, same⟩ | ⟨-, none⟩
  · exact ⟨rfl, List.cons.inj same⟩
  · cases none

/-- The content of a literal is at most one token to split off. -/
theorem split_contentLexemes (split : contentLexemes content line = before ++ lexeme :: middle) :
    before = [] ∧ lexeme = ⟨.word (String.ofList content), line⟩ ∧ middle = [] := by
  unfold contentLexemes at split
  split at split
  · simp at split
  · exact split_singleton split

/-- A token of a literal is its first quote, its content, or what comes behind that. -/
theorem exists_placed_literal (unquoted : '"' ∉ content)
    (closes : ∀ character ∈ tail.head?, character = '"')
    (tokens : others.head?.map Lexeme.token = tail.head?.map fun _ => Token.quote)
    (split : ⟨.quote, line⟩ :: (contentLexemes content (line + content.count '\n') ++ others) =
      before ++ lexeme :: after) :
    (∃ left right, Lexeme.Placed ('"' :: (content ++ tail)) line before lexeme after left right) ∨
      ∃ earlier,
        before = ⟨.quote, line⟩ :: (contentLexemes content (line + content.count '\n') ++ earlier) ∧
          others = earlier ++ lexeme :: after := by
  rcases List.cons_eq_append_iff.mp split with ⟨rfl, same⟩ | ⟨before, rfl, same⟩
  · obtain ⟨rfl, rfl⟩ := List.cons.inj same
    exact .inl ⟨_, _, placed_openingQuote unquoted closes tokens⟩
  · rcases split_append same with ⟨middle, inContent, rfl⟩ | ⟨earlier, rfl, rfl⟩
    · obtain ⟨rfl, rfl, rfl⟩ := split_contentLexemes inContent
      exact .inl ⟨_, _, placed_content⟩
    · exact .inr ⟨earlier, rfl, rfl⟩

/-- A token of a stretch and of what follows it stands in the stretch or comes later. -/
theorem exists_placed (proper : stretch.Proper) (ends : stretch.EndsBefore following)
    (last : following = [] → others = [])
    (split : stretch.lexemes line ++ others = before ++ lexeme :: after) :
    (∃ left right, Lexeme.Placed (stretch.text ++ following) line before lexeme after left right) ∨
      ∃ earlier,
        before = stretch.lexemes line ++ earlier ∧ others = earlier ++ lexeme :: after := by
  -- The token is one of this stretch, or it comes behind all of them.
  cases stretch with
  | blank | comment => exact .inr ⟨before, rfl, split⟩
  | opening | closing =>
      rcases split_append split with ⟨middle, only, rfl⟩ | later
      · obtain ⟨rfl, rfl, rfl⟩ := split_singleton only
        refine .inl ⟨[], following, ?_, rfl, ?_, ?_, ?_⟩
        all_goals simp [text, Lexeme.characters, Token.text]
      · exact .inr later
  | word content =>
      rcases split_append split with ⟨middle, only, rfl⟩ | later
      · obtain ⟨rfl, rfl, rfl⟩ := split_singleton only
        have unbroken : content.count '\n' = 0 := count_lineBreak_word proper.2
        refine .inl ⟨[], following, ?spelled, rfl, ?line, ?maximal, ?quote⟩
        case quote => simp
        case spelled => simp [text, Lexeme.characters, Token.text]
        case line => simp [Lexeme.characters, Token.text, unbroken]
        case maximal =>
          rintro _ ⟨⟩ -
          rw [String.toList_ofList]
          exact ⟨proper.1, proper.2, by simp, ends⟩
      · exact .inr later
  | literal content =>
      simp only [lexemes, text, List.cons_append, List.append_assoc] at split ⊢
      have closes : ∀ character ∈ ('"' :: following).head?, character = '"' := by simp
      rcases exists_placed_literal proper closes rfl split with placed | ⟨earlier, rfl, same⟩
      · exact .inl placed
      · rcases List.cons_eq_append_iff.mp same with ⟨rfl, here⟩ | ⟨earlier, rfl, rfl⟩
        · obtain ⟨rfl, rfl⟩ := List.cons.inj here
          rw [List.append_nil]
          exact .inl ⟨_, _, placed_closingQuote proper⟩
        · exact .inr ⟨earlier, rfl, rfl⟩
  | openLiteral content =>
      obtain rfl : following = [] := ends
      obtain rfl := last rfl
      exact exists_placed_literal proper (by simp) rfl split

/-- The content of a literal is spelled out by its token, if there is any content. -/
theorem flatMap_characters_contentLexemes (content : List Char) (line : Nat) :
    (contentLexemes content line).flatMap Lexeme.characters = content := by
  unfold contentLexemes
  split
  · simp_all
  · simp [Lexeme.characters, Token.text]

/-- The tokens of a stretch make up what is visible of it. -/
theorem flatMap_characters (stretch : Stretch) (line : Nat) :
    (stretch.lexemes line).flatMap Lexeme.characters = stretch.visible := by
  cases stretch with
  | blank | comment => rfl
  | opening | closing | word =>
      simp [lexemes, visible, text, Lexeme.characters, Token.text]
  | literal | openLiteral =>
      simp [lexemes, visible, text, flatMap_characters_contentLexemes, Lexeme.characters,
        Token.text]

/-! ## Between two stretches -/

/-- A stretch that ends before the first character of a word ends in a delimiter. -/
theorem EndsBefore.getLast?_delimits (proper : stretch.Proper)
    (ends : stretch.EndsBefore (character :: following)) (inside : delimits character = false) :
    ∀ other ∈ stretch.text.getLast?, delimits other = true := by
  cases stretch with
  | opening | closing => simp [text, delimits]
  | blank white =>
      rcases proper with rfl | blank
      · simp [text, delimits]
      · simp [text, delimits, blank]
  | comment =>
      obtain rfl : character = '\n' := ends character rfl
      cases inside
  | word => simp [ends character rfl] at inside
  | literal content => simp [text, List.getLast?_cons, List.getLast?_append, delimits]
  | openLiteral => cases ends

/-- Literals end before anything else begins. -/
theorem EndsBefore.quoteCount_lexemes (ends : stretch.EndsBefore (character :: following)) :
    Lexeme.quoteCount (stretch.lexemes line) % 2 = 0 := by
  cases stretch with
  | openLiteral => cases ends
  | blank | comment | opening | closing | word => rfl
  | literal content =>
      have none : Lexeme.quoteCount [] = 0 := rfl
      simp [lexemes, none]

/-- A token stands where it stood when a stretch is put before its text. -/
theorem placed_append (proper : stretch.Proper) (ends : stretch.EndsBefore following)
    (some : following ≠ [])
    (placed : Lexeme.Placed following (stretch.lastLine line) before lexeme after left right) :
    Lexeme.Placed (stretch.text ++ following) line (stretch.lexemes line ++ before) lexeme after
      (stretch.text ++ left) right := by
  obtain ⟨character, tail, begins⟩ := List.exists_cons_of_ne_nil some
  have even : Lexeme.quoteCount (stretch.lexemes line) % 2 = 0 :=
    EndsBefore.quoteCount_lexemes (begins ▸ ends)
  have outside : Lexeme.quoteCount (stretch.lexemes line ++ before) % 2 = 0 →
      Lexeme.quoteCount before % 2 = 0 := by
    rw [quoteCount_append]
    omega
  have endsEarlier : stretch.EndsBefore left := by
    have whole := placed.spelled ▸ ends
    rw [List.append_assoc] at whole
    exact whole.of_append
  constructor
  case spelled => rw [placed.spelled, List.append_assoc, List.append_assoc, List.append_assoc]
  case earlier => rw [run_text_append proper endsEarlier, placed.earlier]
  case line =>
    rw [placed.line, lastLine, List.append_assoc, @List.count_append _ _ _ stretch.text]
    omega
  case literal => exact fun quote even => placed.literal quote (outside even)
  case word =>
    intro content word even
    obtain ⟨nonempty, inside, before, behind⟩ := placed.word word (outside even)
    refine ⟨nonempty, inside, fun other last => ?_, behind⟩
    cases left with
    | cons => exact before other (by simpa [List.getLast?_append] using last)
    | nil =>
        -- The word begins the text, so the stretch before it ended there.
        rw [List.append_nil] at last
        obtain ⟨first, rest, spelled⟩ := List.exists_cons_of_ne_nil nonempty
        have same : character = first := by
          have spells := begins.symm.trans placed.spelled
          rw [Lexeme.characters, word, Token.text, spelled] at spells
          exact (List.cons.inj spells).1
        have unlimited : delimits character = false := inside character (by simp [same, spelled])
        exact EndsBefore.getLast?_delimits proper (begins ▸ ends) unlimited other last

end Stretch

namespace Layout

variable {text : List Char} {stretches : List Stretch}

/-- Every token of a text stands somewhere in it. -/
theorem exists_placed (layout : Layout text stretches) {line : Nat} {lexeme : Lexeme}
    {before after : List Lexeme} (split : lexemes line stretches = before ++ lexeme :: after) :
    ∃ left right, Lexeme.Placed text line before lexeme after left right := by
  induction layout generalizing line before with
  | nil => simp [lexemes] at split
  | @cons stretch following others proper ends rest inductionHypothesis =>
      have last : following = [] → lexemes (stretch.lastLine line) others = [] := by
        rintro rfl
        rw [rest.unique .nil, lexemes]
      rcases Stretch.exists_placed proper ends last split with placed | ⟨earlier, rfl, later⟩
      · exact placed
      · obtain ⟨left, right, placed⟩ := inductionHypothesis later
        have some : following ≠ [] := by
          intro none
          simp [last none] at later
        exact ⟨_, right, Stretch.placed_append proper ends some placed⟩

/-- The tokens leave out what is blank or in a comment, and nothing else. -/
theorem flatMap_characters (stretches : List Stretch) (line : Nat) :
    (lexemes line stretches).flatMap Lexeme.characters = stretches.flatMap Stretch.visible := by
  induction stretches generalizing line with
  | nil => rfl
  | cons stretch others inductionHypothesis =>
      rw [lexemes, List.flatMap_append, inductionHypothesis, List.flatMap_cons,
        stretch.flatMap_characters]

end Layout

/-- Every text has exactly one layout, and its tokens make up all of the text but the blanks and
the comments of the layout. Every token stands in the text behind what the tokens before it
stand in, on a line that counts the line breaks up to its end. Outside of literals, a word has
no delimiters and is as long as it can be. An opening quote is followed by at most one word,
which is everything up to the next quote. -/
theorem tokenizing_loses_nothing (source : String) :
    ∃ stretches, Layout source.toList stretches ∧
      (∀ others, Layout source.toList others → others = stretches) ∧
      source.toList = stretches.flatMap Stretch.text ∧
      (tokenize source).flatMap Lexeme.characters = stretches.flatMap Stretch.visible ∧
      ∀ before lexeme after, tokenize source = before ++ lexeme :: after →
        ∃ left right, Lexeme.Placed source.toList 1 before lexeme after left right := by
  obtain ⟨stretches, layout⟩ := Layout.exists_layout source.toList
  have tokens : tokenize source = Layout.lexemes 1 stretches := layout.run_eq 1
  refine ⟨stretches, layout, fun others other => other.unique layout, layout.text_eq, ?_, ?_⟩
  · rw [tokens, Layout.flatMap_characters]
  · intro before lexeme after split
    exact layout.exists_placed (tokens ▸ split)

/-- The content of a literal with a line break and a semicolon, between a word and a comment. -/
theorem content_over_two_lines_is_placed :
    tokenize "f\"a\n;\" ;c" =
        [⟨.word "f", 1⟩, ⟨.quote, 1⟩] ++ ⟨.word "a\n;", 2⟩ :: [⟨.quote, 2⟩] ∧
      ∃ left right, Lexeme.Placed "f\"a\n;\" ;c".toList 1 [⟨.word "f", 1⟩, ⟨.quote, 1⟩]
        ⟨.word "a\n;", 2⟩ [⟨.quote, 2⟩] left right := by
  obtain ⟨stretches, -, -, -, -, placed⟩ := tokenizing_loses_nothing "f\"a\n;\" ;c"
  exact ⟨by decide, placed _ _ _ (by decide)⟩

end PlotLisp

import PlotLisp.Proofs.Token.Words

/-!
# The layout of a text

A text is made of stretches: blanks, comments, parentheses, words, and literals, each as long
as it can be. There is exactly one way to lay a text out like that, and the tokens of the
text are those of its stretches, one after the other.
-/

namespace PlotLisp

open Scanner

/-- A stretch of a program text. The content of a comment is what follows the semicolon, and
that of a literal is what stands between its quotes, the second of which may be missing. -/
inductive Stretch where
  | blank (character : Char)
  | comment (content : List Char)
  | opening
  | closing
  | word (content : List Char)
  | literal (content : List Char)
  | openLiteral (content : List Char)

namespace Stretch

/-- The characters of the stretch. -/
def text : Stretch → List Char
  | blank character => [character]
  | comment content => ';' :: content
  | opening => ['(']
  | closing => [')']
  | word content => content
  | literal content => '"' :: (content ++ ['"'])
  | openLiteral content => '"' :: content

/-- The characters that are no blank and in no comment. -/
def visible : Stretch → List Char
  | blank _ | comment _ => []
  | stretch => stretch.text

/-- Only characters that may occur in the stretch do. -/
def Proper : Stretch → Prop
  | blank character => character = '\n' ∨ isBlank character = true
  | comment content => '\n' ∉ content
  | opening | closing => True
  | word content => content ≠ [] ∧ ∀ character ∈ content, delimits character = false
  | literal content | openLiteral content => '"' ∉ content

/-- The stretch does not go on in the text that follows it. -/
def EndsBefore : Stretch → List Char → Prop
  | comment _, following => ∀ character ∈ following.head?, character = '\n'
  | word _, following => ∀ character ∈ following.head?, delimits character = true
  | openLiteral _, following => following = []
  | blank _, _ | opening, _ | closing, _ | literal _, _ => True

/-- The line on which a stretch ends that begins on the given one. -/
def lastLine (line : Nat) (stretch : Stretch) : Nat :=
  line + stretch.text.count '\n'

/-- The word that is the content of a literal, if there is any content. -/
def contentLexemes (content : List Char) (line : Nat) : List Lexeme :=
  if content = [] then [] else [⟨.word (String.ofList content), line⟩]

/-- The tokens of a stretch that begins on the given line. -/
def lexemes (line : Nat) : Stretch → List Lexeme
  | blank _ | comment _ => []
  | opening => [⟨.opening, line⟩]
  | closing => [⟨.closing, line⟩]
  | word content => [⟨.word (String.ofList content), line⟩]
  | literal content =>
      ⟨.quote, line⟩ :: (contentLexemes content (line + content.count '\n') ++
        [⟨.quote, line + content.count '\n'⟩])
  | openLiteral content =>
      ⟨.quote, line⟩ :: contentLexemes content (line + content.count '\n')

variable {stretch : Stretch} {character : Char} {following more content rest : List Char}
  {line : Nat}

/-- Every proper stretch takes up some text, so that a layout goes through all of it. -/
theorem text_ne_nil (proper : stretch.Proper) : stretch.text ≠ [] := by
  cases stretch with
  | word => exact proper.1
  | blank | comment | opening | closing | literal | openLiteral => simp [text]

/-- What a stretch ends before, it also ends before when less of it is there. -/
theorem EndsBefore.of_append (ends : stretch.EndsBefore (following ++ more)) :
    stretch.EndsBefore following := by
  cases stretch with
  | comment | word =>
      cases following with
      | nil => simp [EndsBefore]
      | cons => exact ends
  | openLiteral => exact (List.append_eq_nil_iff.mp ends).1
  | blank | opening | closing | literal => trivial

/-! ## The tokens of a stretch -/

/-- What is pending in a literal becomes its content. -/
theorem pendingWord_reverse (content : List Char) (line : Nat) :
    pendingWord content.reverse line = contentLexemes content line := by
  simp [pendingWord, contentLexemes]

/-- Everything up to the end of the line belongs to a comment. -/
theorem run_comment (unbroken : '\n' ∉ content) :
    Scanner.run ⟨.comment, line⟩ (content ++ rest) = Scanner.run ⟨.comment, line⟩ rest := by
  induction content with
  | nil => rfl
  | cons first content inductionHypothesis =>
      simp only [List.mem_cons, not_or] at unbroken
      simpa [Scanner.run, step, Ne.symm unbroken.1] using inductionHypothesis unbroken.2

/-- A comment has no line break in it; the one that ends it is a blank. -/
theorem count_lineBreak_comment (unbroken : '\n' ∉ content) :
    (comment content).text.count '\n' = 0 := by
  simp [text, List.count_eq_zero_of_not_mem unbroken]

/-- A word has no line break in it. -/
theorem count_lineBreak_word (inside : ∀ character ∈ content, delimits character = false) :
    (word content).text.count '\n' = 0 := by
  apply List.count_eq_zero_of_not_mem
  intro member
  cases inside '\n' member

/-- The scanner takes a stretch as a whole, from between two tokens to between two tokens. -/
theorem run_text_append (proper : stretch.Proper) (ends : stretch.EndsBefore following) :
    Scanner.run (betweenTokens line) (stretch.text ++ following) =
      stretch.lexemes line ++ Scanner.run (betweenTokens (stretch.lastLine line)) following := by
  have nothing : pendingWord [] line = [] := rfl
  cases stretch with
  | opening | closing =>
      simp [text, lexemes, lastLine, Scanner.run, step, betweenTokens, nothing]
  | blank character =>
      simp only [Proper, isBlank, Bool.or_eq_true, beq_iff_eq] at proper
      rcases proper with rfl | ((rfl | rfl) | rfl) | rfl
      all_goals simp [text, lexemes, lastLine, Scanner.run, step, isBlank, betweenTokens, nothing]
  | comment content =>
      rw [lastLine, count_lineBreak_comment proper, text, List.cons_append, betweenTokens]
      have begun : step ⟨.code [], line⟩ ';' = (⟨.comment, line⟩, []) := by simp [step, nothing]
      rw [Scanner.run, begun]
      refine (run_comment proper).trans ?_
      cases following with
      | nil => rfl
      | cons character rest =>
          -- The line break that ends a comment belongs to what follows.
          obtain rfl : character = '\n' := ends character rfl
          simp [lexemes, Scanner.run, step, betweenTokens, nothing]
  | word content =>
      rw [lastLine, count_lineBreak_word proper.2, text, betweenTokens, run_word proper.2,
        List.append_nil]
      have completed : pendingWord content.reverse line = (word content).lexemes line := by
        simp [pendingWord, lexemes, proper.1]
      -- A word is completed by what follows it: the end of the text, or a delimiter.
      cases following with
      | nil => simpa [Scanner.run, finish, betweenTokens, nothing] using completed
      | cons character rest => rw [run_delimiter (ends character rfl), completed, Nat.add_zero]
  | literal content =>
      have counted : (literal content).text.count '\n' = content.count '\n' := by
        simp [text]
      rw [lastLine, counted, lexemes, ← pendingWord_reverse, List.cons_append, List.append_assoc,
        text]
      simpa [Scanner.run, step, betweenTokens, nothing] using
        @run_literal line [] content following proper
  | openLiteral content =>
      obtain rfl : following = [] := ends
      have scannedContent : Scanner.run ⟨.literal [], line⟩ content =
          contentLexemes content (line + content.count '\n') := by
        have scanned := @run_content line [] content [] proper
        rw [List.append_nil, List.append_nil] at scanned
        exact scanned.trans (pendingWord_reverse content _)
      simp [text, lexemes, Scanner.run, step, betweenTokens, pendingWord, scannedContent, finish]

/-! ## The first stretch of a text -/

/-- The stretch that a text with this first character and this rest begins with. -/
def first (character : Char) (rest : List Char) : Stretch :=
  if character = '(' then opening
  else if character = ')' then closing
  else if character = '"' then
    if '"' ∈ rest then literal (rest.takeWhile (· != '"')) else openLiteral rest
  else if character = ';' then comment (rest.takeWhile (· != '\n'))
  else if character = '\n' || isBlank character then blank character
  else word (character :: rest.takeWhile fun other => !delimits other)

/-- What is taken while it satisfies a condition is all that does before something that
does not. -/
theorem takeWhile_append_of_head? {condition : Char → Bool}
    (taken : ∀ character ∈ content, condition character = true)
    (stops : ∀ character ∈ following.head?, condition character = false) :
    (content ++ following).takeWhile condition = content := by
  rw [List.takeWhile_append_of_pos taken]
  cases following with
  | nil => simp
  | cons character rest => simp [stops character rfl]

/-- No other stretch than the first one can stand at the beginning of a text. -/
theorem eq_first (proper : stretch.Proper) (ends : stretch.EndsBefore following)
    (begins : stretch.text ++ following = character :: rest) : stretch = first character rest := by
  -- The first character tells the kind of stretch, and `ends` tells that it stops where the longest
  -- stretch of this kind does.
  cases stretch with
  | opening | closing =>
      simp only [text, List.cons_append, List.nil_append, List.cons.injEq] at begins
      obtain ⟨rfl, rfl⟩ := begins
      rfl
  | blank white =>
      simp only [text, List.cons_append, List.nil_append, List.cons.injEq] at begins
      obtain ⟨rfl, rfl⟩ := begins
      simp only [Proper, isBlank, Bool.or_eq_true, beq_iff_eq] at proper
      rcases proper with rfl | ((rfl | rfl) | rfl) | rfl
      all_goals rfl
  | comment content =>
      simp only [text, List.cons_append, List.cons.injEq] at begins
      obtain ⟨rfl, rfl⟩ := begins
      have all : (content ++ following).takeWhile (· != '\n') = content := by
        apply takeWhile_append_of_head?
        · intro other member
          simpa using fun same : other = '\n' => proper (same ▸ member)
        · intro other begun
          simp [ends other begun]
      simp [first, all]
  | word content =>
      obtain ⟨nonempty, inside⟩ := proper
      obtain ⟨head, tail, rfl⟩ := List.exists_cons_of_ne_nil nonempty
      simp only [text, List.cons_append, List.cons.injEq] at begins
      obtain ⟨rfl, rfl⟩ := begins
      have all : (tail ++ following).takeWhile (fun other => !delimits other) = tail := by
        apply takeWhile_append_of_head?
        · intro other member
          simp [inside other (List.mem_cons_of_mem _ member)]
        · intro other begun
          simp [ends other begun]
      have none := inside head List.mem_cons_self
      simp only [delimits, Bool.or_eq_false_iff, beq_eq_false_iff_ne] at none
      simp [first, none, all]
  | literal content =>
      simp only [text, List.cons_append, List.append_assoc, List.cons.injEq] at begins
      obtain ⟨rfl, rfl⟩ := begins
      have all : (content ++ '"' :: following).takeWhile (· != '"') = content := by
        apply takeWhile_append_of_head?
        · intro other member
          simpa using fun same : other = '"' => proper (same ▸ member)
        · simp
      simp [first, all]
  | openLiteral content =>
      obtain rfl : following = [] := ends
      simp only [text, List.append_nil, List.cons.injEq] at begins
      obtain ⟨rfl, rfl⟩ := begins
      exact (if_neg proper).symm

/-- A text can be cut where a condition is first violated. -/
theorem exists_cut (condition : Char → Bool) (text : List Char) :
    ∃ content following, text = content ++ following ∧
      (∀ character ∈ content, condition character = true) ∧
      ∀ character ∈ following.head?, condition character = false := by
  have all : ∀ character ∈ text.takeWhile condition, condition character = true :=
    List.all_eq_true.mp List.all_takeWhile
  refine ⟨_, _, List.takeWhile_append_dropWhile.symm, all, ?_⟩
  intro character begun
  have stopped := List.head?_dropWhile_not condition text
  rwa [Option.mem_def.mp begun] at stopped

/-- Every text that is not empty begins with a stretch. -/
theorem exists_first (character : Char) (rest : List Char) :
    ∃ (stretch : Stretch) (following : List Char), character :: rest = stretch.text ++ following ∧
      stretch.Proper ∧ stretch.EndsBefore following := by
  by_cases delimiter : delimits character = true
  case neg =>
    obtain ⟨content, following, rfl, inside, ends⟩ :=
      exists_cut (fun other => !delimits other) rest
    refine ⟨word (character :: content), following, rfl, ⟨by simp, ?_⟩, ?_⟩
    · simpa [delimiter] using inside
    · simpa [EndsBefore] using ends
  simp only [delimits, Bool.or_eq_true, beq_iff_eq] at delimiter
  rcases delimiter with ((((rfl | rfl) | rfl) | rfl) | rfl) | white
  · exact ⟨opening, rest, rfl, trivial, trivial⟩
  · exact ⟨closing, rest, rfl, trivial, trivial⟩
  · by_cases closed : '"' ∈ rest
    · obtain ⟨content, following, rfl, unquoted⟩ := List.eq_append_cons_of_mem closed
      exact ⟨literal content, following, by simp [text], unquoted, trivial⟩
    · exact ⟨openLiteral rest, [], by simp [text], closed, rfl⟩
  · obtain ⟨content, following, rfl, inside, ends⟩ := exists_cut (fun other => other != '\n') rest
    refine ⟨comment content, following, rfl, fun broken => ?_, by simpa [EndsBefore] using ends⟩
    simpa using inside '\n' broken
  · exact ⟨blank '\n', rest, rfl, .inl rfl, trivial⟩
  · exact ⟨blank character, rest, rfl, .inr white, trivial⟩

end Stretch

/-- A way to lay a text out in stretches. -/
inductive Layout : List Char → List Stretch → Prop where
  | nil : Layout [] []
  | cons {stretch : Stretch} {following : List Char} {others : List Stretch}
      (proper : stretch.Proper) (ends : stretch.EndsBefore following)
      (rest : Layout following others) : Layout (stretch.text ++ following) (stretch :: others)

namespace Layout

/-- The tokens of stretches, the first of which begins on the given line. -/
def lexemes (line : Nat) : List Stretch → List Lexeme
  | [] => []
  | stretch :: others => stretch.lexemes line ++ lexemes (stretch.lastLine line) others

variable {text : List Char} {stretches : List Stretch}

/-- The text is what its stretches make up. -/
theorem text_eq (layout : Layout text stretches) : text = stretches.flatMap Stretch.text := by
  induction layout with
  | nil => rfl
  | cons _ _ _ inductionHypothesis => rw [List.flatMap_cons, inductionHypothesis]

/-- The tokens of a text are those of its stretches. -/
theorem run_eq (layout : Layout text stretches) (line : Nat) :
    Scanner.run (betweenTokens line) text = lexemes line stretches := by
  induction layout generalizing line with
  | nil => rfl
  | cons proper ends _ inductionHypothesis =>
      rw [Stretch.run_text_append proper ends, inductionHypothesis, lexemes]

/-- Every text has a layout. -/
theorem exists_layout (text : List Char) : ∃ stretches, Layout text stretches := by
  induction length : text.length using Nat.strongRecOn generalizing text with
  | ind _ inductionHypothesis =>
      cases text with
      | nil => exact ⟨[], .nil⟩
      | cons character rest =>
          obtain ⟨stretch, following, same, proper, ends⟩ := Stretch.exists_first character rest
          have shorter : following.length < (character :: rest).length := by
            have some := List.length_pos_iff.mpr (Stretch.text_ne_nil proper)
            rw [same, List.length_append]
            omega
          obtain ⟨others, remaining⟩ := inductionHypothesis _ (length ▸ shorter) following rfl
          exact ⟨stretch :: others, same ▸ .cons proper ends remaining⟩

/-- No text has two layouts. -/
theorem unique {others : List Stretch} (layout : Layout text stretches)
    (other : Layout text others) : stretches = others := by
  induction layout generalizing others with
  | nil =>
      generalize same : ([] : List Char) = empty at other
      cases other with
      | nil => rfl
      | cons proper => simp [Stretch.text_ne_nil proper] at same
  | @cons stretch following remaining proper ends _ inductionHypothesis =>
      generalize same : stretch.text ++ following = text at other
      cases other with
      | nil => simp [Stretch.text_ne_nil proper] at same
      | @cons stretch' following' _ proper' ends' rest =>
          obtain ⟨character, tail, begins⟩ :=
            List.exists_cons_of_ne_nil (List.append_ne_nil_of_left_ne_nil
              (Stretch.text_ne_nil proper) following)
          obtain rfl : stretch = stretch' :=
            (Stretch.eq_first proper ends begins).trans
              (Stretch.eq_first proper' ends' (same ▸ begins)).symm
          obtain rfl := List.append_cancel_left same
          rw [inductionHypothesis rest]

end Layout

end PlotLisp

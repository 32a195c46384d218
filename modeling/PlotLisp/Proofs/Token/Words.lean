import PlotLisp.Token

/-!
# Words and literals of a text

The scanner recognizes a word by the character behind it. So a text in which every word
is followed by a delimiter can be scanned word by word, each time from between two
tokens.
-/

namespace PlotLisp.Scanner

/-- Whether a character ends a word that stands before it. -/
def delimits (character : Char) : Bool :=
  character == '(' || character == ')' || character == '"' || character == ';' ||
    character == '\n' || isBlank character

/-- Whether a text is one word: something without delimiters. -/
def isWord (text : String) : Bool :=
  text != "" && text.toList.all fun character => !delimits character

/-- A text is one word if it is not empty and no character in it is a delimiter. -/
theorem isWord_iff {text : String} :
    isWord text = true ↔ text ≠ "" ∧ ∀ c ∈ text.toList, delimits c = false := by
  simp [isWord]

/-- A word ends where this text begins. -/
def EndsWord (rest : List Char) : Prop :=
  ∃ character tail, rest = character :: tail ∧ delimits character = true

variable {line : Nat} {pending word content rest : List Char} {character : Char}

/-- A character that is no delimiter joins the word that is pending. -/
theorem step_of_delimits_eq_false (inside : delimits character = false) :
    step ⟨.code pending, line⟩ character = (⟨.code (character :: pending), line⟩, []) := by
  simp only [delimits, Bool.or_eq_false_iff, beq_eq_false_iff_ne] at inside
  simp [step, inside]

/-- A delimiter completes the word before it and is then read like any other. -/
theorem run_delimiter (delimiter : delimits character = true) :
    run ⟨.code pending, line⟩ (character :: rest) =
      pendingWord pending line ++ run (betweenTokens line) (character :: rest) := by
  have nothing : pendingWord [] line = [] := rfl
  simp only [delimits, isBlank, Bool.or_eq_true, beq_iff_eq] at delimiter
  rcases delimiter with ((((rfl | rfl) | rfl) | rfl) | rfl) | ((rfl | rfl) | rfl) | rfl
  all_goals simp [run, step, isBlank, betweenTokens, nothing]

/-- The scanner takes in characters without delimiters one after the other, the last one on top. -/
theorem run_word (inside : ∀ c ∈ word, delimits c = false) :
    run ⟨.code pending, line⟩ (word ++ rest) =
      run ⟨.code (word.reverse ++ pending), line⟩ rest := by
  induction word generalizing pending with
  | nil => rfl
  | cons first word inductionHypothesis =>
      rw [List.cons_append, run, step_of_delimits_eq_false (inside first List.mem_cons_self)]
      have others := @inductionHypothesis (first :: pending) fun c member =>
        inside c (List.mem_cons_of_mem _ member)
      simpa using others

/-- A word is one token when a delimiter follows it. -/
theorem run_betweenTokens_word (some : word ≠ []) (inside : ∀ c ∈ word, delimits c = false)
    (ends : EndsWord rest) :
    run (betweenTokens line) (word ++ rest) =
      ⟨.word (String.ofList word), line⟩ :: run (betweenTokens line) rest := by
  obtain ⟨character, tail, rfl, delimiter⟩ := ends
  rw [betweenTokens, run_word inside, run_delimiter delimiter, List.append_nil, pendingWord,
    if_neg (by simpa using some), List.reverse_reverse]
  rfl

/-- Everything but a quote is content of a literal, and line breaks count there as well. -/
theorem run_content (unquoted : '"' ∉ content) :
    run ⟨.literal pending, line⟩ (content ++ rest) =
      run ⟨.literal (content.reverse ++ pending), line + content.count '\n'⟩ rest := by
  induction content generalizing pending line with
  | nil => rfl
  | cons first content inductionHypothesis =>
      have different : first ≠ '"' := fun same => unquoted (same ▸ List.mem_cons_self)
      have others : '"' ∉ content := fun member => unquoted (List.mem_cons_of_mem _ member)
      rw [List.cons_append, run, List.reverse_cons, List.append_assoc]
      by_cases lineBreak : first = '\n'
      · have stepped : step ⟨.literal pending, line⟩ first =
            (⟨.literal (first :: pending), line + 1⟩, []) := by
          simp [step, lineBreak]
        have counted : line + (first :: content).count '\n' = line + 1 + content.count '\n' := by
          rw [lineBreak, List.count_cons_self]
          omega
        rw [stepped, counted]
        exact inductionHypothesis others
      · have stepped : step ⟨.literal pending, line⟩ first =
            (⟨.literal (first :: pending), line⟩, []) := by
          simp [step, different, lineBreak]
        rw [stepped, List.count_cons_of_ne lineBreak]
        exact inductionHypothesis others

/-- Inside of a literal everything up to the next quote is its content, and the quote ends it. -/
theorem run_literal (unquoted : '"' ∉ content) :
    run ⟨.literal pending, line⟩ (content ++ '"' :: rest) =
      pendingWord (content.reverse ++ pending) (line + content.count '\n') ++
        ⟨.quote, line + content.count '\n'⟩ ::
          run (betweenTokens (line + content.count '\n')) rest := by
  rw [run_content unquoted]
  simp [run, step]

/-- A literal is its content between two quotes. -/
theorem run_betweenTokens_literal (some : content ≠ []) (unquoted : '"' ∉ content) :
    ∃ last, run (betweenTokens line) ('"' :: content ++ '"' :: rest) =
      ⟨.quote, line⟩ :: ⟨.word (String.ofList content), last⟩ :: ⟨.quote, last⟩ ::
        run (betweenTokens last) rest := by
  have scanned := @run_literal line [] content rest unquoted
  refine ⟨line + content.count '\n', ?_⟩
  rw [List.append_nil, pendingWord, if_neg (by simpa using some), List.reverse_reverse] at scanned
  exact congrArg (⟨.quote, line⟩ :: ·) scanned

end PlotLisp.Scanner

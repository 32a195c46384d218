import PlotLisp.Proofs.Reader.Grammar
import PlotLisp.Proofs.Token.Words

/-!
# Cutting a text at a line break

Whatever the scanner is in the middle of, a line break puts it between two tokens, unless it
is inside of a literal. It is there exactly when the number of quotes that it has produced is
odd. So a text may be cut at a line break outside of literals: the tokens of the first part
do not depend on the second, and those of the second depend on the first only in their lines.
White space and whole lines of comment put in at the cut have no tokens at all.
-/

namespace PlotLisp

/-- The same token, this many lines further down. -/
def Lexeme.movedDown (lines : Nat) (lexeme : Lexeme) : Lexeme :=
  { lexeme with line := lexeme.line + lines }

/-- Moving tokens down leaves them the same but for their lines. -/
theorem Lexeme.map_token_movedDown (lines : Nat) (lexemes : List Lexeme) :
    (lexemes.map (movedDown lines)).map token = lexemes.map token := by
  simp [movedDown]

namespace Scanner

variable {scanner : Scanner} {text rest pending content inserted : List Char} {line : Nat}

/-! ## The scanner further down -/

/-- The same scanner, this many lines further down. -/
def movedDown (lines : Nat) (scanner : Scanner) : Scanner :=
  { scanner with line := scanner.line + lines }

/-- A word that is completed further down is the same word on a later line. -/
theorem pendingWord_movedDown (pending : List Char) (line lines : Nat) :
    pendingWord pending (line + lines) =
      (pendingWord pending line).map (Lexeme.movedDown lines) := by
  unfold pendingWord
  split <;> rfl

/-- A step further down is the same step, with later lines. -/
theorem step_movedDown (lines : Nat) (scanner : Scanner) (character : Char) :
    (scanner.movedDown lines).step character =
      ((scanner.step character).1.movedDown lines,
        (scanner.step character).2.map (Lexeme.movedDown lines)) := by
  obtain ⟨mode, line⟩ := scanner
  have next : line + lines + 1 = line + 1 + lines := by omega
  cases mode with
  | code pending =>
      simp only [step, movedDown, pendingWord_movedDown]
      repeat' split
      all_goals simp [betweenTokens, Lexeme.movedDown, next]
  | comment =>
      simp only [step, movedDown]
      split
      all_goals simp [betweenTokens, next]
  | literal pending =>
      simp only [step, movedDown, pendingWord_movedDown]
      repeat' split
      all_goals simp [betweenTokens, Lexeme.movedDown, next]

/-- The end of a text further down gives the same tokens on later lines. -/
theorem finish_movedDown (lines : Nat) (scanner : Scanner) :
    (scanner.movedDown lines).finish = scanner.finish.map (Lexeme.movedDown lines) := by
  obtain ⟨mode, line⟩ := scanner
  cases mode with
  | code pending | literal pending => exact pendingWord_movedDown pending line lines
  | comment => rfl

/-- Where a scan begins shows in the lines of the tokens only. -/
theorem run_movedDown (lines : Nat) (scanner : Scanner) (text : List Char) :
    (scanner.movedDown lines).run text = (scanner.run text).map (Lexeme.movedDown lines) := by
  induction text generalizing scanner with
  | nil => exact finish_movedDown lines scanner
  | cons character rest inductionHypothesis =>
      rw [run, run, step_movedDown, List.map_append, ← inductionHypothesis]

/-! ## Quotes and literals -/

/-- The number of quotes that are open: one in a literal, and none elsewhere. -/
def openQuotes (scanner : Scanner) : Nat :=
  match scanner.mode with
  | .code _ | .comment => 0
  | .literal _ => 1

/-- Completing a word gives no quote. -/
theorem quoteCount_pendingWord (pending : List Char) (line : Nat) :
    Lexeme.quoteCount (pendingWord pending line) = 0 := by
  unfold pendingWord
  split <;> rfl

/-- The end of a text gives no quote, even within a literal. -/
theorem quoteCount_finish (scanner : Scanner) : Lexeme.quoteCount scanner.finish = 0 := by
  obtain ⟨mode, line⟩ := scanner
  cases mode with
  | code pending | literal pending => exact quoteCount_pendingWord pending line
  | comment => rfl

/-- A character opens or closes a literal exactly when it completes a quote, and it starts a
new line exactly when it is a line break. -/
theorem step_effect (scanner : Scanner) (character : Char) :
    (Lexeme.quoteCount (scanner.step character).2 + (scanner.step character).1.openQuotes) % 2 =
        scanner.openQuotes ∧
      (scanner.step character).1.line = scanner.line + [character].count '\n' := by
  obtain ⟨mode, line⟩ := scanner
  have added (pending : List Char) (token : Token) :
      Lexeme.quoteCount (pendingWord pending line ++ [⟨token, line⟩]) =
        Lexeme.quoteCount [⟨token, line⟩] := by
    have none := quoteCount_pendingWord pending line
    unfold Lexeme.quoteCount at none ⊢
    rw [List.countP_append, none, Nat.zero_add]
  cases mode with
  | code pending =>
      simp only [step]
      repeat' split
      all_goals simp_all [betweenTokens, openQuotes, quoteCount_pendingWord]
      all_goals simp [Lexeme.quoteCount]
  | comment =>
      simp only [step]
      split
      all_goals simp_all [betweenTokens, openQuotes, Lexeme.quoteCount]
  | literal pending =>
      simp only [step]
      repeat' split
      all_goals simp_all [betweenTokens, openQuotes]
      all_goals simp [Lexeme.quoteCount]

/-- A text may be cut anywhere. The quotes of its first part tell whether the scanner is in a
literal at the cut, and its line breaks tell the line. -/
theorem exists_cut (scanner : Scanner) (text : List Char) :
    ∃ (emitted : List Lexeme) (next : Scanner),
      (∀ rest, scanner.run (text ++ rest) = emitted ++ next.run rest) ∧
        (Lexeme.quoteCount emitted + next.openQuotes) % 2 = scanner.openQuotes % 2 ∧
        next.line = scanner.line + text.count '\n' := by
  induction text generalizing scanner with
  | nil => exact ⟨[], scanner, fun _ => rfl, by simp [Lexeme.quoteCount], rfl⟩
  | cons character text inductionHypothesis =>
      obtain ⟨quotes, line⟩ := scanner.step_effect character
      obtain ⟨emitted, next, runs, later, lines⟩ :=
        inductionHypothesis (scanner.step character).1
      refine ⟨(scanner.step character).2 ++ emitted, next, fun rest => ?_, ?_, ?_⟩
      · rw [List.cons_append, run, List.append_assoc, ← runs]
      · simp only [Lexeme.quoteCount, List.countP_append] at quotes later ⊢
        omega
      · have counted : (character :: text).count '\n' =
            [character].count '\n' + text.count '\n' :=
          @List.count_append _ _ _ [character] text
        omega

/-! ## What has no tokens -/

/-- White space and whole lines of comment. -/
inductive Filler : List Char → Prop where
  | nil : Filler []
  | white {character : Char} {rest : List Char}
      (white : character = '\n' ∨ isBlank character = true) (others : Filler rest) :
      Filler (character :: rest)
  | comment {content rest : List Char} (unbroken : '\n' ∉ content) (others : Filler rest) :
      Filler (';' :: (content ++ '\n' :: rest))

/-- The rest of a line of comment is passed over. -/
theorem run_comment_line (unbroken : '\n' ∉ content) :
    run ⟨.comment, line⟩ (content ++ '\n' :: rest) = run (betweenTokens (line + 1)) rest := by
  induction content with
  | nil => simp [run, step]
  | cons first content inductionHypothesis =>
      simp only [List.mem_cons, not_or] at unbroken
      simpa [run, step, Ne.symm unbroken.1] using inductionHypothesis unbroken.2

/-- A line break outside of literals completes what comes before it. -/
theorem run_lineBreak (outside : scanner.openQuotes = 0) :
    scanner.run ('\n' :: rest) = scanner.finish ++ run (betweenTokens (scanner.line + 1)) rest := by
  obtain ⟨mode, line⟩ := scanner
  cases mode with
  | code pending => simp [run, step, finish]
  | comment => simp [run, step, finish]
  | literal pending => cases outside

/-- A line of comment counts as one line, whatever is in it. -/
theorem count_lineBreak_comment_line (unbroken : '\n' ∉ content) :
    (';' :: (content ++ '\n' :: rest)).count '\n' = 1 + rest.count '\n' := by
  simp [List.count_eq_zero_of_not_mem unbroken]
  omega

/-- Between two tokens, white space and lines of comment only count as lines. -/
theorem run_betweenTokens_filler (filler : Filler inserted) :
    run (betweenTokens line) (inserted ++ rest) =
      run (betweenTokens (line + inserted.count '\n')) rest := by
  have nothing : pendingWord [] line = [] := rfl
  induction filler generalizing line with
  | nil => rfl
  | @white character others white _ inductionHypothesis =>
      have passed : run (betweenTokens line) (character :: (others ++ rest)) =
          run (betweenTokens (line + [character].count '\n')) (others ++ rest) := by
        simp only [isBlank, Bool.or_eq_true, beq_iff_eq] at white
        rcases white with rfl | ((rfl | rfl) | rfl) | rfl
        all_goals simp [run, step, isBlank, betweenTokens, nothing]
      rw [List.cons_append, passed, inductionHypothesis rfl, Nat.add_assoc, ← List.count_append]
      rfl
  | @comment content others unbroken _ inductionHypothesis =>
      have begun : run (betweenTokens line) (';' :: (content ++ '\n' :: (others ++ rest))) =
          run ⟨.comment, line⟩ (content ++ '\n' :: (others ++ rest)) := by
        simp [run, step, betweenTokens, nothing]
      rw [List.cons_append, List.append_assoc, List.cons_append, begun,
        run_comment_line unbroken, inductionHypothesis rfl, count_lineBreak_comment_line unbroken,
        Nat.add_assoc]

/-- In a comment, white space and lines of comment may come before the line break. -/
theorem run_comment_filler (filler : Filler inserted) :
    run ⟨.comment, line⟩ (inserted ++ '\n' :: rest) =
      run (betweenTokens (line + inserted.count '\n' + 1)) rest := by
  have nothing (line : Nat) : pendingWord [] line = [] := rfl
  have ended (line : Nat) : run (betweenTokens line) ('\n' :: rest) =
      run (betweenTokens (line + 1)) rest := by
    simp [run, step, betweenTokens, nothing]
  induction filler with
  | nil => exact run_comment_line List.not_mem_nil
  | @white character others white filler inductionHypothesis =>
      -- A line break among the white space ends the comment, and the rest is filler between tokens.
      by_cases broken : character = '\n'
      · subst broken
        have next : run ⟨.comment, line⟩ ('\n' :: (others ++ '\n' :: rest)) =
            run (betweenTokens (line + 1)) (others ++ '\n' :: rest) :=
          run_comment_line List.not_mem_nil
        rw [List.cons_append, next, run_betweenTokens_filler filler, ended, List.count_cons_self]
        congr 2
        omega
      · have passed : run ⟨.comment, line⟩ (character :: (others ++ '\n' :: rest)) =
            run ⟨.comment, line⟩ (others ++ '\n' :: rest) := by
          simp [run, step, broken]
        rw [List.cons_append, passed, inductionHypothesis, List.count_cons_of_ne broken]
  | @comment content others unbroken filler _ =>
      have next : run ⟨.comment, line⟩ (';' :: content ++ '\n' :: (others ++ '\n' :: rest)) =
          run (betweenTokens (line + 1)) (others ++ '\n' :: rest) :=
        run_comment_line (by simpa using unbroken)
      rw [List.cons_append, List.append_assoc, List.cons_append, ← List.cons_append, next,
        run_betweenTokens_filler filler, ended, count_lineBreak_comment_line unbroken]
      congr 2
      omega

/-- Outside of literals, what comes before white space, lines of comment, and a line break is
completed. -/
theorem run_filler_lineBreak (filler : Filler inserted) (outside : scanner.openQuotes = 0) :
    scanner.run (inserted ++ '\n' :: rest) =
      scanner.finish ++
        run (betweenTokens (scanner.line + inserted.count '\n' + 1)) rest := by
  obtain ⟨mode, line⟩ := scanner
  cases mode with
  | literal pending => cases outside
  | comment => exact run_comment_filler filler
  | code pending =>
      -- What follows a word that is not finished yet begins with a delimiter.
      have completed : run ⟨.code pending, line⟩ (inserted ++ '\n' :: rest) =
          pendingWord pending line ++ run (betweenTokens line) (inserted ++ '\n' :: rest) := by
        cases filler with
        | nil => exact run_delimiter (by simp [delimits])
        | white white =>
            refine run_delimiter ?_
            rcases white with rfl | white
            · simp [delimits]
            · simp [delimits, white]
        | comment => exact run_delimiter (by simp [delimits])
      have nothing : finish (betweenTokens (line + inserted.count '\n')) = [] := rfl
      rw [completed, run_betweenTokens_filler filler, run_lineBreak rfl, nothing]
      rfl

/-- A text whose quotes are all closed may be cut at a line break, with white space and lines
of comment on either side of it. -/
theorem run_append_lineBreak (closed : Lexeme.quoteCount (scanner.run text) % 2 = 0)
    (outside : scanner.openQuotes = 0) (filler : Filler inserted) :
    scanner.run (text ++ (inserted ++ '\n' :: rest)) =
      scanner.run text ++
        run (betweenTokens (scanner.line + text.count '\n' + inserted.count '\n' + 1)) rest := by
  obtain ⟨emitted, next, runs, quotes, line⟩ := scanner.exists_cut text
  have whole : scanner.run text = emitted ++ next.finish := by
    have alone := runs []
    rwa [List.append_nil] at alone
  have nextOutside : next.openQuotes = 0 := by
    have parity : (Lexeme.quoteCount emitted + Lexeme.quoteCount next.finish) % 2 = 0 := by
      rw [whole] at closed
      exact List.countP_append ▸ closed
    have few : next.openQuotes ≤ 1 := by
      unfold openQuotes
      split <;> omega
    rw [quoteCount_finish] at parity
    omega
  rw [runs, run_filler_lineBreak filler nextOutside, whole, line, List.append_assoc]

end Scanner

end PlotLisp

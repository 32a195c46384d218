import PlotLisp.Reader

/-!
# Final and incomplete input

A token that does not fit stops the reader, so nothing that comes after it makes a
difference. At the end of the tokens nothing has stopped the reader, and then it can go on:
an open literal is closed, a missing head is given, and every open form gets its closing
parenthesis. So an error is either final, or it only says that the input ends too early.
-/

namespace PlotLisp

namespace ReadError

/-- The error blames a token in a way that no end of input does. -/
def IsFinal : ReadError → Prop
  | invalidAtom .. | unexpectedAtom .. | unexpectedClosing _ | trailingToken .. => True
  | emptyInput | missingHead _ | unterminatedExpression _ | unterminatedLiteral _ => False

/-- The error blames the end of the input in a way that no token does. -/
def IsIncomplete : ReadError → Prop
  | emptyInput | unterminatedExpression _ => True
  | missingHead _ | invalidAtom .. | unexpectedAtom .. | unexpectedClosing _
  | unterminatedLiteral _ | trailingToken .. => False

end ReadError

/-- The tokens are refused for the same reason whatever follows them. -/
def Lexeme.FailFinally (lexemes : List Lexeme) (error : ReadError) : Prop :=
  ∀ further, Expression.ofLexemes (lexemes ++ further) = .error error

/-- The tokens are the beginning of some expression. -/
def Lexeme.CanBeCompleted (lexemes : List Lexeme) : Prop :=
  ∃ further expression, Expression.ofLexemes (lexemes ++ further) = .ok expression

namespace Reader

variable {reader : Reader} {line : Nat} {lexeme : Lexeme} {lexemes : List Lexeme}
  {error : ReadError} {expression : Expression}

/-! ## Where the reader stops -/

/-- No token is refused for coming to an end. -/
theorem not_isIncomplete_of_step (stopped : reader.step lexeme = .error error) :
    ¬ error.IsIncomplete := by
  obtain ⟨token, line⟩ := lexeme
  cases token with
  | opening =>
      simp only [step] at stopped
      split at stopped <;> cases stopped
      exact id
  | closing =>
      simp only [step, takeClosing] at stopped
      repeat' split at stopped
      all_goals cases stopped
      all_goals exact id
  | word content =>
      simp only [step, takeWord] at stopped
      repeat' split at stopped
      all_goals cases stopped
      all_goals exact id
  | quote | comment | lineBreak | blank => cases stopped

/-- The end of the tokens is never reported as the fault of one of them. -/
theorem not_isFinal_unfinished (reader : Reader) (line : Nat) :
    ¬ (reader.unfinished line).IsFinal := by
  unfold unfinished
  repeat' split
  all_goals exact id

/-- An expression that was read is followed by nothing. -/
theorem run_append_of_eq_ok (read : reader.run line lexemes = .ok expression) (extra : Lexeme)
    (others : List Lexeme) :
    reader.run line (lexemes ++ extra :: others) =
      .error (.trailingToken extra.token extra.line) := by
  induction lexemes generalizing reader line with
  | nil => cases read
  | cons lexeme rest inductionHypothesis =>
      rw [run] at read
      rw [List.cons_append, run]
      cases taken : reader.step lexeme with
      | error error => simp [taken] at read
      | ok progress =>
          cases progress with
          | reading next =>
              simp only [taken] at read
              exact inductionHypothesis read
          | finished whole =>
              cases rest with
              | nil => rfl
              | cons => simp [taken] at read

/-- An error was either raised by a token, and then the rest does not matter, or it says
why the input may not end in a state from which the reader can go on. -/
theorem run_append_of_eq_error (failed : reader.run line lexemes = .error error) :
    ((∀ further, reader.run line (lexemes ++ further) = .error error) ∧ ¬ error.IsIncomplete) ∨
      ∃ next last, error = unfinished next last ∧
        ∀ further, reader.run line (lexemes ++ further) = next.run last further := by
  induction lexemes generalizing reader line with
  | nil =>
      cases failed
      exact .inr ⟨reader, line, rfl, fun _ => rfl⟩
  | cons lexeme rest inductionHypothesis =>
      -- A fault of a single token stays, whatever follows; only running out of tokens can be
      -- mended.
      simp only [List.cons_append, run] at failed ⊢
      cases taken : reader.step lexeme with
      | error raised =>
          simp only [taken] at failed
          cases failed
          exact .inl ⟨fun _ => rfl, not_isIncomplete_of_step taken⟩
      | ok progress =>
          cases progress with
          | reading next =>
              simp only [taken] at failed
              exact inductionHypothesis failed
          | finished whole =>
              cases rest with
              | nil => simp [taken] at failed
              | cons extra others =>
                  simp only [taken] at failed
                  cases failed
                  exact .inl ⟨fun _ => rfl, id⟩

/-! ## How the reader can go on -/

/-- Open forms are completed by their closing parentheses. -/
theorem run_closings (innermost : OpenForm) (outer : List OpenForm) (line : Nat) :
    ∃ expression, run ⟨innermost :: outer, false, none⟩ line
      (List.replicate (outer.length + 1) ⟨.closing, line⟩) = .ok expression := by
  induction outer generalizing innermost with
  | nil => exact ⟨innermost.close, rfl⟩
  | cons around others inductionHypothesis =>
      exact inductionHypothesis (around.push innermost.close)

/-- A form that awaits its head is completed by a head and the closing parentheses. -/
theorem run_head_closings (forms : List OpenForm) (line : Nat) :
    ∃ further expression, run ⟨forms, true, none⟩ line further = .ok expression := by
  obtain ⟨expression, closed⟩ := run_closings ⟨.symbol "x", []⟩ forms line
  have taken : takeWord ⟨forms, true, none⟩ "x" line =
      .ok ⟨⟨.symbol "x", []⟩ :: forms, false, none⟩ := rfl
  refine ⟨⟨.word "x", line⟩ :: List.replicate (forms.length + 1) ⟨.closing, line⟩,
    expression, ?_⟩
  simp only [run, step, taken, Except.map, closed]

/-- Whatever the reader holds outside of quotes can be completed. -/
theorem exists_completion_outside_quotes (forms : List OpenForm) (awaitsHead : Bool) (line : Nat) :
    ∃ further expression, run ⟨forms, awaitsHead, none⟩ line further = .ok expression := by
  cases awaitsHead with
  | true => exact run_head_closings forms line
  | false =>
      cases forms with
      | nil =>
          obtain ⟨further, expression, completed⟩ := run_head_closings [] line
          exact ⟨⟨.opening, line⟩ :: further, expression, completed⟩
      | cons innermost outer =>
          obtain ⟨expression, closed⟩ := run_closings innermost outer line
          exact ⟨_, expression, closed⟩

/-- Whatever the reader holds can be completed. -/
theorem exists_completion (reader : Reader) (line : Nat) :
    ∃ further expression, reader.run line further = .ok expression := by
  obtain ⟨forms, awaitsHead, quotedSince⟩ := reader
  obtain ⟨further, expression, completed⟩ :=
    exists_completion_outside_quotes forms awaitsHead line
  cases quotedSince with
  | none => exact ⟨further, expression, completed⟩
  | some opened => exact ⟨⟨.quote, line⟩ :: further, expression, completed⟩

end Reader

/-- What follows an expression that was read is refused, beginning with its first token. Every
other input is refused for a reason that holds whatever follows, or it is the beginning of an
expression. An invalid word, an atom or a closing parenthesis outside of all forms, and a token
behind the expression are reasons of the first kind only; no input at all and forms that are not
closed are reasons of the second kind only. -/
theorem errors_are_final_or_incomplete (lexemes : List Lexeme) :
    (∀ expression, Expression.ofLexemes lexemes = .ok expression → ∀ extra others,
      Expression.ofLexemes (lexemes ++ extra :: others) =
        .error (.trailingToken extra.token extra.line)) ∧
      ∀ error, Expression.ofLexemes lexemes = .error error →
        (Lexeme.FailFinally lexemes error ∨ Lexeme.CanBeCompleted lexemes) ∧
          (error.IsFinal → Lexeme.FailFinally lexemes error) ∧
          (error.IsIncomplete → Lexeme.CanBeCompleted lexemes) := by
  refine ⟨fun expression read => Reader.run_append_of_eq_ok read, fun error failed => ?_⟩
  rcases Reader.run_append_of_eq_error failed with
    ⟨final, notIncomplete⟩ | ⟨next, last, rfl, goesOn⟩
  · exact ⟨.inl final, fun _ => final, fun incomplete => absurd incomplete notIncomplete⟩
  · obtain ⟨further, expression, completed⟩ := next.exists_completion last
    have completable : Lexeme.CanBeCompleted lexemes :=
      ⟨further, expression, (goesOn further).trans completed⟩
    refine ⟨.inr completable, fun final => ?_, fun _ => completable⟩
    exact absurd final (next.not_isFinal_unfinished last)

/-- The same form with its closing parenthesis, without it, and with a word that is invalid. -/
theorem closed_open_and_spoilt_forms :
    (∃ expression, Expression.ofSource "(f)" = .ok expression ∧
      Expression.ofLexemes (tokenize "(f)" ++ [⟨.quote, 3⟩]) =
        .error (.trailingToken .quote 3)) ∧
      (Expression.ofSource "(f" = .error (.unterminatedExpression 1) ∧
        Lexeme.CanBeCompleted (tokenize "(f")) ∧
      Expression.ofSource "(f 2x" = .error (.invalidAtom "2x" 1) ∧
        Lexeme.FailFinally (tokenize "(f 2x") (.invalidAtom "2x" 1) := by
  refine ⟨⟨_, rfl, ?closed⟩, ⟨rfl, ?unclosed⟩, rfl, ?spoilt⟩
  case closed => exact (errors_are_final_or_incomplete (tokenize "(f)")).1 _ rfl ⟨.quote, 3⟩ []
  case unclosed =>
    obtain ⟨-, errors⟩ := errors_are_final_or_incomplete (tokenize "(f")
    exact (errors (.unterminatedExpression 1) rfl).2.2 trivial
  case spoilt =>
    obtain ⟨-, errors⟩ := errors_are_final_or_incomplete (tokenize "(f 2x")
    exact (errors (.invalidAtom "2x" 1) rfl).2.1 trivial

end PlotLisp

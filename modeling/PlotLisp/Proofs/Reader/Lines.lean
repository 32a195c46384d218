import PlotLisp.Proofs.Token.Lines

/-!
# Lines do not matter to the reader

The reader keeps the line of an open quote and reports the line of a token that does not fit,
but it decides nothing by a line. So two programs with the same tokens spell the same
expression or are refused for the same reason, wherever their tokens stand.
-/

namespace PlotLisp

/-- The error without the line that it reports. -/
def ReadError.unplaced : ReadError → ReadError
  | emptyInput => .emptyInput
  | missingHead _ => .missingHead 0
  | invalidAtom word _ => .invalidAtom word 0
  | unexpectedAtom word _ => .unexpectedAtom word 0
  | unexpectedClosing _ => .unexpectedClosing 0
  | unterminatedExpression depth => .unterminatedExpression depth
  | unterminatedLiteral _ => .unterminatedLiteral 0
  | trailingToken token _ => .trailingToken token 0

namespace Reader

variable {reader other : Reader} {lexeme lexeme' : Lexeme} {lexemes lexemes' : List Lexeme}
  {line line' : Nat}

/-- Two readers that differ at most in the line of the open quote. -/
structure Alike (reader other : Reader) : Prop where
  forms : reader.forms = other.forms
  awaitsHead : reader.awaitsHead = other.awaitsHead
  quoted : reader.quotedSince.isSome = other.quotedSince.isSome

/-- What two readers made of one token: errors that differ in their lines, readers that are
alike, or the same expression. -/
inductive SameProgress : Except ReadError Progress → Except ReadError Progress → Prop where
  | error {error error' : ReadError} (same : error.unplaced = error'.unplaced) :
      SameProgress (.error error) (.error error')
  | reading {reader other : Reader} (alike : reader.Alike other) :
      SameProgress (.ok (.reading reader)) (.ok (.reading other))
  | finished (expression : Expression) :
      SameProgress (.ok (.finished expression)) (.ok (.finished expression))

/-- Readers that are alike are in a literal together. -/
theorem Alike.quotedSince (alike : reader.Alike other) :
    (reader.quotedSince = none ∧ other.quotedSince = none) ∨
      ∃ opened opened', reader.quotedSince = some opened ∧ other.quotedSince = some opened' := by
  have quoted := alike.quoted
  cases since : reader.quotedSince with
  | none => simp_all
  | some opened =>
      rw [since, Option.isSome_some, eq_comm, Option.isSome_iff_exists] at quoted
      obtain ⟨opened', since'⟩ := quoted
      exact .inr ⟨opened, opened', rfl, since'⟩

/-- A word is taken alike on any line; only the error names the line. -/
theorem takeWord_alike (alike : reader.Alike other) (word : String) :
    SameProgress ((reader.takeWord word line).map .reading)
      ((other.takeWord word line').map .reading) := by
  have atoms : reader.atomOf word = other.atomOf word := by
    rw [atomOf, atomOf, alike.quoted]
  simp only [takeWord, atoms, alike.awaitsHead, alike.forms]
  repeat' split
  · exact .error rfl
  · exact .reading ⟨rfl, rfl, alike.quoted⟩
  · exact .error rfl
  · exact .reading ⟨rfl, rfl, alike.quoted⟩

/-- A closing parenthesis is taken alike on any line. -/
theorem takeClosing_alike (alike : reader.Alike other) :
    SameProgress (reader.takeClosing line) (other.takeClosing line') := by
  unfold takeClosing
  rw [alike.awaitsHead, alike.forms]
  split
  · exact .error rfl
  · rcases alike.quotedSince with ⟨none, none'⟩ | ⟨opened, opened', some, some'⟩
    · rw [none, none']
      generalize other.forms = forms
      match forms with
      | [] => exact .error rfl
      | [outermost] => exact .finished outermost.close
      | innermost :: around :: outer => exact .reading ⟨rfl, rfl, rfl⟩
    · rw [some, some']
      exact .error rfl

/-- One step depends on the token and not on its line. -/
theorem step_alike (alike : reader.Alike other) (same : lexeme.token = lexeme'.token) :
    SameProgress (reader.step lexeme) (other.step lexeme') := by
  unfold step
  rw [same]
  split
  · rw [alike.awaitsHead]
    split
    · exact .error rfl
    · exact .reading ⟨alike.forms, rfl, alike.quoted⟩
  · exact takeClosing_alike alike
  · refine .reading ⟨alike.forms, alike.awaitsHead, ?_⟩
    rcases alike.quotedSince with ⟨none, none'⟩ | ⟨opened, opened', some, some'⟩
    · simp [none, none']
    · simp [some, some']
  · exact takeWord_alike alike _
  all_goals exact .reading alike

/-- At the end of the input the errors are alike but for their lines. -/
theorem unfinished_alike (alike : reader.Alike other) :
    (reader.unfinished line).unplaced = (other.unfinished line').unplaced := by
  unfold unfinished
  rw [alike.forms, alike.awaitsHead]
  rcases alike.quotedSince with ⟨none, none'⟩ | ⟨opened, opened', some, some'⟩
  · rw [none, none']
    repeat' split
    all_goals rfl
  · rw [some, some']
    rfl

/-- The rest of the tokens is read in the same way wherever they stand. -/
theorem run_alike (alike : reader.Alike other)
    (same : lexemes.map Lexeme.token = lexemes'.map Lexeme.token) :
    (reader.run line lexemes).mapError ReadError.unplaced =
      (other.run line' lexemes').mapError ReadError.unplaced := by
  induction lexemes generalizing reader other line line' lexemes' with
  | nil =>
      obtain rfl := List.map_eq_nil_iff.mp same.symm
      exact congrArg Except.error (unfinished_alike alike)
  | cons lexeme rest inductionHypothesis =>
      obtain ⟨lexeme', rest', rfl, token, rests⟩ := List.map_eq_cons_iff.mp same.symm
      have progress := step_alike alike token.symm
      rw [run, run]
      generalize reader.step lexeme = taken at progress
      generalize other.step lexeme' = taken' at progress
      cases progress with
      | error same => exact congrArg Except.error same
      | reading alike => exact inductionHypothesis alike rests.symm
      | finished expression =>
          cases rest with
          | nil =>
              obtain rfl := List.map_eq_nil_iff.mp rests
              rfl
          | cons extra others =>
              obtain ⟨extra', others', rfl, token, -⟩ := List.map_eq_cons_iff.mp rests
              exact congrArg (fun token => Except.error (ReadError.trailingToken token 0)) token.symm

end Reader

/-- What the tokens spell depends on their lines only in the line of an error. -/
theorem Expression.ofLexemes_of_map_token {lexemes others : List Lexeme}
    (same : lexemes.map Lexeme.token = others.map Lexeme.token) :
    (ofLexemes lexemes).mapError ReadError.unplaced =
      (ofLexemes others).mapError ReadError.unplaced :=
  Reader.run_alike ⟨rfl, rfl, rfl⟩ same

/-- Results that agree up to the lines of errors are the same expression or no expression. -/
theorem ReadError.eq_ok_iff_of_mapError {result other : Except ReadError Expression}
    (same : result.mapError unplaced = other.mapError unplaced) (expression : Expression) :
    result = .ok expression ↔ other = .ok expression := by
  cases result with
  | error error =>
      cases other with
      | error error' => simp
      | ok value => cases same
  | ok value =>
      cases other with
      | error error' => cases same
      | ok value' =>
          cases same
          exact Iff.rfl

/-- The first part of a text leaves no literal open, and white space or lines of comment stand on
either side of the line break behind it. The tokens are those of both parts. -/
theorem tokenize_parts {first inserted : List Char} (second : List Char)
    (closed : Lexeme.quoteCount (Scanner.start.run first) % 2 = 0)
    (filler : Scanner.Filler inserted) :
    ∀ text ∈ [first ++ (inserted ++ '\n' :: second), first ++ '\n' :: (inserted ++ second)],
      Scanner.start.run text =
        Scanner.start.run first ++ (Scanner.start.run second).map
          (Lexeme.movedDown (1 + first.count '\n' + inserted.count '\n')) := by
  have further (lines : Nat) : Scanner.run (.betweenTokens (Scanner.firstLine + lines)) second =
      (Scanner.start.run second).map (Lexeme.movedDown lines) :=
    Scanner.run_movedDown lines .start second
  have line : Scanner.start.line = Scanner.firstLine := rfl
  intro text member
  simp only [List.mem_cons, List.not_mem_nil, or_false] at member
  rcases member with rfl | rfl
  · rw [Scanner.run_append_lineBreak closed rfl filler, ← further, line]
    congr 3
    omega
  · have cut := @Scanner.run_append_lineBreak .start first (inserted ++ second) [] closed rfl .nil
    rw [List.nil_append, Scanner.run_betweenTokens_filler filler] at cut
    rw [cut, ← further, line, List.count_nil]
    congr 3
    omega

/-- A text that leaves no literal open is scanned on its own up to a line break: the tokens are
its own, followed by those of the rest with their lines moved down. White space and whole lines
of comment on either side of that line break change neither the tokens nor what they spell, nor
why they spell nothing, but only lines. -/
theorem tokenizing_composes_over_lines (first second : String)
    (closed : Lexeme.quoteCount (tokenize first) % 2 = 0) :
    tokenize (first ++ "\n" ++ second) =
        tokenize first ++
          (tokenize second).map (Lexeme.movedDown (1 + first.toList.count '\n')) ∧
      ∀ inserted : String, Scanner.Filler inserted.toList →
        ∀ text ∈ [first ++ inserted ++ "\n" ++ second, first ++ "\n" ++ inserted ++ second],
          tokenize text =
              tokenize first ++ (tokenize second).map
                (Lexeme.movedDown (1 + first.toList.count '\n' + inserted.toList.count '\n')) ∧
            (tokenize text).map Lexeme.token =
              (tokenize (first ++ "\n" ++ second)).map Lexeme.token ∧
            (∀ expression, Expression.ofSource text = .ok expression ↔
              Expression.ofSource (first ++ "\n" ++ second) = .ok expression) ∧
            (Expression.ofSource text).mapError ReadError.unplaced =
              (Expression.ofSource (first ++ "\n" ++ second)).mapError ReadError.unplaced := by
  have plain : tokenize (first ++ "\n" ++ second) =
      tokenize first ++
        (tokenize second).map (Lexeme.movedDown (1 + first.toList.count '\n')) := by
    -- The law without an insertion is the one for an insertion that is empty.
    have parts := tokenize_parts second.toList closed .nil
      (first.toList ++ '\n' :: second.toList) (by simp)
    simpa [tokenize] using parts
  refine ⟨plain, fun inserted filler text member => ?_⟩
  have tokens : tokenize text =
      tokenize first ++ (tokenize second).map
        (Lexeme.movedDown (1 + first.toList.count '\n' + inserted.toList.count '\n')) := by
    refine tokenize_parts second.toList closed filler text.toList ?_
    simp only [List.mem_cons, List.not_mem_nil, or_false] at member
    rcases member with rfl | rfl
    · simp
    · simp
  have same : (tokenize text).map Lexeme.token =
      (tokenize (first ++ "\n" ++ second)).map Lexeme.token := by
    rw [tokens, plain, List.map_append, List.map_append, Lexeme.map_token_movedDown,
      Lexeme.map_token_movedDown]
  have spelled := Expression.ofLexemes_of_map_token same
  exact ⟨tokens, same, ReadError.eq_ok_iff_of_mapError spelled, spelled⟩

/-- A form is cut behind a comment with a quote in it, and a line of comment with another quote
goes in at the cut. -/
theorem form_with_comments_composes :
    Lexeme.quoteCount (tokenize "(f \"a;\nb\" ; \"") % 2 = 0 ∧
      tokenize "(f \"a;\nb\" ; \"\n 1)" =
        tokenize "(f \"a;\nb\" ; \"" ++ (tokenize " 1)").map (Lexeme.movedDown 2) ∧
      ∃ expression, Expression.ofSource "(f \"a;\nb\" ; \"\n; \"\n 1)" = .ok expression ∧
        Expression.ofSource "(f \"a;\nb\" ; \"\n 1)" = .ok expression := by
  have closed : Lexeme.quoteCount (tokenize "(f \"a;\nb\" ; \"") % 2 = 0 := by decide
  obtain ⟨composed, inserted⟩ := tokenizing_composes_over_lines "(f \"a;\nb\" ; \"" " 1)" closed
  have filler : Scanner.Filler "; \"\n".toList :=
    @Scanner.Filler.comment [' ', '"'] [] (by decide) .nil
  obtain ⟨-, -, spelled, -⟩ :=
    inserted "; \"\n" filler "(f \"a;\nb\" ; \"\n; \"\n 1)" (by decide)
  exact ⟨closed, composed, _, rfl, (spelled _).mp rfl⟩

end PlotLisp

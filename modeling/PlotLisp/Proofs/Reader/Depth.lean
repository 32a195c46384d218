import PlotLisp.Proofs.Reader.Completion

/-!
# The depth of unclosed forms

The reader keeps the forms that have a head, and of a form without one only that its head is
still to come. Together they are the opening parentheses without a closing one. When the input
ends inside of some forms, the depth that is reported counts the first kind only, so it is one
less than the number of unclosed parentheses if the last of them still awaits its head.
-/

namespace PlotLisp

/-- Whether the token stands for a parenthesis or a word. -/
def Token.isTerminal : Token → Bool
  | opening | closing | word _ => true
  | quote | comment | lineBreak | blank => false

namespace Lexeme

/-- The number of opening parentheses. -/
def openingCount (lexemes : List Lexeme) : Nat :=
  lexemes.countP fun lexeme => lexeme.token == .opening

/-- The number of closing parentheses. -/
def closingCount (lexemes : List Lexeme) : Nat :=
  lexemes.countP fun lexeme => lexeme.token == .closing

/-- Whether an opening parenthesis comes last, but for quotes, comments, and blanks. -/
def endsOpening (lexemes : List Lexeme) : Bool :=
  ((lexemes.map token).filter Token.isTerminal).getLast? == some .opening

/-- Opening parentheses are counted part by part. -/
theorem openingCount_append (front back : List Lexeme) :
    openingCount (front ++ back) = openingCount front + openingCount back :=
  List.countP_append

/-- Closing parentheses are counted part by part. -/
theorem closingCount_append (front back : List Lexeme) :
    closingCount (front ++ back) = closingCount front + closingCount back :=
  List.countP_append

/-- One more token decides whether an opening parenthesis comes last, unless it
stands for nothing. -/
theorem endsOpening_append (before : List Lexeme) (lexeme : Lexeme) :
    endsOpening (before ++ [lexeme]) =
      if lexeme.token.isTerminal then lexeme.token == .opening else endsOpening before := by
  cases terminal : lexeme.token.isTerminal <;>
    simp [endsOpening, List.filter_append, terminal]

end Lexeme

namespace Reader

open Lexeme

variable {reader next : Reader} {before lexemes : List Lexeme} {lexeme : Lexeme} {line depth : Nat}

/-- The number of forms that are open, whether they have a head or not. -/
def openForms (reader : Reader) : Nat :=
  reader.forms.length + reader.awaitsHead.toNat

/-- What one token does: an opening parenthesis opens a form, a closing one closes a form, and
a word at most gives one its head. -/
theorem step_effect (taken : reader.step lexeme = .ok (.reading next)) :
    next.openForms + closingCount [lexeme] = reader.openForms + openingCount [lexeme] ∧
      next.awaitsHead =
        if lexeme.token.isTerminal then lexeme.token == .opening else reader.awaitsHead := by
  obtain ⟨forms, awaitsHead, quotedSince⟩ := reader
  obtain ⟨token, line⟩ := lexeme
  -- A head puts on the stack the form that was awaited, so as many forms are open as before.
  cases token with
  | opening =>
      cases awaitsHead with
      | true => cases taken
      | false =>
          cases taken
          exact ⟨rfl, rfl⟩
  | closing =>
      cases awaitsHead with
      | true => cases taken
      | false =>
          simp only [step, takeClosing] at taken
          repeat' split at taken
          all_goals cases taken
          exact ⟨rfl, rfl⟩
  | word content =>
      cases awaitsHead with
      | true =>
          simp only [step, takeWord] at taken
          split at taken <;> cases taken
          exact ⟨rfl, rfl⟩
      | false =>
          simp only [step, takeWord, Bool.false_eq_true, ↓reduceIte] at taken
          repeat' split at taken
          all_goals cases taken
          exact ⟨rfl, rfl⟩
  | quote | comment | lineBreak | blank =>
      cases taken
      exact ⟨rfl, rfl⟩

/-- The reader has kept the unclosed forms of the tokens before it. -/
structure Keeps (reader : Reader) (before : List Lexeme) : Prop where
  balance : openingCount before = closingCount before + reader.openForms
  awaitsHead : reader.awaitsHead = endsOpening before

/-- Every token that the reader takes keeps the balance of parentheses, and whether a head
is awaited. -/
theorem Keeps.step (keeps : reader.Keeps before)
    (taken : reader.step lexeme = .ok (.reading next)) : next.Keeps (before ++ [lexeme]) := by
  obtain ⟨forms, head⟩ := step_effect taken
  refine ⟨?_, ?_⟩
  · have balance := keeps.balance
    rw [openingCount_append, closingCount_append]
    omega
  · rw [head, endsOpening_append, keeps.awaitsHead]

/-- At the end of the tokens, the forms with a head are reported. -/
theorem forms_length_of_unfinished
    (reported : reader.unfinished line = .unterminatedExpression depth) :
    reader.forms.length = depth := by
  unfold unfinished at reported
  repeat' split at reported
  all_goals cases reported
  rfl

/-- Whatever was read before, the depth that is reported leaves out a form without a head. -/
theorem Keeps.depth_eq (keeps : reader.Keeps before)
    (failed : reader.run line lexemes = .error (.unterminatedExpression depth)) :
    openingCount (before ++ lexemes) =
      closingCount (before ++ lexemes) + depth + (endsOpening (before ++ lexemes)).toNat := by
  induction lexemes generalizing reader before line with
  | nil =>
      have reported : reader.unfinished line = .unterminatedExpression depth := by
        simpa [run] using failed
      have balance := keeps.balance
      rw [openForms, forms_length_of_unfinished reported, keeps.awaitsHead] at balance
      rw [List.append_nil, balance, Nat.add_assoc]
  | cons lexeme rest inductionHypothesis =>
      rw [run] at failed
      cases taken : reader.step lexeme with
      | error error =>
          simp only [taken] at failed
          cases failed
          exact absurd trivial (not_isIncomplete_of_step taken)
      | ok progress =>
          cases progress with
          | reading next =>
              simp only [taken] at failed
              rw [List.append_cons]
              exact inductionHypothesis (keeps.step taken) failed
          | finished expression => cases rest <;> simp [taken] at failed

end Reader

/-- The depth that is reported for unclosed forms is the number of opening parentheses without a
closing one if and only if the last of them has got its head. Otherwise it is one less. -/
theorem depth_counts_forms_with_head {lexemes : List Lexeme} {depth : Nat}
    (failed : Expression.ofLexemes lexemes = .error (.unterminatedExpression depth)) :
    Lexeme.openingCount lexemes =
        Lexeme.closingCount lexemes + depth + (Lexeme.endsOpening lexemes).toNat ∧
      (Lexeme.openingCount lexemes = Lexeme.closingCount lexemes + depth ↔
        Lexeme.endsOpening lexemes = false) := by
  have initial : Reader.start.Keeps [] := ⟨rfl, rfl⟩
  have balance := initial.depth_eq failed
  rw [List.nil_append] at balance
  refine ⟨balance, ?_⟩
  rw [balance]
  cases Lexeme.endsOpening lexemes <;> simp

/-- Two parentheses are not closed here, but only one of their forms has a head. -/
theorem form_without_head_is_not_counted :
    Expression.ofSource "(a (" = .error (.unterminatedExpression 1) ∧
      Lexeme.openingCount (tokenize "(a (") = 2 ∧ Lexeme.closingCount (tokenize "(a (") = 0 :=
  ⟨rfl, rfl, rfl⟩

end PlotLisp

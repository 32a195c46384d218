import PlotLisp.Expression
import PlotLisp.Token

/-!
# Reading one expression

The reader consumes tokens from left to right and keeps the forms that are still
open. A word between quotes is a text; the reader only counts whether it is inside
quotes, so empty quotes contribute nothing. Exactly one expression is accepted and
nothing may follow it.
-/

namespace PlotLisp

/-- Why a sequence of tokens is not one expression. -/
inductive ReadError where
  | emptyInput
  | missingHead (line : Nat)
  | invalidAtom (word : String) (line : Nat)
  | unexpectedAtom (word : String) (line : Nat)
  | unexpectedClosing (line : Nat)
  | unterminatedExpression (depth : Nat)
  | unterminatedLiteral (line : Nat)
  | trailingToken (token : Token) (line : Nat)
  deriving DecidableEq

namespace ReadError

/-- What is wrong, in words. -/
def detail : ReadError → String
  | emptyInput => "empty input."
  | missingHead line => s!"expected an atom after '(' on line {line}."
  | invalidAtom word line => s!"invalid atom '{word}' on line {line}."
  | unexpectedAtom word line => s!"atom '{word}' outside of an expression on line {line}."
  | unexpectedClosing line => s!"unmatched ')' on line {line}."
  | unterminatedExpression depth => s!"{depth} unclosed '(' at end of input."
  | unterminatedLiteral line => s!"string literal opened on line {line} is never closed."
  | trailingToken token line => s!"extra input after expression on line {line}: {token.text}"

/-- The message shown for the error. -/
def message (error : ReadError) : String :=
  "Invalid Expression. Could not parse: " ++ error.detail

end ReadError

/-- A form whose closing parenthesis is still to come, with the children read so
far in reverse order. -/
structure OpenForm where
  head : Atom
  reversedChildren : List Expression

namespace OpenForm

/-- The form with one more child. -/
def push (form : OpenForm) (child : Expression) : OpenForm :=
  { form with reversedChildren := child :: form.reversedChildren }

/-- The finished expression. -/
def close (form : OpenForm) : Expression :=
  .form form.head form.reversedChildren.reverse

end OpenForm

/-- The state between two tokens: the open forms with the innermost first, whether
an opening parenthesis still waits for its head, and the line of the opening quote
when the reader is inside quotes. -/
structure Reader where
  forms : List OpenForm
  awaitsHead : Bool
  quotedSince : Option Nat

namespace Reader

/-- Before the first token. -/
def start : Reader :=
  ⟨[], false, none⟩

/-- What one token leads to: more to read, or the finished expression. -/
inductive Progress where
  | reading (reader : Reader)
  | finished (expression : Expression)

/-- The atom that a word denotes here: a text inside quotes, and otherwise a number
or a symbol. -/
def atomOf (reader : Reader) (word : String) : Atom :=
  if reader.quotedSince.isSome then .text word else .ofWord word

/-- Takes a word: the head of the form just opened, or a child of the innermost
form. -/
def takeWord (reader : Reader) (word : String) (line : Nat) : Except ReadError Reader :=
  let atom := reader.atomOf word
  if atom.isAbsent then .error (.invalidAtom word line)
  else if reader.awaitsHead then
    .ok { reader with forms := ⟨atom, []⟩ :: reader.forms, awaitsHead := false }
  else
    match reader.forms with
    | [] => .error (.unexpectedAtom word line)
    | innermost :: outer => .ok { reader with forms := innermost.push (.leaf atom) :: outer }

/-- Closes the innermost form and hands it to the one around it, if there is one. -/
def takeClosing (reader : Reader) (line : Nat) : Except ReadError Progress :=
  if reader.awaitsHead then .error (.missingHead line)
  else
    match reader.quotedSince with
    | some opened => .error (.unterminatedLiteral opened)
    | none =>
        match reader.forms with
        | [] => .error (.unexpectedClosing line)
        | [outermost] => .ok (.finished outermost.close)
        | innermost :: around :: outer =>
            .ok (.reading { reader with forms := around.push innermost.close :: outer })

/-- Takes one token. -/
def step (reader : Reader) (lexeme : Lexeme) : Except ReadError Progress :=
  match lexeme.token with
  | .opening =>
      if reader.awaitsHead then .error (.missingHead lexeme.line)
      else .ok (.reading { reader with awaitsHead := true })
  | .closing => reader.takeClosing lexeme.line
  | .quote =>
      .ok (.reading { reader with
        quotedSince := if reader.quotedSince.isSome then none else some lexeme.line })
  | .word content => (reader.takeWord content lexeme.line).map .reading
  | .comment | .lineBreak | .blank => .ok (.reading reader)

/-- Why the input may not end here. An open literal is reported before open forms,
and those before an opening parenthesis without a head. -/
def unfinished (reader : Reader) (lastLine : Nat) : ReadError :=
  match reader.quotedSince with
  | some opened => .unterminatedLiteral opened
  | none =>
      if !reader.forms.isEmpty then .unterminatedExpression reader.forms.length
      else if reader.awaitsHead then .missingHead lastLine
      else .emptyInput

/-- Reads the rest of the tokens, the last one read having been on `lastLine`. -/
def run (reader : Reader) (lastLine : Nat) : List Lexeme → Except ReadError Expression
  | [] => .error (reader.unfinished lastLine)
  | lexeme :: rest =>
      match reader.step lexeme with
      | .error error => .error error
      | .ok (.reading next) => next.run lexeme.line rest
      | .ok (.finished expression) =>
          match rest with
          | [] => .ok expression
          | extra :: _ => .error (.trailingToken extra.token extra.line)

end Reader

namespace Expression

/-- The one expression that a sequence of tokens spells. -/
def ofLexemes (lexemes : List Lexeme) : Except ReadError Expression :=
  Reader.start.run Scanner.firstLine lexemes

/-- The one expression that a program text spells. -/
def ofSource (source : String) : Except ReadError Expression :=
  ofLexemes (tokenize source)

end Expression

end PlotLisp

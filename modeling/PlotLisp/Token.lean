/-!
# Tokens

A program is read character by character. The scanner is always in one of three
modes: in code with a word that may still grow, in a comment, or in a literal with
the content read so far. Each character gives the next mode and the tokens that
it completes, so a text can be cut anywhere and scanned in two pieces.
-/

namespace PlotLisp

/-- A unit of program text. The scanner produces parentheses, quotes, and words;
a reader also passes over the three kinds that carry no content. -/
inductive Token where
  | opening
  | closing
  | quote
  | word (content : String)
  | comment
  | lineBreak
  | blank
  deriving DecidableEq

/-- A token together with the line on which it ends. -/
structure Lexeme where
  token : Token
  line : Nat
  deriving DecidableEq

namespace Token

/-- The source text of a token; the kinds without content have none. -/
def text : Token → String
  | opening => "("
  | closing => ")"
  | quote => "\""
  | word content => content
  | comment | lineBreak | blank => ""

end Token

/-- What the scanner is in the middle of. Pending characters are kept in reverse
order. -/
inductive ScanMode where
  | code (pending : List Char)
  | comment
  | literal (pending : List Char)
  deriving DecidableEq

/-- The scanner's mode and the line it is on. -/
structure Scanner where
  mode : ScanMode
  line : Nat
  deriving DecidableEq

namespace Scanner

/-- Between two tokens of code. -/
def betweenTokens (line : Nat) : Scanner :=
  ⟨.code [], line⟩

/-- The line on which every program starts. -/
def firstLine : Nat := 1

/-- Before the first character of a program. -/
def start : Scanner :=
  betweenTokens firstLine

/-- Whether a character separates words without being a line break. -/
def isBlank (character : Char) : Bool :=
  character == ' ' || character == '\t' || character == '\r' || character == '\x0c'

/-- The word made of the pending characters, if there are any. -/
def pendingWord (pending : List Char) (line : Nat) : List Lexeme :=
  if pending.isEmpty then [] else [⟨.word (String.ofList pending.reverse), line⟩]

/-- Reads one character: the next state, and the tokens completed by it. A line
break ends a comment and is part of a literal. -/
def step (scanner : Scanner) (character : Char) : Scanner × List Lexeme :=
  let line := scanner.line
  match scanner.mode with
  | .code pending =>
      let completed := pendingWord pending line
      if character = '(' then (betweenTokens line, completed ++ [⟨.opening, line⟩])
      else if character = ')' then (betweenTokens line, completed ++ [⟨.closing, line⟩])
      else if character = '"' then (⟨.literal [], line⟩, completed ++ [⟨.quote, line⟩])
      else if character = ';' then (⟨.comment, line⟩, completed)
      else if character = '\n' then (betweenTokens (line + 1), completed)
      else if isBlank character then (betweenTokens line, completed)
      else (⟨.code (character :: pending), line⟩, [])
  | .comment =>
      if character = '\n' then (betweenTokens (line + 1), []) else (scanner, [])
  | .literal pending =>
      if character = '"' then
        (betweenTokens line, pendingWord pending line ++ [⟨.quote, line⟩])
      else if character = '\n' then (⟨.literal (character :: pending), line + 1⟩, [])
      else (⟨.literal (character :: pending), line⟩, [])

/-- The token completed by the end of the text. -/
def finish (scanner : Scanner) : List Lexeme :=
  match scanner.mode with
  | .code pending => pendingWord pending scanner.line
  | .comment => []
  | .literal pending => pendingWord pending scanner.line

/-- The tokens of the rest of a text, up to its end. -/
def run (scanner : Scanner) : List Char → List Lexeme
  | [] => scanner.finish
  | character :: rest =>
      let (next, completed) := scanner.step character
      completed ++ next.run rest

end Scanner

/-- The tokens of a program in order, each with its line. An unclosed literal ends
with its content; the reader reports it. -/
def tokenize (source : String) : List Lexeme :=
  Scanner.start.run source.toList

end PlotLisp

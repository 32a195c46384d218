import PlotLisp.Number.Complex

/-!
# Atoms

An atom is the terminal of the language: a number, a complex number, a symbol, a
text, or nothing. A word of a program names a number when the whole word is a
numeral, and otherwise a symbol unless it starts with a digit.
-/

namespace PlotLisp

/-- A terminal value. `absent` stands where a value is missing, such as a property
that was never set. -/
inductive Atom where
  | absent
  | number (value : Float)
  | complex (value : Complex)
  | symbol (name : String)
  | text (content : String)
  deriving DecidableEq

namespace Atom

/-- The number that a word denotes. A numeral has at least one digit, so words
such as `inf` are not numbers. -/
def numeral? (word : String) : Option Float :=
  Number.read? word.toList

/-- The atom that a word denotes: a number, a symbol, or `absent` for a word that
starts with a digit without being a number, and for the empty word. -/
def ofWord (word : String) : Atom :=
  match numeral? word with
  | some value => number value
  | none =>
      match word.toList with
      | [] => absent
      | first :: _ => if first.isDigit then absent else symbol word

/-- Whether the atom is `absent`. -/
def isAbsent : Atom → Bool
  | absent => true
  | _ => false

/-- The value of a real number. -/
def number? : Atom → Option Float
  | number value => some value
  | _ => none

/-- The value of a complex number. -/
def complex? : Atom → Option Complex
  | complex value => some value
  | _ => none

/-- The name of a symbol. -/
def symbol? : Atom → Option String
  | symbol name => some name
  | _ => none

/-- The content of a text. -/
def text? : Atom → Option String
  | text content => some content
  | _ => none

/-- Whether the atom is the symbol with the given name. -/
def isSymbol (atom : Atom) (name : String) : Bool :=
  atom.symbol? == some name

/-- Comparison within one kind: numbers within `Number.epsilon`, names and texts
letter by letter. -/
def alike : Atom → Atom → Bool
  | absent, absent => true
  | number x, number y => Number.approximately x y
  | complex z, complex w => z.alike w
  | symbol name, symbol other => name == other
  | text content, text other => content == other
  | _, _ => false

/-- The written form. A text stands between quotes, with nothing escaped in it. -/
def render : Atom → String
  | absent => "NONE"
  | number value => Number.text value
  | complex value => value.text
  | symbol name => name
  | text content => "\"" ++ content ++ "\""

end Atom

end PlotLisp

/-!
# White space

The characters with the Unicode property `White_Space`, and texts without them at
both ends.
-/

namespace PlotLisp.Whitespace

/-- The ranges of code points with the property, both ends included. -/
def ranges : List (Nat × Nat) :=
  [(0x9, 0xD), (0x20, 0x20), (0x85, 0x85), (0xA0, 0xA0), (0x1680, 0x1680),
    (0x2000, 0x200A), (0x2028, 0x2029), (0x202F, 0x202F), (0x205F, 0x205F),
    (0x3000, 0x3000)]

/-- Whether a character is white space. -/
def isSpace (character : Char) : Bool :=
  ranges.any fun (first, last) =>
    decide (first ≤ character.toNat ∧ character.toNat ≤ last)

/-- The characters between the first and the last one that is not white space. -/
def trimList (text : List Char) : List Char :=
  ((text.dropWhile isSpace).reverse.dropWhile isSpace).reverse

/-- The text without white space at its ends. -/
def trim (text : String) : String :=
  String.ofList (trimList text.toList)

end PlotLisp.Whitespace

import PlotLisp.Proofs.Expression.Skeleton
import PlotLisp.Proofs.Reader.Rendering

/-!
# Rendering round-trips

The atoms that a program can be written with are read back as themselves: finite
numbers, texts between quotes, and words that denote symbols. So every expression made
of them alone is read back from its written form, down to the bits of its numbers.
-/

namespace PlotLisp

namespace Atom

/-- The atoms that are read back as themselves: finite numbers, texts with something in
them but no quote, and symbols that are written as one word and are not taken for
anything else. -/
def Writable : Atom → Prop
  | number value => value.isFinite = true
  | text content => content ≠ "" ∧ '"' ∉ content.toList
  | symbol name => Scanner.isWord name = true ∧ ofWord name = symbol name
  | absent | complex _ => False

/-- Digits delimit nothing. -/
theorem delimits_of_isDigit {c : Char} (digit : c.isDigit = true) :
    Scanner.delimits c = false := by
  refine Bool.eq_false_iff.mpr fun delimiter => ?_
  simp only [Scanner.delimits, Scanner.isBlank, Bool.or_eq_true, beq_iff_eq] at delimiter
  rcases delimiter with ((((rfl | rfl) | rfl) | rfl) | rfl) | ((rfl | rfl) | rfl) | rfl
  all_goals cases digit

/-- The written form of a finite number: digits with a point, behind a minus sign if the
number is negative. -/
theorem text_eq_cons {x : Float} (finite : x.isFinite = true) :
    ∃ first rest, (Number.text x).toList =
        (if Number.isNegative x then '-' :: first :: rest else first :: rest) ∧
      first.isDigit = true ∧ ∀ c ∈ rest, c = '.' ∨ c.isDigit = true := by
  obtain ⟨decimal, negative, written, -⟩ := Number.exists_decimal finite
  obtain ⟨first, rest, unsigned, digit, others⟩ := decimal.unsignedText_eq_cons
  refine ⟨first, rest, ?_, digit, others⟩
  rw [written, Number.Decimal.text, negative, unsigned]

/-- The written form of a finite number has no delimiter in it. -/
theorem delimits_text {x : Float} (finite : x.isFinite = true) :
    ∀ c ∈ (Number.text x).toList, Scanner.delimits c = false := by
  obtain ⟨first, rest, written, digit, others⟩ := text_eq_cons finite
  have inside : ∀ c ∈ first :: rest, Scanner.delimits c = false := by
    intro c member
    rcases List.mem_cons.mp member with rfl | behind
    · exact delimits_of_isDigit digit
    · rcases others c behind with rfl | digit
      · rfl
      · exact delimits_of_isDigit digit
  rw [written]
  split
  · intro c member
    rcases List.mem_cons.mp member with rfl | behind
    · rfl
    · exact inside c behind
  · exact inside

/-- The written form of a number is never empty. -/
theorem text_ne_empty {x : Float} (finite : x.isFinite = true) : Number.text x ≠ "" := by
  obtain ⟨first, rest, written, -, -⟩ := text_eq_cons finite
  intro empty
  rw [empty] at written
  split at written <;> cases written

/-- The written form of a finite number denotes that number, down to its bits. -/
theorem ofWord_text {x : Float} (finite : x.isFinite = true) :
    ofWord (Number.text x) = number x := by
  rw [ofWord, Number.numeral?_text finite]

variable {atom : Atom}

/-- An atom that can be written is legible. -/
theorem Writable.legible (writable : atom.Writable) : atom.Legible := by
  cases atom with
  | number => exact Scanner.isWord_iff.mpr ⟨text_ne_empty writable, delimits_text writable⟩
  | text => exact writable
  | symbol => exact writable.1
  | absent | complex => exact writable.elim

/-- An atom that can be written is read back as itself. -/
theorem Writable.reread_eq (writable : atom.Writable) : atom.reread = atom := by
  cases atom with
  | number => exact ofWord_text writable
  | text => rfl
  | symbol => exact writable.2
  | absent | complex => exact writable.elim

/-- An atom that can be written is not the absent one. -/
theorem Writable.isAbsent_eq_false (writable : atom.Writable) : atom.isAbsent = false := by
  cases atom with
  | absent => exact writable.elim
  | number | complex | symbol | text => rfl

end Atom

namespace Expression

variable {expression : Expression}

/-- A weaker property holds of every atom as well. -/
theorem EveryAtom.imp {Holds Also : Atom → Prop} (every : expression.EveryAtom Holds)
    (implies : ∀ atom, Holds atom → Also atom) : expression.EveryAtom Also := by
  induction every with
  | node here _ inductionHypothesis => exact .node (implies _ here) inductionHypothesis

/-- An expression whose atoms are all read back as themselves loses its properties only. -/
theorem EveryAtom.reread_eq_skeleton
    (same : expression.EveryAtom fun atom => atom.reread = atom) :
    expression.reread = expression.skeleton := by
  induction same with
  | node here _ inductionHypothesis =>
      rw [reread, skeleton, rereadAll_eq_map, skeletons_eq_map, here]
      exact congrArg _ (List.map_congr_left inductionHypothesis)

/-- An expression of writable atoms is accepted. -/
theorem EveryAtom.accepted (writable : expression.EveryAtom Atom.Writable) :
    expression.Accepted :=
  writable.imp fun _ writable => writable.reread_eq.symm ▸ writable.isAbsent_eq_false

end Expression

/-- An expression without properties whose atoms are finite numbers, texts, and symbols,
each of a form that can be written, is read back from its written form. -/
theorem rendering_round_trips {expression : Expression}
    (writable : expression.EveryAtom Atom.Writable)
    (undecorated : expression.skeleton = expression) :
    Expression.ofSource expression.text = .ok expression := by
  have present : expression.isAbsent = false := by
    obtain ⟨here, -⟩ := writable
    rw [Expression.isAbsent, Expression.head_node, here.isAbsent_eq_false, Bool.false_and]
  have read := (Expression.ofSource_text (writable.imp fun _ => Atom.Writable.legible) present).1
    writable.accepted
  have same := (writable.imp fun _ => Atom.Writable.reread_eq).reread_eq_skeleton
  rw [read, same, undecorated]

/-- A number and a text as heads, an empty list, and in the text everything that would
separate words. -/
def assorted : Expression :=
  .form (.number (-0.5)) [.list [],
    .form (.text "a (b; c\n)") [.symbol "-", .number 1e21]]

/-- The assorted tree is read back as it is. -/
theorem assorted_round_trips : Expression.ofSource assorted.text = .ok assorted := by
  have small : (Atom.number (-0.5)).Writable := by
    show Float.isFinite (-0.5) = true
    decide
  have large : (Atom.number 1e21).Writable := by
    show Float.isFinite 1e21 = true
    decide
  have list : (Atom.symbol "list").Writable := ⟨by decide, rfl⟩
  have minus : (Atom.symbol "-").Writable := ⟨by decide, rfl⟩
  have text : (Atom.text "a (b; c\n)").Writable := ⟨by decide, by decide⟩
  have writable : assorted.EveryAtom Atom.Writable := by
    refine .node small fun child member => ?_
    simp only [List.mem_cons, List.not_mem_nil, or_false] at member
    rcases member with rfl | rfl
    · exact .node list nofun
    · refine .node text fun child member => ?_
      simp only [List.mem_cons, List.not_mem_nil, or_false] at member
      rcases member with rfl | rfl
      · exact .node minus nofun
      · exact .node large nofun
  exact rendering_round_trips writable rfl

end PlotLisp

import PlotLisp.Proofs.Reader.Acceptance
import PlotLisp.Proofs.Token.Placement

/-!
# The atoms of a text and of its tree

A tree has its atoms in the order in which they were written: the head of a form first, then
its children from left to right. The words of a text are all there, and so are its literals,
except for the empty ones: between their quotes the reader finds no word.
-/

namespace PlotLisp

namespace Expression

mutual

/-- The atoms of an expression in preorder. -/
def atoms : Expression → List Atom
  | node head children _ => head :: atomsOfAll children

/-- The atoms of expressions in a row. -/
def atomsOfAll : List Expression → List Atom
  | [] => []
  | expression :: rest => expression.atoms ++ atomsOfAll rest

end

end Expression

/-- The atom that a terminal denotes. -/
def Terminal.atom? : Terminal → Option Atom
  | opening | closing => none
  | word written => some written.atom

namespace Derivation

mutual

/-- A derivation stands for a tree of the atoms that it derives. -/
theorem atoms_tree : ∀ derivation : Derivation,
    derivation.tree.atoms = derivation.spelling.filterMap Terminal.atom?
  | atom word => rfl
  | form head items => by
      have parts := atomsOfAll_trees items
      simp [tree, spelling, Expression.form, Expression.atoms, List.filterMap_cons, Terminal.atom?,
        AtomWord.atom, parts]

/-- Several derivations stand for trees of the atoms that they derive, in order. -/
theorem atomsOfAll_trees : ∀ items : List Derivation,
    Expression.atomsOfAll (trees items) = (spellings items).filterMap Terminal.atom?
  | [] => rfl
  | item :: rest => by
      rw [trees, Expression.atomsOfAll, spellings, List.filterMap_append, item.atoms_tree,
        atomsOfAll_trees rest]

end

end Derivation

/-- The tree of a sequence of tokens has the atoms of their terminals. -/
theorem Expression.atoms_ofLexemes {lexemes : List Lexeme} {tree : Expression}
    (read : ofLexemes lexemes = .ok tree) :
    tree.atoms = (Lexeme.terminals 0 lexemes).filterMap Terminal.atom? := by
  have initial : Reader.start.Counts 0 := rfl
  obtain ⟨⟨head, items, spelled, rfl⟩, -⟩ := (Reader.run_eq_ok_iff initial).mp read
  rw [Derivation.atoms_tree, spelled]

namespace Stretch

/-- The atom that is written in a stretch. -/
def atom? : Stretch → Option Atom
  | blank _ | comment _ | opening | closing => none
  | word content => some (.ofWord (String.ofList content))
  | literal content | openLiteral content => some (.text (String.ofList content))

/-- There is nothing between the quotes of the literal. -/
def isEmptyLiteral : Stretch → Bool
  | literal content | openLiteral content => content.isEmpty
  | blank _ | comment _ | opening | closing | word _ => false

end Stretch

/-- What follows some tokens is quoted if it is after their quotes. -/
theorem Lexeme.terminals_append (quotes : Nat) (front back : List Lexeme) :
    terminals quotes (front ++ back) =
      terminals quotes front ++ terminals (quotes + quoteCount front) back := by
  induction front generalizing quotes with
  | nil => rfl
  | cons lexeme rest inductionHypothesis =>
      obtain ⟨token, line⟩ := lexeme
      rw [quoteCount_cons]
      cases token <;> simp [terminals, inductionHypothesis, quoteCount, Nat.add_assoc]

/-- A stretch outside of quotes is read as its atom, if it is no empty literal. -/
theorem Stretch.atoms_terminals {quotes : Nat} (even : quotes % 2 = 0) (stretch : Stretch)
    (line : Nat) :
    (Lexeme.terminals quotes (stretch.lexemes line)).filterMap Terminal.atom? =
      (if !stretch.isEmptyLiteral then stretch.atom? else none).toList := by
  have quoted : (quotes + 1) % 2 = 1 := by omega
  cases stretch with
  | blank | comment | opening | closing => rfl
  | word content =>
      simp [Lexeme.terminals, lexemes, isEmptyLiteral, atom?, Terminal.atom?, Word.atom, even]
  | literal content | openLiteral content =>
      by_cases empty : content = []
      all_goals simp [Lexeme.terminals, lexemes, contentLexemes, isEmptyLiteral, atom?,
        Terminal.atom?, Word.atom, quoted, empty]

/-- A text is read as the atoms that are written in it, without empty literals. -/
theorem Layout.atoms_terminals {text : List Char} {stretches : List Stretch}
    (layout : Layout text stretches) {quotes : Nat} (even : quotes % 2 = 0) (line : Nat) :
    (Lexeme.terminals quotes (lexemes line stretches)).filterMap Terminal.atom? =
      (stretches.filter fun stretch => !stretch.isEmptyLiteral).filterMap Stretch.atom? := by
  rw [List.filterMap_filter]
  induction layout generalizing quotes line with
  | nil => rfl
  | @cons stretch following others proper ends rest inductionHypothesis =>
      have others : (Lexeme.terminals (quotes + Lexeme.quoteCount (stretch.lexemes line))
          (lexemes (stretch.lastLine line) others)).filterMap Terminal.atom? =
            others.filterMap fun stretch =>
              if !stretch.isEmptyLiteral then stretch.atom? else none := by
        cases following with
        | nil =>
            rw [rest.unique .nil]
            rfl
        | cons =>
            have closed : Lexeme.quoteCount (stretch.lexemes line) % 2 = 0 :=
              ends.quoteCount_lexemes
            exact inductionHypothesis (by omega) _
      rw [lexemes, Lexeme.terminals_append, List.filterMap_append, stretch.atoms_terminals even,
        others, List.filterMap_cons]
      cases (if !stretch.isEmptyLiteral then stretch.atom? else none) <;> rfl

/-- What is left out of a sequence shows if it would have counted. -/
theorem filterMap_filter_eq_iff {α β : Type} {keep : α → Bool} {view : α → Option β}
    {items : List α}
    (counts : ∀ item ∈ items, keep item = false → (view item).isSome = true) :
    (items.filter keep).filterMap view = items.filterMap view ↔
      ∀ item ∈ items, keep item = true := by
  constructor
  case mpr =>
    intro all
    rw [List.filter_eq_self.mpr all]
  case mp =>
    intro same
    induction items with
    | nil => simp
    | cons item rest inductionHypothesis =>
        obtain ⟨counted, others⟩ := List.forall_mem_cons.mp counts
        by_cases kept : keep item = true
        · have remaining : (rest.filter keep).filterMap view = rest.filterMap view := by
            rw [List.filter_cons_of_pos kept, List.filterMap_cons, List.filterMap_cons] at same
            cases seen : view item <;> simpa [seen] using same
          exact List.forall_mem_cons.mpr ⟨kept, inductionHypothesis others remaining⟩
        · -- The sequence without the item is too short.
          obtain ⟨value, seen⟩ := Option.isSome_iff_exists.mp (counted (by simpa using kept))
          have shorter := (List.filter_sublist (p := keep) (l := rest)).filterMap view |>.length_le
          rw [List.filter_cons_of_neg kept, List.filterMap_cons_some seen] at same
          rw [same, List.length_cons] at shorter
          omega

/-- The tree of a text has all the atoms that are written in the text, in the same order, but for
the empty literals. So it has all of them if and only if no literal is empty. -/
theorem Expression.atoms_ofSource {source : String} {tree : Expression} {stretches : List Stretch}
    (read : ofSource source = .ok tree) (layout : Layout source.toList stretches) :
    tree.atoms =
        (stretches.filter fun stretch => !stretch.isEmptyLiteral).filterMap Stretch.atom? ∧
      (tree.atoms = stretches.filterMap Stretch.atom? ↔
        ∀ stretch ∈ stretches, stretch.isEmptyLiteral = false) := by
  have tokens : tokenize source = Layout.lexemes 1 stretches := layout.run_eq 1
  have all : tree.atoms =
      (stretches.filter fun stretch => !stretch.isEmptyLiteral).filterMap Stretch.atom? := by
    rw [atoms_ofLexemes read, tokens, layout.atoms_terminals rfl]
  refine ⟨all, ?_⟩
  rw [all, filterMap_filter_eq_iff]
  · simp
  · intro stretch _ empty
    cases stretch <;> simp_all [Stretch.isEmptyLiteral, Stretch.atom?]

/-- The second operand of this call does not reach the tree. -/
theorem empty_literal_is_left_out :
    ∃ stretches, Layout "(f a \"\")".toList stretches ∧
      stretches.filterMap Stretch.atom? = [.symbol "f", .symbol "a", .text ""] ∧
      Expression.ofSource "(f a \"\")" = .ok (.form (.symbol "f") [.symbol "a"]) := by
  refine ⟨[.opening, .word ['f'], .blank ' ', .word ['a'], .blank ' ', .literal [], .closing],
    ?_, rfl, rfl⟩
  have separated (letter : Char) (inside : Scanner.delimits letter = false) {following others}
      (rest : Layout following others) :
      Layout (letter :: ' ' :: following) (.word [letter] :: .blank ' ' :: others) := by
    apply @Layout.cons (.word [letter]) (' ' :: following)
    · simp [Stretch.Proper, inside]
    · simp [Stretch.EndsBefore, Scanner.delimits, Scanner.isBlank]
    · exact @Layout.cons (.blank ' ') _ _ (.inr rfl) trivial rest
  have literal : Layout ['"', '"', ')'] [.literal [], .closing] :=
    @Layout.cons (.literal []) _ _ (by simp [Stretch.Proper]) trivial
      (@Layout.cons .closing _ _ trivial trivial .nil)
  exact @Layout.cons .opening _ _ trivial trivial
    (separated 'f' rfl (separated 'a' rfl literal))

end PlotLisp

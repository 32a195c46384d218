import PlotLisp.Proofs.Reader.Grammar

/-!
# What the reader accepts

At every moment the open forms demand what is still to come: items and a closing
parenthesis for the innermost form, then the same for the form around it, and so on.
Every token turns one demand into the next, so the reader accepts exactly what its
initial state demands, which is a form of the grammar.
-/

namespace PlotLisp

open PlotLisp.Derivation

/-! ## Demands of open forms -/

namespace OpenForm

/-- The form with more children. -/
def extend (form : OpenForm) (children : List Expression) : OpenForm :=
  { form with reversedChildren := children.reverse ++ form.reversedChildren }

/-- Without further children a form stays as it is. -/
@[simp] theorem extend_nil (form : OpenForm) : form.extend [] = form :=
  rfl

/-- Further children are pushed one by one. -/
@[simp] theorem extend_cons (form : OpenForm) (child : Expression)
    (children : List Expression) :
    form.extend (child :: children) = (form.push child).extend children := by
  simp [extend, push]

/-- A form that is opened, given children and closed has them in order. -/
@[simp] theorem close_extend_new (head : Atom) (children : List Expression) :
    ((OpenForm.mk head []).extend children).close = .form head children := by
  simp [extend, close]

/-- The terminals complete the open forms, innermost first, around an expression that
was just finished, and the outermost form becomes the result. -/
def Surrounds : List OpenForm → Expression → List Terminal → Expression → Prop
  | [], finished, remaining, result => remaining = [] ∧ finished = result
  | around :: outer, finished, remaining, result =>
      ∃ items following, remaining = spellings items ++ .closing :: following ∧
        Surrounds outer ((around.push finished).extend (trees items)).close following result

/-- The terminals complete an open form and those around it to the result. -/
def Completes (innermost : OpenForm) (outer : List OpenForm) (remaining : List Terminal)
    (result : Expression) : Prop :=
  ∃ items following, remaining = spellings items ++ .closing :: following ∧
    Surrounds outer (innermost.extend (trees items)).close following result

/-- The terminals give a form its head, complete it, and then complete those around it. -/
def Begins (outer : List OpenForm) (remaining : List Terminal) (result : Expression) : Prop :=
  ∃ (head : AtomWord) (following : List Terminal),
    remaining = .word head.word :: following ∧
      Completes ⟨head.atom, []⟩ outer following result

variable {innermost : OpenForm} {outer : List OpenForm} {remaining : List Terminal}
  {result : Expression}

/-- An open form is never complete before its closing parenthesis. -/
theorem not_completes_nil : ¬ Completes innermost outer [] result := by
  rintro ⟨items, following, spelled, -⟩
  simp at spelled

/-- A closing parenthesis finishes the innermost form. -/
theorem completes_closing :
    Completes innermost outer (.closing :: remaining) result ↔
      Surrounds outer innermost.close remaining result := by
  constructor
  · rintro ⟨items, following, spelled, surrounds⟩
    cases items with
    | nil =>
        rw [spellings, List.nil_append, List.cons.injEq] at spelled
        rw [spelled.2]
        exact surrounds
    | cons item rest =>
        rw [spellings, List.append_assoc] at spelled
        exact absurd spelled.symm (item.spelling_append_ne_closing _ _)
  · intro surrounds
    exact ⟨[], remaining, rfl, surrounds⟩

/-- A word that denotes something becomes a child of the innermost form. -/
theorem completes_word {word : Word} :
    Completes innermost outer (.word word :: remaining) result ↔
      word.atom.isAbsent = false ∧
        Completes (innermost.push (.leaf word.atom)) outer remaining result := by
  constructor
  · rintro ⟨items, following, spelled, surrounds⟩
    cases items with
    | nil => simp [spellings] at spelled
    | cons item rest =>
        cases item with
        | form => simp [spellings, spelling] at spelled
        | atom known =>
            simp only [spellings, spelling, List.cons_append, List.nil_append,
              List.cons.injEq, Terminal.word.injEq] at spelled
            obtain ⟨rfl, rfl⟩ := spelled
            rw [trees, extend_cons] at surrounds
            exact ⟨known.present, rest, following, rfl, surrounds⟩
  · rintro ⟨present, items, following, rfl, surrounds⟩
    refine ⟨.atom ⟨word, present⟩ :: items, following, rfl, ?_⟩
    rw [trees, extend_cons]
    exact surrounds

/-- An opening parenthesis begins a form whose head comes next. -/
theorem completes_opening :
    Completes innermost outer (.opening :: remaining) result ↔
      Begins (innermost :: outer) remaining result := by
  constructor
  · rintro ⟨items, following, spelled, surrounds⟩
    cases items with
    | nil => simp [spellings] at spelled
    | cons item rest =>
        cases item with
        | atom => simp [spellings, spelling] at spelled
        | form head inner =>
            simp only [spellings, spelling, List.cons_append, List.append_assoc,
              List.nil_append, List.cons.injEq, true_and] at spelled
            rw [trees, extend_cons, tree] at surrounds
            refine ⟨head, _, spelled, inner, _, rfl, rest, following, rfl, ?_⟩
            rw [close_extend_new]
            exact surrounds
  · rintro ⟨head, _, rfl, inner, _, rfl, items, following, rfl, surrounds⟩
    refine ⟨.form head inner :: items, following, ?_, ?_⟩
    · simp [spellings, spelling]
    · rw [close_extend_new] at surrounds
      rw [trees, extend_cons, tree]
      exact surrounds

/-- Only a word that denotes something is a head. -/
theorem begins_word {word : Word} :
    Begins outer (.word word :: remaining) result ↔
      word.atom.isAbsent = false ∧ Completes ⟨word.atom, []⟩ outer remaining result := by
  constructor
  · rintro ⟨head, following, same, completes⟩
    cases same
    exact ⟨head.present, completes⟩
  · rintro ⟨present, completes⟩
    exact ⟨⟨word, present⟩, remaining, rfl, completes⟩

/-- A parenthesis is no head, so nothing begins with one. -/
theorem not_begins_of_ne_word (terminal : Terminal) (other : ∀ word, terminal ≠ .word word) :
    ¬ Begins outer (terminal :: remaining) result := by
  rintro ⟨head, following, same, -⟩
  exact other head.word (List.cons.inj same).1

/-- Around the outermost form there is nothing left to complete. -/
theorem begins_outermost :
    Begins [] remaining result ↔
      ∃ head items, (form head items).spelling = .opening :: remaining ∧
        (form head items).tree = result := by
  constructor
  · rintro ⟨head, _, rfl, items, _, rfl, rfl, finished⟩
    rw [close_extend_new] at finished
    exact ⟨head, items, rfl, finished⟩
  · rintro ⟨head, items, spelled, finished⟩
    rw [spelling, List.cons.injEq] at spelled
    refine ⟨head, _, spelled.2.symm, items, [], rfl, rfl, ?_⟩
    rw [close_extend_new]
    exact finished

end OpenForm

/-! ## Demands of the reader -/

namespace Reader

open OpenForm Lexeme

/-- The terminals that remain lead the reader to the result. -/
def Demands (reader : Reader) (remaining : List Terminal) (result : Expression) : Prop :=
  if reader.awaitsHead then Begins reader.forms remaining result
  else
    match reader.forms with
    | [] => ∃ head items, (form head items).spelling = remaining ∧ (form head items).tree = result
    | innermost :: outer => Completes innermost outer remaining result

/-- Inside quotes after an odd number of them. -/
def Counts (reader : Reader) (quotes : Nat) : Prop :=
  reader.quotedSince.isSome = (quotes % 2 == 1)

variable {reader : Reader} {quotes line : Nat} {remaining : List Terminal}
  {result : Expression}

/-- A reader that is still reading demands at least one terminal more. -/
theorem not_demands_nil : ¬ reader.Demands [] result := by
  obtain ⟨forms, awaitsHead, quotedSince⟩ := reader
  unfold Demands
  cases awaitsHead with
  | true =>
      rintro ⟨head, following, same, -⟩
      cases same
  | false =>
      cases forms with
      | nil =>
          rintro ⟨head, items, spelled, -⟩
          cases spelled
      | cons innermost outer => exact not_completes_nil

/-- The reader is right to refuse or to take an opening parenthesis. -/
theorem demands_opening :
    reader.Demands (.opening :: remaining) result ↔
      reader.awaitsHead = false ∧ Demands { reader with awaitsHead := true } remaining result := by
  obtain ⟨forms, awaitsHead, quotedSince⟩ := reader
  cases awaitsHead with
  | true =>
      refine iff_of_false ?_ (by simp)
      exact not_begins_of_ne_word .opening (by simp)
  | false =>
      refine Iff.trans ?_ (and_iff_right rfl).symm
      cases forms with
      | nil => exact begins_outermost.symm
      | cons innermost outer => exact completes_opening

/-- A word counts where it denotes something and a form is open or awaits its head. -/
theorem demands_word (content : String) (line : Nat) (counts : reader.Counts quotes) :
    reader.Demands (.word ⟨content, quotes % 2 == 1⟩ :: remaining) result ↔
      ∃ next, reader.takeWord content line = .ok next ∧ next.Demands remaining result := by
  obtain ⟨forms, awaitsHead, quotedSince⟩ := reader
  have same : Word.atom ⟨content, quotes % 2 == 1⟩ =
      Reader.atomOf ⟨forms, awaitsHead, quotedSince⟩ content := by
    rw [← show quotedSince.isSome = (quotes % 2 == 1) from counts]
    rfl
  unfold Demands takeWord
  cases awaitsHead with
  | true =>
      cases present : (Reader.atomOf ⟨forms, true, quotedSince⟩ content).isAbsent <;>
        simp [begins_word, same, present]
  | false =>
      cases present : (Reader.atomOf ⟨forms, false, quotedSince⟩ content).isAbsent <;>
        cases forms <;> simp [spelling, completes_word, same, present]

/-- What progress demands: nothing more after the outermost form is finished. -/
def Progress.Demands : Progress → List Terminal → Expression → Prop
  | reading next, remaining, result => next.Demands remaining result
  | finished expression, remaining, result => remaining = [] ∧ expression = result

/-- A closing parenthesis outside quotes finishes the innermost form. -/
theorem demands_closing (counts : reader.Counts quotes) :
    reader.Demands (.closing :: remaining) result ∧ quotes % 2 = 0 ↔
      ∃ progress, reader.takeClosing line = .ok progress ∧ progress.Demands remaining result := by
  obtain ⟨forms, awaitsHead, quotedSince⟩ := reader
  have quoted : quotedSince.isSome = (quotes % 2 == 1) := counts
  cases awaitsHead with
  | true =>
      refine iff_of_false (fun both => ?_) (by simp [takeClosing])
      exact not_begins_of_ne_word .closing (by simp) both.1
  | false =>
      cases quotedSince with
      | some opened =>
          have odd : quotes % 2 = 1 := by simpa using quoted.symm
          refine iff_of_false (fun both => ?_) (by simp [takeClosing])
          omega
      | none =>
          have even : quotes % 2 = 0 := by
            have notOdd : quotes % 2 ≠ 1 := by simpa using quoted.symm
            omega
          refine (and_iff_left even).trans ?_
          cases forms with
          | nil => simp [Demands, spelling, takeClosing]
          | cons innermost outer =>
              refine completes_closing.trans ?_
              cases outer with
              | nil => simp [takeClosing, Progress.Demands, Surrounds]
              | cons around others =>
                  simp [takeClosing, Progress.Demands, Surrounds, Demands, Completes]

/-- A token is taken exactly where it is demanded, and then the rest is. -/
theorem demands_step (result : Expression) (lexeme : Lexeme) (rest : List Lexeme)
    (counts : reader.Counts quotes) :
    (reader.Demands (terminals quotes (lexeme :: rest)) result ∧
        (lexeme.token = .closing → quotes % 2 = 0)) ↔
      ∃ progress, reader.step lexeme = .ok progress ∧
        progress.Demands (terminals (quotesThrough quotes lexeme) rest) result := by
  obtain ⟨token, line⟩ := lexeme
  by_cases closing : token = .closing
  · subst closing
    rw [show (Token.closing = .closing → quotes % 2 = 0) ↔ quotes % 2 = 0 from
      ⟨fun even => even rfl, fun even _ => even⟩]
    exact demands_closing counts
  · -- Only the case of a closing parenthesis says anything about the quotes.
    refine (and_iff_left fun same => absurd same closing).trans ?_
    cases token with
    | closing => exact absurd rfl closing
    | opening =>
        refine demands_opening.trans ?_
        obtain ⟨forms, awaitsHead, quotedSince⟩ := reader
        cases awaitsHead <;> simp [step, Progress.Demands, quotesThrough, quoteCount]
    | word content =>
        refine (demands_word content line counts).trans ?_
        simp only [step]
        cases reader.takeWord content line <;>
          simp [Except.map, Progress.Demands, quotesThrough, quoteCount]
    | quote => simp [step, terminals, Progress.Demands, Demands, quotesThrough, quoteCount]
    | comment | lineBreak | blank =>
        simp [step, terminals, Progress.Demands, quotesThrough, quoteCount]

/-- Taking a token keeps count of the quotes. -/
theorem Counts.step {next : Reader} {lexeme : Lexeme} (counts : reader.Counts quotes)
    (taken : reader.step lexeme = .ok (.reading next)) :
    next.Counts (quotesThrough quotes lexeme) := by
  obtain ⟨token, line⟩ := lexeme
  cases token with
  | opening =>
      simp only [Reader.step] at taken
      split at taken
      · cases taken
      · cases taken
        exact counts
  | closing =>
      simp only [Reader.step, takeClosing] at taken
      repeat' split at taken
      all_goals cases taken
      exact counts
  | word content =>
      simp only [Reader.step, takeWord] at taken
      repeat' split at taken
      all_goals cases taken
      all_goals exact counts
  | quote =>
      cases taken
      unfold Counts at counts ⊢
      cases quoted : reader.quotedSince <;>
        simp [quoted, quotesThrough, quoteCount] at counts ⊢ <;> omega
  | comment | lineBreak | blank =>
      cases taken
      exact counts

/-- Only a closing parenthesis finishes the outermost form. -/
theorem closing_of_finished {lexeme : Lexeme} {expression : Expression}
    (taken : reader.step lexeme = .ok (.finished expression)) : lexeme.token = .closing := by
  obtain ⟨token, line⟩ := lexeme
  cases token with
  | closing => rfl
  | opening =>
      simp only [step] at taken
      split at taken <;> cases taken
  | word content =>
      simp only [step] at taken
      cases taking : reader.takeWord content line <;> simp [taking, Except.map] at taken
  | quote | comment | lineBreak | blank => cases taken

/-- The reader reads exactly the tokens whose terminals it demands, provided that all
closing parentheses are outside quotes and one of them is the last token. -/
theorem run_eq_ok_iff {lexemes : List Lexeme} (counts : reader.Counts quotes) :
    reader.run line lexemes = .ok result ↔
      reader.Demands (terminals quotes lexemes) result ∧ ClosesOutsideQuotes quotes lexemes ∧
        lexemes.getLast?.map Lexeme.token = some .closing := by
  -- The induction is over the tokens, and `Demands` says of each state what is left to be read.
  induction lexemes generalizing reader quotes line with
  | nil => exact iff_of_false (by simp [run]) (by simp)
  | cons lexeme rest inductionHypothesis =>
      have demands := demands_step result lexeme rest counts
      rw [closesOutsideQuotes_cons, run]
      cases taken : reader.step lexeme with
      | error error =>
          refine iff_of_false (by simp) ?_
          rintro ⟨demanded, ⟨even, -⟩, -⟩
          obtain ⟨progress, same, -⟩ := demands.mp ⟨demanded, even⟩
          simp [taken] at same
      | ok progress =>
          have demandsProgress : (reader.Demands (terminals quotes (lexeme :: rest)) result ∧
              (lexeme.token = .closing → quotes % 2 = 0)) ↔
              progress.Demands (terminals (quotesThrough quotes lexeme) rest) result := by
            simpa [taken] using demands
          rw [← and_assoc, ← and_assoc, demandsProgress]
          cases progress with
          | reading next =>
              refine (inductionHypothesis (counts.step taken)).trans ?_
              rw [← and_assoc]
              cases rest with
              | nil =>
                  refine iff_of_false ?_ ?_
                  · exact fun all => not_demands_nil all.1.1
                  · exact fun all => not_demands_nil all.1.1
              | cons =>
                  rw [List.getLast?_cons_cons]
                  rfl
          | finished expression =>
              have closing := closing_of_finished taken
              cases rest with
              | nil =>
                  have closed : ClosesOutsideQuotes (quotesThrough quotes lexeme) [] := by
                    intro before other after split
                    simp at split
                  simp [Progress.Demands, terminals, closed, closing]
              | cons extra others =>
                  -- Behind the finished tree only quotes could be left, and the last token is none.
                  refine iff_of_false (by simp) ?_
                  rintro ⟨⟨⟨none, -⟩, -⟩, last⟩
                  rw [List.getLast?_cons_cons] at last
                  exact getLast?_ne_closing none last

end Reader

/-- The reader accepts exactly the tokens whose terminals derive from the grammar, with
an even number of quotes before every closing parenthesis and the last of those at the
very end, and it builds the tree of the only derivation. -/
theorem reads_what_the_grammar_derives (lexemes : List Lexeme) (expression : Expression) :
    Expression.ofLexemes lexemes = .ok expression ↔
      (∃ derivation : Derivation, derivation.IsForm ∧
        derivation.spelling = Lexeme.terminals 0 lexemes ∧ derivation.tree = expression ∧
        ∀ other : Derivation, other.spelling = Lexeme.terminals 0 lexemes →
          other = derivation) ∧
      (∀ before lexeme after, lexemes = before ++ lexeme :: after →
        lexeme.token = .closing → Lexeme.quoteCount before % 2 = 0) ∧
      lexemes.getLast?.map Lexeme.token = some .closing := by
  have outside : Lexeme.ClosesOutsideQuotes 0 lexemes ↔
      ∀ before lexeme after, lexemes = before ++ lexeme :: after →
        lexeme.token = .closing → Lexeme.quoteCount before % 2 = 0 := by
    simp only [Lexeme.ClosesOutsideQuotes, Nat.zero_add]
  have initial : Reader.start.Counts 0 := rfl
  rw [Expression.ofLexemes, Reader.run_eq_ok_iff initial, outside]
  refine and_congr ?_ Iff.rfl
  constructor
  · rintro ⟨head, items, spelled, finished⟩
    refine ⟨form head items, trivial, spelled, finished, fun other same => ?_⟩
    exact spelling_injective (same.trans spelled.symm)
  · rintro ⟨derivation, isForm, spelled, finished, -⟩
    cases derivation with
    | atom => cases isForm
    | form head items => exact ⟨head, items, spelled, finished⟩

end PlotLisp

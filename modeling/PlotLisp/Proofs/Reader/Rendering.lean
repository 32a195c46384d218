import PlotLisp.Proofs.Number.Text
import PlotLisp.Proofs.Reader.Acceptance
import PlotLisp.Proofs.Token.Words

/-!
# Reading what was written

The reader goes through the written form of an expression atom by atom, whatever forms
are open around it. It takes every atom for the one that the atom's written form
denotes, and it fails where that is none.
-/

namespace PlotLisp

/-! ## Atoms -/

namespace Atom

/-- The atom that the written form of an atom denotes. -/
def reread : Atom → Atom
  | text content => text content
  | atom => ofWord atom.render

/-- The written form of an atom is one token, or one between quotes. -/
def Legible : Atom → Prop
  | text content => content ≠ "" ∧ '"' ∉ content.toList
  | atom => Scanner.isWord atom.render = true

end Atom

namespace Expression

/-- Every atom of an expression has a property; what is attached does not count. -/
inductive EveryAtom (Holds : Atom → Prop) : Expression → Prop where
  | node {head children properties} (here : Holds head)
      (deeper : ∀ child ∈ children, EveryAtom Holds child) :
      EveryAtom Holds (node head children properties)

/-- A property of every atom is a property of the head and of every atom in the children. -/
theorem everyAtom_node {Holds : Atom → Prop} {head : Atom} {children : List Expression}
    {properties : Table Expression} :
    (node head children properties).EveryAtom Holds ↔
      Holds head ∧ ∀ child ∈ children, child.EveryAtom Holds := by
  constructor
  · rintro ⟨here, deeper⟩
    exact ⟨here, deeper⟩
  · rintro ⟨here, deeper⟩
    exact .node here deeper

mutual

/-- The expression with every atom as it is read back, and without properties. -/
def reread : Expression → Expression
  | node head children _ => form head.reread (rereadAll children)

/-- Children with every atom as it is read back. -/
def rereadAll : List Expression → List Expression
  | [] => []
  | child :: rest => child.reread :: rereadAll rest

end

/-- Rereading the children one by one is what the mutual recursion does. -/
theorem rereadAll_eq_map (children : List Expression) :
    rereadAll children = children.map reread := by
  induction children with
  | nil => rfl
  | cons child rest inductionHypothesis => rw [rereadAll, inductionHypothesis, List.map_cons]

/-- Every atom's written form denotes an atom. -/
def Accepted (expression : Expression) : Prop :=
  expression.EveryAtom fun atom => atom.reread.isAbsent = false

/-- An expression is accepted if its head is and its children are. -/
theorem accepted_node {head : Atom} {children : List Expression}
    {properties : Table Expression} :
    (node head children properties).Accepted ↔
      head.reread.isAbsent = false ∧ ∀ child ∈ children, child.Accepted :=
  everyAtom_node

end Expression

/-! ## The reader over a text -/

namespace Reader

/-- What the reader makes of a text that begins on a line between two tokens. -/
def runText (reader : Reader) (last line : Nat) (text : List Char) : Except ReadError Expression :=
  reader.run last ((Scanner.betweenTokens line).run text)

/-- The reader comes through a text to its next state if the text is acceptable, and
fails in it otherwise, whatever lines it is on. -/
def Passes (reader : Reader) (text rest : List Char) (acceptable : Prop) (next : Reader) : Prop :=
  ∀ last line,
    (acceptable → ∃ last' line',
      reader.runText last line (text ++ rest) = next.runText last' line' rest) ∧
      (¬ acceptable → ∃ error, reader.runText last line (text ++ rest) = .error error)

variable {reader between next : Reader} {first second rest : List Char} {here there : Prop}

/-- Two texts are passed one after the other, and whichever is not acceptable stops the reader. -/
theorem Passes.append (through : reader.Passes first (second ++ rest) here between)
    (further : between.Passes second rest there next) :
    reader.Passes (first ++ second) rest (here ∧ there) next := by
  intro last line
  rw [List.append_assoc]
  obtain ⟨passed, failed⟩ := through last line
  constructor
  · rintro ⟨one, other⟩
    obtain ⟨last', line', same⟩ := passed one
    obtain ⟨last'', line'', end_⟩ := (further last' line').1 other
    exact ⟨last'', line'', same.trans end_⟩
  · intro neither
    by_cases one : here
    · obtain ⟨last', line', same⟩ := passed one
      obtain ⟨error, stopped⟩ := (further last' line').2 fun other => neither ⟨one, other⟩
      exact ⟨error, same.trans stopped⟩
    · exact failed one

/-- A text without anything to accept. -/
theorem Passes.of_eq (same : ∀ last line, ∃ last' line',
    reader.runText last line (first ++ rest) = next.runText last' line' rest) :
    reader.Passes first rest True next :=
  fun last line => ⟨fun _ => same last line, fun refused => absurd trivial refused⟩

/-- Takes an atom that is not absent. -/
def receive (reader : Reader) (atom : Atom) : Reader :=
  if reader.awaitsHead then
    { reader with forms := ⟨atom, []⟩ :: reader.forms, awaitsHead := false }
  else
    match reader.forms with
    | [] => reader
    | innermost :: outer => { reader with forms := innermost.push (.leaf atom) :: outer }

/-- The reader is outside quotes and in a form, or before its head. -/
structure Ready (reader : Reader) : Prop where
  unquoted : reader.quotedSince = none
  engaged : reader.awaitsHead = true ∨ reader.forms ≠ []

/-- A reader that is engaged takes every word that denotes an atom and refuses every other one,
with the word and its line. -/
theorem takeWord_eq (engaged : reader.awaitsHead = true ∨ reader.forms ≠ []) (word : String)
    (line : Nat) :
    reader.takeWord word line =
      if (reader.atomOf word).isAbsent then .error (.invalidAtom word line)
      else .ok (reader.receive (reader.atomOf word)) := by
  obtain ⟨forms, awaitsHead, quotedSince⟩ := reader
  rcases awaitsHead with _ | _
  · cases forms with
    | nil => exact engaged.elim nofun fun empty => absurd rfl empty
    | cons => rfl
  · rfl

/-- A word outside quotes is taken for the atom that it denotes. -/
theorem Ready.run_word (ready : reader.Ready) (word : String) (last line : Nat)
    (lexemes : List Lexeme) :
    reader.run last (⟨.word word, line⟩ :: lexemes) =
      if (Atom.ofWord word).isAbsent then .error (.invalidAtom word line)
      else (reader.receive (.ofWord word)).run line lexemes := by
  have atom : reader.atomOf word = .ofWord word := by
    rw [atomOf, ready.unquoted]
    rfl
  by_cases missing : (Atom.ofWord word).isAbsent = true
  · simp only [run, step, takeWord_eq ready.engaged, atom, if_pos missing]
    rfl
  · simp only [run, step, takeWord_eq ready.engaged, atom, if_neg missing]
    rfl

/-- A word between quotes is a text. -/
theorem Ready.run_literal (ready : reader.Ready) (content : String) (last line end_ : Nat)
    (lexemes : List Lexeme) :
    reader.run last (⟨.quote, line⟩ :: ⟨.word content, end_⟩ :: ⟨.quote, end_⟩ :: lexemes) =
      (reader.receive (.text content)).run end_ lexemes := by
  obtain ⟨unquoted, engaged⟩ := ready
  obtain ⟨forms, awaitsHead, quotedSince⟩ := reader
  subst unquoted
  rcases awaitsHead with _ | _
  · cases forms with
    | nil => exact engaged.elim nofun fun empty => absurd rfl empty
    | cons => rfl
  · rfl

/-- A word between delimiters is taken or refused as a whole. -/
theorem Ready.passes_word (ready : reader.Ready) {word : List Char} (some : word ≠ [])
    (inside : ∀ c ∈ word, Scanner.delimits c = false) (ends : Scanner.EndsWord rest) :
    reader.Passes word rest ((Atom.ofWord (String.ofList word)).isAbsent = false)
      (reader.receive (.ofWord (String.ofList word))) := by
  intro last line
  rw [runText, Scanner.run_betweenTokens_word some inside ends, ready.run_word]
  constructor
  · intro present
    exact ⟨line, line, if_neg (by simp [present])⟩
  · intro missing
    exact ⟨_, if_pos (by simpa using missing)⟩

/-- The reader takes the atom that is written, where that denotes one. -/
theorem Ready.passes_atom (ready : reader.Ready) {atom : Atom} (legible : atom.Legible)
    (ends : Scanner.EndsWord rest) :
    reader.Passes atom.render.toList rest (atom.reread.isAbsent = false)
      (reader.receive atom.reread) := by
  cases atom with
  | text content =>
      intro last line
      obtain ⟨some, unquoted⟩ := legible
      have chars : content.toList ≠ [] := by simpa using some
      refine ⟨fun _ => ?_, fun missing => absurd rfl missing⟩
      obtain ⟨end_, scanned⟩ := @Scanner.run_betweenTokens_literal line content.toList rest chars
        unquoted
      have written : (Atom.text content).render.toList ++ rest =
          '"' :: content.toList ++ '"' :: rest := by
        simp [Atom.render]
      refine ⟨end_, end_, ?_⟩
      rw [runText, written, scanned, String.ofList_toList, ready.run_literal]
      rfl
  | absent | number | complex | symbol =>
      obtain ⟨some, inside⟩ := Scanner.isWord_iff.mp legible
      have passes := ready.passes_word (by simpa using some) inside ends
      rwa [String.ofList_toList] at passes

/-- Before the head of a form. -/
def beforeHead (forms : List OpenForm) : Reader :=
  ⟨forms, true, none⟩

/-- Behind the head of a form, outside quotes. -/
def inside (innermost : OpenForm) (outer : List OpenForm) : Reader :=
  ⟨innermost :: outer, false, none⟩

/-- Before the head of a form the reader is ready for an atom. -/
theorem ready_beforeHead (forms : List OpenForm) : (beforeHead forms).Ready :=
  ⟨rfl, .inl rfl⟩

/-- Inside of a form the reader is ready for an atom. -/
theorem ready_inside (innermost : OpenForm) (outer : List OpenForm) :
    (inside innermost outer).Ready :=
  ⟨rfl, .inr nofun⟩

/-- An opening parenthesis is always welcome outside of heads. -/
theorem passes_opening (forms : List OpenForm) (rest : List Char) :
    (⟨forms, false, none⟩ : Reader).Passes ['('] rest True (beforeHead forms) :=
  .of_eq fun _ line => ⟨line, line, rfl⟩

/-- A space between children is passed without a trace. -/
theorem passes_space (innermost : OpenForm) (outer : List OpenForm) (rest : List Char) :
    (inside innermost outer).Passes [' '] rest True (inside innermost outer) :=
  .of_eq fun last line => ⟨last, line, rfl⟩

/-- A closing parenthesis makes the finished form a child of the one around it. -/
theorem passes_closing (innermost around : OpenForm) (outer : List OpenForm) (rest : List Char) :
    (inside innermost (around :: outer)).Passes [')'] rest True
      (inside (around.push innermost.close) outer) :=
  .of_eq fun _ line => ⟨line, line, rfl⟩

end Reader

namespace Expression

open Reader

variable {expression : Expression} {head : Atom} {children : List Expression}
  {forms : List OpenForm} {rest : List Char}

/-- In every form the reader comes through the written form of an expression to one more
child, which is the expression as it is read back. -/
def ReadsBack (expression : Expression) : Prop :=
  ∀ innermost outer rest, Scanner.EndsWord rest →
    (inside innermost outer).Passes expression.nestedText.toList rest expression.Accepted
      (inside (innermost.push expression.reread) outer)

/-- Children begin with a space, so that they end the word before them. -/
theorem endsWord_childrenText (children : List Expression) (ends : Scanner.EndsWord rest) :
    Scanner.EndsWord ((childrenText children).toList ++ rest) := by
  cases children with
  | nil => exact ends
  | cons child others =>
      refine ⟨' ', (nestedText child ++ childrenText others).toList ++ rest, ?_, rfl⟩
      simp [childrenText]

/-- The written children are passed one after the other, each behind its space, and all are
added in order. -/
theorem passes_children (each : ∀ child ∈ children, child.ReadsBack)
    (ends : Scanner.EndsWord rest) (innermost : OpenForm) (outer : List OpenForm) :
    (inside innermost outer).Passes (childrenText children).toList rest
      (∀ child ∈ children, child.Accepted)
      (inside (innermost.extend (children.map reread)) outer) := by
  induction children generalizing innermost with
  | nil =>
      have stays : (inside innermost outer).Passes [] rest True (inside innermost outer) :=
        .of_eq fun last line => ⟨last, line, rfl⟩
      simpa [childrenText] using stays
  | cons child others inductionHypothesis =>
      have first := each child List.mem_cons_self innermost outer _
        (endsWord_childrenText others ends)
      have further := inductionHypothesis (fun other member =>
        each other (List.mem_cons_of_mem _ member)) (innermost.push child.reread)
      have through := (passes_space innermost outer _).append (first.append further)
      simpa [childrenText] using through

/-- The reader comes from the opening parenthesis of a form to behind its last child. -/
theorem passes_parts (legible : head.Legible) (each : ∀ child ∈ children, child.ReadsBack)
    (ends : Scanner.EndsWord rest) (forms : List OpenForm) :
    (⟨forms, false, none⟩ : Reader).Passes
      ("(" ++ head.render ++ childrenText children).toList rest
      (head.reread.isAbsent = false ∧ ∀ child ∈ children, child.Accepted)
      (inside ((OpenForm.mk head.reread []).extend (children.map reread)) forms) := by
  have named := (ready_beforeHead forms).passes_atom legible (endsWord_childrenText children ends)
  have through := (passes_opening forms _).append
    (named.append (passes_children each ends ⟨head.reread, []⟩ forms))
  simpa using through

/-- A form that keeps its parentheses ends them itself. -/
theorem passes_form (legible : head.Legible) (each : ∀ child ∈ children, child.ReadsBack)
    (innermost : OpenForm) (outer : List OpenForm) :
    (inside innermost outer).Passes
      ("(" ++ head.render ++ childrenText children ++ ")").toList rest
      (head.reread.isAbsent = false ∧ ∀ child ∈ children, child.Accepted)
      (inside (innermost.push (form head.reread (children.map reread))) outer) := by
  have parts := passes_parts legible each ⟨')', rest, rfl, rfl⟩ (innermost :: outer)
  have closed := parts.append (passes_closing _ innermost outer rest)
  rw [OpenForm.close_extend_new] at closed
  show (⟨innermost :: outer, false, none⟩ : Reader).Passes _ rest _ _
  simpa using closed

/-- Every expression with legible atoms is read back atom by atom. -/
theorem readsBack (legible : expression.EveryAtom Atom.Legible) : expression.ReadsBack := by
  induction legible with
  | @node head children properties here deeper inductionHypothesis =>
      intro innermost outer rest ends
      rw [nestedText, accepted_node, reread, rereadAll_eq_map]
      split
      · next bare =>
          rw [Bool.and_eq_true, List.isEmpty_iff] at bare
          obtain ⟨rfl, -⟩ := bare
          simp only [List.not_mem_nil, false_implies, implies_true, and_true]
          exact (ready_inside innermost outer).passes_atom here ends
      · exact passes_form here inductionHypothesis innermost outer

/-- The written form of a whole expression is read back atom by atom, unless one of the
atoms is written like none. -/
theorem ofSource_text (legible : expression.EveryAtom Atom.Legible)
    (present : expression.isAbsent = false) :
    (expression.Accepted → ofSource expression.text = .ok expression.reread) ∧
      (¬ expression.Accepted → ∃ error, ofSource expression.text = .error error) := by
  obtain ⟨head, children, properties⟩ := expression
  obtain ⟨here, deeper⟩ := legible
  have each : ∀ child ∈ children, child.ReadsBack := fun child member =>
    readsBack (deeper child member)
  have written : (node head children properties).text =
      "(" ++ head.render ++ childrenText children ++ ")" := by
    rw [text, if_neg (by simp [present])]
    rfl
  have parts := passes_parts here each ⟨')', [], rfl, rfl⟩ [] Scanner.firstLine Scanner.firstLine
  have source : ofSource (node head children properties).text =
      (⟨[], false, none⟩ : Reader).runText Scanner.firstLine Scanner.firstLine
        (("(" ++ head.render ++ childrenText children).toList ++ [')']) := by
    rw [written]
    simp [ofSource, ofLexemes, tokenize, runText, Scanner.start, start]
  rw [source, accepted_node]
  refine ⟨fun accepted => ?_, parts.2⟩
  obtain ⟨last, line, same⟩ := parts.1 accepted
  rw [same]
  have closed : (inside ((OpenForm.mk head.reread []).extend (children.map reread)) []).runText last
      line [')'] = .ok ((OpenForm.mk head.reread []).extend (children.map reread)).close := rfl
  rw [closed, OpenForm.close_extend_new, reread, rereadAll_eq_map]

end Expression

end PlotLisp

import PlotLisp.Proofs.Correspondence.Binding
import PlotLisp.Proofs.Correspondence.Forms
import PlotLisp.Proofs.Renaming
import PlotLisp.Proofs.Session.Reachable

/-!
# Evaluation commutes with renaming

Scoping is dynamic, so renaming a parameter of one procedure value is not sound. Renaming a
symbol everywhere is: a program and the environment of a session, consistently renamed, are
evaluated to what they were evaluated to before, renamed. The one text that is not renamed
is that of a head which is no symbol.
-/

namespace PlotLisp

open Expression

/-- The other fault is this one renamed, or both name the written form of a head that is no
symbol. -/
def Fault.RenamedTo (names : Renaming) (fault other : Fault) : Prop :=
  other = fault.renamed names.rename ∨
    ∃ head : Atom, head.symbol? = none ∧ fault = .notAProcedure head.render ∧ other = fault

/-- Everything matches what it is renamed to. Values are settled, so what heads them is not
renamed. -/
def Correspondence.renamedBy (names : Renaming) : Correspondence where
  Names name other := other = names.rename name
  Programs program other := other = program.renamed names.rename
  Values value other := Settled value ∧ other = value.renamed names.rename
  Environments environment other :=
    environment.Holds Settled ∧ other = environment.renamed names.rename
  Faults := Fault.RenamedTo names

namespace Correspondence

variable {names : Renaming}

/-- The head of a value is a constant or one of the two names that a renaming keeps. -/
theorem renamedBy_head {value : Expression} (settled : Settled value) :
    value.head.renamed names.rename = value.head := by
  cases settled with
  | terminal constant => exact Atom.renamed_of_constant constant
  | list => exact congrArg Atom.symbol names.rename_listName
  | lambda => exact congrArg Atom.symbol names.rename_lambdaName

/-- Procedures see renamed values as they see the values, since heads are kept and elements renamed
one by one. -/
theorem renamedBy_data : DataCorrespondence (renamedBy names).Values where
  head := by
    rintro value _ ⟨settled, rfl⟩
    rw [head_renamed, renamedBy_head settled]
  length := by
    rintro value _ ⟨-, rfl⟩
    rw [children_renamed, List.length_map]
  elements := by
    rintro value _ ⟨settled, rfl⟩ isList
    rw [children_renamed]
    rw [renamedBy, List.forall₂_and_left]
    exact ⟨fun _ member => settled.element isList member, forall₂_eq_map_iff.mpr rfl⟩
  constant {head} constant := by
    constructor
    · exact Settled.valueClass.constant constant
    · rw [Expression.leaf, form, renamed_node, Atom.renamed_of_constant constant]
      rfl
  list related := by
    rw [renamedBy, List.forall₂_and_left, forall₂_eq_map_iff] at related
    obtain ⟨settled, rfl⟩ := related
    exact ⟨Settled.valueClass.list settled, (renamed_list names _).symm⟩
  withProperty := by
    rintro value _ property _ tag ⟨settled, rfl⟩ ⟨attached, rfl⟩
    exact ⟨settled.withProperty tag attached, (renamed_withProperty _ _ _ _).symm⟩

/-- Faults that differ in the renamed names match. -/
theorem renamedBy_faults {fault other : Fault}
    (alike : fault.Alike (renamedBy names).Names other) : fault.RenamedTo names other := by
  cases alike with
  | blaming blamed => exact .inl (Fault.renamed_of_blamed blamed).symm
  | absentTerminal => exact .inl rfl
  | constantHead constant => exact .inr ⟨_, constant, rfl, rfl⟩
  | unknownSymbol renamed | keywordRedefinition renamed | builtinRedefinition renamed
  | symbolRedefinition renamed | notAProcedure renamed => exact .inl (renamed ▸ rfl)

/-- The static laws hold: forms and builtin procedures are found under the same names on
both sides. -/
theorem renamedBy_static : (renamedBy names).StaticLaws where
  data := renamedBy_data
  faults := renamedBy_faults
  -- Keywords, procedures and the name of lists keep their names, so the two runs branch alike.
  keyword := by
    rintro name _ rfl
    exact (names.ofName?_rename name).symm
  builtin := by
    rintro name _ rfl
    exact (names.isName_rename name).symm
  listName := by
    rintro name _ rfl
    constructor
    · rintro rfl
      exact names.rename_listName
    · intro same
      exact names.rename.injective (same.trans names.rename_listName.symm)
  heads := by
    rintro program _ rfl
    rw [head_renamed]
    cases program.head with
    | symbol name => exact .symbol rfl
    | absent | number | complex | text => exact .constant rfl
  children := by
    rintro program _ rfl
    rw [children_renamed]
    exact forall₂_eq_map_iff.mpr rfl
  rebuild := by
    rintro head other children children' former former' properties properties' programs related
    obtain rfl := forall₂_eq_map_iff.mp related
    obtain ⟨rfl, -, rfl⟩ := Expression.node.inj (programs.trans (renamed_node _ _ _ _))
    exact (renamed_node _ _ _ _).symm
  absent := rfl
  decorate := by
    rintro program _ value _ tag rfl ⟨-, rfl⟩
    exact (renamed_withProperty _ _ _ _).symm
  ofValues values := values.2
  lambda := by
    rintro _ _ - - parameters others body _ related free rfl
    obtain rfl := forall₂_eq_map_iff.mp related
    constructor
    · exact Settled.valueClass.lambda body free
    · rw [renamed_lambda, renamed_parameters]
  parameterCount := by
    rintro value _ ⟨-, rfl⟩ -
    simp [Callable.parameterCount?, List.head?_map, Function.comp_def]
  property := by
    rintro _ _ value _ - - ⟨settled, rfl⟩ tag
    rw [property?_renamed]
    cases set : value.property? tag with
    | none => exact .none
    | some property => exact .some ⟨settled.property set, rfl⟩
  found := by
    rintro name _ environment _ rfl ⟨holds, rfl⟩
    rw [Environment.find?_renamed]
    cases bound : environment.find? name with
    | none => exact .none
    | some binding =>
        cases binding with
        | procedure builtin => exact .some (.procedure builtin)
        | value value => exact .some (.value ⟨holds name value bound, rfl⟩)

/-- Binding and renaming commute, so matching environments match after a binding. -/
theorem renamedBy_binds : (renamedBy names).BindsNames := by
  rintro name _ environment _ value _ rfl ⟨holds, rfl⟩ ⟨settled, rfl⟩
  exact ⟨holds.bindName settled, (environment.renamed_bindName names name value).symm⟩

/-- All laws hold, so every evaluation in settled environments commutes with renaming. -/
theorem renamedBy_laws : (renamedBy names).Laws :=
  renamedBy_static.toLaws renamedBy_binds (.inl rfl)

end Correspondence

/-- What is left behind where something that is written like this was applied and is no
procedure. -/
def Evaluation.notAProcedure (written : String) (program : Expression)
    (environment : Environment) : Evaluation :=
  ⟨.error (.notAProcedure written), program, environment⟩

/-- What is left behind at such a head determines what was written, the program and the
environment. -/
theorem Evaluation.notAProcedure_inj {written other : String} {program program' : Expression}
    {environment environment' : Environment} :
    notAProcedure written program environment = notAProcedure other program' environment' ↔
      written = other ∧ program = program' ∧ environment = environment' := by
  simp [notAProcedure]

/-- Renaming what is left behind at such a head renames the written form as if it were a name. -/
theorem Evaluation.renamed_notAProcedure (rename : String → String) (written : String)
    (program : Expression) (environment : Environment) :
    (notAProcedure written program environment).renamed rename =
      notAProcedure (rename written) (program.renamed rename) (environment.renamed rename) :=
  rfl

section

variable {depth : Nat} {expression : Expression} {environment : Environment}
  (holds : environment.Holds Settled)

include holds

/-- The renamed program leads to what the program led to, renamed, unless a head that is no
symbol was applied. -/
theorem evaluate_renamed (names : Renaming) :
    evaluate depth (expression.renamed names.rename) (environment.renamed names.rename) =
        (evaluate depth expression environment).map (Evaluation.renamed names.rename) ∨
      ∃ (head : Atom) (program : Expression) (after : Environment), head.symbol? = none ∧
        evaluate depth expression environment =
          some (.notAProcedure head.render program after) ∧
        evaluate depth (expression.renamed names.rename) (environment.renamed names.rename) =
          some (.notAProcedure head.render (program.renamed names.rename)
            (after.renamed names.rename)) := by
  have matching : Option.Rel (Correspondence.renamedBy names).Evaluations _ _ :=
    Correspondence.evaluate_matches Correspondence.renamedBy_laws depth
      (rfl : expression.renamed names.rename = _)
      (⟨holds, rfl⟩ : environment.Holds Settled ∧ environment.renamed names.rename = _)
  generalize evaluate depth (expression.renamed names.rename) (environment.renamed names.rename) =
    ended at matching ⊢
  generalize evaluate depth expression environment = former at matching ⊢
  cases matching with
  | none => exact .inl rfl
  | @some former ended evaluations =>
      obtain ⟨outcome, program, after⟩ := former
      obtain ⟨outcome', program', after'⟩ := ended
      obtain ⟨outcomes, programs, -, environments⟩ := evaluations
      dsimp only at outcomes programs environments
      obtain rfl := programs
      obtain rfl := environments
      cases outcomes with
      | ok values =>
          obtain ⟨-, rfl⟩ := values
          exact .inl rfl
      | error faults =>
          rcases faults with rfl | ⟨head, constant, rfl, rfl⟩
          · exact .inl rfl
          · exact .inr ⟨head, program, after, constant, rfl, rfl⟩

/-- If one renaming moves a text that the fault still names afterwards, then that text is not
the name of a symbol, and no other renaming of it shows. -/
theorem rename_eq_of_kept {first names : Renaming} {written : String} {program : Expression}
    {after : Environment} (moved : first.rename written ≠ written)
    (kept : evaluate depth (expression.renamed first.rename) (environment.renamed first.rename) =
      some (.notAProcedure written (program.renamed first.rename) (after.renamed first.rename)))
    (renamed : evaluate depth (expression.renamed names.rename)
        (environment.renamed names.rename) =
      some (.notAProcedure (names.rename written) (program.renamed names.rename)
        (after.renamed names.rename))) :
    names.rename written = written := by
  -- From the first renamed program to the second one, by another renaming.
  let change : Renaming := first.symm.trans names
  have composed : change.rename ∘ first.rename = names.rename := by
    funext name
    simp [change, Renaming.symm, Renaming.trans]
  have changed := @evaluate_renamed depth (expression.renamed first.rename)
    (environment.renamed first.rename) (holds.renamed first) change
  rw [renamed_renamed, Environment.renamed_renamed, composed, kept, renamed, Option.map_some,
    Evaluation.renamed_notAProcedure] at changed
  simp only [Option.some.injEq, Evaluation.notAProcedure_inj] at changed
  rcases changed with ⟨back, -, -⟩ | ⟨head, -, -, -, ⟨before, -, -⟩, ⟨now, -, -⟩⟩
  · have fixed : first.rename.symm written = written := names.rename.injective back.symm
    exact absurd ((Equiv.symm_apply_eq _).mp fixed).symm moved
  · exact now.trans before.symm

end

/-- In every session, evaluating a program in which every symbol is renamed, in its environment
renamed in the same way, commutes with the renaming: the value, the fault and the environment
are what they were, renamed. The exception is a fault that names a head which is no symbol. Such
a fault is the same under every renaming, and the environment is the renamed one as well. -/
theorem evaluation_commutes_with_renaming {session : Session} (reached : session.Reached)
    (depth : Nat) (expression : Expression) :
    (∀ names : Renaming,
      evaluate depth (expression.renamed names.rename)
          (session.environment.renamed names.rename) =
        (evaluate depth expression session.environment).map
          (Evaluation.renamed names.rename)) ∨
      ∃ (head : Atom) (program : Expression) (after : Environment), head.symbol? = none ∧
        evaluate depth expression session.environment =
          some (.notAProcedure head.render program after) ∧
        ∀ names : Renaming,
          evaluate depth (expression.renamed names.rename)
              (session.environment.renamed names.rename) =
            some (.notAProcedure head.render (program.renamed names.rename)
              (after.renamed names.rename)) := by
  have holds := reached.holds_settled
  by_cases commutes : ∀ names : Renaming,
      evaluate depth (expression.renamed names.rename)
          (session.environment.renamed names.rename) =
        (evaluate depth expression session.environment).map (Evaluation.renamed names.rename)
  · exact .inl commutes
  obtain ⟨first, differs⟩ := not_forall.mp commutes
  obtain ⟨head, program, after, constant, ended, kept⟩ :=
    (evaluate_renamed holds first).resolve_left differs
  have moved : first.rename head.render ≠ head.render := by
    intro same
    apply differs
    rw [kept, ended, Option.map_some, Evaluation.renamed_notAProcedure, same]
  refine .inr ⟨head, program, after, constant, ended, fun names => ?_⟩
  rcases evaluate_renamed holds names with renamed | ⟨other, _, _, -, again, keptAgain⟩
  · rw [ended, Option.map_some, Evaluation.renamed_notAProcedure] at renamed
    rw [renamed, rename_eq_of_kept holds moved kept renamed]
  · rw [ended, Option.some.injEq, Evaluation.notAProcedure_inj] at again
    obtain ⟨sameText, rfl, rfl⟩ := again
    rw [keptAgain, sameText]

/-- Defines a procedure and calls it. -/
def pairingTexts : Expression :=
  .form (.symbol "begin")
    [.form (.symbol "define") [.symbol "pair", .form (.symbol "lambda")
      [.form (.symbol "x") [], .form (.symbol "list") [.symbol "x", .symbol "x"]]],
    .form (.symbol "pair") [.literal "x"]]

/-- The parameter and the procedure change names, and the text that is spelled like the
parameter does not. -/
theorem evaluation_commutes_with_exchanging_names :
    ∃ names : Renaming, pairingTexts.renamed names.rename ≠ pairingTexts ∧
      (evaluate 4 pairingTexts .fresh).map Evaluation.outcome =
        some (.ok (.list [.literal "x", .literal "x"])) ∧
      (evaluate 4 (pairingTexts.renamed names.rename)
          (Environment.fresh.renamed names.rename)).map Evaluation.outcome =
        some (.ok (.list [.literal "x", .literal "x"])) := by
  have ended : (evaluate 4 pairingTexts .fresh).map Evaluation.outcome =
      some (.ok (.list [.literal "x", .literal "x"])) := rfl
  let names := Renaming.exchange (by decide : Renaming.Movable "x")
    (by decide : Renaming.Movable "pair")
  refine ⟨names, by decide, ended, ?_⟩
  rcases evaluation_commutes_with_renaming .fresh 4 pairingTexts with commutes | stopped
  · rw [show Environment.fresh = Session.fresh.environment from rfl, commutes names]
    rfl
  · obtain ⟨head, program, after, -, other, -⟩ := stopped
    rw [show Session.fresh.environment = .fresh from rfl] at other
    rw [other] at ended
    cases ended

end PlotLisp

import PlotLisp.Proofs.Evaluation.Endings
import PlotLisp.Proofs.Evaluation.Property
import PlotLisp.Proofs.Session.Fusion

/-!
# Values are carried along whole

A value goes through a session by being bound, looked up, passed, put into lists and attached to
other values, and by being taken from there. Whatever the way, what arrives is the same value with
the same properties. The relation `Carried` has one rule for each step of such a way, and the steps
may follow each other in any number and order.
-/

namespace PlotLisp

open Expression

/-! ## Ways of a value -/

/-- A place for a value inside of another one. -/
inductive Place where
  | element (index : Nat)
  | property (tag : String)

variable {value : Expression} {path : List Place}

/-- The value is found by going from place to place. -/
inductive Expression.IsAt (value : Expression) : List Place → Expression → Prop where
  | here : IsAt value [] value
  | inside {list item : Expression} {index : Nat} {path : List Place} (isList : list.isList = true)
      (element : list.children[index]? = some item) (within : IsAt value path item) :
      IsAt value (.element index :: path) list
  | attached {owner item : Expression} {tag : String} {path : List Place}
      (property : owner.property? tag = some item) (within : IsAt value path item) :
      IsAt value (.property tag :: path) owner

/-- Where a value can be met: in what a program ends in, or under a name. -/
inductive Site where
  | result (program : Expression) (environment after : Environment)
  | name (name : String) (environment : Environment)

/-- The environment in which the program is evaluated or the name is looked up. -/
def Site.environment : Site → Environment
  | result _ environment _ => environment
  | name _ environment => environment

/-- What is met at the site has the value at the path. -/
def Site.Shows (value : Expression) (path : List Place) : Site → Prop
  | result program environment after =>
      ∃ result, program.Ends environment (.ok result) after ∧ value.IsAt path result
  | name key environment =>
      ∃ bound, environment.find? key = some (.value bound) ∧ value.IsAt path bound

/-- A value is carried to a site, at a path there. -/
inductive Carried (value : Expression) : Site → List Place → Prop where
  /-- It is what some program ends in. -/
  | origin {program : Expression} {environment after : Environment}
      (ended : program.Ends environment (.ok value) after) :
      Carried value (.result program environment after) []
  /-- It is bound to a name. -/
  | define {program whole : Expression} {environment middle after : Environment} {name : String}
      {path : List Place} (here : Carried value (.result program environment middle) path)
      (ended : (defining name program).Ends environment (.ok whole) after) :
      Carried value (.name name after) path
  /-- Something else is evaluated meanwhile, whatever the outcome. -/
  | wait {name : String} {environment after : Environment} {program : Expression}
      {outcome : Except Fault Expression} {path : List Place}
      (here : Carried value (.name name environment) path)
      (ended : program.Ends environment outcome after) : Carried value (.name name after) path
  /-- It is looked up. -/
  | lookUp {name : String} {environment : Environment} {path : List Place}
      (here : Carried value (.name name environment) path) :
      Carried value (.result (.symbol name) environment environment) path
  /-- It is the value of the last program of a sequence. -/
  | sequence {programs values : List Expression} {program : Expression}
      {environment middle after : Environment} {path : List Place}
      (before : AllEnd programs environment values middle)
      (here : Carried value (.result program middle after) path) :
      Carried value (.result (sequencing (programs ++ [program])) environment after) path
  /-- It is attached to another value. -/
  | attach {source target other : Expression} {environment middle after : Environment}
      {tag : String} {path : List Place}
      (here : Carried value (.result source environment middle) path)
      (behind : target.Ends middle (.ok other) after) :
      Carried value (.result (setting tag source target) environment after) (.property tag :: path)
  /-- Something is attached to what it is in, but not in its place. -/
  | decorate {source target property : Expression} {environment middle after : Environment}
      {tag : String} {place : Place} {path : List Place}
      (before : source.Ends environment (.ok property) middle)
      (here : Carried value (.result target middle after) (place :: path))
      (different : place ≠ .property tag) :
      Carried value (.result (setting tag source target) environment after) (place :: path)
  /-- It is read from the value to which it is attached. -/
  | read {target : Expression} {environment after : Environment} {tag : String}
      {path : List Place} (here : Carried value (.result target environment after)
        (.property tag :: path)) :
      Carried value (.result (getting tag target) environment after) path
  /-- It is put into a list between other values. -/
  | list {front back values others : List Expression} {operand : Expression}
      {environment middle next after : Environment} {path : List Place}
      (before : AllEnd front environment values middle)
      (here : Carried value (.result operand middle next) path)
      (behind : AllEnd back next others after) :
      Carried value (.result (calling Builtin.list.name (front ++ operand :: back)) environment
        after) (.element front.length :: path)
  /-- It is in a list to which something is appended. -/
  | appendFront {list last other : Expression} {environment middle after : Environment}
      {index : Nat} {path : List Place}
      (here : Carried value (.result list environment middle) (.element index :: path))
      (behind : last.Ends middle (.ok other) after) :
      Carried value (.result (calling Builtin.append.name [list, last]) environment after)
        (.element index :: path)
  /-- It is appended to a list. -/
  | appendLast {list last elements : Expression} {environment middle after : Environment}
      {path : List Place} (before : list.Ends environment (.ok elements) middle)
      (isList : elements.isList = true) (here : Carried value (.result last middle after) path) :
      Carried value (.result (calling Builtin.append.name [list, last]) environment after)
        (.element elements.children.length :: path)
  /-- It is in the first one of two lists that are joined. -/
  | joinFront {front back elements : Expression} {environment middle after : Environment}
      {index : Nat} {path : List Place}
      (here : Carried value (.result front environment middle) (.element index :: path))
      (behind : back.Ends middle (.ok elements) after) (isList : elements.isList = true) :
      Carried value (.result (calling Builtin.join.name [front, back]) environment after)
        (.element index :: path)
  /-- It is in the second one of two lists that are joined. -/
  | joinBack {front back elements : Expression} {environment middle after : Environment}
      {index : Nat} {path : List Place} (before : front.Ends environment (.ok elements) middle)
      (isList : elements.isList = true)
      (here : Carried value (.result back middle after) (.element index :: path)) :
      Carried value (.result (calling Builtin.join.name [front, back]) environment after)
        (.element (elements.children.length + index) :: path)
  /-- The first element of its list is left out. -/
  | rest {list : Expression} {environment after : Environment} {index : Nat} {path : List Place}
      (here : Carried value (.result list environment after) (.element (index + 1) :: path)) :
      Carried value (.result (calling Builtin.rest.name [list]) environment after)
        (.element index :: path)
  /-- It is taken out of its list. -/
  | first {list : Expression} {environment after : Environment} {path : List Place}
      (here : Carried value (.result list environment after) (.element 0 :: path)) :
      Carried value (.result (calling Builtin.first.name [list]) environment after) path
  /-- It is passed to a procedure value. Of two parameters with one name, the later one counts. -/
  | argument {name parameter : String} {front back values : List Expression}
      {operand body : Expression} {environment middle next after scope : Environment}
      {names : List String} {path : List Place}
      (enters : EntersCall name (front ++ operand :: back) environment after names body scope)
      (before : AllEnd front environment values middle)
      (here : Carried value (.result operand middle next) path)
      (named : names[front.length]? = some parameter)
      (last : parameter ∉ names.drop (front.length + 1)) :
      Carried value (.name parameter scope) path
  /-- It is returned from a call. -/
  | call {name : String} {operands : List Expression} {body : Expression}
      {environment after scope final : Environment} {names : List String} {path : List Place}
      (enters : EntersCall name operands environment after names body scope)
      (here : Carried value (.result body scope final) path) :
      Carried value (.result (calling name operands) environment after) path
  /-- It is passed to a procedure value that is mapped over its list. -/
  | element {name parameter : String} {list body : Expression}
      {environment after scope : Environment} {index : Nat} {path : List Place}
      (enters : EntersMapping name list environment after index parameter body scope)
      (here : Carried value (.result list environment after) (.element index :: path)) :
      Carried value (.name parameter scope) path
  /-- It is returned from one of the calls that a mapping makes. -/
  | map {name parameter : String} {list body whole : Expression}
      {environment after scope final : Environment} {index : Nat} {path : List Place}
      (enters : EntersMapping name list environment after index parameter body scope)
      (mapped : (mappingOver name list).Ends environment (.ok whole) after)
      (here : Carried value (.result body scope final) path) :
      Carried value (.result (mappingOver name list) environment after) (.element index :: path)

/-! ## Builtin procedures along the way -/

namespace Environment

variable {environment after scope : Environment} {names : List String} {values : List Expression}

/-- Every builtin procedure is found under its name. -/
def HasBuiltins (environment : Environment) : Prop :=
  ∀ builtin : Builtin, environment.find? builtin.name = some (.procedure builtin)

/-- Definitions neither hide builtin procedures nor add any. -/
theorem ExtendedBy.hasBuiltins_iff (extended : environment.ExtendedBy after) :
    after.HasBuiltins ↔ environment.HasBuiltins := by
  constructor
  · intro builtins builtin
    cases found : environment.find? builtin.name with
    | some binding => rw [← builtins builtin, extended.kept _ _ found]
    | none =>
        obtain ⟨-, value, added⟩ := extended.added _ _ found (builtins builtin)
        cases added
  · exact fun builtins builtin => extended.kept _ _ (builtins builtin)

/-- A call leaves alone what is not the name of a parameter. -/
theorem find?_scope {name : String}
    (bound : environment.bindAll ((names.map symbol).zip values) = .ok scope)
    (different : name ∉ names) : scope.find? name = environment.find? name := by
  refine find?_bindAll_of_ne bound fun pair member same => different ?_
  obtain ⟨parameter, listed, spelled⟩ := List.mem_map.mp (List.of_mem_zip member).1
  have named : Atom.symbol parameter = .symbol name :=
    (congrArg Expression.head spelled).trans same
  cases named
  exact listed

/-- Nor do parameters, none of which is named like a builtin procedure. -/
theorem hasBuiltins_scope_iff (free : ∀ name ∈ names, Builtin.isName name = false)
    (bound : environment.bindAll ((names.map symbol).zip values) = .ok scope) :
    scope.HasBuiltins ↔ environment.HasBuiltins := by
  refine forall_congr' fun builtin => ?_
  have different : builtin.name ∉ names := by
    intro listed
    simpa [Builtin.isName] using free _ listed
  rw [find?_scope bound different]

/-- In the scope of a call, a parameter denotes its argument. -/
theorem find?_parameter {index : Nat} {parameter : String} {argument : Expression}
    (bound : environment.bindAll ((names.map symbol).zip values) = .ok scope)
    (named : names[index]? = some parameter) (given : values[index]? = some argument)
    (last : parameter ∉ names.drop (index + 1)) :
    scope.find? parameter = some (.value argument) := by
  induction names generalizing environment values index with
  | nil => cases named
  | cons name names inductionHypothesis =>
      cases values with
      | nil => cases given
      | cons first values =>
          obtain ⟨middle, boundFirst, boundRest⟩ := PlotLisp.bind_eq_ok_iff.mp bound
          cases index with
          | succ index => exact inductionHypothesis boundRest named given last
          | zero =>
              cases named
              cases given
              obtain ⟨_, spelled, rfl⟩ := bind_eq_ok_iff.mp boundFirst
              cases spelled
              rw [find?_scope boundRest last, find?_bindName_self]

end Environment

/-- While something is mapped, the scope of a call has a parameter more. -/
theorem EntersMapping.hasBuiltins_iff {name parameter : String} {list body : Expression}
    {environment after scope : Environment} {index : Nat}
    (enters : EntersMapping name list environment after index parameter body scope) :
    scope.HasBuiltins ↔ after.HasBuiltins := by
  obtain ⟨lambda, -, takes⟩ := enters.procedure
  obtain ⟨elements, element, -, -, -, rfl⟩ := enters.element
  exact @Environment.hasBuiltins_scope_iff after _ [parameter] [element] takes.free rfl

namespace Builtin

variable {list last item : Expression} {index : Nat}

/-- Appending gives the list of the elements with the other value, untouched, at the end. -/
theorem call_append (isList : list.isList = true) :
    append.call [list, last] = pure (.list (list.children ++ [last])) := by
  show Attempt.ofExcept (Sequence.append [list, last]) = _
  simp only [Sequence.append, Arithmetic.pair, bind, Except.bind, toElements_of_isList isList]
  rfl

/-- The first element is returned as it is, with all that is attached to it. -/
theorem call_first (isList : list.isList = true) (element : list.children[0]? = some item) :
    first.call [list] = pure item := by
  show Attempt.ofExcept (Sequence.first [list]) = _
  simp only [Sequence.first, Arithmetic.single, bind, Except.bind, toElements_of_isList isList]
  cases elements : list.children with
  | nil => simp [elements] at element
  | cons first others =>
      rw [elements, List.getElem?_cons_zero, Option.some_inj] at element
      rw [element]
      rfl

/-- The rest is a list in which each element has moved up by one place. -/
theorem call_rest (isList : list.isList = true) (element : list.children[index + 1]? = some item) :
    ∃ others, rest.call [list] = pure (.list others) ∧ others[index]? = some item := by
  show ∃ others, Attempt.ofExcept (Sequence.rest [list]) = _ ∧ _
  simp only [Sequence.rest, Arithmetic.single, bind, Except.bind, toElements_of_isList isList]
  rcases elements : list.children with _ | ⟨first, _ | ⟨next, others⟩⟩
  · simp [elements] at element
  · simp [elements] at element
  · rw [elements, List.getElem?_cons_succ] at element
    exact ⟨next :: others, rfl, element⟩

end Builtin

/-- An element keeps its index when something is added behind. -/
theorem getElem?_append_of_getElem? {front back : List Expression} {index : Nat}
    {item : Expression} (element : front[index]? = some item) :
    (front ++ back)[index]? = some item := by
  rw [List.getElem?_append_left (List.getElem?_eq_some_iff.mp element).1, element]

/-! ## Arrival -/

namespace Carried

variable {site : Site}

/-- Whatever the way to a site, the value is there. -/
theorem shows (carried : Carried value site path) (builtins : site.environment.HasBuiltins) :
    site.Shows value path := by
  -- Builtin procedures are found in all environments on the way, since definitions and parameters
  -- bind values only. So what is known of the last one is known of those before it.
  induction carried with
  | origin ended => exact ⟨value, ended, .here⟩
  | define here ended inductionHypothesis =>
      obtain ⟨bound, evaluated, shown⟩ := inductionHypothesis
        (ended.extendedBy.hasBuiltins_iff.mp builtins)
      obtain ⟨middle, evaluated', rfl⟩ := ends_defining ended
      obtain rfl := evaluated.unique_value evaluated'
      exact ⟨bound, Environment.find?_bindName_self, shown⟩
  | wait here ended inductionHypothesis =>
      obtain ⟨bound, found, shown⟩ := inductionHypothesis
        (ended.extendedBy.hasBuiltins_iff.mp builtins)
      exact ⟨bound, ended.extendedBy.kept _ _ found, shown⟩
  | @lookUp name environment _ here inductionHypothesis =>
      obtain ⟨bound, found, shown⟩ := inductionHypothesis builtins
      have notList : name ≠ listName := by
        rintro rfl
        have builtin : environment.find? listName = _ := builtins .list
        rw [found] at builtin
        cases builtin
      exact ⟨bound, ⟨1, ending_symbol notList found 0⟩, shown⟩
  | sequence before here inductionHypothesis =>
      obtain ⟨result, evaluated, shown⟩ := inductionHypothesis
        (before.extendedBy.hasBuiltins_iff.mpr builtins)
      exact ⟨result, ends_sequencing before evaluated, shown⟩
  | attach here behind inductionHypothesis =>
      obtain ⟨result, evaluated, shown⟩ := inductionHypothesis builtins
      exact ⟨_, ends_setting_iff.mpr ⟨result, _, _, evaluated, behind, rfl⟩,
        .attached (property?_withProperty_self _ _ _) shown⟩
  | decorate before here different inductionHypothesis =>
      obtain ⟨result, evaluated, shown⟩ := inductionHypothesis
        (before.extendedBy.hasBuiltins_iff.mpr builtins)
      refine ⟨_, ends_setting_iff.mpr ⟨_, _, result, before, evaluated, rfl⟩, ?_⟩
      cases shown with
      | inside isList element within =>
          refine .inside ?_ ?_ within
          · rw [Expression.isList, head_withProperty]
            exact isList
          · rw [children_withProperty, element]
      | attached property within =>
          refine .attached ?_ within
          rw [property?_withProperty_of_ne _ _ (fun same => different (congrArg _ same)), property]
  | read here inductionHypothesis =>
      obtain ⟨owner, evaluated, shown⟩ := inductionHypothesis builtins
      cases shown with
      | attached property within =>
          exact ⟨_, ends_getting_iff.mpr ⟨owner, evaluated, by rw [property, Option.getD_some]⟩,
            within⟩
  | @list front _ values others _ _ _ _ _ _ before here behind inductionHypothesis =>
      obtain ⟨result, evaluated, shown⟩ := inductionHypothesis
        (before.extendedBy.hasBuiltins_iff.mpr builtins)
      have given := allEnd_append_iff.mpr ⟨_, _, _, before,
        allEnd_cons_iff.mpr ⟨_, _, _, evaluated, behind, rfl⟩, rfl⟩
      have called : (Builtin.list.call (values ++ result :: others)).run = some (.ok _) := rfl
      refine ⟨_, ends_calling_builtin (builtins .list) (by simp) given called,
        .inside rfl ?_ shown⟩
      show (values ++ result :: others)[front.length]? = _
      rw [← before.length_eq, List.getElem?_append_right (Nat.le_refl _), Nat.sub_self]
      rfl
  | appendFront here behind inductionHypothesis =>
      obtain ⟨elements, evaluated, shown⟩ := inductionHypothesis builtins
      cases shown with
      | inside isList element within =>
          refine ⟨_, ends_calling_builtin (builtins .append) (by simp)
            (allEnd_pair evaluated behind) (congrArg ExceptT.run (Builtin.call_append isList)),
            .inside rfl ?_ within⟩
          exact getElem?_append_of_getElem? element
  | appendLast before isList here inductionHypothesis =>
      obtain ⟨result, evaluated, shown⟩ := inductionHypothesis
        (before.extendedBy.hasBuiltins_iff.mpr builtins)
      refine ⟨_, ends_calling_builtin (builtins .append) (by simp) (allEnd_pair before evaluated)
        (congrArg ExceptT.run (Builtin.call_append isList)), .inside rfl ?_ shown⟩
      exact List.getElem?_concat_length
  | joinFront here behind isList inductionHypothesis =>
      obtain ⟨elements, evaluated, shown⟩ := inductionHypothesis builtins
      cases shown with
      | inside isListFront element within =>
          refine ⟨_, ends_calling_builtin (builtins .join) (by simp) (allEnd_pair evaluated behind)
            (congrArg ExceptT.run (Builtin.call_join isListFront isList)), .inside rfl ?_ within⟩
          exact getElem?_append_of_getElem? element
  | joinBack before isList here inductionHypothesis =>
      obtain ⟨others, evaluated, shown⟩ := inductionHypothesis
        (before.extendedBy.hasBuiltins_iff.mpr builtins)
      cases shown with
      | inside isListBack element within =>
          refine ⟨_, ends_calling_builtin (builtins .join) (by simp) (allEnd_pair before evaluated)
            (congrArg ExceptT.run (Builtin.call_join isList isListBack)), .inside rfl ?_ within⟩
          show (_ ++ _)[_]? = _
          rw [List.getElem?_append_right (Nat.le_add_right _ _), Nat.add_sub_cancel_left, element]
  | rest here inductionHypothesis =>
      obtain ⟨elements, evaluated, shown⟩ := inductionHypothesis builtins
      cases shown with
      | inside isList element within =>
          obtain ⟨others, called, after⟩ := Builtin.call_rest isList element
          exact ⟨_, ends_calling_builtin (builtins .rest) (by simp) (allEnd_singleton evaluated)
            (congrArg ExceptT.run called), .inside rfl after within⟩
  | first here inductionHypothesis =>
      obtain ⟨elements, evaluated, shown⟩ := inductionHypothesis builtins
      cases shown with
      | inside isList element within =>
          exact ⟨_, ends_calling_builtin (builtins .first) (by simp) (allEnd_singleton evaluated)
            (congrArg ExceptT.run (Builtin.call_first isList element)), within⟩
  | argument enters before here named last inductionHypothesis =>
      obtain ⟨lambda, -, takes⟩ := enters.procedure
      obtain ⟨arguments, given, -, bound⟩ := enters.arguments
      have start := given.extendedBy.hasBuiltins_iff.mp
        ((Environment.hasBuiltins_scope_iff takes.free bound).mp builtins)
      obtain ⟨result, evaluated, shown⟩ := inductionHypothesis
        (before.extendedBy.hasBuiltins_iff.mpr start)
      obtain ⟨front, middle, others, before', behind, rfl⟩ := allEnd_append_iff.mp given
      obtain ⟨rfl, rfl⟩ := before'.unique before
      obtain ⟨argument, next, others, evaluated', -, rfl⟩ := allEnd_cons_iff.mp behind
      obtain rfl := evaluated'.unique_value evaluated
      refine ⟨argument, Environment.find?_parameter bound named ?_ last, shown⟩
      rw [← before.length_eq, List.getElem?_append_right (Nat.le_refl _), Nat.sub_self]
      rfl
  | call enters here inductionHypothesis =>
      obtain ⟨lambda, -, takes⟩ := enters.procedure
      obtain ⟨arguments, given, -, bound⟩ := enters.arguments
      obtain ⟨result, returned, shown⟩ := inductionHypothesis
        ((Environment.hasBuiltins_scope_iff takes.free bound).mpr
          (given.extendedBy.hasBuiltins_iff.mpr builtins))
      exact ⟨result, enters.ends returned, shown⟩
  | element enters here inductionHypothesis =>
      obtain ⟨elements, element, evaluated', -, atIndex, rfl⟩ := enters.element
      obtain ⟨list, evaluated, shown⟩ := inductionHypothesis
        (evaluated'.extendedBy.hasBuiltins_iff.mp (enters.hasBuiltins_iff.mp builtins))
      obtain rfl := evaluated.unique_value evaluated'
      cases shown with
      | inside _ element within =>
          cases atIndex.symm.trans element
          exact ⟨_, Environment.find?_bindName_self, within⟩
  | map enters mapped here inductionHypothesis =>
      obtain ⟨result, returned, shown⟩ := inductionHypothesis
        (enters.hasBuiltins_iff.mpr (mapped.extendedBy.hasBuiltins_iff.mpr builtins))
      obtain ⟨isList, atIndex, -⟩ := enters.getElem? mapped returned
      exact ⟨_, mapped, .inside isList atIndex shown⟩

end Carried

/-- In every session, setting and getting properties obeys the laws of lenses. And a value that is
carried to a site, however it got there, is there as it was: where it is the value of a program, the
property that it had under a tag is what one gets from the program under this tag. Every procedure
value that a name denotes is one that values can be passed to on their way. -/
theorem properties_are_lenses_and_are_carried {session : Session} (reached : session.Reached) :
    session.environment.ObeysLensLaws ∧
      (∀ name lambda, session.environment.find? name = some (.value lambda) →
        lambda.isLambda = true → ∃ names body, lambda.Takes names body) ∧
      (∀ value site path, site.environment = session.environment → Carried value site path →
        site.Shows value path) ∧
      ∀ value program after, Carried value (.result program session.environment after) [] →
        ∀ tag property, value.property? tag = some property →
          (getting tag program).Ends session.environment (.ok property) after := by
  have builtins : session.environment.HasBuiltins := reached.guarded.builtins
  refine ⟨session.environment.obeysLensLaws, fun name lambda found isLambda => ?passable,
    fun value site path same carried => ?shown,
    fun value program after carried tag property attached => ?gotten⟩
  case passable =>
    obtain ⟨names, body, children, free⟩ :=
      (reached.guarded.settled _ _ found).namesParameters isLambda
    exact ⟨names, body, isLambda, children, free⟩
  case shown => exact carried.shows (same ▸ builtins)
  case gotten =>
    obtain ⟨result, ended, shown⟩ := carried.shows builtins
    cases shown
    exact ends_getting_iff.mpr ⟨_, ended, by rw [attached, Option.getD_some]⟩

/-- A text with a property. -/
def largeText : Expression :=
  (Expression.literal "a").withProperty "size" (.literal "large")

/-- A session after it has named a procedure value and the text. The program was decorated. -/
def wording : Session where
  program := defining "word" (setting "size" (.literal "large") largeText)
  environment := naming.environment.bindName "word" largeText

/-- The session is reached by reading and evaluating one more definition. -/
theorem wording_reached : wording.Reached := by
  have read : naming.read "(define word (set-property \"size\" \"large\" \"a\"))" =
      .ok ⟨defining "word" attaching, naming.environment⟩ := rfl
  have evaluated : Session.evaluate 3 ⟨defining "word" attaching, naming.environment⟩ =
      some (.ok largeText, wording) := rfl
  exact .evaluate (.read naming_reached read) evaluated

/-- The text is passed to the procedure value, and what is returned is appended to a list. -/
def lengthening : Expression :=
  calling "append" [calling "list" [.symbol "pi"], calling "same" [.symbol "word"]]

/-- After this list was mapped, too, and the text was taken out, the text has its property. -/
theorem property_is_carried_through_lists :
    wording.Reached ∧ largeText.property? "size" = some (.literal "large") ∧
      (getting "size" (calling "first" [calling "rest" [mappingOver "same" lengthening]])).Ends
        wording.environment (.ok (.literal "large")) wording.environment := by
  have bound : Carried largeText (.name "word" wording.environment) [] :=
    .define (.origin (show attaching.Ends naming.environment _ naming.environment from ⟨2, rfl⟩))
      ⟨3, rfl⟩
  have same : ∃ lambda, wording.environment.find? "same" = some (.value lambda) ∧
      lambda.Takes ["x"] (.symbol "x") := ⟨identity, rfl, rfl, rfl, by decide⟩
  have calls : EntersCall "same" ([] ++ [.symbol "word"]) wording.environment wording.environment
      ["x"] (.symbol "x") (wording.environment.bindName "x" largeText) :=
    ⟨rfl, by simp, same, [largeText], ⟨1, rfl⟩, rfl, rfl⟩
  have passed : Carried largeText
      (.result (calling "same" [.symbol "word"]) wording.environment wording.environment) [] :=
    .call calls (.lookUp (.argument calls ⟨0, rfl⟩ (.lookUp bound) rfl (by simp)))
  have listed : (calling "list" [.symbol "pi"]).Ends wording.environment
      (.ok (.list [.number Number.pi])) wording.environment := ⟨2, rfl⟩
  have appended : Carried largeText
      (.result lengthening wording.environment wording.environment) [.element 1] :=
    .appendLast listed rfl passed
  have maps : EntersMapping "same" lengthening wording.environment wording.environment 1 "x"
      (.symbol "x") (wording.environment.bindName "x" largeText) :=
    ⟨same, .list [.number Number.pi, largeText], largeText, ⟨4, rfl⟩, rfl, rfl, rfl⟩
  have mapped : Carried largeText (.result (mappingOver "same" lengthening) wording.environment
      wording.environment) [.element 1] := .map maps ⟨5, rfl⟩ (.lookUp (.element maps appended))
  obtain ⟨-, -, -, gotten⟩ := properties_are_lenses_and_are_carried wording_reached
  exact ⟨wording_reached, rfl, gotten _ _ _ (.first (.rest mapped)) _ _ rfl⟩

end PlotLisp

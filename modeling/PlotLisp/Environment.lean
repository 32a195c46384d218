import PlotLisp.Builtin.Call
import PlotLisp.Keyword

/-!
# Environments

An environment is flat: it maps each name to a value or to a builtin procedure.
`define` only adds names, while `bind` replaces, which is what a procedure value
does with its parameters inside its own copy.
-/

namespace PlotLisp

/-- What a name denotes. -/
inductive Binding where
  | value (expression : Expression)
  | procedure (builtin : Builtin)
  deriving DecidableEq

/-- The names that are bound and what they denote. -/
structure Environment where
  bindings : Table Binding
  deriving DecidableEq

namespace Environment

/-- The constants that every environment starts with. -/
def constants : List (String × Expression) :=
  [("pi", .number Number.pi), ("-pi", .number (-Number.pi)),
    ("e", .number Number.euler), ("-e", .number (-Number.euler)),
    ("I", .complex Complex.unit), ("-I", .complex Complex.unit.neg)]

/-- The environment of the constants and the builtin procedures. -/
def fresh : Environment where
  bindings := .ofList
    (constants.map (fun (name, value) => (name, .value value)) ++
      Builtin.all.map fun builtin => (builtin.name, .procedure builtin))

/-- What a name denotes, if it is bound. -/
def find? (environment : Environment) (name : String) : Option Binding :=
  environment.bindings.find? name

/-- The value of a name, if it denotes one. -/
def value? (environment : Environment) (name : String) : Option Expression :=
  match environment.find? name with
  | some (.value expression) => some expression
  | _ => none

/-- The procedure of a name, if it denotes one. -/
def procedure? (environment : Environment) (name : String) : Option Builtin :=
  match environment.find? name with
  | some (.procedure builtin) => some builtin
  | _ => none

/-- Whether a name is bound at all. -/
def isBound (environment : Environment) (name : String) : Bool :=
  (environment.find? name).isSome

/-- The environment with a name bound to a value, whatever it denoted before. -/
def bindName (environment : Environment) (name : String) (value : Expression) :
    Environment :=
  ⟨environment.bindings.insert name (.value value)⟩

/-- Binds a symbol to a value, replacing what it denoted. Only symbols are bound. -/
def bind (environment : Environment) (symbol : Atom) (value : Expression) :
    Except Fault Environment :=
  match symbol.symbol? with
  | some name => .ok (environment.bindName name value)
  | none => .error .unnamedBinding

/-- Refuses a name that may not receive a definition: a keyword, a builtin
procedure, or a name that already has a value. -/
def checkDefinable (environment : Environment) (name : String) : Except Fault Unit :=
  if Keyword.isName name then .error (.keywordRedefinition name)
  else
    match environment.find? name with
    | some (.procedure _) => .error (.builtinRedefinition name)
    | some (.value _) => .error (.symbolRedefinition name)
    | none => .ok ()

/-- Adds a definition for a name that may receive one. -/
def define (environment : Environment) (name : String) (value : Expression) :
    Except Fault Environment := do
  environment.checkDefinable name
  return environment.bindName name value

/-- Binds parameters to arguments, one after the other. -/
def bindAll (environment : Environment) :
    List (Expression × Expression) → Except Fault Environment
  | [] => .ok environment
  | (parameter, argument) :: rest => do
      (← environment.bind parameter.head argument).bindAll rest

end Environment

end PlotLisp

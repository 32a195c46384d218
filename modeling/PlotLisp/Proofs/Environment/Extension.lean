import PlotLisp.Environment
import PlotLisp.Proofs.Expression.Value
import PlotLisp.Proofs.Outcome

/-!
# Environments that grow

A definition binds a name that was free, to a value, and touches no other name. So the
environments of a session only ever grow: `ExtendedBy` says how.
-/

namespace PlotLisp

namespace Table

variable {α : Type}

/-- What is found after entries were written is one of them, or was there before. -/
theorem find?_foldl_insert {entries : List (String × α)} {table : Table α} {name : String}
    {value : α}
    (found : (entries.foldl (fun table entry => table.insert entry.1 entry.2) table).find? name =
      some value) :
    table.find? name = some value ∨ (name, value) ∈ entries := by
  induction entries generalizing table with
  | nil => exact .inl found
  | cons entry rest inductionHypothesis =>
      obtain ⟨key, new⟩ := entry
      rcases inductionHypothesis found with before | member
      · by_cases same : name = key
        · subst same
          rw [find?_insert_self, Option.some.injEq] at before
          obtain rfl : new = value := before
          exact .inr List.mem_cons_self
        · rw [find?_insert_of_ne table new same] at before
          exact .inl before
      · exact .inr (List.mem_cons_of_mem _ member)

/-- Only an entry that a table is made of is found in it. -/
theorem mem_of_find?_ofList {entries : List (String × α)} {name : String} {value : α}
    (found : (ofList entries).find? name = some value) : (name, value) ∈ entries := by
  rcases find?_foldl_insert found with before | member
  · cases before
  · exact member

end Table

namespace Environment

variable {environment after : Environment} {name other : String} {value : Expression}

/-- The name that was just bound denotes its value. -/
@[simp] theorem find?_bindName_self :
    (environment.bindName name value).find? name = some (.value value) :=
  Table.find?_insert_self environment.bindings name (.value value)

/-- Every other name denotes what it did. -/
@[simp] theorem find?_bindName_of_ne (different : other ≠ name) :
    (environment.bindName name value).find? other = environment.find? other :=
  Table.find?_insert_of_ne environment.bindings (.value value) different

/-- A name may receive a definition when it is no keyword and is not bound. -/
theorem checkDefinable_eq_ok_iff {done : Unit} :
    environment.checkDefinable name = .ok done ↔
      Keyword.isName name = false ∧ environment.find? name = none := by
  unfold checkDefinable
  cases Keyword.isName name with
  | true => simp
  | false =>
      cases environment.find? name with
      | none => simp
      | some binding => cases binding <;> simp

/-- A definition succeeds when the name is neither a keyword nor bound, and then only binds it. -/
theorem define_eq_ok_iff :
    environment.define name value = .ok after ↔
      (Keyword.isName name = false ∧ environment.find? name = none) ∧
        after = environment.bindName name value := by
  unfold define
  rw [bind_eq_ok_iff]
  constructor
  · rintro ⟨done, definable, bound⟩
    exact ⟨checkDefinable_eq_ok_iff.mp definable, (Except.ok.inj bound).symm⟩
  · rintro ⟨definable, rfl⟩
    exact ⟨(), checkDefinable_eq_ok_iff.mpr definable, rfl⟩

/-- Binding a parameter asks for a symbol and for nothing else; names that are taken are
bound over. -/
theorem bind_eq_ok_iff {symbol : Atom} :
    environment.bind symbol value = .ok after ↔
      ∃ name, symbol.symbol? = some name ∧ after = environment.bindName name value := by
  unfold bind
  cases symbol.symbol? with
  | none => simp
  | some name => simp [eq_comm]

/-- How an environment may grow: what was bound denotes the same, and what is bound
anew is a value under a name that is no keyword. -/
structure ExtendedBy (environment after : Environment) : Prop where
  kept : ∀ name binding, environment.find? name = some binding →
    after.find? name = some binding
  added : ∀ name binding, environment.find? name = none → after.find? name = some binding →
    Keyword.isName name = false ∧ ∃ value, binding = .value value

namespace ExtendedBy

/-- Every environment extends itself. -/
theorem refl (environment : Environment) : environment.ExtendedBy environment where
  kept _ _ bound := bound
  added name binding free bound := by rw [free] at bound; cases bound

/-- Extensions may be made one after the other. -/
theorem trans {first second third : Environment} (earlier : first.ExtendedBy second)
    (later : second.ExtendedBy third) : first.ExtendedBy third where
  kept name binding bound := later.kept name binding (earlier.kept name binding bound)
  added name binding free bound := by
    cases middle : second.find? name with
    | none => exact later.added name binding middle bound
    | some former =>
        have same : former = binding :=
          Option.some.inj ((later.kept name former middle).symm.trans bound)
        exact same ▸ earlier.added name former free middle

/-- A definition extends the environment. -/
theorem of_define (defined : environment.define name value = .ok after) :
    environment.ExtendedBy after := by
  obtain ⟨⟨notKeyword, free⟩, rfl⟩ := define_eq_ok_iff.mp defined
  constructor
  · intro other binding bound
    have different : other ≠ name := by
      rintro rfl
      rw [free] at bound
      cases bound
    rw [find?_bindName_of_ne different, bound]
  · intro other binding unbound bound
    by_cases same : other = name
    · subst same
      rw [find?_bindName_self, Option.some.injEq] at bound
      exact ⟨notKeyword, value, bound.symm⟩
    · rw [find?_bindName_of_ne same, unbound] at bound
      cases bound

end ExtendedBy

/-- Every value in the environment belongs to a class. -/
def Holds (Value : Expression → Prop) (environment : Environment) : Prop :=
  ∀ name value, environment.find? name = some (.value value) → Value value

namespace Holds

variable {Value : Expression → Prop}

/-- A name that denotes a value denotes one of the class. -/
theorem value? (holds : environment.Holds Value)
    (found : environment.value? name = some value) : Value value := by
  unfold Environment.value? at found
  split at found
  · next bound =>
      cases found
      exact holds name value bound
  · cases found

/-- Binding a value of the class keeps every value in it. -/
theorem bindName (holds : environment.Holds Value) (new : Value value) :
    (environment.bindName name value).Holds Value := by
  intro other bound found
  by_cases same : other = name
  · subst same
    rw [find?_bindName_self, Option.some.injEq, Binding.value.injEq] at found
    exact found ▸ new
  · rw [find?_bindName_of_ne same] at found
    exact holds other bound found

/-- Defining a value of the class keeps every value in it. -/
theorem define (holds : environment.Holds Value) (new : Value value)
    (defined : environment.define name value = .ok after) : after.Holds Value := by
  obtain ⟨-, rfl⟩ := define_eq_ok_iff.mp defined
  exact holds.bindName new

/-- Binding parameters to arguments keeps every value in the class. -/
theorem bindAll {pairs : List (Expression × Expression)} (holds : environment.Holds Value)
    (given : ∀ pair ∈ pairs, Value pair.2) (bound : environment.bindAll pairs = .ok after) :
    after.Holds Value := by
  induction pairs generalizing environment with
  | nil =>
      cases bound
      exact holds
  | cons pair rest inductionHypothesis =>
      obtain ⟨parameter, argument⟩ := pair
      obtain ⟨middle, first, others⟩ := PlotLisp.bind_eq_ok_iff.mp bound
      obtain ⟨name, -, rfl⟩ := bind_eq_ok_iff.mp first
      have argumentHolds : Value argument := given (parameter, argument) List.mem_cons_self
      exact inductionHypothesis (holds.bindName argumentHolds)
        (fun pair member => given pair (List.mem_cons_of_mem _ member)) others

/-- A fresh environment has no values but constants. -/
theorem of_constants (constant : ∀ {head : Atom}, head.symbol? = none → Value (.leaf head)) :
    Environment.fresh.Holds Value := by
  intro name value found
  have member := Table.mem_of_find?_ofList found
  rcases List.mem_append.mp member with entry | procedure
  · obtain ⟨⟨constantName, constantValue⟩, listed, same⟩ := List.mem_map.mp entry
    obtain ⟨rfl, rfl⟩ : constantName = name ∧ constantValue = value := by simpa using same
    simp only [constants, List.mem_cons, Prod.mk.injEq, List.not_mem_nil, or_false] at listed
    rcases listed with ⟨-, rfl⟩ | ⟨-, rfl⟩ | ⟨-, rfl⟩ | ⟨-, rfl⟩ | ⟨-, rfl⟩ | ⟨-, rfl⟩
    all_goals exact constant rfl
  · obtain ⟨builtin, -, same⟩ := List.mem_map.mp procedure
    simp at same

/-- The constants belong to every class of values. -/
theorem fresh (values : Expression.ValueClass Value) : Environment.fresh.Holds Value :=
  of_constants values.constant

end Holds

end Environment

end PlotLisp

import PlotLisp.Table
import Mathlib.Logic.Function.Basic

/-!
# Tables entry by entry

What holds of every value of a table, and tables whose entries are changed one by one. As
long as distinct keys remain distinct, looking up and writing commute with such a change.
-/

namespace PlotLisp.Table

variable {α β : Type}

/-- What holds of every value still does after a value was written of which it holds. -/
theorem forall_find?_insert {Holds : α → Prop} {table : Table α} {name : String} {value : α}
    (new : Holds value) (old : ∀ key other, table.find? key = some other → Holds other) :
    ∀ key other, (table.insert name value).find? key = some other → Holds other := by
  intro key other found
  by_cases same : key = name
  · subst same
    rw [find?_insert_self, Option.some.injEq] at found
    exact found ▸ new
  · rw [find?_insert_of_ne table value same] at found
    exact old key other found

/-- The table with every key and every value changed, in the same order. -/
def mapEntries (onKey : String → String) (onValue : α → β) : Table α → Table β
  | empty => empty
  | entry key value rest => entry (onKey key) (onValue value) (rest.mapEntries onKey onValue)

variable {onKey : String → String} {onValue : α → β}

/-- Where keys stay distinct, a changed key is found with the changed value. -/
theorem find?_mapEntries (distinct : Function.Injective onKey) (table : Table α) (name : String) :
    (table.mapEntries onKey onValue).find? (onKey name) = (table.find? name).map onValue := by
  induction table with
  | empty => rfl
  | entry key value rest inductionHypothesis =>
      simp only [mapEntries, find?, distinct.eq_iff]
      split
      · rfl
      · exact inductionHypothesis

/-- What holds of every changed value holds of every value of the changed table. -/
theorem forall_find?_mapEntries {Holds : β → Prop} {table : Table α}
    (each : ∀ key value, table.find? key = some value → Holds (onValue value)) :
    ∀ key value, (table.mapEntries id onValue).find? key = some value → Holds value := by
  intro key value found
  obtain ⟨former, bound, rfl⟩ := Option.map_eq_some_iff.mp
    ((find?_mapEntries Function.injective_id table key).symm.trans found)
  exact each key former bound

/-- Writing an entry and changing all entries commute. -/
theorem mapEntries_insert (distinct : Function.Injective onKey) (table : Table α) (name : String)
    (value : α) : (table.insert name value).mapEntries onKey onValue =
      (table.mapEntries onKey onValue).insert (onKey name) (onValue value) := by
  induction table with
  | empty => rfl
  | entry key old rest inductionHypothesis =>
      simp only [mapEntries, insert, distinct.eq_iff]
      split
      · rfl
      · rw [mapEntries, inductionHypothesis]

/-- Two changes of the entries, one after the other. -/
theorem mapEntries_mapEntries {γ : Type} (onKey' : String → String) (onValue' : β → γ)
    (table : Table α) : (table.mapEntries onKey onValue).mapEntries onKey' onValue' =
      table.mapEntries (onKey' ∘ onKey) (onValue' ∘ onValue) := by
  induction table with
  | empty => rfl
  | entry key value rest inductionHypothesis =>
      simp only [mapEntries, inductionHypothesis, Function.comp_apply]

end PlotLisp.Table

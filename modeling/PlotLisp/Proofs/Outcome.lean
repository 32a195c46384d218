import PlotLisp.Builtin.Call

/-!
# Outcomes in sequence

A computation that may fault ends in a value exactly when every step of it does.
These laws take such a sequence apart, so that no proof opens the monads.
-/

namespace PlotLisp

variable {ε α β : Type}

/-- Two steps end in a value when the first one does and the second one goes on from
it. -/
theorem bind_eq_ok_iff {first : Except ε α} {next : α → Except ε β} {value : β} :
    (first >>= next) = .ok value ↔ ∃ middle, first = .ok middle ∧ next middle = .ok value := by
  cases first with
  | error fault => simp [bind, Except.bind]
  | ok middle => simp [bind, Except.bind]

namespace Attempt

/-- An attempt followed by another one: a fault or giving up in the first is final. -/
theorem run_bind (first : Attempt α) (next : α → Attempt β) :
    (first >>= next).run =
      match first.run with
      | none => none
      | some (.error fault) => some (.error fault)
      | some (.ok value) => (next value).run := by
  show (ExceptT.run first >>= ExceptT.bindCont next) = _
  cases ExceptT.run first with
  | none => rfl
  | some outcome => cases outcome <;> rfl

/-- Two attempts end in a value when the first one does and the second one goes on
from it. -/
theorem run_bind_eq_ok_iff {first : Attempt α} {next : α → Attempt β} {value : β} :
    (first >>= next).run = some (.ok value) ↔
      ∃ middle, first.run = some (.ok middle) ∧ (next middle).run = some (.ok value) := by
  rw [run_bind]
  cases first.run with
  | none => simp
  | some outcome => cases outcome <;> simp

end Attempt

end PlotLisp

import PlotLisp.Builtin.Arithmetic

/-!
# List procedures

Lists are taken apart and put together with their elements untouched, attached
properties included. A range samples an interval by multiples of its increment, so
rounding errors do not accumulate.
-/

namespace PlotLisp.Sequence

open Arithmetic (single pair)

/-- The arguments as a list. -/
def list (arguments : List Expression) : Except Fault Expression :=
  .ok (.list arguments)

/-- The first element of a list. -/
def first (arguments : List Expression) : Except Fault Expression := do
  match ← (← single "first" arguments).toElements "first" with
  | [] => throw (.shortList "first")
  | element :: _ => return element

/-- All elements but the first. The list has at least two, so the rest is never
empty. -/
def rest (arguments : List Expression) : Except Fault Expression := do
  match ← (← single "rest" arguments).toElements "rest" with
  | _ :: next :: others => return .list (next :: others)
  | _ => throw (.shortList "rest")

/-- The largest count that a number holds together with all smaller ones. -/
def largestCount : Nat := 9007199254740991

/-- A count as a number, exactly. -/
def countToNumber (procedure : String) (count : Nat) : Except Fault Float :=
  if largestCount < count then .error (.outsideDomain procedure .tooLarge)
  else .ok (.ofNat count)

/-- The number of elements. -/
def length (arguments : List Expression) : Except Fault Expression := do
  let elements ← (← single "length" arguments).toElements "length"
  return .number (← countToNumber "length" elements.length)

/-- The first argument's elements followed by the second argument. -/
def append (arguments : List Expression) : Except Fault Expression := do
  let (elements, last) ← pair "append" arguments
  return .list ((← elements.toElements "append") ++ [last])

/-- The elements of both arguments. -/
def join (arguments : List Expression) : Except Fault Expression := do
  let (left, right) ← pair "join" arguments
  let front ← left.toElements "join"
  let back ← right.toElements "join"
  return .list (front ++ back)

/-- An interval with finite ends in order, and a positive finite increment. -/
structure Interval where
  first : Float
  last : Float
  increment : Float
  deriving DecidableEq

namespace Interval

/-- The sample that lies `step` increments from the first one, rounded once. -/
def sample (interval : Interval) (step : Float) : Float :=
  Number.mulAdd step interval.increment interval.first

/-- The samples from `step` on that do not exceed the last end, put behind those
already taken, which are in reverse order. `none` after `count` steps. -/
def samplesWithin (interval : Interval) : Nat → Float → List Float → Option (List Float)
  | 0, _, _ => none
  | count + 1, step, taken =>
      let value := interval.sample step
      if interval.last < value then some taken.reverse
      else samplesWithin interval count (step + 1) (value :: taken)

/-- The number of distinct steps: counting by ones in `Float`s stands still at
`2 ^ 53`, so a sampling that outlasts them never ends. -/
def distinctSteps : Nat := 9007199254740993

/-- The step at which counting by ones stands still. -/
def lastStep : Float := 9007199254740992

/-- The samples of the interval, or `none` if they never exceed its last end. A later
sample is no smaller, so the one at the last step settles whether any of them does. -/
def samples (interval : Interval) : Option (List Float) :=
  if interval.last < interval.sample lastStep then
    interval.samplesWithin distinctSteps 0 []
  else none

end Interval

/-- The interval that three arguments describe: first and last end, increment. -/
def interval : List Expression → Except Fault Interval
  | [low, high, step] => do
      let first ← low.toNumber "range"
      let last ← high.toNumber "range"
      let increment ← step.toNumber "range"
      check (first.isFinite && last.isFinite && increment.isFinite)
        (.outsideDomain "range" .notFinite)
      check (¬ last < first) (.outsideDomain "range" .emptyInterval)
      check (¬ increment ≤ 0) (.outsideDomain "range" .noProgress)
      return ⟨first, last, increment⟩
  | _ => .error (.argumentCount "range")

end PlotLisp.Sequence

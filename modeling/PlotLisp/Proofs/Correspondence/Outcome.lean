import PlotLisp.Proofs.Outcome
import Mathlib.Data.List.Forall2

/-!
# Matching outcomes

Two computations are compared by their outcomes: both end in values that match, or both
in faults that do. What counts as matching is a parameter, and a sequence of steps
matches as soon as each of its steps does. Attempts may also give up, which they have to
do together.
-/

namespace PlotLisp

variable {α β γ δ : Type} {Faults : Fault → Fault → Prop}

/-- Both outcomes are values that match, or both are faults that do. -/
inductive Matches (Faults : Fault → Fault → Prop) (Values : α → β → Prop) :
    Except Fault α → Except Fault β → Prop where
  | ok {value : α} {other : β} (values : Values value other) :
      Matches Faults Values (.ok value) (.ok other)
  | error {fault other : Fault} (faults : Faults fault other) :
      Matches Faults Values (.error fault) (.error other)

/-- What matches also matches in a weaker sense. -/
theorem optionRel_imp {Related Results : α → β → Prop} {left : Option α} {right : Option β}
    (related : Option.Rel Related left right)
    (each : ∀ value other, Related value other → Results value other) :
    Option.Rel Results left right := by
  cases related with
  | none => exact .none
  | some related => exact .some (each _ _ related)

/-- What is made of two matching results matches. -/
theorem optionRel_map {Related : α → β → Prop} {Results : γ → δ → Prop} {left : Option α}
    {right : Option β} {make : α → γ} {makeRight : β → δ} (related : Option.Rel Related left right)
    (each : ∀ value other, Related value other → Results (make value) (makeRight other)) :
    Option.Rel Results (left.map make) (right.map makeRight) := by
  cases related with
  | none => exact .none
  | some related => exact .some (each _ _ related)

/-- What matches as soon as it looks the same does so element by element. -/
theorem forall₂_view_eq_iff {Holds : α → Prop} {view : α → γ} {items others : List α} :
    List.Forall₂ (fun item other => Holds item ∧ view item = view other) items others ↔
      (∀ item ∈ items, Holds item) ∧ items.map view = others.map view := by
  have viewed : List.Forall₂ Eq (items.map view) (others.map view) ↔
      items.map view = others.map view := by
    rw [List.forall₂_eq_eq_eq]
  rw [List.forall₂_map_left_iff, List.forall₂_map_right_iff] at viewed
  rw [List.forall₂_and_left, viewed]

/-- What matches only what it is turned into does so element by element. -/
theorem forall₂_eq_map_iff {change : α → β} {items : List α} {others : List β} :
    List.Forall₂ (fun item other => other = change item) items others ↔
      others = items.map change := by
  rw [@eq_comm _ others, ← List.forall₂_eq_eq_eq, List.forall₂_map_left_iff]
  simp only [eq_comm]

/-- What matches only itself does so element by element. -/
theorem forall₂_eq_iff {Holds : α → Prop} {items others : List α} :
    List.Forall₂ (fun item other => Holds item ∧ item = other) items others ↔
      (∀ item ∈ items, Holds item) ∧ items = others := by
  rw [List.forall₂_and_left, List.forall₂_eq_eq_eq]

/-- Elements at the same index of matching sequences match, and there is none in one of
them where there is none in the other. -/
theorem forall₂_getElem? {Related : α → β → Prop} {items : List α} {others : List β}
    (related : List.Forall₂ Related items others) (index : Nat) :
    Option.Rel Related items[index]? others[index]? := by
  induction related generalizing index with
  | nil => exact .none
  | cons first _ inductionHypothesis =>
      cases index with
      | zero => exact .some first
      | succ index => simpa using inductionHypothesis index

/-- Matching elements may take the place of others at the same index. -/
theorem forall₂_set {Related : α → β → Prop} {items : List α} {others : List β} {item : α}
    {other : β} (related : List.Forall₂ Related items others) (index : Nat)
    (new : Related item other) :
    List.Forall₂ Related (items.set index item) (others.set index other) := by
  induction related generalizing index with
  | nil => exact .nil
  | cons first rest inductionHypothesis =>
      cases index with
      | zero => exact .cons new rest
      | succ index => exact .cons first (inductionHypothesis index)

/-- Searching for what satisfies conditions that agree on matching elements. -/
theorem forall₂_find? {Related : α → β → Prop} {items : List α} {others : List β}
    {condition : α → Bool} {conditionRight : β → Bool}
    (agree : ∀ item other, Related item other → condition item = conditionRight other)
    (related : List.Forall₂ Related items others) :
    Option.Rel Related (items.find? condition) (others.find? conditionRight) := by
  induction related with
  | nil => exact .none
  | @cons item other _ _ first _ inductionHypothesis =>
      rw [List.find?_cons, List.find?_cons, agree item other first]
      split
      · exact .some first
      · exact inductionHypothesis

namespace Matches

variable {Values : α → β → Prop} {Results : γ → δ → Prop}

/-- Outcomes that match closely match loosely as well. -/
theorem imp {Others : α → β → Prop} {left : Except Fault α} {right : Except Fault β}
    (weaker : ∀ value other, Values value other → Others value other)
    (matching : Matches Faults Values left right) : Matches Faults Others left right := by
  cases matching with
  | ok values => exact .ok (weaker _ _ values)
  | error faults => exact .error faults

/-- Outcomes look the same where only equal faults and values of the same look match. -/
theorem map_eq {view : α → γ} {viewRight : β → γ} {left : Except Fault α} {right : Except Fault β}
    (matching : Matches Faults Values left right)
    (faults : ∀ fault other, Faults fault other → fault = other)
    (values : ∀ value other, Values value other → view value = viewRight other) :
    left.map view = right.map viewRight := by
  cases matching with
  | ok same => exact congrArg Except.ok (values _ _ same)
  | error same => exact congrArg Except.error (faults _ _ same)

/-- Outcomes are equal where only equal values and equal faults match. -/
theorem eq {Values : α → α → Prop} {left right : Except Fault α}
    (matching : Matches Faults Values left right)
    (faults : ∀ fault other, Faults fault other → fault = other)
    (values : ∀ value other, Values value other → value = other) : left = right := by
  have same : left.map id = right.map id := matching.map_eq faults values
  rwa [Except.map_id, id, id] at same

/-- Steps that match, one after the other. -/
theorem bind {left : Except Fault α} {right : Except Fault β} {next : α → Except Fault γ}
    {nextRight : β → Except Fault δ} (first : Matches Faults Values left right)
    (second : ∀ value other, Values value other →
      Matches Faults Results (next value) (nextRight other)) :
    Matches Faults Results (left >>= next) (right >>= nextRight) := by
  cases first with
  | ok values => exact second _ _ values
  | error faults => exact .error faults

/-- The same outcome matches itself if its fault does. -/
theorem refl {outcome : Except Fault α} (faults : ∀ fault, outcome = .error fault →
    Faults fault fault) : Matches Faults Eq outcome outcome := by
  cases outcome with
  | ok value => exact .ok rfl
  | error fault => exact .error (faults fault rfl)

/-- The same check, which lets nothing pass but what satisfies it. -/
theorem check {condition : Bool} {fault other : Fault} (faults : Faults fault other) :
    Matches Faults (fun _ _ => condition = true) (check condition fault)
      (check condition other) := by
  cases condition with
  | true => exact .ok rfl
  | false => exact .error faults

/-- Steps that match, taken over matching items in order, give matching lists of results or
matching faults at the same item. -/
theorem mapM {step : α → Except Fault γ} {stepRight : β → Except Fault δ} {items : List α}
    {others : List β}
    (each : ∀ item other, Values item other →
      Matches Faults Results (step item) (stepRight other))
    (related : List.Forall₂ Values items others) :
    Matches Faults (List.Forall₂ Results) (items.mapM step) (others.mapM stepRight) := by
  induction related with
  | nil => exact .ok .nil
  | cons first _ inductionHypothesis =>
      rw [List.mapM_cons, List.mapM_cons]
      refine bind (each _ _ first) fun result other results => ?_
      exact bind inductionHypothesis fun _ _ rest => .ok (.cons results rest)

/-- A fold whose accumulator is the same on both sides. -/
theorem foldlM {step : γ → α → Except Fault γ} {stepRight : γ → β → Except Fault γ}
    {items : List α} {others : List β} {start : γ}
    (each : ∀ state item other, Values item other →
      Matches Faults Eq (step state item) (stepRight state other))
    (related : List.Forall₂ Values items others) :
    Matches Faults Eq (items.foldlM step start) (others.foldlM stepRight start) := by
  induction related generalizing start with
  | nil => exact .ok rfl
  | cons first _ inductionHypothesis =>
      rw [List.foldlM_cons, List.foldlM_cons]
      refine bind (each start _ _ first) fun state other same => ?_
      exact same ▸ inductionHypothesis

end Matches

namespace Attempt

/-- A computation in any monad with faults, run as an attempt. -/
theorem monadExcept_ofExcept (outcome : Except Fault α) :
    (MonadExcept.ofExcept outcome : Attempt α) = .ofExcept outcome := by
  cases outcome <;> rfl

/-- Both attempts give up, or both end and their outcomes match. -/
def Matches (Faults : Fault → Fault → Prop) (Values : α → β → Prop) (left : Attempt α)
    (right : Attempt β) : Prop :=
  Option.Rel (PlotLisp.Matches Faults Values) left.run right.run

namespace Matches

variable {Values : α → β → Prop} {Results : γ → δ → Prop}

/-- Attempts that only give matching values match. -/
theorem pure {value : α} {other : β} (values : Values value other) :
    Matches Faults Values (pure value) (pure other) :=
  .some (.ok values)

/-- Attempts that only raise matching faults match. -/
theorem throw {fault other : Fault} (faults : Faults fault other) :
    Matches Faults Values (throw fault) (throw other) :=
  .some (.error faults)

/-- Matching outcomes are matching attempts. -/
theorem ofExcept {left : Except Fault α} {right : Except Fault β}
    (matching : PlotLisp.Matches Faults Values left right) :
    Matches Faults Values (.ofExcept left) (.ofExcept right) :=
  .some matching

/-- The same value on both sides, or none on either. -/
theorem ofOption (value : Option α) :
    Matches Faults Eq (.ofOption value) (.ofOption value) := by
  cases value with
  | none => exact .none
  | some value => exact .some (.ok rfl)

/-- Steps that match, one after the other. -/
theorem bind {left : Attempt α} {right : Attempt β} {next : α → Attempt γ}
    {nextRight : β → Attempt δ} (first : Matches Faults Values left right)
    (second : ∀ value other, Values value other →
      Matches Faults Results (next value) (nextRight other)) :
    Matches Faults Results (left >>= next) (right >>= nextRight) := by
  unfold Matches at first ⊢
  rw [run_bind, run_bind]
  cases first with
  | none => exact .none
  | some outcomes =>
      cases outcomes with
      | ok values => exact second _ _ values
      | error faults => exact .some (.error faults)

/-- The same steps with matching results, in order. -/
theorem mapM {step : α → Attempt γ} {stepRight : α → Attempt δ} (items : List α)
    (each : ∀ item, Matches Faults Results (step item) (stepRight item)) :
    Matches Faults (List.Forall₂ Results) (items.mapM step) (items.mapM stepRight) := by
  induction items with
  | nil => exact pure .nil
  | cons item rest inductionHypothesis =>
      rw [List.mapM_cons, List.mapM_cons]
      refine bind (each item) fun result other results => ?_
      exact bind inductionHypothesis fun _ _ others => pure (.cons results others)

end Matches

end Attempt

end PlotLisp

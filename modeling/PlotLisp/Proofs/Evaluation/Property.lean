import PlotLisp.Proofs.Evaluation.Operands

/-!
# Properties as lenses

`set-property` attaches one value to another under a tag, and `get-property` reads it. In every
environment they are a lens on the value of their last child: what was set is what one gets, other
tags are not touched, and of two settings under one tag the later one counts.
-/

namespace PlotLisp

open Expression

namespace Turn.EndsLike

variable {α β : Type} {evaluate : Evaluator} {environment : Environment}

/-- The value is evaluated before the target. What becomes of the target is not read. -/
theorem setProperty (tag : String) (source target : Expression) :
    (Forms.setProperty evaluate).EndsLike ⟨[.literal tag, source, target], environment⟩
      ((evaluate.ending source environment).andThen fun property middle =>
        (evaluate.ending target middle).andThen fun value after =>
          some (.ok (value.withProperty tag property), after)) := by
  unfold Forms.setProperty
  apply @step _ _ _ _ _ _ () rfl
  apply step (runOn_child _ 0)
  apply @step _ _ _ _ _ _ tag rfl
  apply evaluateChild_bind
  intro property program middle _
  apply evaluateChild_bind
  intro value program after _
  apply step (runOn_child _ 2)
  exact ⟨_, rfl⟩

/-- The target is evaluated and its property read; the absent expression stands for a
missing one. -/
theorem getProperty (tag : String) (target : Expression) :
    (Forms.getProperty evaluate).EndsLike ⟨[.literal tag, target], environment⟩
      ((evaluate.ending target environment).andThen fun value after =>
        some (.ok ((value.property? tag).getD .absent), after)) := by
  unfold Forms.getProperty
  apply @step _ _ _ _ _ _ () rfl
  apply step (runOn_child _ 0)
  apply @step _ _ _ _ _ _ tag rfl
  apply bind (evaluateChild evaluate 1)
  intro value children after
  exact pure _

end Turn.EndsLike

/-- The value of the source is attached to the value of the target. -/
def setting (tag : String) (source target : Expression) : Expression :=
  .form (.symbol Keyword.setProperty.name) [.literal tag, source, target]

/-- The property of the value of the target is read. -/
def getting (tag : String) (target : Expression) : Expression :=
  .form (.symbol Keyword.getProperty.name) [.literal tag, target]

variable {environment after : Environment} {tag other : String} {source target value : Expression}

/-- What a setting ends in, one depth above its parts: the source is evaluated first, then
the target. -/
theorem ending_setting (tag : String) (source target : Expression) (environment : Environment)
    (depth : Nat) :
    (evaluate (depth + 1)).ending (setting tag source target) environment =
      ((evaluate depth).ending source environment).andThen fun property middle =>
        ((evaluate depth).ending target middle).andThen fun value after =>
          some (.ok (value.withProperty tag property), after) := by
  apply ending_of_endsLike (.inl (by simp))
  rw [Forms.named, Keyword.ofName?_name]
  exact Turn.EndsLike.setProperty tag source target

/-- What a reading ends in, one depth above its target. -/
theorem ending_getting (tag : String) (target : Expression) (environment : Environment)
    (depth : Nat) :
    (evaluate (depth + 1)).ending (getting tag target) environment =
      ((evaluate depth).ending target environment).andThen fun value after =>
        some (.ok ((value.property? tag).getD .absent), after) := by
  apply ending_of_endsLike (.inl (by simp))
  rw [Forms.named, Keyword.ofName?_name]
  exact Turn.EndsLike.getProperty tag target

/-- Setting has a value if and only if the source and then the target have one. -/
theorem ends_setting_iff :
    (setting tag source target).Ends environment (.ok value) after ↔
      ∃ property middle result, source.Ends environment (.ok property) middle ∧
        target.Ends middle (.ok result) after ∧ value = result.withProperty tag property := by
  constructor
  · intro ended
    obtain ⟨depth, ended⟩ := ended.exists_succ
    rw [ending_setting] at ended
    obtain ⟨property, middle, first, rest⟩ := Ending.andThen_eq_ok ended
    obtain ⟨result, final, second, last⟩ := Ending.andThen_eq_ok rest
    cases last
    exact ⟨property, middle, result, ⟨depth, first⟩, ⟨depth, second⟩, rfl⟩
  · rintro ⟨property, middle, result, ⟨depth, first⟩, ⟨depth', second⟩, rfl⟩
    refine ⟨max depth depth' + 1, ?_⟩
    rw [ending_setting, Evaluator.ending_of_le (Nat.le_max_left _ _) first, Ending.ok_andThen,
      Evaluator.ending_of_le (Nat.le_max_right _ _) second, Ending.ok_andThen]

/-- Reading has a value if and only if the target has one: the property, or the absent
expression. -/
theorem ends_getting_iff :
    (getting tag target).Ends environment (.ok value) after ↔
      ∃ result, target.Ends environment (.ok result) after ∧
        value = (result.property? tag).getD .absent := by
  constructor
  · intro ended
    obtain ⟨depth, ended⟩ := ended.exists_succ
    rw [ending_getting] at ended
    obtain ⟨result, final, first, last⟩ := Ending.andThen_eq_ok ended
    cases last
    exact ⟨result, ⟨depth, first⟩, rfl⟩
  · rintro ⟨result, ⟨depth, first⟩, rfl⟩
    exact ⟨depth + 1, by rw [ending_getting, first, Ending.ok_andThen]⟩

/-! ## Laws -/

/-- What was attached under a tag is found under it. -/
theorem Expression.property?_withProperty_self (value : Expression) (tag : String)
    (property : Expression) : (value.withProperty tag property).property? tag = some property := by
  simp [property?]

/-- Attaching under one tag leaves the others alone. -/
theorem Expression.property?_withProperty_of_ne (value : Expression) (property : Expression)
    (different : other ≠ tag) :
    (value.withProperty tag property).property? other = value.property? other := by
  simp [property?, different]

/-- Attaching twice under one tag leaves the later property only. -/
theorem Expression.withProperty_overwritten (value : Expression) (tag : String)
    (former property : Expression) :
    (value.withProperty tag former).withProperty tag property =
      value.withProperty tag property := by
  cases value
  simp [withProperty]

/-- What setting and getting properties come to in an environment. -/
structure Environment.ObeysLensLaws (environment : Environment) : Prop where
  /-- What was set is what one gets, with everything that is attached to it. -/
  get_set : ∀ tag source target value after,
    (getting tag (setting tag source target)).Ends environment (.ok value) after ↔
      ∃ middle result, source.Ends environment (.ok value) middle ∧
        target.Ends middle (.ok result) after
  /-- Under another tag, one gets what one would get if the source were evaluated only. -/
  get_set_of_ne : ∀ tag other source target value after, other ≠ tag →
    ((getting other (setting tag source target)).Ends environment (.ok value) after ↔
      ∃ property middle, source.Ends environment (.ok property) middle ∧
        (getting other target).Ends middle (.ok value) after)
  /-- The later one of two settings counts, as if the earlier source were evaluated only. -/
  set_set : ∀ tag later earlier target value after,
    (setting tag later (setting tag earlier target)).Ends environment (.ok value) after ↔
      ∃ property middle former between result, later.Ends environment (.ok property) middle ∧
        earlier.Ends middle (.ok former) between ∧ target.Ends between (.ok result) after ∧
        value = result.withProperty tag property
  /-- Nothing is set but the one property. -/
  set_only : ∀ tag source target value after,
    (setting tag source target).Ends environment (.ok value) after →
      ∃ property middle result, source.Ends environment (.ok property) middle ∧
        target.Ends middle (.ok result) after ∧
        value.head = result.head ∧ value.children = result.children ∧
        value.property? tag = some property ∧
        ∀ other, other ≠ tag → value.property? other = result.property? other

/-- The lens laws hold in every environment, since the source and the target are evaluated once
each and in order. -/
theorem Environment.obeysLensLaws (environment : Environment) : environment.ObeysLensLaws where
  get_set tag source target value after := by
    simp only [ends_getting_iff, ends_setting_iff]
    constructor
    · rintro ⟨_, ⟨property, middle, result, first, second, rfl⟩, rfl⟩
      rw [property?_withProperty_self, Option.getD_some]
      exact ⟨middle, result, first, second⟩
    · rintro ⟨middle, result, first, second⟩
      exact ⟨_, ⟨value, middle, result, first, second, rfl⟩,
        by rw [property?_withProperty_self, Option.getD_some]⟩
  get_set_of_ne tag other source target value after different := by
    simp only [ends_getting_iff, ends_setting_iff]
    constructor
    · rintro ⟨_, ⟨property, middle, result, first, second, rfl⟩, rfl⟩
      rw [property?_withProperty_of_ne _ _ different]
      exact ⟨property, middle, first, result, second, rfl⟩
    · rintro ⟨property, middle, first, result, second, rfl⟩
      exact ⟨_, ⟨property, middle, result, first, second, rfl⟩,
        by rw [property?_withProperty_of_ne _ _ different]⟩
  set_set tag later earlier target value after := by
    simp only [ends_setting_iff]
    constructor
    · rintro ⟨property, middle, _, first, ⟨former, between, result, second, third, rfl⟩, rfl⟩
      exact ⟨property, middle, former, between, result, first, second, third,
        by rw [withProperty_overwritten]⟩
    · rintro ⟨property, middle, former, between, result, first, second, third, rfl⟩
      exact ⟨property, middle, _, first, ⟨former, between, result, second, third, rfl⟩,
        by rw [withProperty_overwritten]⟩
  set_only tag source target value after ended := by
    obtain ⟨property, middle, result, first, second, rfl⟩ := ends_setting_iff.mp ended
    exact ⟨property, middle, result, first, second, head_withProperty _ _ _,
      children_withProperty _ _ _, property?_withProperty_self _ _ _,
      fun other different => property?_withProperty_of_ne _ _ different⟩

end PlotLisp

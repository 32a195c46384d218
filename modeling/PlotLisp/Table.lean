/-!
# Finite tables from names to values

A table is a sequence of entries with distinct keys. Writing a key that is already
present replaces its value in place, so writing the same entry twice is the same
as writing it once, and no other key is affected.
-/

namespace PlotLisp

/-- A finite map from names to values, in the order in which its names first
appeared. -/
inductive Table (α : Type) where
  | empty
  | entry (key : String) (value : α) (rest : Table α)
  deriving DecidableEq

namespace Table

variable {α : Type}

/-- The value under a key, if there is one. -/
def find? : Table α → String → Option α
  | empty, _ => none
  | entry key value rest, name => if key = name then some value else rest.find? name

/-- The table with a value under a key, replacing the value that was there. -/
def insert : Table α → String → α → Table α
  | empty, name, new => entry name new empty
  | entry key value rest, name, new =>
      if key = name then entry key new rest else entry key value (rest.insert name new)

/-- The entries in order. -/
def toList : Table α → List (String × α)
  | empty => []
  | entry key value rest => (key, value) :: rest.toList

/-- The table with the given entries, a later entry replacing an earlier one. -/
def ofList (entries : List (String × α)) : Table α :=
  entries.foldl (fun table (key, value) => table.insert key value) empty

/-- Whether a key has a value. -/
def contains (table : Table α) (name : String) : Bool :=
  (table.find? name).isSome

/-- Nothing is found in an empty table. -/
@[simp] theorem find?_empty (name : String) : (empty : Table α).find? name = none :=
  rfl

/-- A key that was just written has the new value. -/
@[simp] theorem find?_insert_self (table : Table α) (name : String) (value : α) :
    (table.insert name value).find? name = some value := by
  induction table with
  | empty => simp [insert, find?]
  | entry key old rest inductionHypothesis =>
      by_cases same : key = name <;> simp [insert, find?, same, inductionHypothesis]

/-- Writing one key leaves the value of every other key as it was. -/
@[simp] theorem find?_insert_of_ne (table : Table α) {name other : String} (value : α)
    (different : other ≠ name) :
    (table.insert name value).find? other = table.find? other := by
  induction table with
  | empty => simp [insert, find?, different.symm]
  | entry key old rest inductionHypothesis =>
      by_cases same : key = name
      · subst same
        simp [insert, find?, different.symm]
      · simp only [insert, same, ↓reduceIte, find?, inductionHypothesis]

/-- Writing a key a second time forgets the first value, order included. -/
@[simp] theorem insert_insert (table : Table α) (name : String) (first second : α) :
    (table.insert name first).insert name second = table.insert name second := by
  induction table with
  | empty => simp [insert]
  | entry key old rest inductionHypothesis =>
      by_cases same : key = name <;> simp [insert, same, inductionHypothesis]

end Table

end PlotLisp

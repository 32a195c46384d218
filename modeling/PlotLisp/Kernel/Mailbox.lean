/-!
# Mailboxes

An unbounded queue: items leave in the order in which they came.
-/

namespace PlotLisp

/-- The items that wait, the oldest first. -/
structure Mailbox (α : Type) where
  items : List α
  deriving DecidableEq

namespace Mailbox

variable {α : Type}

/-- No items. -/
def empty : Mailbox α :=
  ⟨[]⟩

/-- Adds an item behind all others. -/
def push (mailbox : Mailbox α) (item : α) : Mailbox α :=
  ⟨mailbox.items ++ [item]⟩

/-- The oldest item and the mailbox without it, if there is one. -/
def pop? (mailbox : Mailbox α) : Option (α × Mailbox α) :=
  match mailbox.items with
  | [] => none
  | item :: rest => some (item, ⟨rest⟩)

/-- Whether no items wait. -/
def isEmpty (mailbox : Mailbox α) : Bool :=
  mailbox.items.isEmpty

/-- The mailbox with only the items that satisfy a condition. -/
def filter (mailbox : Mailbox α) (condition : α → Bool) : Mailbox α :=
  ⟨mailbox.items.filter condition⟩

end Mailbox

end PlotLisp

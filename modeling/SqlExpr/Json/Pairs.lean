import SqlExpr.Json.Shape

/-! # Pairs

A pair is a list of its two items, or a record with a field for each of them. Such a record may be written
as the list, too.
-/
namespace SqlExpr.Json

variable {α β : Type}

/-- The next item of a list that must have `expected` at its place `index`. -/
def required (index : Nat) (expected : String) (item : Reader α) : Reader α := do
  if ← nextItem (index == 0) then item
  else Reader.refuse (.wrongLength index expected)

/-- Both items of a list, its opening bracket being read. -/
def both (expected : String) (first : Reader α) (second : Reader β) : Reader (α × β) := do
  let a ← required 0 expected first
  let b ← required 1 expected second
  return (a, b)

def pair (expected : String) (first : Reader α) (second : Reader β) : Reader (α × β) :=
  list expected (both expected first second)

/-! ## Records of two fields -/

structure Fields (α β : Type) where
  first : Option α := none
  second : Option β := none

/-- The next of two fields, each given by its name and the reader of its content. -/
def fieldOf (first : String × Reader α) (second : String × Reader β) (f : Fields α β) (name : String) :
    Reader (Fields α β) :=
  if name = first.1 then
    return { f with first := some (← onceField name f.first first.2) }
  else if name = second.1 then
    return { f with second := some (← onceField name f.second second.2) }
  else do
    unknownField
    return f

def bothFields (first : String × Reader α) (second : String × Reader β) : Reader (α × β) := do
  match ← fields (fieldOf first second) {} with
  | ⟨some a, some b⟩ => return (a, b)
  | ⟨none, _⟩ => Reader.refuse (.missingField first.1)
  | ⟨_, none⟩ => Reader.refuse (.missingField second.1)

def pairRecord (expected : String) (first : String × Reader α) (second : String × Reader β) :
    Reader (α × β) :=
  record expected (both expected first.2 second.2) (bothFields first second)

end SqlExpr.Json

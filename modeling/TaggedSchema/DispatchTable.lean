import TaggedSchema.Tag

/-!
# Dispatch tables

Which branch a tag selects. A tag is entered once; entering it again is refused and changes nothing.
-/

namespace TaggedSchema

/-- Tags and their branches, in the order of entry. -/
structure DispatchTable where
  rows : List (Tag × Nat)
deriving DecidableEq

namespace DispatchTable

/-- A tag that is not entered, and the branch that has it. -/
structure Refusal where
  tag : Tag
  holder : Nat
deriving DecidableEq

/-- A refusal, read as a branch. -/
instance : Coe Refusal Nat := ⟨Refusal.holder⟩

/-- No tags. -/
def empty : DispatchTable := ⟨[]⟩

/-- The branch of a tag. -/
def get? (t : DispatchTable) (tag : Tag) : Option Nat := t.rows.lookup tag

/-- Enters a tag. If it has a branch already, it is refused. -/
def insert (t : DispatchTable) (tag : Tag) (branch : Nat) : Except Refusal DispatchTable :=
  match t.get? tag with
  | some holder => .error ⟨tag, holder⟩
  | none => .ok ⟨t.rows ++ [(tag, branch)]⟩

/-- The number of tags. -/
def size (t : DispatchTable) : Nat := t.rows.length

/-- Whether there is no tag. -/
def isEmpty (t : DispatchTable) : Bool := t.rows.isEmpty

/-- The order of rows: by branch, and of one branch by the text of the tag. -/
def rowLe (a b : Tag × Nat) : Bool := a.2 < b.2 || (a.2 == b.2 && a.1.text ≤ b.1.text)

/-- The tags and their branches, in the order of rows. -/
def entries (t : DispatchTable) : List (Tag × Nat) := t.rows.mergeSort rowLe

end DispatchTable

end TaggedSchema

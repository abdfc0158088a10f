/-!
# Finite maps and groups

A finite map keeps values by keys. It is a list of entries; where a key has
several, the first one counts, and putting a value takes the others out.

A map whose values are lists keeps a **group** of members for each key. A key
without members is no key of it.
-/

namespace Tablespace

/-- **A finite map**: keys with their values. -/
structure Assoc (κ α : Type) where
  /-- The keys and their values. -/
  entries : List (κ × α)
  deriving DecidableEq

namespace Assoc

variable {κ α : Type} [DecidableEq κ]

/-- The map without keys. -/
def empty : Assoc κ α := ⟨[]⟩

/-- **The value of a key.** -/
def get? (m : Assoc κ α) (key : κ) : Option α :=
  (m.entries.find? (·.1 = key)).map (·.2)

/-- The map without the value of a key. -/
def erase (m : Assoc κ α) (key : κ) : Assoc κ α :=
  ⟨m.entries.filter (·.1 ≠ key)⟩

/-- The map with a value for a key, in the place of the old one. -/
def insert (m : Assoc κ α) (key : κ) (value : α) : Assoc κ α :=
  ⟨(key, value) :: (m.erase key).entries⟩

/-! ## Groups -/

/-- **The members of the group of a key.** -/
def group (m : Assoc κ (List α)) (key : κ) : List α :=
  (m.get? key).getD []

variable [DecidableEq α]

/-- The map with one more member in the group of a key. -/
def add (m : Assoc κ (List α)) (key : κ) (member : α) : Assoc κ (List α) :=
  if member ∈ m.group key then m else m.insert key (member :: m.group key)

/-- The map with a member less in the group of a key. A group that has become
empty is taken out. -/
def remove (m : Assoc κ (List α)) (key : κ) (member : α) : Assoc κ (List α) :=
  match (m.group key).filter (· ≠ member) with
  | [] => m.erase key
  | others => m.insert key others

end Assoc

end Tablespace

import HtmlTemplate.Value.Basic

namespace HtmlTemplate

/-!
# Assigns

The values a template is rendered with, by name and in the order of the names.
-/

/-- Named values, sorted by name and without a repeated name. -/
structure Assigns where
  entries : List (String × Value) := []

namespace Assigns

/-- Add or replace a value. -/
def insert (assigns : Assigns) (name : String) (value : Value) : Assigns :=
  ⟨insertEntry name value assigns.entries⟩

/-- Assigns from pairs in any order; the last pair of a name counts. -/
def ofPairs (pairs : List (String × Value)) : Assigns :=
  pairs.foldl (fun assigns pair => assigns.insert pair.1 pair.2) {}

/-- The value of a name, if there is one. -/
def get? (assigns : Assigns) (name : String) : Option Value :=
  lookUp? name assigns.entries

/-- All names, in order. -/
def names (assigns : Assigns) : List String :=
  assigns.entries.map Prod.fst

/-- The value of a name.  The error lists all names that are there. -/
def fetch (assigns : Assigns) (name : String) : Except Error Value :=
  match assigns.get? name with
  | some value => .ok value
  | none => .error (.missingAssign name assigns.names)

/-- Whether there is a value of a name. -/
def contains (assigns : Assigns) (name : String) : Bool :=
  (assigns.get? name).isSome

/-- How many values there are. -/
def size (assigns : Assigns) : Nat :=
  assigns.entries.length

@[simp] theorem get?_insert_self (assigns : Assigns) (name : String) (value : Value) :
    (assigns.insert name value).get? name = some value :=
  lookUp?_insertEntry_self name value assigns.entries

/-- A new value changes no other name. -/
theorem get?_insert_of_ne {name other : String} (different : other ≠ name) (assigns : Assigns)
    (value : Value) : (assigns.insert name value).get? other = assigns.get? other :=
  lookUp?_insertEntry_of_ne different value assigns.entries

/-- Fetching succeeds exactly for the names that are there. -/
theorem fetch_eq_ok_iff (assigns : Assigns) (name : String) (value : Value) :
    assigns.fetch name = .ok value ↔ assigns.get? name = some value := by
  unfold fetch
  split <;> simp_all

end Assigns
end HtmlTemplate

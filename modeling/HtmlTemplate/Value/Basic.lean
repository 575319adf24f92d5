import HtmlTemplate.Calendar
import HtmlTemplate.Error
import HtmlTemplate.Markup

namespace HtmlTemplate

/-!
# Values

What templates compute with.  A keyword list is a list of pairs of an atom and
a value; it has no constructor of its own.  A map is an association list,
sorted by key and without a repeated key, which `Value.ofPairs` establishes.
-/

/-- What an application object shows besides its fields.  Two objects are the
same only if they have the same identity. -/
structure ObjectInfo where
  identity : Nat
  typeName : String
  description : String
  markup : Except Error Markup

/-- A value of a template. -/
inductive Value where
  | nil
  | bool (value : Bool)
  | int (value : Int64)
  | float (value : Float)
  | str (text : String)
  | atom (name : String)
  | list (items : List Value)
  | tuple (items : List Value)
  | map (entries : List (String × Value))
  | markup (content : Markup)
  | date (value : Date)
  | time (value : TimeOfDay)
  | dateTime (value : DateTime)
  | zonedDateTime (value : ZonedDateTime)
  | object (info : ObjectInfo) (fields : List (String × Value))

instance : Inhabited Value := ⟨.nil⟩

/-- A whole number as a 64-bit integer, if it is in range. -/
def int64? (value : Int) : Option Int64 :=
  if Int64.minValue.toInt ≤ value ∧ value ≤ Int64.maxValue.toInt then some (Int64.ofInt value)
  else none

/-- A byte, if an integer is one. -/
def byte? (value : Int64) : Option UInt8 :=
  if 0 ≤ value.toInt ∧ value.toInt < 256 then some (UInt8.ofNat value.toInt.toNat) else none

/-- Put an entry into a sorted association list, replacing one of its key. -/
def insertEntry {α : Type} (key : String) (value : α) : List (String × α) -> List (String × α)
  | [] => [(key, value)]
  | entry :: rest =>
      if key < entry.1 then (key, value) :: entry :: rest
      else if key = entry.1 then (key, value) :: rest
      else entry :: insertEntry key value rest

/-- The value of a key in an association list. -/
def lookUp? {α : Type} (key : String) (entries : List (String × α)) : Option α :=
  (entries.find? fun entry => entry.1 == key).map Prod.snd

/-- Looking up the key that was put in finds its value. -/
@[simp] theorem lookUp?_insertEntry_self {α : Type} (key : String) (value : α)
    (entries : List (String × α)) :
    lookUp? key (insertEntry key value entries) = some value := by
  induction entries with
  | nil => simp [insertEntry, lookUp?]
  | cons entry rest ih =>
    unfold insertEntry
    split
    · simp [lookUp?]
    · split
      · simp [lookUp?]
      · rename_i different
        simp only [lookUp?] at ih ⊢
        rw [List.find?_cons_of_neg (by simpa using fun same => different same.symm)]
        exact ih

/-- Putting a key in changes what is found for no other key. -/
theorem lookUp?_insertEntry_of_ne {α : Type} {key other : String} (different : other ≠ key)
    (value : α) (entries : List (String × α)) :
    lookUp? other (insertEntry key value entries) = lookUp? other entries := by
  induction entries with
  | nil => simp [insertEntry, lookUp?, Ne.symm different]
  | cons entry rest ih =>
    unfold insertEntry
    split
    · simp [lookUp?, Ne.symm different]
    · split
      · rename_i same
        simp [lookUp?, Ne.symm different, ← same]
      · simp only [lookUp?, List.find?_cons] at ih ⊢
        split
        · rfl
        · exact ih

namespace Value

/-- A map from pairs in any order; the last pair of a key counts. -/
def ofPairs (pairs : List (String × Value)) : Value :=
  .map (pairs.foldl (fun entries pair => insertEntry pair.1 pair.2 entries) [])

/-- One pair of a keyword list. -/
def keywordPair (key : String) (value : Value) : Value :=
  .tuple [.atom key, value]

/-- A keyword list, in the order given and with repeated keys kept. -/
def keywords (pairs : List (String × Value)) : Value :=
  .list (pairs.map fun pair => keywordPair pair.1 pair.2)

/-- Only `nil` and `false` are falsy. -/
def isTruthy : Value -> Bool
  | .nil => false
  | .bool value => value
  | _ => true

/-- Whether a value is `nil`. -/
def isNil : Value -> Bool
  | .nil => true
  | _ => false

/-- The text of a string or an atom. -/
def text? : Value -> Option String
  | .str text => some text
  | .atom name => some name
  | _ => none

/-- The name of a value's type, as messages show it. -/
def typeName : Value -> String
  | .nil => "nil"
  | .bool _ => "boolean"
  | .int _ => "integer"
  | .float _ => "float"
  | .str _ => "string"
  | .atom _ => "atom"
  | .list _ => "list"
  | .tuple _ => "tuple"
  | .map _ => "map"
  | .markup _ => "safe"
  | .date _ => "date"
  | .time _ => "time"
  | .dateTime _ => "naive datetime"
  | .zonedDateTime _ => "datetime"
  | .object info _ => info.typeName

/-- The key and value of a pair of a keyword list. -/
def asKeyword? : Value -> Option (String × Value)
  | .tuple [.atom key, value] => some (key, value)
  | _ => none

/-- The pairs of a keyword list.  The empty list is one. -/
def asKeywords? : Value -> Option (List (String × Value))
  | .list items => items.mapM asKeyword?
  | _ => none

end Value
end HtmlTemplate

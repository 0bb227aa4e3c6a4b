import FeatureFile.Text.Basic

/-!
# JSON values

Objects keep their fields in order. A field that is given more than once stands where it was given
first, with the value that was given last.
-/

namespace FeatureFile

/-- A JSON value. Numbers that are not integers are kept as they are written. -/
inductive Json where
  | null
  | bool (value : Bool)
  | int (value : Int)
  | decimal (literal : Text)
  | str (text : Text)
  | arr (items : List Json)
  | obj (fields : List (Text × Json))
  deriving Repr, Inhabited

namespace Json

/-- The field of that name, if the value is an object that has it. -/
def get? (name : String) : Json → Option Json
  | obj fields => (fields.reverse.find? fun f => f.1 == name.toList).map Prod.snd
  | _ => none

/-- Gives a field a value: in its place if there is such a field, and else at the end. -/
def putField (field : Text × Json) : List (Text × Json) → List (Text × Json)
  | [] => [field]
  | f :: fs => if f.1 = field.1 then field :: fs else f :: putField field fs

/-- An object from fields, given one after the other. -/
def ofFields (fields : List (Text × Json)) : Json :=
  obj (fields.foldl (fun fs f => putField f fs) [])

/-- An object from named fields. -/
def object (fields : List (String × Json)) : Json :=
  obj (fields.map fun (name, value) => (name.toList, value))

/-- A text from a string. -/
def string (s : String) : Json := str s.toList

/-- The text of a string value. -/
def text? : Json → Option Text
  | str t => some t
  | _ => none

/-- The value of an integer. -/
def int? : Json → Option Int
  | int n => some n
  | _ => none

/-- The value of a truth value. -/
def bool? : Json → Option Bool
  | bool b => some b
  | _ => none

/-- The items of an array. -/
def items? : Json → Option (List Json)
  | arr items => some items
  | _ => none

/-- Neither null nor empty nor zero nor false. -/
def isSolid : Json → Bool
  | null => false
  | bool b => b
  | int n => n != 0
  | decimal _ => true
  | str t => !t.isEmpty
  | arr items => !items.isEmpty
  | obj fields => !fields.isEmpty

end Json

end FeatureFile

import Stencil.NameMap

/-!
# Data

The data that templates are rendered with: nothing, truth values, numbers, texts, lists and records.
The fields of a record stand in the order of their names, each name once.
-/

namespace Stencil

inductive Datum
  | null
  | bool (value : Bool)
  | int (value : Int)
  | float (value : Float)
  | text (value : Text)
  | list (items : List Datum)
  | record (fields : List (Text × Datum))

namespace Datum

/-- The record of fields in any order; of fields with one name the last counts. -/
def ofFields (fields : List (Text × Datum)) : Datum := .record (NameMap.ofList fields).entries

/-- The value of a field; only records have fields. -/
def field? (name : Text) : Datum → Option Datum
  | .record fields => NameMap.lookup name fields
  | _ => none

end Datum

abbrev Variables := NameMap Datum

end Stencil

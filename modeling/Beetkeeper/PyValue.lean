/-
The Python values a request body is made of, before and after it travels as
JSON, and points in time with their UTC offset.
-/
import Mathlib.Data.List.Basic
import Beetkeeper.Utf8

/-- A Python value; floats are finite, and of an enum member its name is kept,
of any other object what `str` makes of it. -/
inductive PyValue where
  | null
  | bool (value : Bool)
  | int (value : Int)
  | float (value : Rat)
  | str (text : Utf8.Text)
  | bytes (content : List UInt8)
  | enumMember (name : Utf8.Text)
  | mapping (entries : List (String × PyValue))
  | sequence (values : List PyValue)
  | other (text : Utf8.Text)

namespace PyValue

def isNull : PyValue → Bool
  | null => true
  | _ => false

mutual

/-- `json.dumps` takes the value. -/
def isJson : PyValue → Bool
  | null | bool _ | int _ | float _ | str _ => true
  | bytes _ | enumMember _ | other _ => false
  | mapping entries => entriesJson entries
  | sequence values => valuesJson values

def entriesJson : List (String × PyValue) → Bool
  | [] => true
  | (_, value) :: rest => isJson value && entriesJson rest

def valuesJson : List PyValue → Bool
  | [] => true
  | value :: rest => isJson value && valuesJson rest

end

end PyValue

/-- An aware `datetime`: its wall-clock fields and its UTC offset, both in
microseconds. -/
structure AwareDatetime where
  wall : Int
  offset : Int
deriving Repr, DecidableEq

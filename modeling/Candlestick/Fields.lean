namespace Candlestick

-- A record by its fields under their names, in any order and among others, or by the values of its
-- fields in order.
inductive Fields (V : Type) where
  | named (entries : List (String × V))
  | placed (values : List V)

-- What can be read from the values of a kind of document.
class Datum (V : Type) where
  text? : V → Option String
  -- the name of a case, where the case is all that is to be said
  label? : V → Option String
  real? : V → Option Float
  count? : V → Option UInt64
  -- the fields of a record that has so many
  fields? : Nat → V → Option (Fields V)

namespace Fields

variable {V T : Type}

-- The value of a field, if there is one. A field that is given twice makes the record unreadable.
def value? (fields : Fields V) (place : Nat) (name : String) : Option (Option V) :=
  match fields with
  | named entries =>
    match entries.filter (·.1 = name) with
    | [] => some none
    | [(_, value)] => some (some value)
    | _ => none
  | placed values => some values[place]?

def required (fields : Fields V) (place : Nat) (name : String) (read? : V → Option T) :
    Option T := do
  match ← fields.value? place name with
  | some value => read? value
  | none => none

def orDefault (fields : Fields V) (place : Nat) (name : String) (read? : V → Option T)
    (default : T) : Option T := do
  match ← fields.value? place name with
  | some value => read? value
  | none => return default

end Fields

end Candlestick

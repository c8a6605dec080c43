import Candlestick.Fields

namespace Candlestick.Toml

-- What a date or a time says is not kept.
inductive Value where
  | text (s : String)
  | integer (i : Int)
  | real (x : Float)
  | bool (b : Bool)
  | moment
  | array (items : List Value)
  | table (entries : List (String × Value))

-- Integers have 64 bits, one of them for the sign; they are below this bound, and not below its
-- negative.
def integerBound : Nat := 0x8000000000000000

namespace Value

def text? : Value → Option String
  | text s => some s
  | _ => none

-- A case is spelled by its name, or by a table that has the name alone, with nothing in it.
def label? : Value → Option String
  | text s => some s
  | table [(name, table [])] => some name
  | table [(name, array [])] => some name
  | _ => none

def real? : Value → Option Float
  | real x => some x
  | integer i => some (Float.ofInt i)
  | _ => none

def count? : Value → Option UInt64
  | integer i => if 0 ≤ i then some (.ofNat i.toNat) else none
  | _ => none

-- Values beyond the fields of a record are passed over, and a date stands for a record without
-- fields.
def fields? (size : Nat) : Value → Option (Fields Value)
  | table entries => some (.named entries)
  | array items => some (.placed (items.take size))
  | moment => some (.placed [])
  | _ => none

end Value

instance : Datum Value where
  text? := Value.text?
  label? := Value.label?
  real? := Value.real?
  count? := Value.count?
  fields? := Value.fields?

end Candlestick.Toml

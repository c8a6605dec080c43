import Candlestick.Decimal.Style
import Candlestick.Fields

namespace Candlestick.Json

-- Texts are of code points, but an escape can spell half of a surrogate pair. A text with such a
-- half is `none`: it may stand where nobody reads it.
abbrev Text := Option String

-- Numbers are kept as they are spelled, members in their order and with repetitions.
inductive Value where
  | null
  | bool (b : Bool)
  | number (numeral : Decimal.Numeral)
  | text (text : Text)
  | array (items : List Value)
  | object (members : List (Text × Value))

namespace Value

open Decimal

def ofString (s : String) : Value := text (some s)

def ofNat (n : Nat) : Value := number (.ofNat n)

-- The fewest digits that read back; there is no number for what is not finite.
def ofDouble (x : Float) : Value :=
  match Content.ofDouble x with
  | .finite negative magnitude => number (Style.document.numeral negative magnitude)
  | .infinite _ => null
  | .nan => null

def record (fields : List (String × Value)) : Value :=
  object (fields.map fun (name, value) => (some name, value))

def text? : Value → Option String
  | text t => t
  | _ => none

-- A case is spelled by its name, or by an object that has the name alone, with null.
def label? : Value → Option String
  | text t => t
  | object [(name, null)] => name
  | _ => none

-- A number that is too large for a double is not read. Any other is assumed to be read as the
-- double nearest to it, and that written numbers read back rests on this. A reader that scales the
-- digits in doubles, to be faster, can be one double off from sixteen digits on: it may find 1.4
-- in 1.4000000000000001.
def real? : Value → Option Float
  | number n => let x := n.toDouble; if x.isFinite then some x else none
  | _ => none

def count? : Value → Option UInt64
  | number n => n.count?
  | _ => none

-- An array has no more values than the record has fields.
def fields? (size : Nat) : Value → Option (Fields Value)
  | object members => do
    return .named (← members.mapM fun (name, value) => return (← name, value))
  | array items => if items.length ≤ size then some (.placed items) else none
  | _ => none

end Value

instance : Datum Value where
  text? := Value.text?
  label? := Value.label?
  real? := Value.real?
  count? := Value.count?
  fields? := Value.fields?

end Candlestick.Json

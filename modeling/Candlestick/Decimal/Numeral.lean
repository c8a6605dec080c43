import Candlestick.Decimal.Nearest

namespace Candlestick.Decimal

-- An empty fraction stands for no fraction.
structure Numeral where
  negative : Bool
  whole : List Digit
  fraction : List Digit
  exponent : Option Int
  deriving DecidableEq, Repr

namespace Numeral

def ofNat (n : Nat) : Numeral := ⟨false, digits n, [], none⟩

-- `plus` asks for a `+` before an exponent that is not negative.
def render (plus : Bool) (n : Numeral) : List Char :=
  let sign := if n.negative then ['-'] else []
  let fraction := if n.fraction.isEmpty then [] else '.' :: chars n.fraction
  let exponent := match n.exponent with
    | none => []
    | some e => 'e' :: if 0 ≤ e ∧ plus then '+' :: intText e else intText e
  sign ++ chars n.whole ++ fraction ++ exponent

-- All digits read as one number, and the power of ten that it is to be multiplied by.
def significand (n : Numeral) : Nat := ofDigits (n.whole ++ n.fraction)

def scale (n : Numeral) : Int := n.exponent.getD 0 - n.fraction.length

-- The nearest double, infinite if the number is too large.
def toDouble (n : Numeral) : Float := nearest n.negative n.significand n.scale

-- Whether the number is written without fraction and exponent.
def isWhole (n : Numeral) : Bool := n.fraction.isEmpty && n.exponent.isNone

-- A count is a whole numeral without a sign that fits in 64 bits.
def count? (n : Numeral) : Option UInt64 :=
  if n.isWhole && !n.negative && n.significand < UInt64.size then some (.ofNat n.significand)
  else none

end Numeral

end Candlestick.Decimal

import Candlestick.Decimal.Double

namespace Candlestick

-- The four operations, the two comparisons and the few functions that an analysis uses. No law is
-- asked for, as doubles satisfy hardly any: the same expressions round on doubles as doubles do,
-- and are exact on rationals.
class Scalar (α : Type) extends Add α, Sub α, Mul α, Div α, LE α, LT α where
  decLe : DecidableLE α
  decLt : DecidableLT α
  -- the number nearest to a count
  ofCount : Nat → α
  abs : α → α
  isFinite : α → Bool
  -- an order in which any two numbers compare, for sorting
  ranksBelow : α → α → Bool

namespace Scalar

instance {α : Type} [Scalar α] : DecidableLE α := Scalar.decLe

instance {α : Type} [Scalar α] : DecidableLT α := Scalar.decLt

def zero {α : Type} [Scalar α] : α := Scalar.ofCount 0

end Scalar

-- The place of a double in the total order of its bit patterns:
-- negative NaN, -∞, …, -0, +0, …, +∞, positive NaN.
def doubleRank (x : Float) : Int :=
  let bits := x.toBits.toNat
  if bits < Decimal.signWord then bits else Decimal.signWord - 1 - (bits : Int)

instance : Scalar Float where
  decLe := inferInstance
  decLt := inferInstance
  ofCount := Float.ofNat
  abs := Float.abs
  isFinite := Float.isFinite
  ranksBelow x y := doubleRank x ≤ doubleRank y

instance : Scalar Rat where
  decLe := inferInstance
  decLt := inferInstance
  ofCount n := (n : Rat)
  abs := Rat.abs
  isFinite _ := true
  ranksBelow x y := x ≤ y

end Candlestick

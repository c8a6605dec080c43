import Candlestick.Decimal.Digits
import Candlestick.Decimal.Double

namespace Candlestick.Decimal

-- Which of two equally near decimals is taken.
inductive Tie where
  | even
  | up
  deriving DecidableEq, Repr

-- A decimal d · 10^k, d given by its digits.
structure Scaled where
  digits : List Digit
  exponent : Int
  deriving DecidableEq, Repr

-- Zeros at the end of the digits are moved into the exponent.
def Scaled.trim (x : Scaled) : Scaled :=
  let zeros := (x.digits.reverse.takeWhile (· = Digit.zero)).length
  ⟨x.digits.take (x.digits.length - zeros), x.exponent + zeros⟩

-- The decimals that round to a magnitude m · 2^q. Its neighbours are a unit 2^q away, or half a
-- unit below a power of two; measured in quarters of a unit it lies at 4m and rounds from 4m -
-- below to 4m + 2, both ends included exactly if m is even.
structure Rounding where
  centre : Nat
  low : Nat
  high : Nat
  closed : Bool
  -- the value of a quarter, as a fraction
  num : Nat
  den : Nat

def Rounding.of (x : Magnitude) : Rounding :=
  let m := x.significand
  let below := if m = hiddenBit ∧ -1074 < x.exponent then 1 else 2
  { centre := 4 * m, low := 4 * m - below, high := 4 * m + 2, closed := m % 2 = 0
    num := Nat.pow 2 x.exponent.toNat, den := 4 * Nat.pow 2 (-x.exponent).toNat }

-- Whether d · unit / den rounds to the magnitude, for a unit given over the same denominator.
def Rounding.contains (r : Rounding) (scale unit d : Nat) : Bool :=
  if r.closed then r.low * scale ≤ d * unit && d * unit ≤ r.high * scale
  else r.low * scale < d * unit && d * unit < r.high * scale

-- The multiple of 10^k that rounds to the magnitude, the nearer one if both neighbours do.
def Rounding.onGrid? (r : Rounding) (tie : Tie) (k : Int) : Option Nat :=
  let scale := r.num * Nat.pow 10 (-k).toNat
  let unit := r.den * Nat.pow 10 k.toNat
  let value := r.centre * scale
  let d := value / unit
  let rest := 2 * (value % unit)
  match r.contains scale unit d, r.contains scale unit (d + 1) with
  | false, false => none
  | true, false => some d
  | false, true => some (d + 1)
  | true, true =>
    if rest < unit then some d
    else if rest = unit ∧ tie = .even ∧ d % 2 = 0 then some d
    else some (d + 1)

-- A p with num / den < 10^p, the least one that is not below `start`.
def orderFrom (num den : Nat) : Nat → Int → Int
  | 0, start => start
  | fuel + 1, start =>
    if num * Nat.pow 10 (-start).toNat < den * Nat.pow 10 start.toNat then start
    else orderFrom num den fuel (start + 1)

-- The p with 10^(p-1) ≤ num / den < 10^p.
def order (num den : Nat) : Int :=
  orderFrom num den 4 (((num.log2 : Int) - den.log2 - 1) * 30103 / 100000 - 1)

-- Seventeen digits always suffice; the exact expansion stands behind them.
def Rounding.shortest (r : Rounding) (tie : Tie) : Scaled :=
  let p := order (r.centre * r.num) r.den
  let hit := (List.range' 1 17).findSome? fun (n : Nat) =>
    (r.onGrid? tie (p - n)).map fun d => Scaled.mk (Decimal.digits d) (p - n)
  let places := r.den.log2
  (hit.getD ⟨Decimal.digits (r.centre * r.num * Nat.pow 10 places / r.den), -places⟩).trim

def shortest (tie : Tie) (x : Magnitude) : Scaled := (Rounding.of x).shortest tie

end Candlestick.Decimal

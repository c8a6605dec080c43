import Candlestick.Decimal.Digits
import Candlestick.Decimal.Double

namespace Candlestick.Decimal

-- The whole number nearest to a quotient, a half going to the even one.
def roundHalfEven (num den : Nat) : Nat :=
  let whole := num / den
  let rest := 2 * (num % den)
  if rest < den then whole
  else if rest = den then whole + whole % 2
  else whole + 1

-- A fraction scaled by a power of two, as numerator and denominator.
def scaleByTwo (num den : Nat) (q : Int) : Nat × Nat :=
  if 0 ≤ q then (num * Nat.pow 2 q.toNat, den) else (num, den * Nat.pow 2 (-q).toNat)

-- The exponent of the binade of num / den: the q with 2^52 ≤ num / (den · 2^q) < 2^53, and at
-- least -1074.
def binade (num den : Nat) : Int :=
  let guess : Int := (num.log2 : Int) - den.log2 - 52
  let (n, d) := scaleByTwo num den (-guess)
  max (if n < hiddenBit * d then guess - 1 else guess) (-1074)

-- The word of the magnitude nearest to num / den, not below `infinityWord` if that is too large.
def nearestWord (num den : Nat) : Nat :=
  let q := binade num den
  let (n, d) := scaleByTwo num den (-q)
  Magnitude.word ⟨roundHalfEven n d, q⟩

-- The word nearest to m · 10^e. From 10^309 on a value is too large and below 10^-330 it rounds to
-- zero, whatever its digits, so that no larger power of ten is formed.
def decimalWord (m : Nat) (e : Int) : Nat :=
  let size : Int := (digits m).length + e
  if m = 0 then 0
  else if 310 ≤ size then infinityWord
  else if size ≤ -330 then 0
  else min infinityWord <|
    if 0 ≤ e then nearestWord (m * Nat.pow 10 e.toNat) 1 else nearestWord m (Nat.pow 10 (-e).toNat)

-- The double nearest to ±m · 10^e, infinite if that is too large.
def nearest (negative : Bool) (m : Nat) (e : Int) : Float := doubleOfWord negative (decimalWord m e)

end Candlestick.Decimal

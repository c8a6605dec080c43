import Candlestick.Decimal.Numeral
import Candlestick.Decimal.Shortest

namespace Candlestick.Decimal

structure Style where
  -- decimal exponents x of d.ddd · 10^x that are written without exponent: `plainFrom` ≤ x <
  -- `plainBelow`
  plainFrom : Option Int
  plainBelow : Option Int
  -- whether a whole number keeps a fraction `.0`
  fraction : Bool
  -- whether an exponent is written with its `+`
  plus : Bool
  tie : Tie

namespace Style

-- In data documents 0.00001 and 1000000000000000.0 are plain, 1e-6 and 1e+16 are not.
def document : Style := ⟨some (-5), some 16, true, true, .even⟩

-- In messages a number has no exponent and no needless fraction.
def message : Style := ⟨none, none, false, false, .up⟩

-- In settings a number has no exponent and always a fraction.
def setting : Style := ⟨none, none, true, false, .up⟩

-- In listings 0.0001 and 1000000000000000.0 are plain, 1e-5 and 1e16 are not.
def listing : Style := ⟨some (-4), some 16, true, false, .up⟩

def isPlain (style : Style) (x : Int) : Bool :=
  style.plainFrom.all (· ≤ x) && style.plainBelow.all (x < ·)

-- A decimal without exponent.
def plain (style : Style) (negative : Bool) (x : Scaled) : Numeral :=
  let size : Int := x.digits.length + x.exponent
  let zeros (n : Int) : List Digit := List.replicate n.toNat Digit.zero
  if 0 ≤ x.exponent then
    ⟨negative, x.digits ++ zeros x.exponent, if style.fraction then [Digit.zero] else [], none⟩
  else if 0 < size then ⟨negative, x.digits.take size.toNat, x.digits.drop size.toNat, none⟩
  else ⟨negative, [Digit.zero], zeros (-size) ++ x.digits, none⟩

-- A decimal with one whole digit and an exponent.
def scientific (negative : Bool) (x : Scaled) : Numeral :=
  ⟨negative, x.digits.take 1, x.digits.drop 1, some (x.digits.length + x.exponent - 1)⟩

def numeral (style : Style) (negative : Bool) (x : Magnitude) : Numeral :=
  if x.significand = 0 then style.plain negative ⟨[Digit.zero], 0⟩
  else
    let d := shortest style.tie x
    if style.isPlain (d.digits.length + d.exponent - 1) then style.plain negative d
    else scientific negative d

def render (style : Style) (x : Float) : List Char :=
  match Content.ofDouble x with
  | .nan => "NaN".toList
  | .infinite negative => if negative then "-inf".toList else "inf".toList
  | .finite negative magnitude => (style.numeral negative magnitude).render style.plus

def write (style : Style) (x : Float) : String := String.ofList (style.render x)

end Style

end Candlestick.Decimal

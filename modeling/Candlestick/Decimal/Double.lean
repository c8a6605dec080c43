namespace Candlestick.Decimal

-- The word of positive infinity. The words below it are the finite magnitudes, in increasing order.
def infinityWord : Nat := 0x7FF0000000000000

def signWord : Nat := 0x8000000000000000

-- The bit that significands have and words leave out, 2^52.
def hiddenBit : Nat := 0x10000000000000

-- A magnitude m · 2^q.
structure Magnitude where
  significand : Nat
  exponent : Int
  deriving DecidableEq, Repr

-- The magnitude that a word below `infinityWord` stands for.
def Magnitude.ofWord (word : Nat) : Magnitude :=
  let e : Nat := word / hiddenBit
  let f : Nat := word % hiddenBit
  if e = 0 then ⟨f, -1074⟩ else ⟨hiddenBit + f, (e : Int) - 1075⟩

-- The word of m · 2^q where m has 53 bits, or where q is the least exponent, -1074. A significand
-- of 2^53 carries into the exponent, and past the largest exponent the word is `infinityWord` or
-- more.
def Magnitude.word (x : Magnitude) : Nat := (x.exponent + 1074).toNat * hiddenBit + x.significand

inductive Content where
  | nan
  | infinite (negative : Bool)
  | finite (negative : Bool) (magnitude : Magnitude)
  deriving DecidableEq, Repr

def Content.ofDouble (x : Float) : Content :=
  let bits := x.toBits.toNat
  let negative := decide (signWord ≤ bits)
  let word := bits % signWord
  if word < infinityWord then .finite negative (.ofWord word)
  else if word = infinityWord then .infinite negative
  else .nan

-- The double of a sign and the word of its magnitude.
def doubleOfWord (negative : Bool) (word : Nat) : Float :=
  Float.ofBits (UInt64.ofNat (if negative then signWord + word else word))

end Candlestick.Decimal

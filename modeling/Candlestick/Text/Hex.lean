namespace Candlestick.Text

def hexDigit (n : Nat) : Char := Char.ofNat (if n < 10 then 48 + n else 87 + n)

def hexValue? (c : Char) : Option Nat :=
  let n := c.toNat
  if 48 ≤ n ∧ n < 58 then some (n - 48)
  else if 97 ≤ n ∧ n < 103 then some (n - 87)
  else if 65 ≤ n ∧ n < 71 then some (n - 55)
  else none

-- The number of so many hexadecimal digits at the front of a text, and what follows them.
def takeHex? : Nat → List Char → Option (Nat × List Char) :=
  go 0
where
  go (n : Nat) : Nat → List Char → Option (Nat × List Char)
    | 0, s => some (n, s)
    | _ + 1, [] => none
    | width + 1, c :: rest => do go (16 * n + (← hexValue? c)) width rest

-- The last `width` hexadecimal digits of a number.
def hexChars : Nat → Nat → List Char
  | 0, _ => []
  | width + 1, n => hexChars width (n / 16) ++ [hexDigit (n % 16)]

end Candlestick.Text

import Candlestick.Text.Hex
import Candlestick.Text.Invisible

namespace Candlestick.Text

-- The hexadecimal digits of a number, without leading zeros.
def hexText (n : Nat) : List Char :=
  let ds := (hexChars 6 n).dropWhile (· = '0')
  if ds.isEmpty then ['0'] else ds

def showChar (c : Char) : List Char :=
  if c = '\x00' then ['\\', '0']
  else if c = '\t' then ['\\', 't']
  else if c = '\n' then ['\\', 'n']
  else if c = '\r' then ['\\', 'r']
  else if c = '"' || c = '\\' then ['\\', c]
  else if isInvisible c then ['\\', 'u', '\x7b'] ++ hexText c.toNat ++ ['\x7d']
  else [c]

def shown (s : String) : String := String.ofList ('"' :: s.toList.flatMap showChar ++ ['"'])

end Candlestick.Text

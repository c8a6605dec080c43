import Candlestick.Decimal.Digits
import Candlestick.Instant.Basic

namespace Candlestick.Instant

open Decimal

-- A year outside 0 to 9999 has a sign.
def yearText (year : Int) : List Char :=
  let sign := if year < 0 then ['-'] else if 9999 < year then ['+'] else []
  sign ++ chars (padded 4 year.natAbs)

def twoDigits (n : Nat) : List Char := chars (lastDigits 2 n)

-- No, three, six or nine digits, the fewest that are exact.
def fractionText (nanos : Nat) : List Char :=
  if nanos = 0 then []
  else if nanos % 1000000 = 0 then '.' :: chars (lastDigits 3 (nanos / 1000000))
  else if nanos % 1000 = 0 then '.' :: chars (lastDigits 6 (nanos / 1000))
  else '.' :: chars (lastDigits 9 nanos)

def dateText (t : Instant) : List Char :=
  yearText t.date.year ++ '-' :: twoDigits t.date.month ++ '-' :: twoDigits t.date.day

def clockText (t : Instant) : List Char :=
  twoDigits t.hour ++ ':' :: twoDigits t.minute ++ ':' :: twoDigits t.second ++
    fractionText t.fraction

-- The form in documents, always in UTC.
def stamp (t : Instant) : String := String.ofList (t.dateText ++ 'T' :: t.clockText ++ ['Z'])

-- The form in messages.
def message (t : Instant) : String :=
  String.ofList (t.dateText ++ ' ' :: t.clockText ++ " UTC".toList)

end Candlestick.Instant

import Candlestick.Decimal.Digits
import Candlestick.Instant.Basic
import Candlestick.Text.Blank

namespace Candlestick.Instant

open Decimal Text

-- A step of the reader takes what it needs from the front of the text.
abbrev Scan := StateT (List Char) Option

namespace Scan

def blanks : Scan Unit := modify skipBlanks

def expect (c : Char) : Scan Unit := do
  match ← get with
  | d :: rest => if d = c then set rest else failure
  | [] => failure

-- A number of one to `width` digits.
def number (width : Nat) : Scan Nat := do
  let (ds, after) := takeDigits (← get)
  if ds.isEmpty then failure
  set (chars (ds.drop width) ++ after)
  return ofDigits (ds.take width)

-- A separator stands between blanks.
def separator (c : Char) : Scan Unit := do
  blanks
  expect c
  blanks

-- Four digits, or a sign and any number of them.
def year : Scan Int := do
  blanks
  match ← get with
  | '-' :: rest => set rest; return -(← number rest.length : Nat)
  | '+' :: rest => set rest; return (← number rest.length : Nat)
  | _ => return (← number 4 : Nat)

def calendarDate : Scan Date := do
  let y ← year
  separator '-'
  let m ← number 2
  separator '-'
  return ⟨y, m, ← number 2⟩

-- Nanoseconds after a point; digits past the ninth are dropped.
def nanoseconds : Scan Nat := do
  match ← get with
  | '.' :: rest =>
    let (ds, after) := takeDigits rest
    if ds.isEmpty then failure
    set after
    return ofDigits ((ds ++ List.replicate 9 Digit.zero).take 9)
  | _ => return 0

def digitPair : Scan Nat := do
  match ← get with
  | a :: b :: rest =>
    match Digit.ofChar? a, Digit.ofChar? b with
    | some a, some b => set rest; return 10 * a.val + b.val
    | _, _ => failure
  | _ => failure

-- Hours and minutes ahead of UTC, in seconds, after the sign.
def shift : Scan Int := do
  let hours ← digitPair
  modify (·.dropWhile fun c => c = ':' || isBlank c)
  let minutes ← digitPair
  if 59 < minutes || 24 ≤ hours then failure
  return 3600 * hours + 60 * minutes

def isUtc (s : List Char) : Bool := (s.take 3).map Char.toUpper = ['U', 'T', 'C']

def offset : Scan Int := do
  let s ← get
  if isUtc s then set (s.drop 3); return 0
  match s with
  | 'Z' :: rest => set rest; return 0
  | 'z' :: rest => set rest; return 0
  | '+' :: rest => set rest; shift
  | '-' :: rest => set rest; return -(← shift)
  | '\u2212' :: rest => set rest; return -(← shift)
  | _ => failure

def moment : Scan Instant := do
  let date ← calendarDate
  match ← get with
  | 'T' :: rest => set rest
  | 't' :: rest => set rest
  | ' ' :: rest => set rest
  | _ => failure
  blanks
  let hour ← number 2
  separator ':'
  let minute ← number 2
  separator ':'
  let second ← number 2
  let fraction ← nanoseconds
  blanks
  let ahead ← offset
  blanks
  (ofClock? date hour minute second fraction ahead : Option Instant)

end Scan

-- Beside the written form: any offset from UTC, a blank or `t` between date and time, blanks before
-- numbers and separators, and numbers without leading zeros.
def ofText? (text : String) : Option Instant := do
  let (t, rest) ← Scan.moment.run text.toList
  if rest.isEmpty then some t else none

end Candlestick.Instant

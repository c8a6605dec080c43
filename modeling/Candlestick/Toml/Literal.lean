import Candlestick.Decimal.Numeral
import Candlestick.Instant.Calendar
import Candlestick.Text.Hex
import Candlestick.Toml.Value

namespace Candlestick.Toml.Literal

open Decimal

-- The digits at the front of a word, at least one; single underscores may stand between digits.
def takeRun? {D : Type} (digit? : Char → Option D) : List Char → Option (List D × List Char)
  | [] => none
  | c :: '_' :: rest => do
    let d ← digit? c
    let (ds, rest) ← takeRun? digit? rest
    return (d :: ds, rest)
  | c :: rest => do
    let d ← digit? c
    if rest.head?.any fun c => (digit? c).isSome then
      let (ds, rest) ← takeRun? digit? rest
      return (d :: ds, rest)
    else return ([d], rest)

def takeSign : List Char → Bool × List Char
  | '-' :: rest => (true, rest)
  | '+' :: rest => (false, rest)
  | s => (false, s)

-- A zero in front stands alone.
def takeWhole? (s : List Char) : Option (List Digit × List Char) := do
  let (ds, rest) ← takeRun? Digit.ofChar? s
  if ds.head? = some Digit.zero && 1 < ds.length then none else return (ds, rest)

def bounded? (i : Int) : Option Int := if -integerBound ≤ i ∧ i < integerBound then some i else none

-- The digits of a number in another base, all of them below the base.
def inBase? (base : Nat) (s : List Char) : Option Int := do
  let (ds, rest) ← takeRun? (fun c => (Text.hexValue? c).filter (· < base)) s
  if rest.isEmpty then bounded? (ds.foldl (fun n d => base * n + d) 0 : Nat) else none

def integer? : List Char → Option Int
  | '0' :: 'x' :: rest => inBase? 16 rest
  | '0' :: 'o' :: rest => inBase? 8 rest
  | '0' :: 'b' :: rest => inBase? 2 rest
  | s => do
    let (negative, rest) := takeSign s
    let (ds, rest) ← takeWhole? rest
    let n : Int := ofDigits ds
    if rest.isEmpty then bounded? (if negative then -n else n) else none

def takeFraction? : List Char → Option (List Digit × List Char)
  | '.' :: rest => takeRun? Digit.ofChar? rest
  | s => some ([], s)

def takeExponent? : List Char → Option (Option Int × List Char)
  | [] => some (none, [])
  | c :: rest =>
    if c = 'e' ∨ c = 'E' then do
      let (negative, rest) := takeSign rest
      let (ds, rest) ← takeRun? Digit.ofChar? rest
      let n : Int := ofDigits ds
      return (some (if negative then -n else n), rest)
    else some (none, c :: rest)

-- A number with a fraction or an exponent. One that is too large is refused, unless it is
-- negative.
def decimal? (s : List Char) : Option Float := do
  let (negative, rest) := takeSign s
  let (whole, rest) ← takeWhole? rest
  let (fraction, rest) ← takeFraction? rest
  let (exponent, rest) ← takeExponent? rest
  let n : Numeral := ⟨negative, whole, fraction, exponent⟩
  let x := n.toDouble
  if n.isWhole || !rest.isEmpty || (x.isInf && !negative) then none else return x

def special? (s : List Char) : Option Float :=
  let (negative, rest) := takeSign s
  if rest = "inf".toList then some (doubleOfWord negative infinityWord)
  else if rest = "nan".toList then some (0.0 / 0.0)
  else none

def bool? (s : List Char) : Option Bool :=
  if s = "true".toList then some true else if s = "false".toList then some false else none

-- A word that is neither date nor time.
def plain? (s : List Char) : Option Value :=
  (bool? s).map .bool <|> (integer? s).map .integer <|> (decimal? s).map .real <|>
    (special? s).map .real

def digits? (s : List Char) : Option Nat := do return ofDigits (← s.mapM Digit.ofChar?)

-- A date, as in `1979-05-27`.
def isDate (s : List Char) : Bool :=
  match digits? (s.take 4), s.drop 4 with
  | some year, ['-', a, b, '-', c, d] =>
    match digits? [a, b], digits? [c, d] with
    | some month, some day => (⟨year, month, day⟩ : Date).Valid
    | _, _ => false
  | _, _ => false

-- A number of two digits below a bound.
def isPairBelow (bound : Nat) (a b : Char) : Bool := (digits? [a, b]).any (· < bound)

-- An offset from UTC, as in `Z` or `-07:00`.
def isOffset : List Char → Bool
  | [c] => c = 'Z' || c = 'z'
  | [sign, a, b, ':', c, d] =>
    (sign = '+' || sign = '-') && isPairBelow 24 a b && isPairBelow 60 c d
  | _ => false

-- What follows the seconds: perhaps a fraction, and perhaps an offset, if one is allowed.
def isClockEnd (zoned : Bool) (s : List Char) : Bool :=
  let isEnd (s : List Char) := s.isEmpty || (zoned && isOffset s)
  match s with
  | '.' :: rest => rest.head?.any isDigit && isEnd (rest.dropWhile isDigit)
  | s => isEnd s

-- A time of day, as in `07:32:00.5`.
def isClock (zoned : Bool) : List Char → Bool
  | a :: b :: ':' :: c :: d :: ':' :: e :: f :: rest =>
    isPairBelow 24 a b && isPairBelow 60 c d && isPairBelow 61 e f && isClockEnd zoned rest
  | _ => false

-- A date, a time, or a date with a time after a `T`.
def isMoment (s : List Char) : Bool :=
  isDate s || isClock false s ||
    (isDate (s.take 10) &&
      match s.drop 10 with
      | c :: clock => (c = 'T' || c = 't') && isClock true clock
      | [] => false)

def isWordChar (c : Char) : Bool :=
  c.isAlphanum || c = '+' || c = '-' || c = '.' || c = '_' || c = ':'

-- Whether a text goes on with the time that belongs to a date.
def startsClock : List Char → Bool
  | ' ' :: a :: b :: ':' :: _ => isDigit a && isDigit b
  | _ => false

-- A value is one word, but for a date and a time with a blank between them.
def read? (s : List Char) : Option (Value × List Char) :=
  let (word, rest) := s.span isWordChar
  if isDate word && startsClock rest then
    let (clock, rest) := (rest.drop 1).span isWordChar
    if isClock true clock then some (.moment, rest) else none
  else if isMoment word then some (.moment, rest)
  else (plain? word).map fun v => (v, rest)

end Candlestick.Toml.Literal

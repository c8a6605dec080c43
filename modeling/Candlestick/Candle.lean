import Candlestick.Decimal.Style
import Candlestick.Instant.Text
import Candlestick.Scalar

namespace Candlestick

-- The prices of one period: the first, the highest, the lowest and the last one, and the traded
-- volume. Nothing is assumed of them, not even that the low is below the high.
structure Candle (α : Type) where
  time : Instant
  opening : α
  high : α
  low : α
  close : α
  volume : α

namespace Candle

def message (c : Candle Float) : String :=
  let price (x : Float) := Decimal.Style.message.write x
  "Candle(t=" ++ c.time.message ++ ", o=" ++ price c.opening ++ ", h=" ++ price c.high ++
    ", l=" ++ price c.low ++ ", c=" ++ price c.close ++ ", v=" ++ price c.volume ++ ")"

end Candle

inductive Signal where
  | noChange
  | bullish
  | bearish
  deriving DecidableEq, Repr

namespace Signal

def ordinal : Signal → Nat
  | noChange => 0
  | bullish => 1
  | bearish => 2

def all : List Signal := [noChange, bullish, bearish]

def name : Signal → String
  | noChange => "NoChange"
  | bullish => "Bullish"
  | bearish => "Bearish"

def ofName? (name : String) : Option Signal := all.find? (·.name = name)

end Signal

inductive Pivot where
  | unchanged
  | high
  | low
  deriving DecidableEq, Repr

namespace Pivot

def ordinal : Pivot → Nat
  | unchanged => 0
  | high => 1
  | low => 2

def all : List Pivot := [unchanged, high, low]

def name : Pivot → String
  | unchanged => "Unchanged"
  | high => "High"
  | low => "Low"

def ofName? (name : String) : Option Pivot := all.find? (·.name = name)

end Pivot

-- A candle with the results of the analyses. Each analysis sets its own fields alone.
structure Annotated (α : Type) where
  candle : Candle α
  ema : α
  trend : Signal
  breakout : Signal
  pivot : Pivot

-- A candle that no analysis has labelled yet.
def Candle.annotated {α : Type} [Scalar α] (c : Candle α) : Annotated α :=
  ⟨c, Scalar.zero, .noChange, .noChange, .unchanged⟩

end Candlestick

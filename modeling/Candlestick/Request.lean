import Candlestick.Instant.Text

namespace Candlestick

inductive Period where
  | oneMinute
  | threeMinutes
  | fiveMinutes
  | oneHour
  | daily
  | weekly
  | monthly
  deriving DecidableEq, Repr

namespace Period

def all : List Period := [oneMinute, threeMinutes, fiveMinutes, oneHour, daily, weekly, monthly]

def name : Period → String
  | oneMinute => "OneMinute"
  | threeMinutes => "ThreeMinutes"
  | fiveMinutes => "FiveMinutes"
  | oneHour => "OneHour"
  | daily => "Daily"
  | weekly => "Weekly"
  | monthly => "Monthly"

def ofName? (name : String) : Option Period := all.find? (·.name = name)

def message : Period → String
  | oneMinute => "1m"
  | threeMinutes => "3m"
  | fiveMinutes => "5m"
  | oneHour => "1h"
  | daily => "1d"
  | weekly => "1w"
  | monthly => "1M"

end Period

inductive Algorithm where
  | ema
  | keyLevels
  | breakout
  deriving DecidableEq, Repr

namespace Algorithm

def all : List Algorithm := [ema, keyLevels, breakout]

def name : Algorithm → String
  | ema => "Ema"
  | keyLevels => "KeyLevels"
  | breakout => "BreakoutDetection"

def ofName? (name : String) : Option Algorithm := all.find? (·.name = name)

def message : Algorithm → String
  | ema => "ema"
  | keyLevels => "key_levels"
  | breakout => "breakout_detection"

-- Reads what `message` writes, and a short form of the last one.
def ofText (text : String) : Except String Algorithm :=
  if text = "breakout" then .ok breakout
  else match all.find? (·.message = text) with
    | some algorithm => .ok algorithm
    | none => .error ("지원되지 않는 알고리즘: " ++ text)

end Algorithm

-- Share classes are written with a dash: `BRK.B` and `BRK-B` name one ticker.
def normalTicker (ticker : String) : String := ticker.map fun c => if c = '.' then '-' else c

-- The prices of a ticker, of candles of one period, from `start` to `finish`.
structure Query where
  ticker : String
  start : Instant
  finish : Instant
  period : Period
  deriving DecidableEq

def Query.of (ticker : String) (start finish : Instant) (period : Period) : Query :=
  ⟨normalTicker ticker, start, finish, period⟩

structure Request where
  ticker : String
  start : Instant
  finish : Instant
  period : Period
  algorithm : Algorithm
  deriving DecidableEq

namespace Request

def of (ticker : String) (start finish : Instant) (period : Period) (algorithm : Algorithm) :
    Request :=
  ⟨normalTicker ticker, start, finish, period, algorithm⟩

-- The prices that the analysis needs.
def query (r : Request) : Query := ⟨r.ticker, r.start, r.finish, r.period⟩

def message (r : Request) : String :=
  "AnalysisRequest(" ++ r.algorithm.message ++ " " ++ r.ticker ++ " " ++ r.start.message ++ ".." ++
    r.finish.message ++ " " ++ r.period.message ++ ")"

end Request

end Candlestick

import Candlestick.Source

namespace Candlestick

-- An archive without periods has candles of every period. A series that is added later hides an
-- earlier one of the same ticker.
structure Archive (α : Type) where
  name : String
  periods : List Period
  series : List (String × List (Candle α))

namespace Archive

variable {α : Type}

def empty (name : String) : Archive α := ⟨name, [], []⟩

def withPeriods (a : Archive α) (periods : List Period) : Archive α := { a with periods }

def withSeries (a : Archive α) (ticker : String) (candles : List (Candle α)) : Archive α :=
  { a with series := (normalTicker ticker, candles) :: a.series }

def supports (a : Archive α) (period : Period) : Bool :=
  a.periods.isEmpty || a.periods.contains period

def series? (a : Archive α) (ticker : String) : Option (List (Candle α)) := a.series.lookup ticker

-- The candles from the start of a query to its end, both included.
def within (query : Query) (candles : List (Candle α)) : List (Candle α) :=
  candles.filter fun c => query.start ≤ c.time && c.time ≤ query.finish

-- A period that the archive does not have is reported before a ticker that it does not have.
def fetch (a : Archive α) (query : Query) : Except FetchError (List (Candle α)) :=
  if a.supports query.period then
    match a.series? query.ticker with
    | some candles => .ok (within query candles)
    | none => .error (.failed (a.name ++ ": 등록되지 않은 티커 " ++ query.ticker))
  else .error (.failed (a.name ++ ": 지원하지 않는 주기 " ++ query.period.message))

def covers (a : Archive α) (query : Query) : Bool :=
  a.supports query.period && (a.series? query.ticker).isSome

def toFeed (a : Archive α) : Feed α := ⟨a.name, a.covers, fun query => .of (a.fetch query)⟩

end Archive

end Candlestick

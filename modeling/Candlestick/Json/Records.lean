import Candlestick.Instant.Reader
import Candlestick.Json.Reader
import Candlestick.Json.Writer
import Candlestick.KeyLevels.Result
import Candlestick.Request

namespace Candlestick

open Json (Value)

def Instant.toJson (t : Instant) : Value := .ofString t.stamp

def Instant.ofJson? (v : Value) : Option Instant := do ofText? (← v.text?)

def Signal.toJson (s : Signal) : Value := .ofString s.name

def Signal.ofJson? (v : Value) : Option Signal := do ofName? (← v.label?)

def Pivot.toJson (p : Pivot) : Value := .ofString p.name

def Pivot.ofJson? (v : Value) : Option Pivot := do ofName? (← v.label?)

def Period.toJson (p : Period) : Value := .ofString p.name

def Period.ofJson? (v : Value) : Option Period := do ofName? (← v.label?)

def Algorithm.toJson (a : Algorithm) : Value := .ofString a.name

def Algorithm.ofJson? (v : Value) : Option Algorithm := do ofName? (← v.label?)

def Candle.toJson (c : Candle Float) : Value :=
  .record [("time", c.time.toJson), ("open", .ofDouble c.opening), ("high", .ofDouble c.high),
    ("low", .ofDouble c.low), ("close", .ofDouble c.close), ("volume", .ofDouble c.volume)]

def Candle.ofJson? (v : Value) : Option (Candle Float) := do
  let fields ← v.fields? 6
  return {
    time := ← fields.required 0 "time" Instant.ofJson?
    opening := ← fields.required 1 "open" Value.real?
    high := ← fields.required 2 "high" Value.real?
    low := ← fields.required 3 "low" Value.real?
    close := ← fields.required 4 "close" Value.real?
    volume := ← fields.required 5 "volume" Value.real? }

def Candle.listToJson (candles : List (Candle Float)) : Value := .array (candles.map Candle.toJson)

def Candle.listOfJson? : Value → Option (List (Candle Float))
  | .array items => items.mapM Candle.ofJson?
  | _ => none

def Annotated.toJson (c : Annotated Float) : Value :=
  .record [("candle", c.candle.toJson), ("ema", .ofDouble c.ema), ("trend_signal", c.trend.toJson),
    ("breakout_signal", c.breakout.toJson), ("pivot", c.pivot.toJson)]

def Annotated.ofJson? (v : Value) : Option (Annotated Float) := do
  let fields ← v.fields? 5
  return {
    candle := ← fields.required 0 "candle" Candle.ofJson?
    ema := ← fields.required 1 "ema" Value.real?
    trend := ← fields.required 2 "trend_signal" Signal.ofJson?
    breakout := ← fields.required 3 "breakout_signal" Signal.ofJson?
    pivot := ← fields.required 4 "pivot" Pivot.ofJson? }

-- The line of a report, ten columns in this order.
def Annotated.toRow (c : Annotated Float) : Value :=
  .array [c.candle.time.toJson, .ofDouble c.candle.opening, .ofDouble c.candle.high,
    .ofDouble c.candle.low, .ofDouble c.candle.close, .ofDouble c.candle.volume, .ofDouble c.ema,
    .ofNat c.trend.ordinal, .ofNat c.breakout.ordinal, .ofNat c.pivot.ordinal]

def KeyLevels.Result.toJson (r : KeyLevels.Result Float) : Value :=
  .record [("candles", .array (r.candles.map Annotated.toJson)),
    ("levels", .array (r.levels.map Value.ofDouble))]

def Query.toJson (q : Query) : Value :=
  .record [("ticker", .ofString q.ticker), ("start", q.start.toJson), ("end", q.finish.toJson),
    ("period", q.period.toJson)]

def Query.ofJson? (v : Value) : Option Query := do
  let fields ← v.fields? 4
  return {
    ticker := ← fields.required 0 "ticker" Value.text?
    start := ← fields.required 1 "start" Instant.ofJson?
    finish := ← fields.required 2 "end" Instant.ofJson?
    period := ← fields.required 3 "period" Period.ofJson? }

def Request.toJson (r : Request) : Value :=
  .record [("ticker", .ofString r.ticker), ("start", r.start.toJson), ("end", r.finish.toJson),
    ("period", r.period.toJson), ("algorithm", r.algorithm.toJson)]

def Request.ofJson? (v : Value) : Option Request := do
  let fields ← v.fields? 5
  return {
    ticker := ← fields.required 0 "ticker" Value.text?
    start := ← fields.required 1 "start" Instant.ofJson?
    finish := ← fields.required 2 "end" Instant.ofJson?
    period := ← fields.required 3 "period" Period.ofJson?
    algorithm := ← fields.required 4 "algorithm" Algorithm.ofJson? }

end Candlestick

import Candlestick.Fields
import Candlestick.Settings.Basic
import Candlestick.Sheet

namespace Candlestick

section Reading

variable {V : Type} [Datum V]

def ZonePrice.ofDatum? (v : V) : Option ZonePrice := do ofName? (← Datum.label? v)

def Ema.Params.ofDatum? (v : V) : Option Ema.Params := do
  let fields ← Datum.fields? 1 v
  return { period := ← fields.orDefault 0 "period" Datum.count? standard.period }

def KeyLevels.Params.ofDatum? (v : V) : Option (KeyLevels.Params Float) := do
  let fields ← Datum.fields? 2 v
  return {
    window := ← fields.orDefault 0 "neighbor_window" Datum.count? standard.window
    epsilon := ← fields.orDefault 1 "epsilon" Datum.real? standard.epsilon }

def Breakout.Params.ofDatum? (v : V) : Option (Breakout.Params Float) := do
  let fields ← Datum.fields? 5 v
  return {
    back := ← fields.orDefault 0 "back_candles" Datum.count? standard.back
    window := ← fields.orDefault 1 "window" Datum.count? standard.window
    count := ← fields.orDefault 2 "num_candles_for_breakout" Datum.count? standard.count
    width := ← fields.orDefault 3 "zone_width" Datum.real? standard.width
    price := ← fields.orDefault 4 "zone_price" ZonePrice.ofDatum? standard.price }

def Settings.ofDatum? (v : V) : Option Settings := do
  let fields ← Datum.fields? 3 v
  return {
    ema := ← fields.orDefault 0 "ema" Ema.Params.ofDatum? .standard
    keyLevels := ← fields.orDefault 1 "key_levels" KeyLevels.Params.ofDatum? .standard
    breakout := ← fields.orDefault 2 "breakout" Breakout.Params.ofDatum? .standard }

def Part.ofDatum? (v : V) : (part : Part) → Option part.Value
  | whole => Settings.ofDatum? v
  | ema => Ema.Params.ofDatum? v
  | keyLevels => KeyLevels.Params.ofDatum? v
  | breakout => Breakout.Params.ofDatum? v

end Reading

def Ema.Params.record (p : Ema.Params) : Record := [("period", .count p.period)]

def KeyLevels.Params.record (p : KeyLevels.Params Float) : Record :=
  [("neighbor_window", .count p.window), ("epsilon", .real p.epsilon)]

def Breakout.Params.record (p : Breakout.Params Float) : Record :=
  [("back_candles", .count p.back), ("window", .count p.window),
    ("num_candles_for_breakout", .count p.count), ("zone_width", .real p.width),
    ("zone_price", .text p.price.name)]

def Part.sheet : (part : Part) → part.Value → Sheet
  | whole, s => .tables [("ema", s.ema.record), ("key_levels", s.keyLevels.record),
      ("breakout", s.breakout.record)]
  | ema, p => .single p.record
  | keyLevels, p => .single p.record
  | breakout, p => .single p.record

end Candlestick

import Candlestick.Breakout
import Candlestick.Word

namespace Candlestick

open Word (Fault Stretch)

variable {α : Type} [Scalar α]

namespace KeyLevels

-- Whether there are too few candles on either side. The sum is at most the largest word, which no
-- list is longer than.
def TooNear (window length index : UInt64) : Prop :=
  index < window ∨ length ≤ Word.saturatingAdd index window

instance (window length index : UInt64) : Decidable (TooNear window length index) :=
  inferInstanceAs (Decidable (_ ∨ _))

-- Where the neighbours of a candle are.
def stretch (window index : UInt64) : Except Fault Stretch := do
  return ⟨← Word.sub index window, ← Word.add index window⟩

-- The steps behind the guard are not guarded themselves.
def pivotInWords (k : KeyLevels α) (candles : List (Candle α)) (index : UInt64) :
    Except Fault Pivot := do
  if TooNear k.params.window (Word.length candles) index then return .unchanged
  let current ← Word.entry candles index
  let neighbours ← Word.slice candles (← stretch k.params.window index)
  return classify current neighbours

end KeyLevels

namespace Breakout

-- Whether there are too few candles around an index.
def TooNear (p : Params α) (length index : UInt64) : Prop :=
  index ≤ Word.saturatingAdd p.back p.window ∨ length < Word.saturatingAdd index p.window

instance (p : Params α) (length index : UInt64) : Decidable (TooNear p length index) :=
  inferInstanceAs (Decidable (_ ∨ _))

-- Where the zone of an index is, wherever its list ends.
def stretch (p : Params α) (length index : UInt64) : Except Fault Stretch := do
  let start ← Word.sub (← Word.sub index p.back) p.window
  let count ← Word.sub (← Word.sub length index) p.window
  return ⟨start, ← Word.add start count⟩

def signalInWords (b : Breakout α) (candles : List (Annotated α)) (index : UInt64) :
    Except Fault Signal := do
  let length := Word.length candles
  if TooNear b.params length index then return .noChange
  let zone ← Word.slice candles ((← stretch b.params length index).within length)
  let current ← Word.entry candles index
  let close := current.candle.close
  return if breaksThrough b.params zone close then .bullish
    else if fallsThrough b.params zone close then .bearish
    else .noChange

end Breakout

end Candlestick

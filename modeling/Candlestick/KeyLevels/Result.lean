import Candlestick.Candle

namespace Candlestick.KeyLevels

-- Labelled candles, and levels in the order in which they were found.
structure Result (α : Type) where
  candles : List (Annotated α)
  levels : List α

namespace Result

variable {α : Type} [Scalar α]

-- The levels whose band of so many percent holds a price.
def around (r : Result α) (price : α) (percentage : Nat) : List α :=
  let band : α := Scalar.ofCount percentage / Scalar.ofCount 100
  r.levels.filter fun x => x + x * band ≥ price && x - x * band ≤ price

-- The search widens from one percent by one percent at a time until there are `count` levels
-- around the last close, and gives the `count` highest of them. It takes as many steps as there
-- are levels, and at most `limit`; where it fails it gives no level, and the percentage that would
-- have been next.
def nearest (r : Result α) (limit : UInt32) (count : UInt64) : List α × Nat :=
  match r.candles.getLast? with
  | none => ([], 1)
  | some last =>
    let close := last.candle.close
    let steps := min r.levels.length limit.toNat
    match (List.range' 1 steps).find? fun p => count.toNat ≤ (r.around close p).length with
    | some p =>
      let sorted := (r.around close p).mergeSort fun x y => Scalar.ranksBelow y x
      (sorted.take count.toNat, p)
    | none => ([], steps + 1)

end Result

end Candlestick.KeyLevels

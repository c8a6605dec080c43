import Candlestick.Breakout
import Candlestick.Proofs.KeyLevels.Run

namespace Candlestick.Breakout

variable {α : Type} [Scalar α]

@[simp] theorem map_candle_mark (b : Breakout α) (candles : List (Annotated α)) :
    (b.mark candles).map Annotated.candle = candles.map Annotated.candle := by
  have h := List.zipIdx_map_fst 0 candles
  conv => rhs; rw [← h]
  rw [mark, List.map_map, List.map_map]
  rfl

@[simp] theorem map_pivot_mark (b : Breakout α) (candles : List (Annotated α)) :
    (b.mark candles).map Annotated.pivot = candles.map Annotated.pivot := by
  have h := List.zipIdx_map_fst 0 candles
  conv => rhs; rw [← h]
  rw [mark, List.map_map, List.map_map]
  rfl

theorem getElem?_mark (b : Breakout α) (candles : List (Annotated α)) (index : Nat) :
    (b.mark candles)[index]? = candles[index]?.map fun c =>
      { c.candle.annotated with pivot := c.pivot, breakout := b.signalAt candles index } := by
  rw [mark, List.getElem?_map, List.getElem?_zipIdx, Option.map_map, Nat.zero_add]
  rfl

theorem breakout_of_getElem?_mark {b : Breakout α} {candles : List (Annotated α)} {index : Nat}
    {c : Annotated α} (hc : (b.mark candles)[index]? = some c) :
    c.breakout = b.signalAt candles index := by
  rw [getElem?_mark] at hc
  obtain ⟨d, -, rfl⟩ := Option.map_eq_some_iff.mp hc
  rfl

-- The candles with their pivots and signals.
def labelled (b : Breakout α) (candles : List (Candle α)) : List (Annotated α) :=
  b.mark (b.pivots.labelled candles)

@[simp] theorem map_candle_labelled (b : Breakout α) (candles : List (Candle α)) :
    (b.labelled candles).map Annotated.candle = candles := by
  rw [labelled, map_candle_mark, KeyLevels.map_candle_labelled]

theorem run_eq (b : Breakout α) (token : Token) (candles : List (Candle α)) :
    b.run token candles =
      if token.cancelled ∧ 1 ≤ candles.length then .error (.cancelled KeyLevels.stage)
      else .ok (b.labelled candles) := by
  rw [run, KeyLevels.run_eq]
  split <;> rfl

theorem run_fresh (b : Breakout α) (candles : List (Candle α)) :
    b.run .fresh candles = .ok (b.labelled candles) := by
  simp [run_eq, Token.fresh]

end Candlestick.Breakout

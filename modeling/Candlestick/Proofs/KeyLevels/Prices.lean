import Candlestick.Proofs.KeyLevels.Run

namespace Candlestick

variable {α : Type}

-- The candle with another price for each of its four.
def Candle.mapPrices (f : α → α) (c : Candle α) : Candle α :=
  { c with opening := f c.opening, high := f c.high, low := f c.low, close := f c.close }

def Annotated.mapCandle (g : Candle α → Candle α) (c : Annotated α) : Annotated α :=
  { c with candle := g c.candle }

def Annotated.mapPrices (f : α → α) (c : Annotated α) : Annotated α :=
  { c with candle := c.candle.mapPrices f }

namespace KeyLevels

theorem neighbours_map {β : Type} (g : Candle α → Candle β) (window index : Nat)
    (candles : List (Candle α)) :
    neighbours window index (candles.map g) = (neighbours window index candles).map g := by
  rw [neighbours, neighbours, List.map_take, List.map_drop]

theorem turns_mapPrices (f : α → α) (candles : List (Annotated α)) :
    turns (candles.map (Annotated.mapPrices f)) = (turns candles).map f := by
  rw [turns, turns, List.filterMap_map, List.map_filterMap]
  congr 1
  funext c
  simp only [Function.comp_def, turn?, Annotated.mapPrices, Candle.mapPrices]
  cases c.pivot <;> rfl

variable [Scalar α]

section Labels

variable {g : Candle α → Candle α} (turned : Pivot → Pivot)
  (hclassify : ∀ c neighbours, classify (g c) (neighbours.map g) = turned (classify c neighbours))
  (hunchanged : turned .unchanged = .unchanged)

include hclassify hunchanged

theorem pivotOf_map (window : Nat) (candles : List (Candle α)) (index : Nat) :
    pivotOf window (candles.map g) index = turned (pivotOf window candles index) := by
  by_cases h : window ≤ index ∧ index + window < candles.length
  · have hmap : window ≤ index ∧ index + window < (candles.map g).length := by
      rwa [List.length_map]
    rw [pivotOf, pivotOf, dif_pos h, dif_pos hmap, neighbours_map]
    simp only [List.getElem_map]
    exact hclassify _ _
  · have hmap : ¬(window ≤ index ∧ index + window < (candles.map g).length) := by
      rwa [List.length_map]
    rw [pivotOf, pivotOf, dif_neg h, dif_neg hmap, hunchanged]

theorem labelled_map_turned (k : KeyLevels α) (candles : List (Candle α)) :
    k.labelled (candles.map g) =
      (k.labelled candles).map fun c => { c with candle := g c.candle, pivot := turned c.pivot } := by
  apply List.ext_getElem?
  intro index
  rw [List.getElem?_map, getElem?_labelled, getElem?_labelled, List.getElem?_map, Option.map_map,
    Option.map_map]
  simp only [pivotAt, pivotOf_map turned hclassify hunchanged]
  rfl

end Labels

section Comparisons

variable {g : Candle α → Candle α} (hhigh : ∀ c d, (g c).high < (g d).high ↔ c.high < d.high)
  (hlow : ∀ c d, (g c).low < (g d).low ↔ c.low < d.low)

include hhigh hlow

theorem classify_map (c : Candle α) (neighbours : List (Candle α)) :
    classify (g c) (neighbours.map g) = classify c neighbours := by
  simp only [classify, List.any_map, Function.comp_def, gt_iff_lt, hhigh, hlow]

theorem labelled_map (k : KeyLevels α) (candles : List (Candle α)) :
    k.labelled (candles.map g) = (k.labelled candles).map (Annotated.mapCandle g) :=
  labelled_map_turned id (classify_map hhigh hlow) rfl k candles

end Comparisons

theorem labelled_mapPrices {f : α → α} (hf : ∀ x y, f x < f y ↔ x < y) (k : KeyLevels α)
    (candles : List (Candle α)) :
    k.labelled (candles.map (Candle.mapPrices f)) =
      (k.labelled candles).map (Annotated.mapPrices f) :=
  labelled_map (g := Candle.mapPrices f) (fun _ _ => hf _ _) (fun _ _ => hf _ _) k candles

end KeyLevels

end Candlestick

import Candlestick.Proofs.Breakout.Run

namespace Candlestick.Breakout

variable {α : Type}

theorem zone_map (p : Params α) (g : Annotated α → Annotated α) (candles : List (Annotated α))
    (index : Nat) : zone p (candles.map g) index = (zone p candles index).map g := by
  rw [zone, zone, List.length_map, List.map_take, List.map_drop]

theorem lastPrices_map {g : Annotated α → Annotated α} {f : α → α} {price : ZonePrice}
    {pivot turned : Pivot} (hpivot : ∀ c, (g c).pivot = turned ↔ c.pivot = pivot)
    (hprice : ∀ c, priceOf price (g c) = f (priceOf price c)) (count : Nat)
    (zone : List (Annotated α)) :
    lastPrices price count turned (zone.map g) = (lastPrices price count pivot zone).map f := by
  have hprices : ((zone.map g).filter (·.pivot = turned)).map (priceOf price) =
      ((zone.filter (·.pivot = pivot)).map (priceOf price)).map f := by
    rw [List.filter_map, List.map_map, List.map_map]
    simp only [Function.comp_def, hpivot, hprice]
  rw [lastPrices, lastPrices, hprices, List.length_map, List.map_drop]

end Candlestick.Breakout

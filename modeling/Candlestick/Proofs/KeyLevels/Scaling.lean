import Candlestick.Proofs.KeyLevels.Distinct
import Candlestick.Proofs.KeyLevels.Prices
import Mathlib.Algebra.Order.Field.Rat
import Mathlib.Data.List.Induction
import Mathlib.Tactic.Ring

namespace Candlestick

namespace KeyLevels

variable {factor : Rat}

theorem inBand_mul (h : 0 < factor) (tolerance level value : Rat) :
    inBand tolerance (factor * level) (factor * value) = inBand tolerance level value := by
  have hup : factor * level + factor * level * tolerance =
      factor * (level + level * tolerance) := by
    ring
  have hdown : factor * level - factor * level * tolerance =
      factor * (level - level * tolerance) := by
    ring
  have hle (x y : Rat) : factor * x ≤ factor * y ↔ x ≤ y := mul_le_mul_iff_right₀ h
  have hband (level value : Rat) : inBand tolerance level value =
      (decide (value ≤ level + level * tolerance) &&
        decide (level - level * tolerance ≤ value)) :=
    rfl
  rw [hband, hband, hup, hdown]
  simp only [hle]

theorem distinct_map_mul (h : 0 < factor) (epsilon : Rat) (levels : List Rat) :
    distinct epsilon (levels.map (factor * ·)) = (distinct epsilon levels).map (factor * ·) := by
  induction levels using List.reverseRecOn with
  | nil => rfl
  | append_singleton levels x ih =>
      rw [List.map_append, distinct_append, distinct_append, ih]
      simp only [List.map_singleton, List.foldl_cons, List.foldl_nil, keep, List.any_map,
        Function.comp_def, inBand_mul h]
      split
      · rfl
      · rw [List.map_append, List.map_singleton]

theorem mean_mul (x y : Rat) : mean (factor * x) (factor * y) = factor * mean x y := by
  have hmean (x y : Rat) : mean x y = (x + y) / 2 := rfl
  rw [hmean, hmean]
  ring

theorem absorb_map_mul (h : 0 < factor) (tolerance anchor : Rat) (levels : List Rat) :
    absorb tolerance (factor * anchor) (levels.map (factor * ·)) =
      (factor * (absorb tolerance anchor levels).1,
        (absorb tolerance anchor levels).2.map (factor * ·)) := by
  induction levels generalizing anchor with
  | nil => rfl
  | cons x rest ih =>
      rw [List.map_cons, absorb, absorb, inBand_mul h]
      split
      · rw [mean_mul, ih]
      · rw [ih]
        rfl

theorem mergeWithin_map_mul (h : 0 < factor) (tolerance : Rat) (levels : List Rat) :
    mergeWithin tolerance (levels.map (factor * ·)) =
      (mergeWithin tolerance levels).map (factor * ·) := by
  induction levels using mergeWithin.induct tolerance with
  | case1 => simp [mergeWithin]
  | case2 x rest ih =>
      rw [List.map_cons, mergeWithin, absorb_map_mul h, ih, mergeWithin, List.map_cons]

namespace Result

def mapPrices {α : Type} (f : α → α) (r : Result α) : Result α :=
  ⟨r.candles.map (Annotated.mapPrices f), r.levels.map f⟩

theorem around_mul (r : Result Rat) (h : 0 < factor) (price : Rat) (percentage : Nat) :
    (r.mapPrices (factor * ·)).around (factor * price) percentage =
      (r.around price percentage).map (factor * ·) := by
  have haround (r : Result Rat) (price : Rat) : r.around price percentage =
      r.levels.filter (inBand ((percentage : Rat) / 100) · price) := rfl
  rw [haround, haround, mapPrices, List.filter_map]
  simp only [Function.comp_def, inBand_mul h]

theorem nearest_mul (r : Result Rat) (h : 0 < factor) (limit : UInt32) (count : UInt64) :
    (r.mapPrices (factor * ·)).nearest limit count =
      ((r.nearest limit count).1.map (factor * ·), (r.nearest limit count).2) := by
  have hle (x y : Rat) : Scalar.ranksBelow (factor * x) (factor * y) = Scalar.ranksBelow x y :=
    decide_eq_decide.mpr (mul_le_mul_iff_right₀ h)
  have hlast : (r.mapPrices (factor * ·)).candles.getLast? =
      r.candles.getLast?.map (Annotated.mapPrices (factor * ·)) := List.getLast?_map
  have hlength : (r.mapPrices (factor * ·)).levels.length = r.levels.length := List.length_map _
  rw [nearest, nearest, hlast, hlength]
  cases r.candles.getLast? with
  | none => rfl
  | some last =>
      have hclose : (last.mapPrices (factor * ·)).candle.close = factor * last.candle.close := rfl
      simp only [Option.map_some, hclose, around_mul r h, List.length_map]
      split
      · rw [List.map_take, ← List.map_mergeSort fun x _ y _ => (hle y x).symm]
      · rfl

end Result

theorem result_mul (k : KeyLevels Rat) (h : 0 < factor) (candles : List (Candle Rat)) :
    k.result (candles.map (Candle.mapPrices (factor * ·))) =
      (k.result candles).mapPrices (factor * ·) := by
  have hlt (x y : Rat) : factor * x < factor * y ↔ x < y := mul_lt_mul_iff_right₀ h
  rw [result, labelled_mapPrices hlt, turns_mapPrices, distinct_map_mul h, merge,
    mergeWithin_map_mul h]
  rfl

-- Read exactly, a key-level analysis of scaled prices finds the same pivots and the scaled levels,
-- and so does the search for the levels nearest to the last close, at the same percentage.
theorem scaled_prices_scale_levels (k : KeyLevels Rat) (h : 0 < factor)
    (candles : List (Candle Rat)) :
    ∃ old new, k.run .fresh candles = .ok old ∧
      k.run .fresh (candles.map (Candle.mapPrices (factor * ·))) = .ok new ∧
      new.candles.map Annotated.pivot = old.candles.map Annotated.pivot ∧
      new.levels = old.levels.map (factor * ·) ∧
      ∀ limit count, new.nearest limit count =
        ((old.nearest limit count).1.map (factor * ·), (old.nearest limit count).2) := by
  refine ⟨k.result candles, (k.result candles).mapPrices (factor * ·), k.run_fresh candles, ?_, ?_,
    rfl, (k.result candles).nearest_mul h⟩
  · rw [run_fresh, result_mul k h]
  · rw [Result.mapPrices, List.map_map]
    rfl

-- A split of one share into two, over a series with a high in the middle.
theorem scaled_prices_scale_levels_split :
    (0 : Rat) < 1 / 2 ∧
      let k : KeyLevels Rat := ⟨⟨1, 1 / 200⟩, by decide +kernel⟩
      let candles : List (Candle Rat) :=
        [⟨.epoch, 100, 104, 99, 101, 7⟩, ⟨.epoch, 101, 110, 100, 108, 9⟩,
          ⟨.epoch, 108, 109, 103, 104, 8⟩, ⟨.epoch, 104, 105, 102, 103, 7⟩]
      ∃ old new, k.run .fresh candles = .ok old ∧
        k.run .fresh (candles.map (Candle.mapPrices (1 / 2 * ·))) = .ok new ∧
        old.candles.map Annotated.pivot = [.unchanged, .high, .unchanged, .unchanged] ∧
        new.candles.map Annotated.pivot = old.candles.map Annotated.pivot ∧
        new.levels = old.levels.map (1 / 2 * ·) ∧
        ∀ limit count, new.nearest limit count =
          ((old.nearest limit count).1.map (1 / 2 * ·), (old.nearest limit count).2) := by
  have h : (0 : Rat) < 1 / 2 := by decide +kernel
  refine ⟨h, ?_⟩
  intro k candles
  obtain ⟨old, new, hold, hnew, hpivots, hlevels, hnearest⟩ :=
    scaled_prices_scale_levels k h candles
  refine ⟨old, new, hold, hnew, ?_, hpivots, hlevels, hnearest⟩
  obtain rfl := Except.ok.inj (hold.symm.trans (run_fresh _ _))
  decide +kernel

end KeyLevels

end Candlestick

import Candlestick.Proofs.Breakout.Prices
import Candlestick.Proofs.Runner.Output

namespace Candlestick

variable {α : Type} [Scalar α]

-- A candle with no label but its pivot.
def Annotated.pivotOnly (c : Annotated α) : Annotated α :=
  { c.candle.annotated with pivot := c.pivot }

@[simp] theorem Annotated.candle_pivotOnly (c : Annotated α) : c.pivotOnly.candle = c.candle := rfl

@[simp] theorem Annotated.pivot_pivotOnly (c : Annotated α) : c.pivotOnly.pivot = c.pivot := rfl

theorem Annotated.pivotOnly_eq_iff {c d : Annotated α} :
    c.pivotOnly = d.pivotOnly ↔ c.candle = d.candle ∧ c.pivot = d.pivot := by
  constructor
  · intro h
    exact ⟨by simpa using congrArg candle h, by simpa using congrArg pivot h⟩
  · rintro ⟨hc, hp⟩
    rw [pivotOnly, pivotOnly, hc, hp]

theorem Annotated.map_pivotOnly_eq_of {xs ys : List (Annotated α)}
    (hc : xs.map candle = ys.map candle) (hp : xs.map pivot = ys.map pivot) :
    xs.map pivotOnly = ys.map pivotOnly := by
  have hlength : xs.length = ys.length := by simpa using congrArg List.length hc
  refine List.ext_getElem (by simpa using hlength) fun i hx hy => ?_
  simp only [List.length_map] at hx hy
  rw [List.getElem_map, List.getElem_map, pivotOnly_eq_iff]
  exact ⟨by simpa [hx, hy] using congrArg (·[i]?) hc, by simpa [hx, hy] using congrArg (·[i]?) hp⟩

namespace Breakout

-- Other labels decide neither which candles are pivots of a kind nor what their prices are.
theorem level?_map_pivotOnly (p : Params α) (pivot : Pivot) (zone : List (Annotated α)) :
    level? p pivot (zone.map Annotated.pivotOnly) = level? p pivot zone := by
  have hpivot (c : Annotated α) : c.pivotOnly.pivot = pivot ↔ c.pivot = pivot := Iff.rfl
  have hprice (c : Annotated α) : priceOf p.price c.pivotOnly = id (priceOf p.price c) := rfl
  rw [level?, level?, lastPrices_map hpivot hprice, List.map_id]

theorem signalAt_map_pivotOnly (b : Breakout α) (candles : List (Annotated α)) (index : Nat) :
    b.signalAt (candles.map Annotated.pivotOnly) index = b.signalAt candles index := by
  by_cases h : InRange b.params candles.length index
  · have hmap : InRange b.params (candles.map Annotated.pivotOnly).length index := by
      rwa [List.length_map]
    rw [signalAt, signalAt, dif_pos h, dif_pos hmap]
    simp only [zone_map, breaksThrough, fallsThrough, level?_map_pivotOnly,
      List.getElem_map, Annotated.candle_pivotOnly]
    rfl
  · have hmap : ¬InRange b.params (candles.map Annotated.pivotOnly).length index := by
      rwa [List.length_map]
    rw [signalAt, signalAt, dif_neg h, dif_neg hmap]

theorem mark_map_pivotOnly (b : Breakout α) (candles : List (Annotated α)) :
    b.mark (candles.map Annotated.pivotOnly) = b.mark candles := by
  rw [mark, mark, List.zipIdx_map, List.map_map]
  apply List.map_congr_left
  rintro ⟨c, index⟩ -
  simp [signalAt_map_pivotOnly]

theorem mark_congr (b : Breakout α) {xs ys : List (Annotated α)}
    (hc : xs.map Annotated.candle = ys.map Annotated.candle)
    (hp : xs.map Annotated.pivot = ys.map Annotated.pivot) : b.mark xs = b.mark ys := by
  rw [← mark_map_pivotOnly b xs, Annotated.map_pivotOnly_eq_of hc hp, mark_map_pivotOnly]

theorem mark_mark (b : Breakout α) (candles : List (Annotated α)) :
    b.mark (b.mark candles) = b.mark candles :=
  mark_congr b (map_candle_mark b candles) (map_pivot_mark b candles)

end Breakout

-- The analyses that a runner has for key levels and for breakouts find the same pivots. A breakout
-- analysis can start from the labels of a key-level analysis as well as from bare candles, and from
-- its own output it gets that output again.
theorem Runner.breakouts_rest_on_pivots {settings : Settings}
    (h : Part.whole.check settings = .ok ()) (source : Source Float) :
    (∃ runner, Runner.ofSettings settings source = .ok runner ∧
      ∀ levels breakouts : Request, levels.algorithm = .keyLevels →
        breakouts.algorithm = .breakout →
          ∃ k b, runner.resolve levels = .ok ⟨source, .keyLevels k⟩ ∧
            runner.resolve breakouts = .ok ⟨source, .breakout b⟩ ∧
            ∀ candles, ∃ found marked, k.run .fresh candles = .ok found ∧
              b.run .fresh candles = .ok marked ∧ b.mark found.candles = marked ∧
                marked.map Annotated.pivot = found.candles.map Annotated.pivot) ∧
      ∀ b : Breakout Float,
        (∀ candles, ∃ found, b.pivots.run .fresh candles = .ok found ∧
          b.run .fresh candles = .ok (b.mark found.candles)) ∧
        (∀ candles, b.mark (b.mark candles) = b.mark candles) ∧
        ∀ xs ys : List (Annotated Float), xs.map Annotated.candle = ys.map Annotated.candle →
          xs.map Annotated.pivot = ys.map Annotated.pivot → b.mark xs = b.mark ys := by
  have hrun (b : Breakout Float) (candles : List (Candle Float)) :
      b.run .fresh candles = .ok (b.mark (b.pivots.result candles).candles) := b.run_fresh candles
  refine ⟨?_, fun b => ⟨fun candles => ?_, b.mark_mark, fun xs ys => b.mark_congr⟩⟩
  · obtain ⟨ema, keyLevels, breakout, hr, -, -, -, hpivots⟩ := Runner.ofSettings_of_check h source
    refine ⟨_, hr, fun levels breakouts hlevels hbreakouts => ⟨keyLevels, breakout, ?_, ?_, ?_⟩⟩
    · rw [Runner.resolve_eq, hlevels]
      rfl
    · rw [Runner.resolve_eq, hbreakouts]
      rfl
    · intro candles
      refine ⟨_, _, keyLevels.run_fresh candles, hrun breakout candles, ?_, ?_⟩
      · rw [hpivots]
      · rw [hpivots, Breakout.map_pivot_mark]
  · exact ⟨_, b.pivots.run_fresh candles, hrun b candles⟩

-- A zone that is left on both sides, one after the other.
theorem Runner.breakouts_rest_on_pivots_zigzag :
    let settings : Settings := ⟨.standard, ⟨1, 0.005⟩, ⟨1, 1, 2, 0.5, .close⟩⟩
    let candles : List (Candle Float) :=
      [10, 11, 10, 15, 8, 11, 10, 11, 10, 10, 10, 10].map fun x => ⟨.epoch, x, x, x, x, 1⟩
    let source : Source Float := .feed ⟨"desk", fun _ => true, fun _ => .of (.ok candles)⟩
    let request := Request.of "BRK.B" .epoch .epoch .daily
    Part.whole.check settings = .ok () ∧
      ∃ runner, Runner.ofSettings settings source = .ok runner ∧
        ∃ k b, runner.resolve (request .keyLevels) = .ok ⟨source, .keyLevels k⟩ ∧
          runner.resolve (request .breakout) = .ok ⟨source, .breakout b⟩ ∧
          ∃ found marked, k.run .fresh candles = .ok found ∧ b.run .fresh candles = .ok marked ∧
            b.mark found.candles = marked ∧ b.mark marked = marked ∧
            marked.map Annotated.pivot = found.candles.map Annotated.pivot ∧
            marked.map Annotated.breakout = [.noChange, .noChange, .noChange, .bullish, .bearish,
              .noChange, .noChange, .noChange, .noChange, .noChange, .noChange, .noChange] := by
  intro settings candles source request
  have hcheck : Part.whole.check settings = .ok () :=
    (Part.check_whole_eq_ok_iff settings).mpr (by decide +kernel)
  have hsignals : ∀ hb hk,
      ((⟨settings.breakout, ⟨settings.keyLevels, hk⟩, hb⟩ : Breakout Float).mark
          ((⟨settings.keyLevels, hk⟩ : KeyLevels Float).result candles).candles).map
        Annotated.breakout = [.noChange, .noChange, .noChange, .bullish, .bearish, .noChange,
          .noChange, .noChange, .noChange, .noChange, .noChange, .noChange] := by
    decide +kernel
  refine ⟨hcheck, ?_⟩
  obtain ⟨⟨runner, hr, hshare⟩, hrerun⟩ := Runner.breakouts_rest_on_pivots hcheck source
  obtain ⟨k, b, hk, hb, hruns⟩ := hshare (request .keyLevels) (request .breakout) rfl rfl
  obtain ⟨found, marked, hfound, hmarked, hmark, hpivot⟩ := hruns candles
  have hagain : b.mark marked = marked := by
    rw [← hmark]
    exact (hrerun b).2.1 found.candles
  refine ⟨runner, hr, k, b, hk, hb, found, marked, hfound, hmarked, hmark, hagain, hpivot, ?_⟩
  -- Which parameters the two analyses have, the settings tell.
  obtain ⟨ema, ⟨_, hlevels⟩, ⟨_, _, hbreakout⟩, ho, -, rfl, rfl, rfl⟩ :=
    Runner.ofSettings_of_check hcheck source
  obtain rfl := Except.ok.inj (hr.symm.trans ho)
  rw [Runner.resolve_eq] at hk hb
  obtain rfl := Except.ok.inj ((k.run_fresh candles).symm.trans hfound)
  cases hk
  cases hb
  rw [← hmark]
  exact hsignals hbreakout hlevels

end Candlestick

import Candlestick.Proofs.Breakout.Prices
import Candlestick.Proofs.Breakout.Zone
import Candlestick.Proofs.KeyLevels.Prices
import Candlestick.Proofs.KeyLevels.Spacing
import Mathlib.Tactic.FieldSimp
import Mathlib.Tactic.Ring

namespace Candlestick

def Signal.opposite : Signal → Signal
  | noChange => noChange
  | bullish => bearish
  | bearish => bullish

inductive Motion where
  | shift (offset : Rat)
  | mirror (offset : Rat)

namespace Motion

def price : Motion → Rat → Rat
  | shift offset, x => offset + x
  | mirror offset, x => offset - x

-- What was the highest price is the lowest one in a mirror.
def candle : Motion → Candle Rat → Candle Rat
  | shift offset, c => c.mapPrices (offset + ·)
  | mirror offset, c =>
    { c.mapPrices (offset - ·) with high := offset - c.low, low := offset - c.high }

def pivot : Motion → Pivot → Pivot
  | shift _, pivot => pivot
  | mirror _, pivot => pivot.opposite

def annotated (m : Motion) (c : Annotated Rat) : Annotated Rat :=
  { c with candle := m.candle c.candle, pivot := m.pivot c.pivot }

theorem pivot_inj {m : Motion} {p q : Pivot} : m.pivot p = m.pivot q ↔ p = q := by
  cases m <;> cases p <;> cases q <;> simp [pivot, Pivot.opposite]

theorem close_candle (m : Motion) (c : Candle Rat) : (m.candle c).close = m.price c.close := by
  cases m <;> rfl

theorem abs_price_sub (m : Motion) (x y : Rat) : |m.price x - m.price y| = |x - y| := by
  cases m with
  | shift offset => rw [price, price, add_sub_add_left_eq_sub]
  | mirror offset => rw [price, price, sub_sub_sub_cancel_left, abs_sub_comm]

theorem sum_map_price (m : Motion) (values : List Rat) :
    (values.map m.price).sum = values.length * m.price 0 + (m.price values.sum - m.price 0) := by
  induction values with
  | nil => simp
  | cons x rest ih =>
      rw [List.map_cons, List.sum_cons, ih, List.sum_cons, List.length_cons, Nat.cast_succ]
      cases m <;> simp only [price] <;> ring

-- The average moves with the prices.
theorem average_map_price (m : Motion) {values : List Rat} {count : Nat}
    (hlength : values.length = count) (hcount : count ≠ 0) :
    (values.map m.price).sum / count = m.price (values.sum / count) := by
  have hne : (count : Rat) ≠ 0 := Nat.cast_ne_zero.mpr hcount
  rw [sum_map_price, hlength]
  cases m <;> simp only [price] <;> field_simp <;> ring

end Motion

namespace KeyLevels

-- A mirror exchanges the two comparisons, and with them lows and highs. What could be both is
-- neither as before.
theorem classify_motion (m : Motion) (c : Candle Rat) (neighbours : List (Candle Rat)) :
    classify (m.candle c) (neighbours.map m.candle) = m.pivot (classify c neighbours) := by
  cases m with
  | shift offset =>
      exact classify_map (g := (Motion.shift offset).candle)
        (fun _ _ => add_lt_add_iff_left offset) (fun _ _ => add_lt_add_iff_left offset) c neighbours
  | mirror offset =>
      have hlow (d : Candle Rat) : ((Motion.mirror offset).candle c).low >
          ((Motion.mirror offset).candle d).low ↔ c.high < d.high := sub_lt_sub_iff_left offset
      have hhigh (d : Candle Rat) : ((Motion.mirror offset).candle c).high <
          ((Motion.mirror offset).candle d).high ↔ c.low > d.low := sub_lt_sub_iff_left offset
      simp only [classify, List.any_map, Function.comp_def, hlow, hhigh]
      cases neighbours.any (c.low > ·.low) <;> cases neighbours.any (c.high < ·.high) <;> rfl

theorem labelled_motion (k : KeyLevels Rat) (m : Motion) (candles : List (Candle Rat)) :
    k.labelled (candles.map m.candle) = (k.labelled candles).map m.annotated :=
  labelled_map_turned m.pivot (classify_motion m) (by cases m <;> rfl) k candles

end KeyLevels

namespace Breakout

variable (m : Motion)

theorem priceOf_annotated (price : ZonePrice) (c : Annotated Rat) :
    priceOf price (m.annotated c) = m.price (priceOf price c) := by
  obtain ⟨candle, ema, trend, breakout, pivot⟩ := c
  cases m <;> cases price <;> cases pivot <;> rfl

theorem flatAverage?_map_price (values : List Rat) (count : Nat) (width : Rat) :
    flatAverage? (values.map m.price) count width =
      (flatAverage? values count width).map m.price := by
  rw [flatAverage?_eq, flatAverage?_eq, List.length_map]
  by_cases hcount : values.length = count ∧ count ≠ 0
  · simp only [m.average_map_price hcount.1 hcount.2, List.forall_mem_map, m.abs_price_sub]
    split <;> rfl
  · rw [if_neg fun h => hcount h.1, if_neg fun h => hcount h.1]
    rfl

theorem level?_map_annotated (p : Params Rat) (pivot : Pivot) (zone : List (Annotated Rat)) :
    level? p (m.pivot pivot) (zone.map m.annotated) = (level? p pivot zone).map m.price := by
  have hpivot (c : Annotated Rat) : (m.annotated c).pivot = m.pivot pivot ↔ c.pivot = pivot :=
    Motion.pivot_inj
  rw [level?, level?, lastPrices_map hpivot (priceOf_annotated m p.price),
    flatAverage?_map_price]

-- A distance on one side is the same distance on the side that takes its place.
theorem lead_motion (pivot : Pivot) (level close : Rat) :
    lead (m.pivot pivot) (m.price level) (m.price close) = lead pivot level close := by
  cases m with
  | shift offset =>
      cases pivot with
      | unchanged => rfl
      | high => exact add_sub_add_left_eq_sub close level offset
      | low => exact add_sub_add_left_eq_sub level close offset
  | mirror offset =>
      cases pivot with
      | unchanged => rfl
      | high => exact sub_sub_sub_cancel_left level close offset
      | low => exact sub_sub_sub_cancel_left close level offset

theorem crosses_map_annotated (pivot : Pivot) (p : Params Rat) (zone : List (Annotated Rat))
    (close : Rat) :
    crosses (m.pivot pivot) p (zone.map m.annotated) (m.price close) =
      crosses pivot p zone close := by
  rw [crosses, crosses, level?_map_annotated, Option.any_map]
  simp only [lead_motion]

theorem firesAt_map_annotated (b : Breakout Rat) (pivot : Pivot) (candles : List (Annotated Rat))
    (index : Nat) :
    b.firesAt (crosses (m.pivot pivot)) (candles.map m.annotated) index =
      b.firesAt (crosses pivot) candles index := by
  have hclose (c : Annotated Rat) : (m.annotated c).candle.close = m.price c.candle.close :=
    m.close_candle c.candle
  rw [firesAt, firesAt, List.length_map, List.getElem?_map, Option.any_map, zone_map]
  simp only [hclose, crosses_map_annotated]

theorem labelled_motion (b : Breakout Rat) (candles : List (Candle Rat)) :
    b.labelled (candles.map m.candle) = b.mark ((b.pivots.labelled candles).map m.annotated) := by
  rw [labelled, KeyLevels.labelled_motion]

theorem map_pivot_labelled_motion (b : Breakout Rat) (candles : List (Candle Rat)) :
    (b.labelled (candles.map m.candle)).map Annotated.pivot =
      (b.labelled candles).map (m.pivot ·.pivot) := by
  have hold : (b.labelled candles).map (m.pivot ·.pivot) =
      ((b.labelled candles).map Annotated.pivot).map m.pivot := by
    rw [List.map_map]
    rfl
  rw [hold, labelled_motion, labelled, map_pivot_mark, map_pivot_mark, List.map_map, List.map_map]
  rfl

section Signals

variable (offset : Rat) (b : Breakout Rat) (candles : List (Annotated Rat)) (index : Nat)

theorem signalAt_shift :
    b.signalAt (candles.map (Motion.shift offset).annotated) index = b.signalAt candles index := by
  have hhigh := firesAt_map_annotated (.shift offset) b .high candles index
  have hlow := firesAt_map_annotated (.shift offset) b .low candles index
  simp only [Motion.pivot, crosses_high, crosses_low] at hhigh hlow
  rw [signalAt_eq, signalAt_eq, hhigh, hlow]

theorem signalAt_mirror :
    b.signalAt (candles.map (Motion.mirror offset).annotated) index =
      if b.firesAt fallsThrough candles index && b.firesAt breaksThrough candles index then .bullish
      else (b.signalAt candles index).opposite := by
  have hhigh := firesAt_map_annotated (.mirror offset) b .high candles index
  have hlow := firesAt_map_annotated (.mirror offset) b .low candles index
  simp only [Motion.pivot, Pivot.opposite, crosses_high, crosses_low] at hhigh hlow
  rw [signalAt_eq, signalAt_eq, hhigh, hlow]
  cases b.firesAt fallsThrough candles index <;> cases b.firesAt breaksThrough candles index <;> rfl

end Signals

-- Read exactly, prices that are all shifted by one amount keep their pivots and signals. In a
-- mirror highs and lows change places, and so do bullish and bearish signals, except where both
-- tests fire: there the signal is bullish before and after.
theorem signals_follow_motions (b : Breakout Rat) (offset : Rat) (candles : List (Candle Rat)) :
    ∃ found old shifted mirrored, b.pivots.run .fresh candles = .ok found ∧
      b.run .fresh candles = .ok old ∧ old.map Annotated.candle = candles ∧
      b.run .fresh (candles.map (Motion.shift offset).candle) = .ok shifted ∧
      b.run .fresh (candles.map (Motion.mirror offset).candle) = .ok mirrored ∧
      shifted.map Annotated.pivot = old.map Annotated.pivot ∧
      shifted.map Annotated.breakout = old.map Annotated.breakout ∧
      mirrored.map Annotated.pivot = old.map (·.pivot.opposite) ∧
      ∀ index c d, old[index]? = some c → mirrored[index]? = some d →
        let both := b.firesAt fallsThrough found.candles index &&
          b.firesAt breaksThrough found.candles index
        (both = true → c.breakout = .bullish ∧ d.breakout = .bullish) ∧
          (both = false → d.breakout = c.breakout.opposite) := by
  refine ⟨b.pivots.result candles, b.labelled candles,
    b.labelled (candles.map (Motion.shift offset).candle),
    b.labelled (candles.map (Motion.mirror offset).candle), b.pivots.run_fresh candles,
    b.run_fresh candles, map_candle_labelled b candles, b.run_fresh _, b.run_fresh _,
    map_pivot_labelled_motion (.shift offset) b candles, ?_,
    map_pivot_labelled_motion (.mirror offset) b candles, ?_⟩
  · rw [labelled_motion, labelled]
    apply List.ext_getElem?
    intro index
    rw [List.getElem?_map, List.getElem?_map, getElem?_mark, getElem?_mark, List.getElem?_map,
      signalAt_shift]
    cases (b.pivots.labelled candles)[index]? <;> rfl
  · intro index c d hc hd both
    rw [labelled_motion] at hd
    have hmirror := signalAt_mirror offset b (b.pivots.labelled candles) index
    rw [breakout_of_getElem?_mark hc, breakout_of_getElem?_mark hd]
    constructor
    · intro hboth
      have hhigh := (Bool.and_eq_true_iff.mp hboth).2
      exact ⟨signalAt_eq_bullish_iff.mpr hhigh, hmirror.trans (if_pos hboth)⟩
    · intro hboth
      exact hmirror.trans (if_neg (Bool.eq_false_iff.mp hboth))

-- A low that closes at 60 and a high that closes at 40, with a close at 50 between the two.
theorem signals_follow_motions_both :
    let b : Breakout Rat :=
      ⟨⟨1, 1, 1, 1 / 4, .close⟩, ⟨⟨1, 3 / 100⟩, by decide +kernel⟩, by decide +kernel⟩
    let wide : Candle Rat := ⟨.epoch, 50, 80, 20, 50, 1⟩
    let candles : List (Candle Rat) :=
      [⟨.epoch, 50, 70, 30, 50, 1⟩, ⟨.epoch, 50, 65, 30, 60, 1⟩, ⟨.epoch, 60, 66, 31, 40, 1⟩, wide,
        wide, wide, wide, wide]
    ∃ old mirrored c d, b.run .fresh candles = .ok old ∧
      b.run .fresh (candles.map (Motion.mirror 100).candle) = .ok mirrored ∧
      (old.take 3).map Annotated.pivot = [.unchanged, .low, .high] ∧
      mirrored.map Annotated.pivot = old.map (·.pivot.opposite) ∧
      old[3]? = some c ∧ mirrored[3]? = some d ∧ c.breakout = .bullish ∧ d.breakout = .bullish := by
  intro b wide candles
  obtain ⟨found, old, shifted, mirrored, hfound, hold, -, -, hmirrored, -, -, hpivots, hsignals⟩ :=
    signals_follow_motions b 100 candles
  obtain rfl := Except.ok.inj (hfound.symm.trans (b.pivots.run_fresh candles))
  obtain rfl := Except.ok.inj (hold.symm.trans (b.run_fresh candles))
  obtain rfl := Except.ok.inj (hmirrored.symm.trans (b.run_fresh _))
  have hboth : (b.firesAt fallsThrough (b.pivots.result candles).candles 3 &&
      b.firesAt breaksThrough (b.pivots.result candles).candles 3) = true := by
    decide +kernel
  have hlength : 3 < (b.labelled candles).length ∧
      3 < (b.labelled (candles.map (Motion.mirror 100).candle)).length := by
    decide +kernel
  have hc := List.getElem?_eq_getElem hlength.1
  have hd := List.getElem?_eq_getElem hlength.2
  exact ⟨_, _, _, _, hold, hmirrored, by decide +kernel, hpivots, hc, hd,
    (hsignals 3 _ _ hc hd).1 hboth⟩

end Breakout

end Candlestick

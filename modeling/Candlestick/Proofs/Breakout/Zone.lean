import Candlestick.Breakout
import Mathlib.Algebra.BigOperators.Group.List.Basic
import Mathlib.Algebra.Order.Field.Rat
import Mathlib.Tactic.Linarith

namespace Candlestick.Breakout

section Tests

variable {α : Type} [Scalar α]

-- How far a close is beyond a level: above that of highs, and below that of lows.
def lead : Pivot → α → α → α
  | .high, level, close => close - level
  | .low, level, close => level - close
  | .unchanged, _, _ => Scalar.zero

-- The test of a close against the level of one kind of pivots.
def crosses (pivot : Pivot) (p : Params α) (zone : List (Annotated α)) (close : α) : Bool :=
  (level? p pivot zone).any fun level => lead pivot level close > p.width

theorem crosses_high : crosses .high (α := α) = breaksThrough := rfl

theorem crosses_low : crosses .low (α := α) = fallsThrough := rfl

-- Whether the candle at an index passes a test of its close against its zone.
def firesAt (b : Breakout α) (test : Params α → List (Annotated α) → α → Bool)
    (candles : List (Annotated α)) (index : Nat) : Bool :=
  decide (InRange b.params candles.length index) &&
    candles[index]?.any fun c => test b.params (zone b.params candles index) c.candle.close

-- The prices of a kind of pivot that the zone of an index is judged by.
def usedPrices (b : Breakout α) (pivot : Pivot) (candles : List (Annotated α)) (index : Nat) :
    List α :=
  lastPrices b.params.price b.params.count.toNat pivot (zone b.params candles index)

theorem firesAt_iff {b : Breakout α} {test : Params α → List (Annotated α) → α → Bool}
    {candles : List (Annotated α)} {index : Nat} :
    b.firesAt test candles index = true ↔
      InRange b.params candles.length index ∧ ∃ c, candles[index]? = some c ∧
        test b.params (zone b.params candles index) c.candle.close = true := by
  rw [firesAt, Bool.and_eq_true, decide_eq_true_eq, Option.any_eq_true]

theorem signalAt_eq (b : Breakout α) (candles : List (Annotated α)) (index : Nat) :
    b.signalAt candles index =
      if b.firesAt breaksThrough candles index then .bullish
      else if b.firesAt fallsThrough candles index then .bearish
      else .noChange := by
  by_cases h : InRange b.params candles.length index
  · have hcandle := List.getElem?_eq_getElem (lt_of_inRange b.valid h)
    simp only [signalAt, firesAt, dif_pos h, decide_eq_true h, Bool.true_and, hcandle,
      Option.any_some]
  · simp only [signalAt, firesAt, dif_neg h, decide_eq_false h, Bool.false_and,
      Bool.false_eq_true, if_false]

theorem signalAt_eq_bullish_iff {b : Breakout α} {candles : List (Annotated α)} {index : Nat} :
    b.signalAt candles index = .bullish ↔ b.firesAt breaksThrough candles index = true := by
  rw [signalAt_eq]
  split
  · simp [*]
  · split <;> simp [*]

theorem signalAt_eq_bearish_iff {b : Breakout α} {candles : List (Annotated α)} {index : Nat} :
    b.signalAt candles index = .bearish ↔
      b.firesAt fallsThrough candles index = true ∧
        b.firesAt breaksThrough candles index = false := by
  rw [signalAt_eq]
  split
  · simp [*]
  · split <;> simp [*]

end Tests

private theorem foldl_add (x : Rat) (values : List Rat) :
    values.foldl (· + ·) x = x + values.sum := by
  induction values generalizing x with
  | nil => simp
  | cons y rest ih => rw [List.foldl_cons, ih, List.sum_cons, add_assoc]

theorem sum_eq (values : List Rat) : sum values = values.sum := by
  cases values with
  | nil => rfl
  | cons x rest => exact foldl_add x rest

theorem scalar_abs_eq (x : Rat) : Scalar.abs x = |x| := by
  have h : Scalar.abs x = if 0 ≤ x then x else -x := rfl
  rw [h]
  split
  · rename_i hx
    exact (abs_of_nonneg hx).symm
  · rename_i hx
    exact (abs_of_neg (not_le.mp hx)).symm

theorem flatAverage?_eq (values : List Rat) (count : Nat) (width : Rat) :
    flatAverage? values count width =
      if (values.length = count ∧ count ≠ 0) ∧ ∀ x ∈ values, |values.sum / count - x| ≤ width then
        some (values.sum / count)
      else none := by
  have hnear : (values.all fun x => decide (Scalar.abs (sum values / (count : Rat) - x) ≤ width)) =
      decide (∀ x ∈ values, |values.sum / count - x| ≤ width) := by
    simp only [sum_eq, scalar_abs_eq, List.decide_forall_mem]
  have haverage : flatAverage? values count width =
      if values.length = count ∧ count ≠ 0 then
        if (values.all fun x => decide (Scalar.abs (sum values / (count : Rat) - x) ≤ width)) then
          some (sum values / (count : Rat))
        else none
      else none := rfl
  rw [haverage, hnear, sum_eq]
  by_cases hcount : values.length = count ∧ count ≠ 0
  · simp only [if_pos hcount, decide_eq_true_eq, and_iff_right hcount]
  · rw [if_neg hcount, if_neg fun h => hcount h.1]

section Levels

variable {p : Params Rat} {pivot : Pivot} {zone : List (Annotated Rat)} {level : Rat}

-- As many pivots of a kind as make a zone, the last ones in it, at prices near to one another.
structure IsFlat (p : Params Rat) (pivot : Pivot) (zone : List (Annotated Rat))
    (prices : List Rat) : Prop where
  exists_pivots : ∃ pivots, pivots <:+ zone.filter (·.pivot = pivot) ∧
    prices = pivots.map (priceOf p.price)
  length_eq : prices.length = p.count.toNat
  near : ∀ x ∈ prices, ∀ y ∈ prices, |x - y| ≤ 2 * p.width

theorem exists_pivots_lastPrices (price : ZonePrice) (count : Nat) (pivot : Pivot)
    (zone : List (Annotated Rat)) :
    ∃ pivots, pivots <:+ zone.filter (·.pivot = pivot) ∧
      lastPrices price count pivot zone = pivots.map (priceOf price) := by
  refine ⟨_, List.drop_suffix ((zone.filter (·.pivot = pivot)).length - count) _, ?_⟩
  rw [lastPrices, List.length_map, List.map_drop]

theorem abs_sub_le_of_level? (h : level? p pivot zone = some level) :
    ∀ x ∈ lastPrices p.price p.count.toNat pivot zone, |level - x| ≤ p.width := by
  rw [level?, flatAverage?_eq, Option.ite_none_right_eq_some] at h
  obtain ⟨⟨-, hnear⟩, haverage⟩ := h
  rwa [Option.some_inj.mp haverage] at hnear

-- Two prices that are near to the level are near to each other.
theorem isFlat_of_level? (h : level? p pivot zone = some level) :
    IsFlat p pivot zone (lastPrices p.price p.count.toNat pivot zone) where
  exists_pivots := exists_pivots_lastPrices _ _ _ _
  length_eq := by
    rw [level?, flatAverage?_eq, Option.ite_none_right_eq_some] at h
    exact h.1.1.1
  near := by
    intro x hx y hy
    calc |x - y|
      _ ≤ |x - level| + |level - y| := abs_sub_le x level y
      _ = |level - x| + |level - y| := by rw [abs_sub_comm]
      _ ≤ p.width + p.width :=
        add_le_add (abs_sub_le_of_level? h x hx) (abs_sub_le_of_level? h y hy)
      _ = 2 * p.width := (two_mul _).symm

end Levels

section Signals

variable {b : Breakout Rat} {candles : List (Annotated Rat)} {index : Nat}

theorem lead_sub_abs_le (pivot : Pivot) (level x close : Rat) :
    lead pivot level close - |level - x| ≤ lead pivot x close := by
  have hle := le_abs_self (level - x)
  have hge := neg_abs_le (level - x)
  cases pivot with
  | high =>
      have hlead (y : Rat) : lead .high y close = close - y := rfl
      rw [hlead, hlead]
      linarith
  | low =>
      have hlead (y : Rat) : lead .low y close = y - close := rfl
      rw [hlead, hlead]
      linarith
  | unchanged => exact sub_le_self _ (abs_nonneg _)

-- A close that is far beyond the average is beyond every price near to it.
theorem of_firesAt_crosses {pivot : Pivot} (h : b.firesAt (crosses pivot) candles index = true) :
    IsFlat b.params pivot (zone b.params candles index) (b.usedPrices pivot candles index) ∧
      ∃ c, candles[index]? = some c ∧
        ∀ x ∈ b.usedPrices pivot candles index, 0 < lead pivot x c.candle.close := by
  obtain ⟨-, c, hc, htest⟩ := firesAt_iff.mp h
  obtain ⟨level, hlevel, hbeyond⟩ := (Option.any_eq_true _ _).mp htest
  refine ⟨isFlat_of_level? hlevel, c, hc, fun x hx => ?_⟩
  have hfar : b.params.width < lead pivot level c.candle.close := of_decide_eq_true hbeyond
  have hnear := abs_sub_le_of_level? hlevel x hx
  have hleft := lead_sub_abs_le pivot level x c.candle.close
  linarith

theorem of_firesAt_breaksThrough (h : b.firesAt breaksThrough candles index = true) :
    IsFlat b.params .high (zone b.params candles index) (b.usedPrices .high candles index) ∧
      ∃ c, candles[index]? = some c ∧
        ∀ x ∈ b.usedPrices .high candles index, x < c.candle.close := by
  rw [← crosses_high] at h
  obtain ⟨hflat, c, hc, hlead⟩ := of_firesAt_crosses h
  exact ⟨hflat, c, hc, fun x hx => sub_pos.mp (hlead x hx)⟩

theorem of_firesAt_fallsThrough (h : b.firesAt fallsThrough candles index = true) :
    IsFlat b.params .low (zone b.params candles index) (b.usedPrices .low candles index) ∧
      ∃ c, candles[index]? = some c ∧
        ∀ x ∈ b.usedPrices .low candles index, c.candle.close < x := by
  rw [← crosses_low] at h
  obtain ⟨hflat, c, hc, hlead⟩ := of_firesAt_crosses h
  exact ⟨hflat, c, hc, fun x hx => sub_pos.mp (hlead x hx)⟩

theorem between_of_firesAt_both (hlow : b.firesAt fallsThrough candles index = true)
    (hhigh : b.firesAt breaksThrough candles index = true) :
    ∃ c, candles[index]? = some c ∧ (∀ x ∈ b.usedPrices .low candles index, c.candle.close < x) ∧
      ∀ x ∈ b.usedPrices .high candles index, x < c.candle.close := by
  obtain ⟨-, c, hc, hbelow⟩ := of_firesAt_fallsThrough hlow
  obtain ⟨-, d, hd, habove⟩ := of_firesAt_breaksThrough hhigh
  obtain rfl := Option.some_inj.mp (hc.symm.trans hd)
  exact ⟨c, hc, hbelow, habove⟩

theorem lt_of_firesAt_both (hlow : b.firesAt fallsThrough candles index = true)
    (hhigh : b.firesAt breaksThrough candles index = true) :
    ∀ x ∈ b.usedPrices .high candles index, ∀ y ∈ b.usedPrices .low candles index, x < y := by
  obtain ⟨c, -, hbelow, habove⟩ := between_of_firesAt_both hlow hhigh
  exact fun x hx y hy => (habove x hx).trans (hbelow y hy)

end Signals

-- Read exactly, a bullish signal rests on a flat zone of highs with the close above each of them,
-- and a bearish one on a flat zone of lows with the close below each of them. Where both tests
-- fire the signal is bullish and all lows are above all highs, so that a low which is not above
-- some high keeps one of the tests from firing.
theorem signals_rest_on_flat_zones (b : Breakout Rat) (candles : List (Annotated Rat))
    (index : Nat) :
    let flat (pivot : Pivot) : Prop :=
      IsFlat b.params pivot (zone b.params candles index) (b.usedPrices pivot candles index)
    let highs := b.usedPrices .high candles index
    let lows := b.usedPrices .low candles index
    (b.signalAt candles index = .bullish →
        flat .high ∧ ∃ c, candles[index]? = some c ∧ ∀ x ∈ highs, x < c.candle.close) ∧
      (b.signalAt candles index = .bearish →
        flat .low ∧ ∃ c, candles[index]? = some c ∧ ∀ x ∈ lows, c.candle.close < x) ∧
      (b.firesAt fallsThrough candles index = true → b.firesAt breaksThrough candles index = true →
        b.signalAt candles index = .bullish ∧ (flat .low ∧ flat .high) ∧
          (∃ c, candles[index]? = some c ∧ (∀ x ∈ lows, c.candle.close < x) ∧
            ∀ x ∈ highs, x < c.candle.close) ∧
          ∀ x ∈ highs, ∀ y ∈ lows, x < y) ∧
      ((∃ y ∈ lows, ∃ x ∈ highs, y ≤ x) →
        ¬(b.firesAt fallsThrough candles index = true ∧
          b.firesAt breaksThrough candles index = true)) := by
  intro flat highs lows
  refine ⟨?_, ?_, ?_, ?_⟩
  · exact fun h => of_firesAt_breaksThrough (signalAt_eq_bullish_iff.mp h)
  · exact fun h => of_firesAt_fallsThrough (signalAt_eq_bearish_iff.mp h).1
  · intro hlow hhigh
    have hflat := And.intro (of_firesAt_fallsThrough hlow).1 (of_firesAt_breaksThrough hhigh).1
    exact ⟨signalAt_eq_bullish_iff.mpr hhigh, hflat, between_of_firesAt_both hlow hhigh,
      lt_of_firesAt_both hlow hhigh⟩
  · rintro ⟨y, hy, x, hx, hle⟩ ⟨hlow, hhigh⟩
    exact (lt_of_firesAt_both hlow hhigh x hx y hy).not_ge hle

-- Lows at 50 and 51 with a close at 45 in the midst, and highs that are both below that close, or
-- on a level with the lows.
theorem signals_rest_on_flat_zones_twice :
    let b : Breakout Rat :=
      ⟨⟨1, 1, 2, 1 / 2, .close⟩, ⟨⟨2, 1 / 100⟩, by decide +kernel⟩, by decide +kernel⟩
    let candle (close : Rat) (pivot : Pivot) : Annotated Rat :=
      ⟨⟨.epoch, close, close, close, close, 1⟩, 0, .noChange, .noChange, pivot⟩
    let candles (high : Rat) : List (Annotated Rat) :=
      [candle 45 .unchanged, candle 50 .low, candle 51 .low, candle 45 .unchanged,
        candle high .high, candle (high + 1) .high, candle 45 .unchanged, candle 45 .unchanged,
        candle 45 .unchanged, candle 45 .unchanged]
    ((b.firesAt fallsThrough (candles 40) 3 = true ∧ b.firesAt breaksThrough (candles 40) 3 = true) ∧
        b.signalAt (candles 40) 3 = .bullish ∧ b.usedPrices .high (candles 40) 3 = [40, 41] ∧
        ∀ x ∈ b.usedPrices .high (candles 40) 3, ∀ y ∈ b.usedPrices .low (candles 40) 3, x < y) ∧
      b.signalAt (candles 50) 3 = .bearish ∧
        (∃ y ∈ b.usedPrices .low (candles 50) 3, ∃ x ∈ b.usedPrices .high (candles 50) 3, y ≤ x) ∧
        ¬(b.firesAt fallsThrough (candles 50) 3 = true ∧
          b.firesAt breaksThrough (candles 50) 3 = true) := by
  intro b candle candles
  have hlow : b.firesAt fallsThrough (candles 40) 3 = true := by decide +kernel
  have hhigh : b.firesAt breaksThrough (candles 40) 3 = true := by decide +kernel
  have hlevel : ∃ y ∈ b.usedPrices .low (candles 50) 3, ∃ x ∈ b.usedPrices .high (candles 50) 3,
      y ≤ x := by decide +kernel
  obtain ⟨hsignal, -, -, hlt⟩ := (signals_rest_on_flat_zones b (candles 40) 3).2.2.1 hlow hhigh
  refine ⟨⟨⟨hlow, hhigh⟩, hsignal, by decide +kernel, hlt⟩, by decide +kernel, hlevel, ?_⟩
  exact (signals_rest_on_flat_zones b (candles 50) 3).2.2.2 hlevel

end Candlestick.Breakout

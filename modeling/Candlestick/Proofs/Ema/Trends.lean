import Candlestick.Proofs.Ema.Weights

namespace Candlestick.Ema

-- From one candle to the next the average moves in a direction, and the close is ahead of it.
def Lags (ahead : Rat → Rat → Prop) (p c : Annotated Rat) : Prop :=
  ahead p.ema c.ema ∧ ahead c.ema c.candle.close

section Steps

variable {m ema close : Rat} (hpos : 0 < m) (hlt : m < 1)

include hpos hlt

theorem lt_next_of_lt (h : ema < close) : ema < next m ema close ∧ next m ema close < close := by
  have hmove := mul_pos hpos (sub_pos.mpr h)
  have hleft := mul_pos (sub_pos.mpr hlt) (sub_pos.mpr h)
  rw [next_eq]
  constructor <;> linarith

theorem gt_next_of_gt (h : ema > close) : ema > next m ema close ∧ next m ema close > close := by
  have hmove := mul_pos hpos (sub_pos.mpr h)
  have hleft := mul_pos (sub_pos.mpr hlt) (sub_pos.mpr h)
  rw [next_eq]
  constructor <;> linarith

end Steps

section Runs

variable {ahead : Rat → Rat → Prop} [IsTrans Rat ahead] {m : Rat}
  (hstep : ∀ {ema close}, ahead ema close →
    ahead ema (next m ema close) ∧ ahead (next m ema close) close)

include hstep

-- The invariant is that the close is level with the average or ahead of it. The next close is ahead
-- of both, and a step towards it does not reach it.
theorem isChain_lags_averaged {first : Annotated Rat} {rest : List (Candle Rat)}
    (hfirst : first.ema = first.candle.close ∨ ahead first.ema first.candle.close)
    (htrend : (first.candle :: rest).IsChain fun c d => ahead c.close d.close) :
    (first :: averaged m first.ema rest).IsChain (Lags ahead) := by
  induction rest generalizing first with
  | nil => exact List.isChain_singleton first
  | cons c rest ih =>
      obtain ⟨hnext, hrest⟩ := List.isChain_cons_cons.mp htrend
      have hahead : ahead first.ema c.close := by
        rcases hfirst with h | h
        · rwa [h]
        · exact trans_of ahead h hnext
      obtain ⟨hmove, hbehind⟩ := hstep hahead
      have hfollowing := @ih { c.annotated with ema := next m first.ema c.close } (.inr hbehind) hrest
      exact List.isChain_cons_cons.mpr ⟨⟨hmove, hbehind⟩, hfollowing⟩

theorem isChain_lags_labelled {e : Ema} (hm : e.multiplier Rat = m) {candles : List (Candle Rat)}
    (htrend : candles.Pairwise fun c d => ahead c.close d.close) :
    (e.labelled candles).IsChain (Lags ahead) := by
  cases candles with
  | nil => exact List.isChain_nil
  | cons c rest =>
      have hfirst : ({ c.annotated with ema := c.close } : Annotated Rat).ema = c.close := rfl
      rw [labelled, hm]
      exact isChain_lags_averaged hstep (.inl hfirst) htrend.isChain

end Runs

theorem multiplier_mem_Ioo {e : Ema} (h : 2 ≤ e.params.period) :
    e.multiplier Rat ∈ Set.Ioo 0 1 := by
  have hperiod : (2 : Rat) ≤ e.params.period.toNat := by
    exact_mod_cast UInt64.le_iff_toNat_le.mp h
  refine ⟨(multiplier_mem_Ioc e).1, ?_⟩
  rw [multiplier_eq, div_lt_one₀ (by linarith)]
  linarith

-- A share of one takes the average all the way to the close.
theorem ema_of_mem_averaged_one {ema : Rat} {candles : List (Candle Rat)} {c : Annotated Rat}
    (hc : c ∈ averaged 1 ema candles) : c.ema = c.candle.close := by
  induction candles generalizing ema with
  | nil => cases hc
  | cons d rest ih =>
      rcases List.mem_cons.mp hc with rfl | hrest
      · rw [next_eq]
        simp [Candle.annotated]
      · exact ih hrest

theorem ema_of_mem_labelled_one {e : Ema} (h : e.params.period = 1) {candles : List (Candle Rat)}
    {c : Annotated Rat} (hc : c ∈ e.labelled candles) : c.ema = c.candle.close := by
  have hm : e.multiplier Rat = 1 := by
    rw [multiplier_eq, h, UInt64.toNat_one]
    norm_num
  cases candles with
  | nil => cases hc
  | cons d rest =>
      rw [labelled, hm] at hc
      rcases List.mem_cons.mp hc with rfl | hrest
      · rfl
      · exact ema_of_mem_averaged_one hrest

-- Read exactly, the averages of two candles or more lag behind a trend of closes and follow it, up
-- as well as down, with every candle after the first one. The average of one candle is its close.
theorem averages_lag_trends (e : Ema) (candles : List (Candle Rat)) :
    ∃ r, e.run .fresh candles = .ok r ∧ r.map Annotated.candle = candles ∧
      (2 ≤ e.params.period → (candles.Pairwise fun c d => c.close < d.close) →
        r.IsChain fun p c => p.ema < c.ema ∧ c.ema < c.candle.close) ∧
      (2 ≤ e.params.period → (candles.Pairwise fun c d => c.close > d.close) →
        r.IsChain fun p c => p.ema > c.ema ∧ c.ema > c.candle.close) ∧
      (e.params.period = 1 → ∀ c ∈ r, c.ema = c.candle.close) := by
  refine ⟨e.labelled candles, run_fresh e candles, map_candle_labelled e candles, ?_, ?_, ?_⟩
  · intro hperiod hrising
    obtain ⟨hpos, hlt⟩ := multiplier_mem_Ioo hperiod
    have hlags : (e.labelled candles).IsChain (Lags (· < ·)) :=
      isChain_lags_labelled (fun h => lt_next_of_lt hpos hlt h) rfl hrising
    exact hlags
  · intro hperiod hfalling
    obtain ⟨hpos, hlt⟩ := multiplier_mem_Ioo hperiod
    have hlags : (e.labelled candles).IsChain (Lags (· > ·)) :=
      isChain_lags_labelled (fun h => gt_next_of_gt hpos hlt h) rfl hfalling
    exact hlags
  · exact fun hperiod _ hc => ema_of_mem_labelled_one hperiod hc

-- Steps of different sizes up, the same ones down, and a series with no trend.
theorem averages_lag_trends_uneven :
    let e : Ema := ⟨⟨2⟩, by decide⟩
    let one : Ema := ⟨⟨1⟩, by decide⟩
    let up : List (Candle Rat) :=
      [⟨.epoch, 1, 2, 1, 1, 5⟩, ⟨.epoch, 1, 3, 1, 2, 5⟩, ⟨.epoch, 2, 9, 2, 9, 5⟩]
    let down : List (Candle Rat) :=
      [⟨.epoch, 9, 9, 8, 9, 5⟩, ⟨.epoch, 9, 9, 2, 2, 5⟩, ⟨.epoch, 2, 2, 1, 1, 5⟩]
    ((2 ≤ e.params.period ∧ up.Pairwise fun c d => c.close < d.close) ∧
        ∃ r, e.run .fresh up = .ok r ∧ r.map Annotated.ema = [1, 5 / 3, 59 / 9] ∧
          r.IsChain fun p c => p.ema < c.ema ∧ c.ema < c.candle.close) ∧
      ((down.Pairwise fun c d => c.close > d.close) ∧
        ∃ r, e.run .fresh down = .ok r ∧ r.map Annotated.ema = [9, 13 / 3, 19 / 9] ∧
          r.IsChain fun p c => p.ema > c.ema ∧ c.ema > c.candle.close) ∧
      one.params.period = 1 ∧
        ∃ r, one.run .fresh (up ++ down) = .ok r ∧ ∀ c ∈ r, c.ema = c.candle.close := by
  intro e one up down
  have hperiod : 2 ≤ e.params.period := by decide
  have hrising : up.Pairwise fun c d => c.close < d.close := by decide +kernel
  have hfalling : down.Pairwise fun c d => c.close > d.close := by decide +kernel
  obtain ⟨r, hr, -, habove, -⟩ := averages_lag_trends e up
  obtain ⟨s, hs, -, -, hbelow, -⟩ := averages_lag_trends e down
  obtain ⟨t, ht, -, -, -, hlevel⟩ := averages_lag_trends one (up ++ down)
  refine ⟨⟨⟨hperiod, hrising⟩, r, hr, ?_, habove hperiod hrising⟩,
    ⟨hfalling, s, hs, ?_, hbelow hperiod hfalling⟩, rfl, t, ht, hlevel rfl⟩
  · obtain rfl := Except.ok.inj (hr.symm.trans (run_fresh e up))
    decide +kernel
  · obtain rfl := Except.ok.inj (hs.symm.trans (run_fresh e down))
    decide +kernel

end Candlestick.Ema

import Candlestick.Ema

namespace Candlestick.Ema

variable {α : Type} [Scalar α]

-- The candles with the averages that go on from one before them.
def averaged (multiplier : α) : α → List (Candle α) → List (Annotated α)
  | _, [] => []
  | ema, c :: rest =>
    { c.annotated with ema := next multiplier ema c.close } ::
      averaged multiplier (next multiplier ema c.close) rest

def labelled (e : Ema) : List (Candle α) → List (Annotated α)
  | [] => []
  | c :: rest => { c.annotated with ema := c.close } :: averaged (e.multiplier α) c.close rest

theorem follow_eq (multiplier : α) (token : Token) (ema : α) (candles : List (Candle α)) :
    follow multiplier token ema candles =
      if token.cancelled ∧ candles ≠ [] then .error (.cancelled stage)
      else .ok (averaged multiplier ema candles) := by
  induction candles generalizing ema with
  | nil => simp [follow, averaged, pure, Except.pure]
  | cons c rest ih =>
      have hrest := ih (next multiplier ema c.close)
      by_cases h : token.cancelled
      · simp [follow, Token.check, h, bind, Except.bind]
      · simp [follow, Token.check, h, hrest, averaged, bind, Except.bind, pure, Except.pure]

theorem run_eq (e : Ema) (token : Token) (candles : List (Candle α)) :
    e.run token candles =
      if token.cancelled ∧ 2 ≤ candles.length then .error (.cancelled stage)
      else .ok (e.labelled candles) := by
  cases candles with
  | nil => simp [run, labelled, pure, Except.pure]
  | cons c rest =>
      have hlen : 2 ≤ (c :: rest).length ↔ rest ≠ [] := by
        cases rest <;> simp
      rw [run, follow_eq]
      simp only [hlen]
      split <;> rfl

theorem map_candle_averaged (multiplier ema : α) (candles : List (Candle α)) :
    (averaged multiplier ema candles).map Annotated.candle = candles := by
  induction candles generalizing ema with
  | nil => rfl
  | cons c rest ih => rw [averaged, List.map_cons, ih]; rfl

@[simp] theorem map_candle_labelled (e : Ema) (candles : List (Candle α)) :
    (e.labelled candles).map Annotated.candle = candles := by
  cases candles with
  | nil => rfl
  | cons c rest => rw [labelled, List.map_cons, map_candle_averaged]; rfl

end Candlestick.Ema

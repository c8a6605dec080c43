import Candlestick.Analysis
import Candlestick.Proofs.Breakout.Run
import Candlestick.Proofs.Ema.Run

namespace Candlestick

variable {α : Type} [Scalar α]

-- The labels that no analysis for the algorithm sets have their first values.
structure Annotated.Untouched (c : Annotated α) (algorithm : Algorithm) : Prop where
  trend : c.trend = .noChange
  ema : algorithm ≠ .ema → c.ema = Scalar.zero
  pivot : algorithm = .ema → c.pivot = .unchanged
  breakout : algorithm ≠ .breakout → c.breakout = .noChange

-- What holds of an output for an algorithm, whatever the analysis has found.
structure Output.IsOf (output : Output α) (algorithm : Algorithm) (candles : List (Candle α)) :
    Prop where
  candles : output.labelled.map Annotated.candle = candles
  shape : output.shape = .keyLevels ↔ algorithm = .keyLevels
  untouched : ∀ c ∈ output.labelled, c.Untouched algorithm

theorem Ema.untouched_of_mem_averaged {multiplier ema : α} {candles : List (Candle α)}
    {c : Annotated α} (h : c ∈ averaged multiplier ema candles) : c.Untouched .ema := by
  induction candles generalizing ema with
  | nil => exact absurd h List.not_mem_nil
  | cons first rest ih =>
      rcases List.mem_cons.mp h with rfl | hrest
      · exact ⟨rfl, fun hne => absurd rfl hne, fun _ => rfl, fun _ => rfl⟩
      · exact ih hrest

theorem Ema.untouched_of_mem_labelled {e : Ema} {candles : List (Candle α)} {c : Annotated α}
    (h : c ∈ e.labelled candles) : c.Untouched .ema := by
  cases candles with
  | nil => exact absurd h List.not_mem_nil
  | cons first rest =>
      rcases List.mem_cons.mp h with rfl | hrest
      · exact ⟨rfl, fun hne => absurd rfl hne, fun _ => rfl, fun _ => rfl⟩
      · exact untouched_of_mem_averaged hrest

theorem KeyLevels.untouched_of_mem_labelled {k : KeyLevels α} {candles : List (Candle α)}
    {c : Annotated α} (h : c ∈ k.labelled candles) : c.Untouched .keyLevels := by
  obtain ⟨index, hi, rfl⟩ := List.mem_mapIdx.mp h
  exact ⟨rfl, fun _ => rfl, fun hne => absurd hne (by decide), fun _ => rfl⟩

theorem Breakout.untouched_of_mem_mark {b : Breakout α} {candles : List (Annotated α)}
    {c : Annotated α} (h : c ∈ b.mark candles) : c.Untouched .breakout := by
  obtain ⟨⟨d, index⟩, -, rfl⟩ := List.mem_map.mp h
  exact ⟨rfl, fun _ => rfl, fun hne => absurd hne (by decide), fun hne => absurd rfl hne⟩

namespace Analysis

-- The output, if nobody cancels.
def output (candles : List (Candle α)) : Analysis α → Output α
  | ema e => .candles (e.labelled candles)
  | keyLevels k => .keyLevels (k.result candles)
  | breakout b => .candles (b.labelled candles)

-- The number of candles from which on the token is looked at.
def firstLook : Analysis α → Nat
  | ema _ => 2
  | keyLevels _ => 1
  | breakout _ => 1

-- The stage that a cancelled analysis gives up.
def stage : Analysis α → String
  | ema _ => Ema.stage
  | keyLevels _ => KeyLevels.stage
  | breakout _ => KeyLevels.stage

private theorem map_ite_error {β γ ε : Type} (f : β → γ) (c : Prop) [Decidable c] (e : ε) (x : β) :
    (f <$> if c then Except.error e else .ok x) = if c then .error e else .ok (f x) := by
  split <;> rfl

theorem run_eq (a : Analysis α) (token : Token) (candles : List (Candle α)) :
    a.run token candles =
      if token.cancelled ∧ a.firstLook ≤ candles.length then .error (.cancelled a.stage)
      else .ok (a.output candles) := by
  cases a with
  | ema e => rw [run, Ema.run_eq, map_ite_error]; rfl
  | keyLevels k => rw [run, KeyLevels.run_eq, map_ite_error]; rfl
  | breakout b => rw [run, Breakout.run_eq, map_ite_error]; rfl

theorem eq_output_of_run_eq_ok {a : Analysis α} {token : Token} {candles : List (Candle α)}
    {output : Output α} (h : a.run token candles = .ok output) : output = a.output candles := by
  rw [run_eq] at h
  split at h
  · exact absurd h (by simp)
  · exact (Except.ok.inj h).symm

theorem output_isOf (a : Analysis α) (candles : List (Candle α)) :
    (a.output candles).IsOf a.algorithm candles := by
  cases a with
  | ema e =>
      exact ⟨e.map_candle_labelled candles, by simp [output, Output.shape, algorithm],
        fun _ => Ema.untouched_of_mem_labelled⟩
  | keyLevels k =>
      exact ⟨k.map_candle_labelled candles, by simp [output, Output.shape, algorithm],
        fun _ => KeyLevels.untouched_of_mem_labelled⟩
  | breakout b =>
      exact ⟨b.map_candle_labelled candles, by simp [output, Output.shape, algorithm],
        fun _ => Breakout.untouched_of_mem_mark⟩

end Analysis

end Candlestick

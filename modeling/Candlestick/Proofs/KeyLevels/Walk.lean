import Candlestick.Proofs.KeyLevels.Clusters
import Candlestick.Proofs.KeyLevels.Distinct
import Candlestick.Proofs.KeyLevels.Prices

namespace Candlestick

variable {α : Type}

namespace Candle

def extremes (c : Candle α) : α × α := (c.high, c.low)

def ofExtremes (extremes : α × α) : Candle α :=
  ⟨.epoch, extremes.1, extremes.1, extremes.2, extremes.2, extremes.2⟩

-- What is left of a candle if only its high and its low are kept.
def outline (c : Candle α) : Candle α := ofExtremes c.extremes

theorem map_outline_eq {candles others : List (Candle α)}
    (h : others.map extremes = candles.map extremes) :
    others.map outline = candles.map outline := by
  have hmap := congrArg (List.map ofExtremes) h
  rwa [List.map_map, List.map_map] at hmap

end Candle

namespace KeyLevels

-- The candles labelled so far, and the prices noted so far.
structure Walk (α : Type) where
  labelled : List (Annotated α)
  prices : List α

namespace Walk

variable [Scalar α]

-- Looks at the token, labels the next candle and, if it is a pivot, notes its price.
def step (k : KeyLevels α) (token : Token) (candles : List (Candle α)) (w : Walk α)
    (entry : Candle α × Nat) : Except AnalysisError (Walk α) := do
  token.check stage
  let pivot := k.pivotAt candles entry.2
  let prices :=
    match pivot with
    | .high => w.prices ++ [entry.1.high]
    | .low => w.prices ++ [entry.1.low]
    | .unchanged => w.prices
  return ⟨w.labelled ++ [{ entry.1.annotated with pivot }], prices⟩

def run (k : KeyLevels α) (token : Token) (candles : List (Candle α)) :
    Except AnalysisError (Walk α) :=
  candles.zipIdx.foldlM (step k token candles) ⟨[], []⟩

theorem step_fresh (k : KeyLevels α) (candles : List (Candle α)) (labelled : List (Annotated α))
    (c : Candle α) (index : Nat) :
    step k .fresh candles ⟨labelled, turns labelled⟩ (c, index) =
      .ok ⟨labelled ++ [{ c.annotated with pivot := k.pivotAt candles index }],
        turns (labelled ++ [{ c.annotated with pivot := k.pivotAt candles index }])⟩ := by
  have hcheck : Token.fresh.check stage = .ok () := rfl
  rw [step, hcheck, turns_append]
  cases k.pivotAt candles index <;>
    simp [bind, Except.bind, pure, Except.pure, turns, turn?, Candle.annotated]

-- The prices noted are those of the candles labelled, at every step.
theorem foldlM_step (k : KeyLevels α) (candles : List (Candle α))
    (entries : List (Candle α × Nat)) (labelled : List (Annotated α)) :
    entries.foldlM (step k .fresh candles) ⟨labelled, turns labelled⟩ =
      .ok ⟨labelled ++ entries.map fun entry =>
          { entry.1.annotated with pivot := k.pivotAt candles entry.2 },
        turns (labelled ++ entries.map fun entry =>
          { entry.1.annotated with pivot := k.pivotAt candles entry.2 })⟩ := by
  induction entries generalizing labelled with
  | nil => simp [pure, Except.pure]
  | cons entry rest ih =>
      rw [List.foldlM_cons, step_fresh]
      simp only [bind, Except.bind, ih, List.map_cons, List.append_assoc, List.singleton_append]

theorem run_fresh (k : KeyLevels α) (candles : List (Candle α)) :
    run k .fresh candles = .ok ⟨k.labelled candles, turns (k.labelled candles)⟩ := by
  have h := foldlM_step k candles candles.zipIdx []
  rw [List.nil_append] at h
  rw [KeyLevels.labelled, List.mapIdx_eq_zipIdx_map]
  exact h

end Walk

theorem turns_map_outline (candles : List (Annotated α)) :
    turns (candles.map (Annotated.mapCandle Candle.outline)) = turns candles := by
  rw [turns, List.filterMap_map]
  rfl

section Extremes

variable [Scalar α] (k : KeyLevels α) {candles others : List (Candle α)}

theorem labelled_map_outline (candles : List (Candle α)) :
    k.labelled (candles.map Candle.outline) =
      (k.labelled candles).map (Annotated.mapCandle Candle.outline) :=
  labelled_map (g := Candle.outline) (fun _ _ => Iff.rfl) (fun _ _ => Iff.rfl) k candles

variable (h : others.map Candle.extremes = candles.map Candle.extremes)

include h

theorem map_outline_labelled_eq :
    (k.labelled others).map (Annotated.mapCandle Candle.outline) =
      (k.labelled candles).map (Annotated.mapCandle Candle.outline) := by
  rw [← labelled_map_outline, ← labelled_map_outline, Candle.map_outline_eq h]

theorem map_pivot_labelled_eq :
    (k.labelled others).map Annotated.pivot = (k.labelled candles).map Annotated.pivot := by
  have hpivots := congrArg (List.map Annotated.pivot) (map_outline_labelled_eq k h)
  rwa [List.map_map, List.map_map] at hpivots

theorem levels_result_eq : (k.result others).levels = (k.result candles).levels := by
  have hturns := congrArg turns (map_outline_labelled_eq k h)
  rw [turns_map_outline, turns_map_outline] at hturns
  rw [result, result, hturns]

end Extremes

section Levels

variable [Scalar α] (k : KeyLevels α) (candles : List (Candle α))

theorem levels_result_eq_nil_iff :
    (k.result candles).levels = [] ↔ ∀ c ∈ k.labelled candles, c.pivot = .unchanged :=
  calc merge k.params.epsilon (distinct k.params.epsilon (turns (k.labelled candles))) = []
    _ ↔ distinct k.params.epsilon (turns (k.labelled candles)) = [] := mergeWithin_eq_nil_iff _ _
    _ ↔ turns (k.labelled candles) = [] := distinct_eq_nil_iff _ _
    _ ↔ ∀ c ∈ k.labelled candles, c.pivot = .unchanged := turns_eq_nil_iff

theorem length_levels_result_le :
    (k.result candles).levels.length ≤ (k.labelled candles).countP (·.pivot ≠ .unchanged) := by
  rw [← length_turns]
  exact (length_mergeWithin_le _ _).trans (distinct_sublist _ _).length_le

end Levels

-- The two parts of a result agree: both come out of one walk, and the prices that the levels are
-- made of can be read off the labelled candles. There are levels if and only if there are pivots,
-- and no more of them; and the highs and lows alone decide on both.
theorem levels_come_from_pivots [Scalar α] (k : KeyLevels α) (candles : List (Candle α)) :
    ∃ r, k.run .fresh candles = .ok r ∧
      (∀ index : Nat, r.candles[index]? = candles[index]?.map fun c =>
        { c.annotated with pivot := k.pivotAt candles index }) ∧
      Walk.run k .fresh candles = .ok ⟨r.candles, turns r.candles⟩ ∧
      r.levels = merge k.params.epsilon (distinct k.params.epsilon (turns r.candles)) ∧
      (r.levels = [] ↔ ∀ c ∈ r.candles, c.pivot = .unchanged) ∧
      r.levels.length ≤ r.candles.countP (·.pivot ≠ .unchanged) ∧
      ∀ others : List (Candle α), others.map Candle.extremes = candles.map Candle.extremes →
        ∃ s, k.run .fresh others = .ok s ∧
          s.candles.map Annotated.pivot = r.candles.map Annotated.pivot ∧ s.levels = r.levels := by
  refine ⟨k.result candles, run_fresh k candles, getElem?_labelled k candles,
    Walk.run_fresh k candles, rfl, levels_result_eq_nil_iff k candles,
    length_levels_result_le k candles, ?_⟩
  intro others h
  exact ⟨k.result others, run_fresh k others, map_pivot_labelled_eq k h, levels_result_eq k h⟩

end KeyLevels

end Candlestick

import Candlestick.Proofs.Decimal.Arithmetic
import Candlestick.Proofs.KeyLevels.Locality

namespace Candlestick

def Pivot.opposite : Pivot → Pivot
  | .high => .low
  | .low => .high
  | .unchanged => .unchanged

variable {α : Type}

-- Whether a candle reaches beyond another on the side of a pivot: higher for a high, lower for a
-- low.
def Candle.Beyond [Scalar α] (side : Pivot) (d c : Candle α) : Prop :=
  match side with
  | .high => c.high < d.high
  | .low => d.low < c.low
  | .unchanged => False

namespace KeyLevels

theorem mem_neighbours_iff {window index : Nat} (hlo : window ≤ index)
    {candles : List (Candle α)} {d : Candle α} :
    d ∈ neighbours window index candles ↔
      ∃ j, index - window ≤ j ∧ j < index + window ∧ candles[j]? = some d := by
  rw [neighbours, List.mem_iff_getElem?]
  constructor
  · rintro ⟨m, hm⟩
    by_cases hlt : m < 2 * window
    · rw [List.getElem?_take_of_lt hlt, List.getElem?_drop] at hm
      exact ⟨index - window + m, by omega, by omega, hm⟩
    · rw [List.getElem?_take_eq_none (by omega)] at hm
      cases hm
  · rintro ⟨j, hstart, hstop, hj⟩
    refine ⟨j - (index - window), ?_⟩
    rw [List.getElem?_take_of_lt (by omega), List.getElem?_drop, Nat.add_sub_cancel' hstart]
    exact hj

variable [Scalar α]

-- A candle is a pivot of a kind if none of its neighbours is beyond it on that side, and one is on
-- the other.
theorem classify_eq_iff {side : Pivot} (hside : side ≠ .unchanged) (c : Candle α)
    (neighbours : List (Candle α)) :
    classify c neighbours = side ↔
      (∀ d ∈ neighbours, ¬ d.Beyond side c) ∧ ∃ d ∈ neighbours, d.Beyond side.opposite c := by
  have hlow : neighbours.any (c.low > ·.low) = true ↔ ∃ d ∈ neighbours, d.Beyond .low c := by
    simp [Candle.Beyond]
  have hhigh : neighbours.any (c.high < ·.high) = true ↔ ∃ d ∈ neighbours, d.Beyond .high c := by
    simp [Candle.Beyond]
  have hnone (side : Pivot) : (∀ d ∈ neighbours, ¬ d.Beyond side c) ↔
      ¬ ∃ d ∈ neighbours, d.Beyond side c := by
    simp
  rw [hnone, classify]
  cases side with
  | unchanged => exact absurd rfl hside
  | high | low =>
      rw [Pivot.opposite, ← hlow, ← hhigh]
      cases neighbours.any (c.low > ·.low) <;> cases neighbours.any (c.high < ·.high) <;> simp

-- What makes a candle a pivot of a kind.
structure IsTurn (side : Pivot) (window : Nat) (candles : List (Candle α)) (index : Nat)
    (c : Candle α) : Prop where
  window_le : window ≤ index
  lt_length : index + window < candles.length
  unbeaten : ∀ (j : Nat) (d : Candle α), index - window ≤ j → j < index + window →
    candles[j]? = some d → ¬ d.Beyond side c
  faced : ∃ (j : Nat) (d : Candle α), index - window ≤ j ∧ j < index + window ∧
    candles[j]? = some d ∧ d.Beyond side.opposite c

theorem pivotOf_eq_iff {side : Pivot} (hside : side ≠ .unchanged) {window index : Nat}
    {candles : List (Candle α)} {c : Candle α} (hc : candles[index]? = some c) :
    pivotOf window candles index = side ↔ IsTurn side window candles index c := by
  by_cases h : window ≤ index ∧ index + window < candles.length
  · have hget : candles[index]? = some (candles.get ⟨index, by omega⟩) :=
      List.getElem?_eq_getElem _
    obtain rfl := Option.some.inj (hc.symm.trans hget)
    rw [pivotOf, dif_pos h]
    refine (classify_eq_iff hside _ _).trans ⟨?_, ?_⟩
    · rintro ⟨hnone, d, hd, hbeyond⟩
      obtain ⟨j, hstart, hstop, hj⟩ := (mem_neighbours_iff h.1).mp hd
      refine ⟨h.1, h.2, ?_, j, d, hstart, hstop, hj, hbeyond⟩
      intro j d hstart hstop hj
      exact hnone d ((mem_neighbours_iff h.1).mpr ⟨j, hstart, hstop, hj⟩)
    · rintro ⟨-, -, hnone, j, d, hstart, hstop, hj, hbeyond⟩
      refine ⟨?_, d, (mem_neighbours_iff h.1).mpr ⟨j, hstart, hstop, hj⟩, hbeyond⟩
      intro d hd
      obtain ⟨j, hstart, hstop, hj⟩ := (mem_neighbours_iff h.1).mp hd
      exact hnone j d hstart hstop hj
  · rw [pivotOf, dif_neg h]
    exact ⟨fun heq => absurd heq.symm hside, fun hturn =>
      absurd ⟨hturn.window_le, hturn.lt_length⟩ h⟩

-- How the pivots of labelled candles lie to one another.
structure Spaced (window : Nat) (labelled : List (Annotated α)) : Prop where
  -- nearer than the window, neither of two pivots of a kind is beyond the other
  near : ∀ (i j : Nat) (c d : Annotated α), labelled[i]? = some c → labelled[j]? = some d →
    c.pivot ≠ .unchanged → d.pivot = c.pivot → i < j → j - i < window →
      ¬ d.candle.Beyond c.pivot c.candle ∧ ¬ c.candle.Beyond c.pivot d.candle
  -- as far as the window, the earlier one is not beyond the later one
  apart : ∀ (i j : Nat) (c d : Annotated α), labelled[i]? = some c → labelled[j]? = some d →
    c.pivot ≠ .unchanged → d.pivot = c.pivot → i < j → j - i = window →
      ¬ c.candle.Beyond c.pivot d.candle
  -- some neighbour is beyond a pivot on the other side
  faced : ∀ (i : Nat) (c : Annotated α), labelled[i]? = some c → c.pivot ≠ .unchanged →
    ∃ (j : Nat) (d : Annotated α), i - window ≤ j ∧ j < i + window ∧ labelled[j]? = some d ∧
      d.candle.Beyond c.pivot.opposite c.candle
  -- the first and the last candles are no pivots
  edges : ∀ (i : Nat) (c : Annotated α), labelled[i]? = some c →
    i < window ∨ labelled.length - window ≤ i → c.pivot = .unchanged
  short : labelled.length < 2 * window + 1 → ∀ c ∈ labelled, c.pivot = .unchanged

section Labelled

variable (k : KeyLevels α) (candles : List (Candle α))

theorem isTurn_of_labelled {index : Nat} {c : Annotated α}
    (hc : (k.labelled candles)[index]? = some c) (hpivot : c.pivot ≠ .unchanged) :
    IsTurn c.pivot k.params.window.toNat candles index c.candle := by
  obtain ⟨hcandle, heq⟩ := of_getElem?_labelled hc
  exact (pivotOf_eq_iff hpivot hcandle).mp heq.symm

theorem spaced_labelled : Spaced k.params.window.toNat (k.labelled candles) where
  near := by
    intro i j c d hc hd hpivot hsame hij hnear
    have hturn := isTurn_of_labelled k candles hc hpivot
    have hturn' := isTurn_of_labelled k candles hd (hsame ▸ hpivot)
    rw [hsame] at hturn'
    have hcandle := (of_getElem?_labelled hc).1
    have hcandle' := (of_getElem?_labelled hd).1
    exact ⟨hturn.unbeaten j d.candle (by omega) (by omega) hcandle',
      hturn'.unbeaten i c.candle (by omega) (by omega) hcandle⟩
  apart := by
    intro i j c d hc hd hpivot hsame hij hfar
    have hturn' := isTurn_of_labelled k candles hd (hsame ▸ hpivot)
    rw [hsame] at hturn'
    have hcandle := (of_getElem?_labelled hc).1
    exact hturn'.unbeaten i c.candle (by omega) (by omega) hcandle
  faced := by
    intro i c hc hpivot
    obtain ⟨j, d, hstart, hstop, hd, hbeyond⟩ := (isTurn_of_labelled k candles hc hpivot).faced
    refine ⟨j, { d.annotated with pivot := k.pivotAt candles j }, hstart, hstop, ?_, hbeyond⟩
    rw [getElem?_labelled, hd]
    rfl
  edges := by
    intro i c hc h
    rw [length_labelled] at h
    exact pivot_eq_unchanged_of_near_end k candles hc (by omega)
  short := by
    intro h c hc
    obtain ⟨i, hi⟩ := List.mem_iff_getElem?.mp hc
    rw [length_labelled] at h
    exact pivot_eq_unchanged_of_near_end k candles hi (by omega)

end Labelled

-- Prices at which the market turned, where neither candle is beyond the other.
theorem beq_of_not_beyond {c d : Annotated Float} {x y : Float} (hx : turn? c = some x)
    (hy : turn? d = some y) (hsame : d.pivot = c.pivot)
    (h : ¬ d.candle.Beyond c.pivot c.candle) (hswap : ¬ c.candle.Beyond c.pivot d.candle) :
    (x == y) = true ∨ x.isNaN = true ∨ y.isNaN = true := by
  rw [turn?] at hx hy
  rw [hsame] at hy
  cases hpivot : c.pivot with
  | unchanged =>
      rw [hpivot] at hx
      cases hx
  | high =>
      rw [hpivot] at hx hy h hswap
      cases hx
      cases hy
      exact Decimal.beq_of_not_lt h hswap
  | low =>
      rw [hpivot] at hx hy h hswap
      cases hx
      cases hy
      exact Decimal.beq_of_not_lt hswap h

-- In whatever a run gives, pivots of one kind keep their distance, unless they turn at one price or
-- a price that is not a number.
theorem pivots_keep_distance (k : KeyLevels Float) (candles : List (Candle Float)) :
    (∃ r, k.run .fresh candles = .ok r) ∧
      ∀ token r, k.run token candles = .ok r →
        r.candles.map Annotated.candle = candles ∧
          Spaced k.params.window.toNat r.candles ∧
          ∀ (i j : Nat) (c d : Annotated Float) (x y : Float), r.candles[i]? = some c →
            r.candles[j]? = some d → d.pivot = c.pivot → i < j →
            j - i < k.params.window.toNat → turn? c = some x → turn? d = some y →
              (x == y) = true ∨ x.isNaN = true ∨ y.isNaN = true := by
  refine ⟨⟨_, run_fresh k candles⟩, ?_⟩
  intro token r hr
  obtain rfl := eq_result_of_run_eq_ok hr
  have hspaced := spaced_labelled k candles
  refine ⟨map_candle_labelled k candles, hspaced, ?_⟩
  intro i j c d x y hc hd hsame hij hnear hx hy
  have hpivot : c.pivot ≠ .unchanged := by
    intro hunchanged
    rw [turn?_eq_none_iff.mpr hunchanged] at hx
    cases hx
  obtain ⟨h, hswap⟩ := hspaced.near i j c d hc hd hpivot hsame hij hnear
  exact beq_of_not_beyond hx hy hsame h hswap

-- As far as the window, a later low can be lower.
example : (labelled (⟨⟨1, 0⟩, by decide +kernel⟩ : KeyLevels Rat)
    ([5, 4, 3, 2].map fun p => ⟨.epoch, p, p, p, p, 0⟩)).map Annotated.pivot =
      [.unchanged, .low, .low, .unchanged] := by
  decide +kernel

end KeyLevels

end Candlestick

import Candlestick.Proofs.KeyLevels.Distinct
import Candlestick.Proofs.KeyLevels.Run

namespace Candlestick.KeyLevels

variable {α : Type}

theorem neighbours_append_append (window index : Nat) (before series after : List (Candle α))
    (hlo : window ≤ index) (hhi : index + window ≤ series.length) :
    neighbours window (before.length + index) (before ++ series ++ after) =
      neighbours window index series := by
  have hstart : before.length + index - window = before.length + (index - window) := by omega
  have hlen : 2 * window ≤ (series.drop (index - window)).length := by
    rw [List.length_drop]
    omega
  rw [neighbours, neighbours, hstart, List.append_assoc, List.drop_length_add_append,
    List.drop_append_of_le_length (by omega), List.take_append_of_le_length hlen]

variable [Scalar α]

theorem pivotOf_append_append (window index : Nat) (before series after : List (Candle α))
    (hlo : window ≤ index) (hhi : index + window < series.length) :
    pivotOf window (before ++ series ++ after) (before.length + index) =
      pivotOf window series index := by
  have hin : window ≤ before.length + index ∧
      before.length + index + window < (before ++ series ++ after).length := by
    simp only [List.length_append]
    omega
  have hat : (before ++ series ++ after).get ⟨before.length + index, by omega⟩ =
      series.get ⟨index, by omega⟩ := by
    simp [List.getElem_append_right, List.getElem_append_left, show index < series.length by omega]
  rw [pivotOf, pivotOf, dif_pos hin, dif_pos ⟨hlo, hhi⟩,
    neighbours_append_append window index before series after hlo (by omega)]
  exact congrArg (classify · _) hat

-- A candle near either end is no pivot.
theorem pivotOf_of_near_end (window index : Nat) (candles : List (Candle α))
    (h : index < window ∨ candles.length ≤ index + window) :
    pivotOf window candles index = .unchanged := by
  rw [pivotOf, dif_neg (by omega)]

section Appending

variable (k : KeyLevels α) (series after : List (Candle α)) {index : Nat}

theorem pivotAt_append (h : index + k.params.window.toNat < series.length) :
    k.pivotAt (series ++ after) index = k.pivotAt series index := by
  by_cases hlo : k.params.window.toNat ≤ index
  · simpa [pivotAt] using pivotOf_append_append k.params.window.toNat index [] series after hlo h
  · rw [pivotAt, pivotAt, pivotOf_of_near_end _ _ _ (.inl (Nat.not_le.mp hlo)),
      pivotOf_of_near_end _ _ _ (.inl (Nat.not_le.mp hlo))]

theorem getElem?_labelled_append (h : index + k.params.window.toNat < series.length) :
    (k.labelled (series ++ after))[index]? = (k.labelled series)[index]? := by
  rw [getElem?_labelled, getElem?_labelled, pivotAt_append k series after h,
    List.getElem?_append_left (by omega)]

theorem pivot_eq_unchanged_of_near_end {c : Annotated α}
    (hc : (k.labelled series)[index]? = some c)
    (h : index < k.params.window.toNat ∨ series.length ≤ index + k.params.window.toNat) :
    c.pivot = .unchanged := by
  rw [(of_getElem?_labelled hc).2]
  exact pivotOf_of_near_end _ _ _ h

theorem take_labelled_append :
    (k.labelled (series ++ after)).take (series.length - k.params.window.toNat) =
      (k.labelled series).take (series.length - k.params.window.toNat) := by
  apply List.ext_getElem?
  intro index
  by_cases h : index < series.length - k.params.window.toNat
  · rw [List.getElem?_take_of_lt h, List.getElem?_take_of_lt h,
      getElem?_labelled_append k series after (by omega)]
  · rw [List.getElem?_take_eq_none (by omega), List.getElem?_take_eq_none (by omega)]

theorem turns_drop_labelled :
    turns ((k.labelled series).drop (series.length - k.params.window.toNat)) = [] := by
  apply turns_eq_nil_iff.mpr
  intro c hc
  obtain ⟨index, hi⟩ := List.mem_iff_getElem?.mp hc
  rw [List.getElem?_drop] at hi
  exact pivot_eq_unchanged_of_near_end k series hi (.inr (by omega))

theorem prefix_turns_labelled_append :
    turns (k.labelled series) <+: turns (k.labelled (series ++ after)) := by
  have hold : turns (k.labelled series) =
      turns ((k.labelled series).take (series.length - k.params.window.toNat)) := by
    have h := turns_append ((k.labelled series).take (series.length - k.params.window.toNat))
      ((k.labelled series).drop (series.length - k.params.window.toNat))
    rwa [List.take_append_drop, turns_drop_labelled, List.append_nil] at h
  rw [hold, ← take_labelled_append k series after]
  exact (List.take_prefix _ _).filterMap _

end Appending

-- How the result of a longer series agrees with that of a series it begins with.
structure Settled (k : KeyLevels α) (series : List (Candle α)) (old new : Result α) : Prop where
  candles : old.candles.map Annotated.candle = series
  -- the levels come from the prices of the pivots, in either result
  levels : ∀ r ∈ [old, new],
    r.levels = merge k.params.epsilon (distinct k.params.epsilon (turns r.candles))
  -- a pivot stays as it is
  pivots : ∀ (index : Nat) (c : Annotated α), old.candles[index]? = some c → c.pivot ≠ .unchanged →
    new.candles[index]? = some c
  -- only the last candles can change
  changes : ∀ index < series.length, new.candles[index]? ≠ old.candles[index]? →
    series.length ≤ index + k.params.window.toNat
  -- and these are no pivots yet
  edge : ∀ (index : Nat) (c : Annotated α), old.candles[index]? = some c →
    series.length ≤ index + k.params.window.toNat → c.pivot = .unchanged
  turns : turns old.candles <+: turns new.candles
  distinct : distinct k.params.epsilon (KeyLevels.turns old.candles) <+:
    distinct k.params.epsilon (KeyLevels.turns new.candles)

theorem settled_result_append (k : KeyLevels α) (series after : List (Candle α)) :
    Settled k series (k.result series) (k.result (series ++ after)) where
  candles := map_candle_labelled k series
  levels := by simp [result]
  pivots := by
    intro index c hc hp
    have hinner : index + k.params.window.toNat < series.length := Nat.lt_of_not_le fun hedge =>
      hp (pivot_eq_unchanged_of_near_end k series hc (.inr hedge))
    exact (getElem?_labelled_append k series after hinner).trans hc
  changes := by
    intro index _ hne
    apply Nat.le_of_not_lt
    intro hinner
    exact hne (getElem?_labelled_append k series after hinner)
  edge := fun _ _ hc h => pivot_eq_unchanged_of_near_end k series hc (.inr h)
  turns := prefix_turns_labelled_append k series after
  distinct := prefix_distinct _ (prefix_turns_labelled_append k series after)

-- Pivots are local, and a run that nobody cancels settles what later candles cannot change.
theorem pivots_local_and_runs_settle (k : KeyLevels α) :
    (∀ before series after index, k.params.window.toNat ≤ index →
        index + k.params.window.toNat < series.length →
          k.pivotAt (before ++ series ++ after) (before.length + index) =
            k.pivotAt series index) ∧
      ∀ series after, ∃ old new, k.run .fresh series = .ok old ∧
        k.run .fresh (series ++ after) = .ok new ∧ Settled k series old new := by
  constructor
  · intro before series after index hlo hhi
    exact pivotOf_append_append _ index before series after hlo hhi
  · intro series after
    refine ⟨k.result series, k.result (series ++ after), ?_, ?_, settled_result_append k series after⟩
    · exact run_fresh k series
    · exact run_fresh k (series ++ after)

end Candlestick.KeyLevels

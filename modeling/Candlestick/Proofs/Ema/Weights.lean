import Candlestick.Proofs.Ema.Recurrence
import Mathlib.Algebra.BigOperators.Ring.Finset
import Mathlib.Algebra.Order.BigOperators.Group.Finset
import Mathlib.Algebra.Order.Field.Rat
import Mathlib.Data.List.MinMax
import Mathlib.Tactic.Linarith
import Mathlib.Tactic.Ring

namespace Candlestick.Ema

-- The weight that the close at a position has in the average at an index.
def weight (m : Rat) (index : Nat) : Nat → Rat
  | 0 => (1 - m) ^ index
  | position + 1 => m * (1 - m) ^ (index - (position + 1))

def weightedMean (m : Rat) (closes : Nat → Rat) (index : Nat) : Rat :=
  ∑ position ∈ Finset.range (index + 1), weight m index position * closes position

theorem next_eq (m ema close : Rat) : next m ema close = (1 - m) * ema + m * close := by
  have h : next m ema close = (close - ema) * m + ema := rfl
  rw [h]
  ring

section Weights

variable (m : Rat) (closes : Nat → Rat) (index : Nat)

theorem weight_succ {index position : Nat} (h : position ≤ index) :
    weight m (index + 1) position = (1 - m) * weight m index position := by
  cases position with
  | zero => exact pow_succ' _ _
  | succ position =>
      have hsub : index + 1 - (position + 1) = index - (position + 1) + 1 := by omega
      rw [weight, weight, hsub, pow_succ]
      ring

theorem weight_last : weight m (index + 1) (index + 1) = m := by
  rw [weight, Nat.sub_self, pow_zero, mul_one]

theorem weightedMean_zero : weightedMean m closes 0 = closes 0 := by
  simp [weightedMean, weight]

theorem weightedMean_succ :
    weightedMean m closes (index + 1) =
      next m (weightedMean m closes index) (closes (index + 1)) := by
  have hbefore : ∑ position ∈ Finset.range (index + 1),
      weight m (index + 1) position * closes position = (1 - m) * weightedMean m closes index := by
    rw [weightedMean, Finset.mul_sum]
    apply Finset.sum_congr rfl
    intro position hposition
    rw [weight_succ m (Finset.mem_range_succ_iff.mp hposition), mul_assoc]
  rw [weightedMean, Finset.sum_range_succ, hbefore, weight_last, next_eq]

theorem weightedMean_congr {xs ys : Nat → Rat} {index : Nat}
    (h : ∀ position ≤ index, xs position = ys position) :
    weightedMean m xs index = weightedMean m ys index := by
  apply Finset.sum_congr rfl
  intro position hposition
  rw [h position (Finset.mem_range_succ_iff.mp hposition)]

theorem weightedMean_const (close : Rat) : weightedMean m (fun _ => close) index = close := by
  induction index with
  | zero => exact weightedMean_zero m _
  | succ index ih =>
      rw [weightedMean_succ, ih, next_eq]
      ring

theorem sum_weight : ∑ position ∈ Finset.range (index + 1), weight m index position = 1 := by
  simpa [weightedMean] using weightedMean_const m index 1

theorem weightedMean_affine (factor offset : Rat) :
    weightedMean m (fun position => factor * closes position + offset) index =
      factor * weightedMean m closes index + offset := by
  calc weightedMean m (fun position => factor * closes position + offset) index
    _ = factor * weightedMean m closes index + weightedMean m (fun _ => offset) index := by
      simp only [weightedMean, Finset.mul_sum, ← Finset.sum_add_distrib]
      apply Finset.sum_congr rfl
      intro position _
      ring
    _ = factor * weightedMean m closes index + offset := by rw [weightedMean_const]

end Weights

section Bounds

variable {m : Rat} (hm : m ∈ Set.Ioc 0 1)

include hm

theorem weight_nonneg (index position : Nat) : 0 ≤ weight m index position := by
  have hpow (n : Nat) : 0 ≤ (1 - m) ^ n := pow_nonneg (sub_nonneg.mpr hm.2) n
  cases position with
  | zero => exact hpow _
  | succ position => exact mul_nonneg hm.1.le (hpow _)

theorem weightedMean_mono {xs ys : Nat → Rat} {index : Nat}
    (h : ∀ position ≤ index, xs position ≤ ys position) :
    weightedMean m xs index ≤ weightedMean m ys index := by
  apply Finset.sum_le_sum
  intro position hposition
  exact mul_le_mul_of_nonneg_left (h _ (Finset.mem_range_succ_iff.mp hposition))
    (weight_nonneg hm _ _)

theorem le_weightedMean {lo : Rat} {closes : Nat → Rat} {index : Nat}
    (h : ∀ position ≤ index, lo ≤ closes position) : lo ≤ weightedMean m closes index := by
  have hconst : weightedMean m (fun _ => lo) index ≤ weightedMean m closes index :=
    weightedMean_mono hm h
  rwa [weightedMean_const] at hconst

theorem weightedMean_le {hi : Rat} {closes : Nat → Rat} {index : Nat}
    (h : ∀ position ≤ index, closes position ≤ hi) : weightedMean m closes index ≤ hi := by
  have hconst : weightedMean m closes index ≤ weightedMean m (fun _ => hi) index :=
    weightedMean_mono hm h
  rwa [weightedMean_const] at hconst

end Bounds

section Labelled

variable (e : Ema)

theorem multiplier_eq : e.multiplier Rat = 2 / (e.params.period.toNat + 1) := rfl

theorem multiplier_mem_Ioc : e.multiplier Rat ∈ Set.Ioc 0 1 := by
  have hperiod : (1 : Rat) ≤ e.params.period.toNat := by
    have h : e.params.period.toNat ≠ 0 := fun h => e.valid (UInt64.toNat_inj.mp h)
    exact_mod_cast Nat.one_le_iff_ne_zero.mpr h
  have hpos : (0 : Rat) < e.params.period.toNat + 1 := by linarith
  rw [multiplier_eq]
  exact ⟨div_pos two_pos hpos, (div_le_one₀ hpos).mpr (by linarith)⟩

-- The close at a position of a series, and zero after its end.
def closeAt (candles : List (Candle Rat)) (position : Nat) : Rat :=
  (candles.map Candle.close).getD position 0

theorem closeAt_of_getElem? {candles : List (Candle Rat)} {position : Nat} {c : Candle Rat}
    (h : candles[position]? = some c) : closeAt candles position = c.close := by
  rw [closeAt, List.getD_eq_getElem?_getD, List.getElem?_map, h]
  rfl

variable {e}

theorem candle_of_getElem?_labelled {candles : List (Candle Rat)} {index : Nat}
    {c : Annotated Rat} (hc : (e.labelled candles)[index]? = some c) :
    candles[index]? = some c.candle := by
  rw [← map_candle_labelled e candles, List.getElem?_map, hc]
  rfl

-- By induction on the index: what the recurrence does to an average, one more close does to the
-- weighted mean.
theorem ema_eq_weightedMean {candles : List (Candle Rat)} {index : Nat} {c : Annotated Rat}
    (hc : (e.labelled candles)[index]? = some c) :
    c.ema = weightedMean (e.multiplier Rat) (closeAt candles) index := by
  have hclose := closeAt_of_getElem? (candle_of_getElem?_labelled hc)
  induction index generalizing c with
  | zero => rw [ema_of_getElem?_labelled_zero hc, weightedMean_zero, hclose]
  | succ index ih =>
      obtain ⟨hlt, -⟩ := List.getElem?_eq_some_iff.mp hc
      have hp := List.getElem?_eq_getElem (Nat.lt_of_succ_lt hlt)
      have hprevious := ih hp (closeAt_of_getElem? (candle_of_getElem?_labelled hp))
      rw [ema_of_getElem?_labelled_succ hp hc, hprevious, weightedMean_succ, hclose]

theorem map_ema_labelled (e : Ema) (candles : List (Candle Rat)) :
    (e.labelled candles).map Annotated.ema =
      (List.range candles.length).map (weightedMean (e.multiplier Rat) (closeAt candles)) := by
  have hlength : (e.labelled candles).length = candles.length := by
    rw [← List.length_map Annotated.candle, map_candle_labelled]
  refine List.ext_getElem (by simp [hlength]) fun index hindex _ => ?_
  rw [List.getElem_map, List.getElem_map, List.getElem_range]
  exact ema_eq_weightedMean (List.getElem?_eq_getElem _)

theorem mem_take_of_le {candles : List (Candle Rat)} {index position : Nat}
    (hindex : index < candles.length) (h : position ≤ index) :
    closeAt candles position ∈ (candles.map Candle.close).take (index + 1) := by
  have hposition : candles[position]? = some candles[position] := List.getElem?_eq_getElem _
  rw [closeAt_of_getElem? hposition, List.mem_take_iff_getElem]
  exact ⟨position, by simp; omega, by simp⟩

-- An average stays between the least and the greatest close that it has seen.
theorem min?_le_ema_le_max? {candles : List (Candle Rat)} {index : Nat} {c : Annotated Rat}
    (hc : (e.labelled candles)[index]? = some c) :
    ∃ lo hi, ((candles.map Candle.close).take (index + 1)).min? = some lo ∧
      ((candles.map Candle.close).take (index + 1)).max? = some hi ∧ lo ≤ c.ema ∧ c.ema ≤ hi := by
  obtain ⟨hindex, -⟩ := List.getElem?_eq_some_iff.mp (candle_of_getElem?_labelled hc)
  have hseen : (candles.map Candle.close).take (index + 1) ≠ [] :=
    List.ne_nil_of_mem (mem_take_of_le hindex le_rfl)
  obtain ⟨lo, hlo⟩ := Option.isSome_iff_exists.mp (List.isSome_min?_iff.mpr hseen)
  obtain ⟨hi, hhi⟩ := Option.isSome_iff_exists.mp (List.isSome_max?_iff.mpr hseen)
  have hle := (List.min?_eq_some_iff.mp hlo).2
  have hge := (List.max?_eq_some_iff.mp hhi).2
  refine ⟨lo, hi, hlo, hhi, ?_, ?_⟩ <;> rw [ema_eq_weightedMean hc]
  · exact le_weightedMean (multiplier_mem_Ioc e) fun _ h => hle _ (mem_take_of_le hindex h)
  · exact weightedMean_le (multiplier_mem_Ioc e) fun _ h => hge _ (mem_take_of_le hindex h)

theorem closeAt_mono {xs ys : List (Candle Rat)}
    (h : List.Forall₂ (fun c d => c.close ≤ d.close) xs ys) (position : Nat) :
    closeAt xs position ≤ closeAt ys position := by
  induction h generalizing position with
  | nil => exact le_rfl
  | cons hcd _ ih =>
      cases position with
      | zero => exact hcd
      | succ position => exact ih position

theorem ema_labelled_mono {xs ys : List (Candle Rat)}
    (h : List.Forall₂ (fun c d => c.close ≤ d.close) xs ys) :
    List.Forall₂ (fun c d => c.ema ≤ d.ema) (e.labelled xs) (e.labelled ys) := by
  have hemas : List.Forall₂ (· ≤ ·) ((e.labelled xs).map Annotated.ema)
      ((e.labelled ys).map Annotated.ema) := by
    rw [map_ema_labelled, map_ema_labelled, h.length_eq, List.forall₂_map_left_iff,
      List.forall₂_map_right_iff, List.forall₂_same]
    exact fun index _ => weightedMean_mono (multiplier_mem_Ioc e) fun _ _ => closeAt_mono h _
  rwa [List.forall₂_map_left_iff, List.forall₂_map_right_iff] at hemas

theorem ema_labelled_affine (factor offset : Rat) {xs ys : List (Candle Rat)}
    (h : ys.map Candle.close = xs.map fun c => factor * c.close + offset) :
    (e.labelled ys).map Annotated.ema =
      (e.labelled xs).map fun c => factor * c.ema + offset := by
  have hlength : ys.length = xs.length := by simpa using congrArg List.length h
  have hclose (position : Nat) (hposition : position < xs.length) :
      closeAt ys position = factor * closeAt xs position + offset := by
    rw [closeAt_of_getElem? (List.getElem?_eq_getElem hposition), closeAt, h]
    simp [hposition]
  have hmean (index : Nat) (hindex : index < xs.length) :
      weightedMean (e.multiplier Rat) (closeAt ys) index =
        factor * weightedMean (e.multiplier Rat) (closeAt xs) index + offset := by
    rw [← weightedMean_affine]
    exact weightedMean_congr _ fun position hposition => hclose position (by omega)
  calc (e.labelled ys).map Annotated.ema
    _ = (List.range xs.length).map (weightedMean (e.multiplier Rat) (closeAt ys)) := by
      rw [map_ema_labelled, hlength]
    _ = (List.range xs.length).map fun index =>
          factor * weightedMean (e.multiplier Rat) (closeAt xs) index + offset :=
      List.map_congr_left fun index hindex => hmean index (List.mem_range.mp hindex)
    _ = ((e.labelled xs).map Annotated.ema).map (factor * · + offset) := by
      rw [map_ema_labelled, List.map_map]
      rfl
    _ = (e.labelled xs).map fun c => factor * c.ema + offset := List.map_map

-- Read exactly, an average is a weighted mean of the closes so far, with weights that are not
-- negative and sum to one. Hence it lies between the least and the greatest of them, it is monotone
-- in the closes, and closes that are scaled and shifted scale and shift it alike.
theorem averages_are_weighted_means (e : Ema) :
    let m : Rat := 2 / (e.params.period.toNat + 1)
    (∀ index, (∀ position, 0 ≤ weight m index position) ∧
        ∑ position ∈ Finset.range (index + 1), weight m index position = 1) ∧
      (∀ candles : List (Candle Rat), ∃ r, e.run .fresh candles = .ok r ∧
        r.map Annotated.candle = candles ∧
        ∀ index c, r[index]? = some c →
          c.ema = ∑ position ∈ Finset.range (index + 1),
            weight m index position * closeAt candles position ∧
          ∃ lo hi, ((candles.map Candle.close).take (index + 1)).min? = some lo ∧
            ((candles.map Candle.close).take (index + 1)).max? = some hi ∧
            lo ≤ c.ema ∧ c.ema ≤ hi) ∧
      (∀ xs ys : List (Candle Rat), List.Forall₂ (fun c d => c.close ≤ d.close) xs ys →
        ∃ r s, e.run .fresh xs = .ok r ∧ e.run .fresh ys = .ok s ∧
          List.Forall₂ (fun c d => c.ema ≤ d.ema) r s) ∧
      ∀ (factor offset : Rat) (xs ys : List (Candle Rat)),
        (ys.map Candle.close = xs.map fun c => factor * c.close + offset) →
        ∃ r s, e.run .fresh xs = .ok r ∧ e.run .fresh ys = .ok s ∧
          s.map Annotated.ema = r.map fun c => factor * c.ema + offset := by
  intro m
  refine ⟨fun index => ⟨weight_nonneg (multiplier_mem_Ioc e) index, sum_weight m index⟩, ?_, ?_, ?_⟩
  · intro candles
    refine ⟨e.labelled candles, run_fresh e candles, map_candle_labelled e candles, ?_⟩
    exact fun index c hc => ⟨ema_eq_weightedMean hc, min?_le_ema_le_max? hc⟩
  · intro xs ys h
    exact ⟨e.labelled xs, e.labelled ys, run_fresh e xs, run_fresh e ys, ema_labelled_mono h⟩
  · intro factor offset xs ys h
    exact ⟨e.labelled xs, e.labelled ys, run_fresh e xs, run_fresh e ys,
      ema_labelled_affine factor offset h⟩

end Labelled

-- A share of one half, over two series of which one closes higher in the middle, and over the first
-- of them turned upside down.
theorem averages_are_weighted_means_halves :
    let e : Ema := ⟨⟨3⟩, by decide⟩
    let xs : List (Candle Rat) :=
      [⟨.epoch, 8, 9, 7, 8, 1⟩, ⟨.epoch, 8, 8, 3, 4, 1⟩, ⟨.epoch, 5, 7, 4, 7, 1⟩]
    let ys : List (Candle Rat) :=
      [⟨.epoch, 8, 9, 7, 8, 1⟩, ⟨.epoch, 8, 8, 3, 6, 1⟩, ⟨.epoch, 5, 7, 4, 7, 1⟩]
    let zs : List (Candle Rat) :=
      [⟨.epoch, 4, 6, 2, 4, 1⟩, ⟨.epoch, 4, 14, 4, 12, 1⟩, ⟨.epoch, 10, 12, 6, 6, 1⟩]
    (List.Forall₂ (fun c d => c.close ≤ d.close) xs ys ∧
        zs.map Candle.close = xs.map fun c => -2 * c.close + 20) ∧
      ∃ r s t, e.run .fresh xs = .ok r ∧ e.run .fresh ys = .ok s ∧ e.run .fresh zs = .ok t ∧
        r.map Annotated.ema = [8, 6, 13 / 2] ∧ List.Forall₂ (fun c d => c.ema ≤ d.ema) r s ∧
        t.map Annotated.ema = r.map fun c => -2 * c.ema + 20 := by
  intro e xs ys zs
  have habove : List.Forall₂ (fun c d => c.close ≤ d.close) xs ys := by decide +kernel
  have hturned : zs.map Candle.close = xs.map fun c => -2 * c.close + 20 := by decide +kernel
  obtain ⟨r, s, hr, hs, hmono⟩ := (averages_are_weighted_means e).2.2.1 xs ys habove
  obtain ⟨r', t, hr', ht, haffine⟩ := (averages_are_weighted_means e).2.2.2 (-2) 20 xs zs hturned
  obtain rfl := Except.ok.inj (hr.symm.trans hr')
  refine ⟨⟨habove, hturned⟩, r, s, t, hr, hs, ht, ?_, hmono, haffine⟩
  obtain rfl := Except.ok.inj (hr.symm.trans (run_fresh e xs))
  decide +kernel

end Candlestick.Ema

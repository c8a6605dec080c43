import Candlestick.Proofs.Ema.Run

namespace Candlestick.Ema

variable {α : Type}

-- The last average of labelled candles, or the one before them if there are none.
def lastAverage (ema : α) (labelled : List (Annotated α)) : α :=
  (labelled.map Annotated.ema).getLastD ema

theorem lastAverage_of_getLast? {labelled : List (Annotated α)} {last : Annotated α}
    (h : labelled.getLast? = some last) (ema : α) : lastAverage ema labelled = last.ema := by
  rw [lastAverage, List.getLastD_eq_getLast?, List.getLast?_map, h]
  rfl

variable [Scalar α]

theorem averaged_append (multiplier ema : α) (xs ys : List (Candle α)) :
    averaged multiplier ema (xs ++ ys) =
      averaged multiplier ema xs ++
        averaged multiplier (lastAverage ema (averaged multiplier ema xs)) ys := by
  induction xs generalizing ema with
  | nil => rfl
  | cons c rest ih =>
      have hlast : lastAverage ema (averaged multiplier ema (c :: rest)) =
          lastAverage (next multiplier ema c.close)
            (averaged multiplier (next multiplier ema c.close) rest) := by
        rw [lastAverage, averaged, List.map_cons, List.getLastD_cons]
        rfl
      rw [hlast, List.cons_append, averaged, averaged, ih, List.cons_append]

theorem labelled_append (e : Ema) {xs : List (Candle α)} {last : Annotated α}
    (h : (e.labelled xs).getLast? = some last) (ys : List (Candle α)) :
    e.labelled (xs ++ ys) = e.labelled xs ++ averaged (e.multiplier α) last.ema ys := by
  cases xs with
  | nil => cases h
  | cons c rest =>
      have hlast : lastAverage c.close (averaged (e.multiplier α) c.close rest) = last.ema := by
        rw [← lastAverage_of_getLast? h c.close, lastAverage, lastAverage, labelled,
          List.map_cons, List.getLastD_cons]
      rw [List.cons_append, labelled, labelled, averaged_append, hlast, List.cons_append]

-- The recurrence holds between any two candles next to each other.
theorem next_of_getElem?_averaged {multiplier : α} (first : Annotated α)
    {candles : List (Candle α)} {p c : Annotated α} {index : Nat}
    (hp : (first :: averaged multiplier first.ema candles)[index]? = some p)
    (hc : (first :: averaged multiplier first.ema candles)[index + 1]? = some c) :
    c.ema = next multiplier p.ema c.candle.close := by
  induction candles generalizing first index with
  | nil => cases hc
  | cons d rest ih =>
      rw [List.getElem?_cons_succ] at hc
      cases index with
      | zero =>
          cases hp
          cases hc
          rfl
      | succ index =>
          rw [List.getElem?_cons_succ] at hp
          exact ih _ hp hc

theorem ema_of_getElem?_labelled_zero {e : Ema} {candles : List (Candle α)} {c : Annotated α}
    (hc : (e.labelled candles)[0]? = some c) : c.ema = c.candle.close := by
  cases candles with
  | nil => cases hc
  | cons d rest =>
      cases hc
      rfl

theorem ema_of_getElem?_labelled_succ {e : Ema} {candles : List (Candle α)} {p c : Annotated α}
    {index : Nat} (hp : (e.labelled candles)[index]? = some p)
    (hc : (e.labelled candles)[index + 1]? = some c) :
    c.ema = next (e.multiplier α) p.ema c.candle.close := by
  cases candles with
  | nil => cases hc
  | cons d rest =>
      exact next_of_getElem?_averaged { d.annotated with ema := d.close } hp hc

theorem run_fresh (e : Ema) (candles : List (Candle α)) :
    e.run .fresh candles = .ok (e.labelled candles) := by
  simp [run_eq, Token.fresh]

-- The averages follow the recurrence in doubles, operation by operation, and a series goes on from
-- its last average as if it had never ended.
theorem averages_recur_and_resume (e : Ema) :
    (∀ candles : List (Candle Float), ∃ r, e.run .fresh candles = .ok r ∧
        r.length = candles.length ∧ r.map Annotated.candle = candles ∧
        (∀ c, r[0]? = some c → c.ema = c.candle.close) ∧
        ∀ (index : Nat) (p c : Annotated Float), r[index]? = some p → r[index + 1]? = some c →
          c.ema = (c.candle.close - p.ema) * (2 / (Float.ofNat e.params.period.toNat + 1)) +
            p.ema) ∧
      ∀ xs ys : List (Candle Float), xs ≠ [] →
        ∃ r last followed, e.run .fresh xs = .ok r ∧ r.getLast? = some last ∧
          follow (e.multiplier Float) .fresh last.ema ys = .ok followed ∧
          e.run .fresh (xs ++ ys) = .ok (r ++ followed) := by
  constructor
  · intro candles
    have hcandles := map_candle_labelled e candles
    refine ⟨e.labelled candles, run_fresh e candles, ?_, hcandles, ?_, ?_⟩
    · rw [← List.length_map Annotated.candle, hcandles]
    · exact fun c hc => ema_of_getElem?_labelled_zero hc
    · exact fun index p c hp hc => ema_of_getElem?_labelled_succ hp hc
  · intro xs ys hne
    have hlabelled : e.labelled xs ≠ [] := by
      intro hnil
      have hcandles := map_candle_labelled e xs
      rw [hnil] at hcandles
      exact hne hcandles.symm
    have hlast := List.getLast?_eq_some_getLast hlabelled
    refine ⟨e.labelled xs, (e.labelled xs).getLast hlabelled,
      averaged (e.multiplier Float) ((e.labelled xs).getLast hlabelled).ema ys, run_fresh e xs,
      hlast, ?_, ?_⟩
    · rw [follow_eq]
      rfl
    · rw [run_fresh, labelled_append e hlast]

end Candlestick.Ema

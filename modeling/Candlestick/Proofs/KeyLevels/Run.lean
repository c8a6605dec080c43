import Candlestick.KeyLevels.Basic

namespace Candlestick.KeyLevels

variable {α : Type}

theorem turns_append (xs ys : List (Annotated α)) : turns (xs ++ ys) = turns xs ++ turns ys :=
  List.filterMap_append

theorem turn?_eq_none_iff {c : Annotated α} : turn? c = none ↔ c.pivot = .unchanged := by
  rw [turn?]
  cases c.pivot <;> simp

-- The market turns at each pivot, and nowhere else.
theorem turns_eq_nil_iff {candles : List (Annotated α)} :
    turns candles = [] ↔ ∀ c ∈ candles, c.pivot = .unchanged := by
  simp only [turns, List.filterMap_eq_nil_iff, turn?_eq_none_iff]

theorem length_turns (candles : List (Annotated α)) :
    (turns candles).length = candles.countP (·.pivot ≠ .unchanged) := by
  rw [turns, List.length_filterMap_eq_countP]
  apply List.countP_congr
  intro c _
  rw [Option.isSome_iff_ne_none, ne_eq, turn?_eq_none_iff, decide_eq_true_eq]

variable [Scalar α]

-- The candles with their pivots.
def labelled (k : KeyLevels α) (candles : List (Candle α)) : List (Annotated α) :=
  candles.mapIdx fun index c => { c.annotated with pivot := k.pivotAt candles index }

def result (k : KeyLevels α) (candles : List (Candle α)) : Result α :=
  ⟨k.labelled candles,
    merge k.params.epsilon (distinct k.params.epsilon (turns (k.labelled candles)))⟩

@[simp] theorem length_labelled (k : KeyLevels α) (candles : List (Candle α)) :
    (k.labelled candles).length = candles.length := by
  simp [labelled]

theorem getElem?_labelled (k : KeyLevels α) (candles : List (Candle α)) (index : Nat) :
    (k.labelled candles)[index]? =
      candles[index]?.map fun c => { c.annotated with pivot := k.pivotAt candles index } := by
  simp [labelled]

theorem of_getElem?_labelled {k : KeyLevels α} {candles : List (Candle α)} {index : Nat}
    {c : Annotated α} (hc : (k.labelled candles)[index]? = some c) :
    candles[index]? = some c.candle ∧ c.pivot = k.pivotAt candles index := by
  rw [getElem?_labelled] at hc
  obtain ⟨d, hd, rfl⟩ := Option.map_eq_some_iff.mp hc
  exact ⟨hd, rfl⟩

@[simp] theorem map_candle_labelled (k : KeyLevels α) (candles : List (Candle α)) :
    (k.labelled candles).map Annotated.candle = candles := by
  apply List.ext_getElem?
  intro index
  cases h : candles[index]? <;> simp [getElem?_labelled, h, Candle.annotated]

private theorem mapM_check {β γ : Type} (token : Token) (stage : String) (f : β → γ)
    (xs : List β) :
    (xs.mapM fun x => do token.check stage; return f x) =
      if token.cancelled ∧ 1 ≤ xs.length then .error (.cancelled stage) else .ok (xs.map f) := by
  induction xs with
  | nil => simp; rfl
  | cons x xs ih =>
      rw [List.mapM_cons, ih]
      by_cases h : token.cancelled <;> simp [Token.check, h, bind, Except.bind, pure, Except.pure]

theorem label_eq (k : KeyLevels α) (token : Token) (candles : List (Candle α)) :
    k.label token candles =
      if token.cancelled ∧ 1 ≤ candles.length then .error (.cancelled stage)
      else .ok (k.labelled candles) := by
  have h := mapM_check token stage (fun (entry : Candle α × Nat) =>
    { entry.1.annotated with pivot := k.pivotAt candles entry.2 }) candles.zipIdx
  rw [label, labelled, List.mapIdx_eq_zipIdx_map]
  simpa using h

theorem run_eq (k : KeyLevels α) (token : Token) (candles : List (Candle α)) :
    k.run token candles =
      if token.cancelled ∧ 1 ≤ candles.length then .error (.cancelled stage)
      else .ok (k.result candles) := by
  rw [run, label_eq]
  split <;> rfl

theorem eq_result_of_run_eq_ok {k : KeyLevels α} {token : Token} {candles : List (Candle α)}
    {r : Result α} (h : k.run token candles = .ok r) : r = k.result candles := by
  rw [run_eq] at h
  split at h
  · cases h
  · exact (Except.ok.inj h).symm

theorem run_fresh (k : KeyLevels α) (candles : List (Candle α)) :
    k.run .fresh candles = .ok (k.result candles) := by
  simp [run_eq, Token.fresh]

end Candlestick.KeyLevels

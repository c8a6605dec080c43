import Candlestick.Proofs.Analysis.Run

namespace Candlestick

variable {α : Type}

theorem Token.cancelled_after_iff (token : Token) (delivery : Delivery α) :
    (token.after delivery).cancelled = true ↔
      token.cancelled = true ∨ delivery.cancels = true := by
  rw [Token.after]
  cases delivery.cancels <;> simp [Token.cancel]

variable [Scalar α]

theorem Analysis.firstLook_eq (a : Analysis α) :
    a.firstLook = if a.algorithm = .ema then 2 else 1 := by
  cases a <;> rfl

namespace RangeAnalysis

variable {a : RangeAnalysis α} {request : Request} {token : Token} {candles : List (Candle α)}

theorem run_of_fetch_eq_ok (h : (a.source.fetch request.query).result = .ok candles)
    (token : Token) :
    a.run request token =
      (a.analysis.run (token.after (a.source.fetch request.query)) candles,
        token.after (a.source.fetch request.query)) := by
  rw [run]
  simp only [h]

theorem run_of_fetch_eq_error {cause : FetchError}
    (h : (a.source.fetch request.query).result = .error cause) (token : Token) :
    a.run request token =
      (.error (.fetch cause), token.after (a.source.fetch request.query)) := by
  rw [run]
  simp only [h]

theorem snd_run (a : RangeAnalysis α) (request : Request) (token : Token) :
    (a.run request token).2 = token.after (a.source.fetch request.query) := by
  cases hf : (a.source.fetch request.query).result with
  | error cause => rw [run_of_fetch_eq_error hf]
  | ok candles => rw [run_of_fetch_eq_ok hf]

theorem fst_run_of_fetch_eq_ok (h : (a.source.fetch request.query).result = .ok candles)
    (token : Token) :
    (a.run request token).1 =
      if (token.cancelled = true ∨ (a.source.fetch request.query).cancels = true) ∧
          a.analysis.firstLook ≤ candles.length then .error (.cancelled a.analysis.stage)
      else .ok (a.analysis.output candles) := by
  rw [run_of_fetch_eq_ok h, Analysis.run_eq]
  simp only [Token.cancelled_after_iff]

theorem isOf_of_run_eq_ok {output : Output α} (h : (a.run request token).1 = .ok output) :
    ∃ candles, (a.source.fetch request.query).result = .ok candles ∧
      output.IsOf a.algorithm candles := by
  cases hf : (a.source.fetch request.query).result with
  | error cause =>
      rw [run_of_fetch_eq_error hf] at h
      exact absurd h (by simp)
  | ok candles =>
      rw [run_of_fetch_eq_ok hf] at h
      obtain rfl := Analysis.eq_output_of_run_eq_ok h
      exact ⟨candles, rfl, Analysis.output_isOf a.analysis candles⟩

theorem error_of_run_eq_error {error : AnalysisError}
    (h : (a.run request token).1 = .error error) :
    (∃ cause, error = .fetch cause) ∨ error = .cancelled a.analysis.stage := by
  cases hf : (a.source.fetch request.query).result with
  | error cause =>
      rw [run_of_fetch_eq_error hf] at h
      exact .inl ⟨cause, (Except.error.inj h).symm⟩
  | ok candles =>
      rw [fst_run_of_fetch_eq_ok hf] at h
      split at h
      · exact .inr (Except.error.inj h).symm
      · exact absurd h (by simp)

theorem run_ne_error {error : AnalysisError} (hfetch : ∀ cause, error ≠ .fetch cause)
    (hcancelled : ∀ stage, error ≠ .cancelled stage) :
    (a.run request token).1 ≠ .error error := by
  intro h
  rcases error_of_run_eq_error h with ⟨cause, rfl⟩ | rfl
  · exact hfetch cause rfl
  · exact hcancelled a.analysis.stage rfl

-- What comes out of a run that finds the token as it is given.
structure Outcome (a : RangeAnalysis α) (request : Request) (token : Token)
    (result : Except AnalysisError (Output α)) : Prop where
  -- an error of the source is passed on, cancelled or not
  fetch : ∀ cause, (a.source.fetch request.query).result = .error cause →
    result = .error (.fetch cause)
  -- a short series is done before the token is looked at
  cancelled : ∀ candles, (a.source.fetch request.query).result = .ok candles →
    (result = .error (.cancelled a.analysis.stage) ↔
      (token.cancelled = true ∨ (a.source.fetch request.query).cancels = true) ∧
        (if request.algorithm = .ema then 2 else 1) ≤ candles.length)
  -- an output is the one that a token gives which nobody has cancelled
  output : ∀ candles, (a.source.fetch request.query).result = .ok candles →
    result ≠ .error (.cancelled a.analysis.stage) →
      ∃ output, result = .ok output ∧ (a.run request .fresh).1 = .ok output ∧
        a.analysis.run .fresh candles = .ok output
  noMatch : ∀ cause, result ≠ .error (.noMatch cause)
  mismatch : ∀ declared actual, result ≠ .error (.mismatch declared actual)
  parameters : ∀ reason, result ≠ .error (.parameters reason)

theorem outcome_run (h : a.algorithm = request.algorithm) (token : Token) :
    a.Outcome request token (a.run request token).1 where
  fetch := by
    intro cause hf
    rw [run_of_fetch_eq_error hf]
  cancelled := by
    intro candles hf
    have hlook : (if request.algorithm = .ema then 2 else 1) = a.analysis.firstLook := by
      rw [← h]
      exact a.analysis.firstLook_eq.symm
    rw [hlook, fst_run_of_fetch_eq_ok hf]
    split
    · exact iff_of_true rfl ‹_›
    · exact iff_of_false (by simp) ‹_›
  output := by
    intro candles hf hne
    rw [fst_run_of_fetch_eq_ok hf] at hne ⊢
    rw [fst_run_of_fetch_eq_ok hf, Analysis.run_eq]
    have hpass : ¬((token.cancelled = true ∨ (a.source.fetch request.query).cancels = true) ∧
        a.analysis.firstLook ≤ candles.length) := fun hc => hne (if_pos hc)
    -- the source cancels for a fresh token as it does for this one
    have hfresh : ¬((Token.fresh.cancelled = true ∨
        (a.source.fetch request.query).cancels = true) ∧
          a.analysis.firstLook ≤ candles.length) := by
      rintro ⟨hc | hc, hlook⟩
      · exact absurd hc (by decide)
      · exact hpass ⟨.inr hc, hlook⟩
    exact ⟨a.analysis.output candles, if_neg hpass, if_neg hfresh, if_neg (by simp [Token.fresh])⟩
  noMatch := fun _ => run_ne_error (by simp) (by simp)
  mismatch := fun _ _ => run_ne_error (by simp) (by simp)
  parameters := fun _ => run_ne_error (by simp) (by simp)

end RangeAnalysis

end Candlestick

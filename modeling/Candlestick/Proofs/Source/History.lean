import Candlestick.Proofs.Source.Archive
import Mathlib.Data.List.Forall2
import Mathlib.Data.List.Induction

namespace Candlestick

-- Texts that differ in nothing but points and dashes.
def Respelled (s t : String) : Prop :=
  List.Forall₂ (fun c d => c = d ∨ c ∈ ['.', '-'] ∧ d ∈ ['.', '-']) s.toList t.toList

theorem toList_normalTicker (s : String) :
    (normalTicker s).toList = s.toList.map fun c => if c = '.' then '-' else c := by
  rw [normalTicker, String.toList_map]

theorem normalTicker_eq_iff (s t : String) : normalTicker s = normalTicker t ↔ Respelled s t := by
  have hchar (c d : Char) : (if c = '.' then '-' else c) = (if d = '.' then '-' else d) ↔
      c = d ∨ c ∈ ['.', '-'] ∧ d ∈ ['.', '-'] := by
    by_cases hc : c = '.' <;> by_cases hd : d = '.' <;> grind
  rw [← String.toList_inj, toList_normalTicker, toList_normalTicker, ← List.forall₂_eq_eq_eq,
    List.forall₂_map_left_iff, List.forall₂_map_right_iff]
  simp only [hchar]
  rfl

-- No point is left of a ticker.
theorem not_mem_normalTicker (s : String) : '.' ∉ (normalTicker s).toList := by
  rw [toList_normalTicker, List.mem_map]
  rintro ⟨c, -, hc⟩
  split at hc
  · exact absurd hc (by decide)
  · contradiction

namespace Archive

variable {α β : Type}

inductive Step (α : Type) where
  | setPeriods (periods : List Period)
  | addSeries (ticker : String) (candles : List (Candle α))

namespace Step

def perform (a : Archive α) : Step α → Archive α
  | setPeriods periods => a.withPeriods periods
  | addSeries ticker candles => a.withSeries ticker candles

def periods? : Step α → Option (List Period)
  | setPeriods periods => some periods
  | addSeries .. => none

-- The series that a step adds for a ticker of a query.
def series? (ticker : String) : Step α → Option (List (Candle α))
  | setPeriods _ => none
  | addSeries name candles => if normalTicker name = ticker then some candles else none

end Step

def built (name : String) (steps : List (Step α)) : Archive α :=
  steps.foldl Step.perform (.empty name)

theorem Step.series?_eq_some_iff {ticker : String} {step : Step α} {candles : List (Candle α)} :
    step.series? ticker = some candles ↔
      ∃ name, step = .addSeries name candles ∧ normalTicker name = ticker := by
  cases step with
  | setPeriods periods => simp [Step.series?]
  | addSeries name registered =>
      simp only [Step.series?, Option.ite_none_right_eq_some, Option.some.injEq, addSeries.injEq]
      constructor
      · rintro ⟨hname, rfl⟩
        exact ⟨name, ⟨rfl, rfl⟩, hname⟩
      · rintro ⟨_, ⟨rfl, rfl⟩, hname⟩
        exact ⟨hname, rfl⟩

-- What the last step gives of those that give something.
def IsLast (given? : Step α → Option β) (steps : List (Step α)) (x : β) : Prop :=
  ∃ before step after, steps = before ++ step :: after ∧ given? step = some x ∧
    ∀ later ∈ after, given? later = none

-- Periods were never set, or those that were set last are none or have this one among them.
def Offers (steps : List (Step α)) (period : Period) : Prop :=
  (∀ step ∈ steps, step.periods? = none) ∨
    ∃ periods, IsLast Step.periods? steps periods ∧ (periods = [] ∨ period ∈ periods)

-- Whether a query is covered, and what it gets.
def answer (a : Archive α) (query : Query) : Bool × Except FetchError (List (Candle α)) :=
  (a.covers query, a.fetch query)

section Steps

variable (name : String) (steps : List (Step α))

theorem isLast_iff (given? : Step α → Option β) (x : β) :
    IsLast given? steps x ↔ (steps.filterMap given?).getLast? = some x := by
  constructor
  · rintro ⟨before, step, after, rfl, hstep, hafter⟩
    have hnone : after.filterMap given? = [] := List.filterMap_eq_nil_iff.mpr hafter
    simp [hstep, hnone]
  · intro h
    induction steps using List.reverseRecOn with
    | nil => simp at h
    | append_singleton steps step ih =>
        cases hstep : given? step with
        | some y =>
            obtain rfl : y = x := by simpa [hstep] using h
            exact ⟨steps, step, [], rfl, hstep, by simp⟩
        | none =>
            obtain ⟨before, last, after, rfl, hlast, hafter⟩ := ih (by simpa [hstep] using h)
            refine ⟨before, last, after ++ [step], by simp, hlast, ?_⟩
            simpa [or_imp, forall_and, hstep] using hafter

theorem exists_isLast_iff (given? : Step α → Option β) :
    (∃ x, IsLast given? steps x) ↔ ∃ step ∈ steps, ∃ x, given? step = some x := by
  simp only [isLast_iff, ← Option.isSome_iff_exists, List.getLast?_isSome, ne_eq,
    List.filterMap_eq_nil_iff]
  simp [Option.isSome_iff_ne_none]

theorem exists_isLast_series_iff (ticker : String) :
    (∃ registered, IsLast (Step.series? ticker) steps registered) ↔
      ∃ name registered, .addSeries name registered ∈ steps ∧ normalTicker name = ticker := by
  rw [exists_isLast_iff]
  simp only [Step.series?_eq_some_iff]
  constructor
  · rintro ⟨_, hmem, registered, name, rfl, hname⟩
    exact ⟨name, registered, hmem, hname⟩
  · rintro ⟨name, registered, hmem, hname⟩
    exact ⟨_, hmem, registered, name, rfl, hname⟩

theorem built_concat (step : Step α) :
    built name (steps ++ [step]) = step.perform (built name steps) := by
  rw [built, List.foldl_append]
  rfl

@[simp] theorem name_built : (built name steps).name = name := by
  induction steps using List.reverseRecOn with
  | nil => rfl
  | append_singleton steps step ih =>
      rw [built_concat]
      cases step <;> exact ih

theorem periods_built :
    (built name steps).periods = ((steps.filterMap Step.periods?).getLast?).getD [] := by
  induction steps using List.reverseRecOn with
  | nil => rfl
  | append_singleton steps step ih =>
      rw [built_concat]
      cases step with
      | setPeriods periods => simp [Step.perform, withPeriods, Step.periods?]
      | addSeries ticker candles => simpa [Step.perform, withSeries, Step.periods?] using ih

theorem series?_built (ticker : String) :
    (built name steps).series? ticker = (steps.filterMap (Step.series? ticker)).getLast? := by
  induction steps using List.reverseRecOn with
  | nil => rfl
  | append_singleton steps step ih =>
      rw [built_concat]
      cases step with
      | setPeriods periods =>
          have hsame : ((built name steps).withPeriods periods).series? ticker =
              (built name steps).series? ticker := rfl
          rw [Step.perform, hsame, ih]
          simp [Step.series?]
      | addSeries other candles =>
          rw [Step.perform, series?_withSeries, ih]
          by_cases h : ticker = normalTicker other
          · simp [Step.series?, h]
          · simp [Step.series?, h, Ne.symm h]

theorem supports_built_iff (period : Period) :
    (built name steps).supports period = true ↔ Offers steps period := by
  have hperiods := periods_built name steps
  simp only [supports, Offers, isLast_iff, ← List.filterMap_eq_nil_iff, Bool.or_eq_true,
    List.isEmpty_iff, List.contains_iff_mem, hperiods]
  cases h : (steps.filterMap Step.periods?).getLast? with
  | none => simp [List.getLast?_eq_none_iff.mp h]
  | some periods =>
      have hne : steps.filterMap Step.periods? ≠ [] := by
        intro hnil
        simp [hnil] at h
      simp [hne]

end Steps

section Answers

variable {a b : Archive α} {query : Query} {candles : List (Candle α)}

theorem fetch_eq_ok_iff : a.fetch query = .ok candles ↔
    a.supports query.period = true ∧ ∃ registered, a.series? query.ticker = some registered ∧
      candles = within query registered := by
  rw [fetch]
  cases a.supports query.period <;> cases a.series? query.ticker <;> simp [eq_comm]

theorem covers_iff : a.covers query = true ↔ ∃ candles, a.fetch query = .ok candles := by
  simp [fetch_eq_ok_iff, covers, Option.isSome_iff_exists]

theorem answer_congr (hname : a.name = b.name)
    (hsupports : a.supports query.period = b.supports query.period)
    (hseries : a.series? query.ticker = b.series? query.ticker) :
    a.answer query = b.answer query := by
  simp only [answer, covers, fetch, hname, hsupports, hseries]

-- A series is not seen by queries of other tickers, nor by any query if a later one hides it.
theorem answer_drop (name : String) (before after : List (Step α)) {ticker : String}
    (candles : List (Candle α)) (h : normalTicker ticker = query.ticker →
      ∃ step ∈ after, ∃ later, step.series? query.ticker = some later) :
    (built name (before ++ .addSeries ticker candles :: after)).answer query =
      (built name (before ++ after)).answer query := by
  apply answer_congr
  · simp
  · simp [supports, periods_built, Step.periods?]
  · rw [series?_built, series?_built]
    by_cases hticker : normalTicker ticker = query.ticker
    · have hsome : after.filterMap (Step.series? query.ticker) ≠ [] := by
        obtain ⟨step, hmem, later, hlater⟩ := h hticker
        exact List.ne_nil_of_mem (List.mem_filterMap.mpr ⟨step, hmem, hlater⟩)
      obtain ⟨last, hlast⟩ := Option.isSome_iff_exists.mp (List.getLast?_isSome.mpr hsome)
      simp only [List.filterMap_append, List.filterMap_cons, Step.series?, hticker, if_true]
      rw [List.getLast?_append, List.getLast?_append, List.getLast?_cons, hlast]
      simp
    · simp [Step.series?, hticker]

-- What a query is answered, of an archive with any history, and what it does not depend on.
theorem last_series_answers (name : String) (steps : List (Step α)) (query : Query) :
    ((built name steps).covers query = true ↔
        ∃ candles, (built name steps).fetch query = .ok candles) ∧
      ((∃ candles, (built name steps).fetch query = .ok candles) ↔
        Offers steps query.period ∧ ∃ ticker registered,
          .addSeries ticker registered ∈ steps ∧ normalTicker ticker = query.ticker) ∧
      (∀ candles, (built name steps).fetch query = .ok candles ↔
        Offers steps query.period ∧ ∃ registered,
          IsLast (Step.series? query.ticker) steps registered ∧
            candles = registered.filter fun c => query.start ≤ c.time ∧ c.time ≤ query.finish) ∧
      (∀ s t, normalTicker s = normalTicker t ↔ Respelled s t) ∧
      (∀ s t, Respelled s t → ∀ (before between after : List (Step α)) (earlier later),
        (built name (before ++ .addSeries s earlier ::
            (between ++ .addSeries t later :: after))).answer query =
          (built name (before ++ (between ++ .addSeries t later :: after))).answer query) ∧
      (∀ ticker, normalTicker ticker ≠ query.ticker →
        ∀ (before after : List (Step α)) (candles),
          (built name (before ++ .addSeries ticker candles :: after)).answer query =
            (built name (before ++ after)).answer query) ∧
      (∀ s t, Respelled s t → ∀ start finish period algorithm,
        (built name steps).answer (.of s start finish period) =
            (built name steps).answer (.of t start finish period) ∧
          (built name steps).answer (Request.of s start finish period algorithm).query =
            (built name steps).answer (.of t start finish period)) ∧
      ('.' ∈ query.ticker.toList → (built name steps).covers query = false ∧
        ∀ candles, (built name steps).fetch query ≠ .ok candles) := by
  have hfetch (candles : List (Candle α)) : (built name steps).fetch query = .ok candles ↔
      Offers steps query.period ∧ ∃ registered,
        IsLast (Step.series? query.ticker) steps registered ∧
          candles = within query registered := by
    simp only [fetch_eq_ok_iff, supports_built_iff, series?_built, isLast_iff]
  have hserved : (∃ candles, (built name steps).fetch query = .ok candles) ↔
      Offers steps query.period ∧ ∃ ticker registered,
        .addSeries ticker registered ∈ steps ∧ normalTicker ticker = query.ticker := by
    rw [← exists_isLast_series_iff]
    simp only [hfetch]
    constructor
    · rintro ⟨_, hoffers, registered, hregistered, -⟩
      exact ⟨hoffers, registered, hregistered⟩
    · rintro ⟨hoffers, registered, hregistered⟩
      exact ⟨_, hoffers, registered, hregistered, rfl⟩
  have hdot : '.' ∈ query.ticker.toList →
      ¬ ∃ candles, (built name steps).fetch query = .ok candles := by
    intro hmem hok
    obtain ⟨-, ticker, -, -, hticker⟩ := hserved.mp hok
    exact not_mem_normalTicker ticker (hticker ▸ hmem)
  refine ⟨covers_iff, hserved, ?_, normalTicker_eq_iff, ?_, ?_, ?_, ?_⟩
  · intro candles
    rw [hfetch]
    simp [within]
  · intro s t hst before between after earlier later
    apply answer_drop
    intro hs
    refine ⟨.addSeries t later, by simp, later, ?_⟩
    rw [Step.series?, if_pos (((normalTicker_eq_iff s t).mpr hst).symm.trans hs)]
  · intro ticker hticker before after candles
    exact answer_drop name before after candles fun h => absurd h hticker
  · intro s t hst start finish period algorithm
    have hsame := (normalTicker_eq_iff s t).mpr hst
    simp [Query.of, Request.of, Request.query, hsame]
  · intro hmem
    have hnot := hdot hmem
    exact ⟨Bool.eq_false_iff.mpr (mt covers_iff.mp hnot), fun candles h => hnot ⟨candles, h⟩⟩

end Answers

end Archive

end Candlestick

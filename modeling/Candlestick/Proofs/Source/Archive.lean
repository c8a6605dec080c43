import Candlestick.Source.Archive
import Mathlib.Tactic.Common

namespace Candlestick

theorem Instant.le_refl (t : Instant) : t ≤ t := .inr ⟨rfl, Nat.le_refl _⟩

variable {α : Type}

-- The first and the last candle enclose the times of all.
def EnclosedByEnds (candles : List (Candle α)) : Prop :=
  ∀ first ∈ candles.head?, ∀ last ∈ candles.getLast?,
    ∀ c ∈ candles, first.time ≤ c.time ∧ c.time ≤ last.time

def Chronological (candles : List (Candle α)) : Prop :=
  candles.Pairwise fun earlier later => earlier.time ≤ later.time

theorem Chronological.enclosedByEnds {candles : List (Candle α)} (h : Chronological candles) :
    EnclosedByEnds candles := by
  rintro first hfirst last hlast c hc
  constructor
  · obtain ⟨rest, rfl⟩ := List.head?_eq_some_iff.mp hfirst
    rcases List.mem_cons.mp hc with rfl | hrest
    · exact c.time.le_refl
    · exact (List.pairwise_cons.mp h).1 c hrest
  · obtain ⟨before, rfl⟩ := List.getLast?_eq_some_iff.mp hlast
    rcases List.mem_append.mp hc with hbefore | hlast
    · exact (List.pairwise_append.mp h).2.2 c hbefore last (List.mem_singleton_self last)
    · obtain rfl := List.mem_singleton.mp hlast
      exact c.time.le_refl

namespace Archive

theorem within_eq_self {query : Query} {candles : List (Candle α)}
    (h : ∀ c ∈ candles, query.start ≤ c.time ∧ c.time ≤ query.finish) :
    within query candles = candles :=
  List.filter_eq_self.mpr fun c hc => by simpa using h c hc

theorem series?_withSeries (a : Archive α) (ticker : String) (candles : List (Candle α))
    (name : String) :
    (a.withSeries ticker candles).series? name =
      if name = normalTicker ticker then some candles else a.series? name := by
  by_cases hname : name = normalTicker ticker
  · simp [series?, withSeries, hname]
  · have hne : (name == normalTicker ticker) = false := by simpa using hname
    simp [series?, withSeries, List.lookup_cons, hne, hname]

-- The series that was added last is the one that a query for its ticker goes to.
theorem fetch_withSeries {a : Archive α} {query : Query} (hperiod : a.supports query.period = true)
    {ticker : String} (hticker : query.ticker = normalTicker ticker)
    (candles : List (Candle α)) :
    (a.withSeries ticker candles).fetch query = .ok (within query candles) := by
  have hsupports : (a.withSeries ticker candles).supports query.period = true := hperiod
  rw [fetch, if_pos hsupports, series?_withSeries, if_pos hticker]

-- A feed gives what the archive has, and cancels nothing.
theorem fetch_toFeed (a : Archive α) (query : Query) :
    (Source.feed a.toFeed).fetch query = .of (a.fetch query) := by
  rw [Source.fetch, toFeed]

end Archive

end Candlestick

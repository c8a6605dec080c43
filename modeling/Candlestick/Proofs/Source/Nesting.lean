import Candlestick.Proofs.Analysis.Range

namespace Candlestick.Source

variable {α : Type}

mutual

-- The feeds of a source, in the order in which they stand.
def feeds : Source α → List (Feed α)
  | feed f => [f]
  | firstOf sources => allFeeds sources

def allFeeds : List (Source α) → List (Feed α)
  | [] => []
  | s :: rest => s.feeds ++ allFeeds rest

end

-- The same feeds without nesting.
def flat (s : Source α) : Source α := firstOf (s.feeds.map feed)

mutual

-- Fetching, with a record of the feeds that are asked.
def fetchLogged (query : Query) : Source α → Delivery α × List (Feed α)
  | feed f => (f.fetch query, [f])
  | firstOf sources =>
    (fetchFirstLogged? query sources).getD (.of (.error (.noMatch ⟨names sources⟩)), [])

def fetchFirstLogged? (query : Query) : List (Source α) → Option (Delivery α × List (Feed α))
  | [] => none
  | s :: rest =>
    if s.covers query then some (s.fetchLogged query) else fetchFirstLogged? query rest

end

-- The record changes nothing.
mutual

theorem fst_fetchLogged (query : Query) : ∀ s : Source α, (s.fetchLogged query).1 = s.fetch query
  | feed f => by rw [fetchLogged, fetch]
  | firstOf sources => by
      rw [fetchLogged, fetch, ← map_fst_fetchFirstLogged? query sources]
      cases fetchFirstLogged? query sources <;> rfl

theorem map_fst_fetchFirstLogged? (query : Query) : ∀ sources : List (Source α),
    (fetchFirstLogged? query sources).map Prod.fst = fetchFirst? query sources
  | [] => by rw [fetchFirstLogged?, fetchFirst?, Option.map_none]
  | s :: rest => by
      rw [fetchFirstLogged?, fetchFirst?]
      split
      · rw [Option.map_some, fst_fetchLogged query s]
      · exact map_fst_fetchFirstLogged? query rest

end

theorem names_eq_map (sources : List (Source α)) : names sources = sources.map name := by
  induction sources with
  | nil => rfl
  | cons s rest ih => rw [names, ih, List.map_cons]

theorem allFeeds_map_feed (fs : List (Feed α)) : allFeeds (fs.map feed) = fs := by
  induction fs with
  | nil => rfl
  | cons f rest ih => rw [List.map_cons, allFeeds, ih, feeds, List.singleton_append]

theorem feeds_flat (s : Source α) : s.flat.feeds = s.feeds := by
  rw [flat, feeds, allFeeds_map_feed]

mutual

theorem covers_eq_any (query : Query) : ∀ s : Source α,
    s.covers query = s.feeds.any (·.covers query)
  | feed f => by simp [covers, feeds]
  | firstOf sources => by rw [covers, feeds, anyCovers_eq_any query sources]

theorem anyCovers_eq_any (query : Query) : ∀ sources : List (Source α),
    anyCovers query sources = (allFeeds sources).any (·.covers query)
  | [] => rfl
  | s :: rest => by
      rw [anyCovers, allFeeds, List.any_append, covers_eq_any query s,
        anyCovers_eq_any query rest]

end

theorem find?_feeds_eq_none_iff {query : Query} {s : Source α} :
    s.feeds.find? (·.covers query) = none ↔ s.covers query = false := by
  rw [List.find?_eq_none, covers_eq_any, List.any_eq_false]

-- A source that covers a query finds a feed for it at every level, so that the choice made by
-- coverage alone never ends in a refusal further down.
mutual

theorem fetchLogged_of_covers {query : Query} : ∀ s : Source α, s.covers query = true →
    some (s.fetchLogged query) =
      (s.feeds.find? (·.covers query)).map fun f => (f.fetch query, [f])
  | feed f, h => by
      have hf : f.covers query = true := by rwa [covers] at h
      rw [fetchLogged, feeds, List.find?_singleton, if_pos hf, Option.map_some]
  | firstOf sources, h => by
      have hfirst := fetchFirstLogged?_eq query sources
      cases hfind : (allFeeds sources).find? (·.covers query) with
      | none =>
          have hnone := find?_feeds_eq_none_iff (s := firstOf sources).mp hfind
          rw [hnone] at h
          exact absurd h (by decide)
      | some f =>
          rw [hfind] at hfirst
          rw [fetchLogged, hfirst, feeds, hfind]
          rfl

theorem fetchFirstLogged?_eq (query : Query) : ∀ sources : List (Source α),
    fetchFirstLogged? query sources =
      ((allFeeds sources).find? (·.covers query)).map fun f => (f.fetch query, [f])
  | [] => rfl
  | s :: rest => by
      rw [fetchFirstLogged?, allFeeds, List.find?_append, fetchFirstLogged?_eq query rest]
      by_cases h : s.covers query = true
      · rw [if_pos h, fetchLogged_of_covers s h]
        cases hfind : s.feeds.find? (·.covers query) with
        | none => exact absurd (h.symm.trans (find?_feeds_eq_none_iff.mp hfind)) (by decide)
        | some f => rfl
      · rw [if_neg h, find?_feeds_eq_none_iff.mpr (by simpa using h), Option.none_or]

end

-- The one equation of all nestings: their feeds decide, and the names of the listed sources are all
-- that is seen of how the feeds are nested.
theorem fetchLogged_firstOf (query : Query) (sources : List (Source α)) :
    (firstOf sources).fetchLogged query =
      match (firstOf sources).feeds.find? (·.covers query) with
      | some f => (f.fetch query, [f])
      | none => (.of (.error (.noMatch ⟨sources.map name⟩)), []) := by
  rw [fetchLogged, fetchFirstLogged?_eq, names_eq_map, feeds]
  cases (allFeeds sources).find? (·.covers query) <;> rfl

theorem fetchLogged_flat_of_find?_eq_some {query : Query} {s : Source α} {f : Feed α}
    (h : s.feeds.find? (·.covers query) = some f) :
    s.flat.fetchLogged query = (f.fetch query, [f]) := by
  have hflat : s.flat.feeds.find? (·.covers query) = some f := by rw [feeds_flat, h]
  rw [flat] at hflat ⊢
  rw [fetchLogged_firstOf, hflat]

-- A list of sources covers what one of its feeds covers, and has it from the first of these alone,
-- as it would without nesting. What none of them covers it refuses, with the names of the sources
-- in the list, and an analysis reports the refusal as one of its source.
theorem firstOf_asks_first_covering_feed [Scalar α] (sources : List (Source α)) (query : Query) :
    ((firstOf sources).covers query = true ↔
        ∃ f ∈ (firstOf sources).feeds, f.covers query = true) ∧
      (firstOf sources).flat.covers query = (firstOf sources).covers query ∧
      (∀ children : List (Source α), (firstOf children).name =
        "resolver[" ++ ", ".intercalate (children.map name) ++ "]") ∧
      (∀ s : Source α, (s.fetchLogged query).1 = s.fetch query) ∧
      (match (firstOf sources).feeds.find? (·.covers query) with
        | some f =>
          (firstOf sources).fetch query = f.fetch query ∧
            (firstOf sources).fetchLogged query = (f.fetch query, [f]) ∧
              (firstOf sources).flat.fetchLogged query = (f.fetch query, [f])
        | none =>
          (firstOf sources).fetch query = .of (.error (.noMatch ⟨sources.map name⟩)) ∧
            ((firstOf sources).fetchLogged query).2 = [] ∧
              ∀ (analysis : Analysis α) (request : Request) (token : Token),
                request.query = query →
                  (RangeAnalysis.mk (firstOf sources) analysis).run request token =
                    (.error (.fetch (.noMatch ⟨sources.map name⟩)), token)) ∧
      ∀ (analysis : Analysis α) (request : Request) (token : Token) (cause : NoMatch),
        ((RangeAnalysis.mk (firstOf sources) analysis).run request token).1 ≠
          .error (.noMatch cause) := by
  have hlogged := fetchLogged_firstOf query sources
  refine ⟨?_, ?_, ?_, fst_fetchLogged query, ?_, ?_⟩
  · rw [covers_eq_any, List.any_eq_true]
  · rw [covers_eq_any, feeds_flat, ← covers_eq_any]
  · intro children
    rw [name, names_eq_map]
  · cases hfind : (firstOf sources).feeds.find? (·.covers query) with
    | some f =>
        rw [hfind] at hlogged
        refine ⟨?_, hlogged, fetchLogged_flat_of_find?_eq_some hfind⟩
        rw [← fst_fetchLogged, hlogged]
    | none =>
        rw [hfind] at hlogged
        have hfetch : (firstOf sources).fetch query =
            .of (.error (.noMatch ⟨sources.map name⟩)) := by
          rw [← fst_fetchLogged, hlogged]
        refine ⟨hfetch, congrArg Prod.snd hlogged, ?_⟩
        rintro analysis request token rfl
        rw [RangeAnalysis.run_of_fetch_eq_error (congrArg Delivery.result hfetch), hfetch]
        rfl
  · intro analysis request token cause
    exact RangeAnalysis.run_ne_error (by simp) (by simp)

end Candlestick.Source

import Candlestick.Breakout
import Mathlib.Data.List.DropRight

namespace Candlestick.Breakout

-- A pivot as a scan keeps it.
structure Spot (α : Type) where
  position : Nat
  price : α

variable {α : Type}

def spotOf (price : ZonePrice) (entry : Annotated α × Nat) : Spot α :=
  ⟨entry.2, priceOf price entry.1⟩

-- The pivots of a kind among candles with their positions.
def spots (price : ZonePrice) (pivot : Pivot) (entries : List (Annotated α × Nat)) :
    List (Spot α) :=
  (entries.filter (·.1.pivot = pivot)).map (spotOf price)

-- The last pivots of either kind, the oldest first.
structure Scan (α : Type) where
  highs : List (Spot α)
  lows : List (Spot α)

namespace Scan

def recent (s : Scan α) : Pivot → List (Spot α)
  | .high => s.highs
  | .low => s.lows
  | .unchanged => []

-- A pivot goes to the end of its kind, and as many of the kind are kept as make a zone.
def step (p : Params α) (s : Scan α) (entry : Annotated α × Nat) : Scan α :=
  match entry.1.pivot with
  | .high => { s with highs := (s.highs ++ [spotOf p.price entry]).rtake p.count.toNat }
  | .low => { s with lows := (s.lows ++ [spotOf p.price entry]).rtake p.count.toNat }
  | .unchanged => s

def of (p : Params α) (candles : List (Annotated α)) : Scan α :=
  (candles.take (candles.length - p.reach)).zipIdx.foldl (step p) ⟨[], []⟩

-- Too few pivots fire at no index. Enough of them fire up to the last index whose zone holds the
-- oldest one, where they are level and the level is crossed.
def fires [Scalar α] (p : Params α) (recent : List (Spot α)) (index : Nat) (crossed : α → Bool) :
    Bool :=
  if recent.length < p.count.toNat then false
  else
    recent.head?.any (fun oldest => index ≤ oldest.position + p.back.toNat + p.window.toNat) &&
      (flatAverage? (recent.map Spot.price) p.count.toNat p.width).any crossed

def signal [Scalar α] (p : Params α) (s : Scan α) (index : Nat) (close : α) : Signal :=
  if fires p s.highs index (fun resistance => close - resistance > p.width) then .bullish
  else if fires p s.lows index (fun support => support - close > p.width) then .bearish
  else .noChange

end Scan

section Lists

variable {β : Type}

private theorem rtake_append (xs ys : List β) (n : Nat) :
    (xs ++ ys).rtake n = xs.rtake (n - ys.length) ++ ys.rtake n := by
  simp only [List.rtake_eq_reverse_take_reverse, List.reverse_append, List.take_append,
    List.length_reverse]

private theorem rtake_rtake_concat (xs : List β) (x : β) (n : Nat) :
    (xs.rtake n ++ [x]).rtake n = (xs ++ [x]).rtake n := by
  cases n with
  | zero => simp
  | succ n =>
      have h : (xs.rtake (n + 1)).rtake n = xs.rtake n := by
        simp [List.rtake_eq_reverse_take_reverse, List.take_take]
      simp only [List.rtake_concat_succ, h]

private theorem length_rtake (xs : List β) (n : Nat) : (xs.rtake n).length = min n xs.length := by
  simp only [List.rtake, List.length_drop]
  omega

private theorem exists_head?_rtake (xs : List β) (n : Nat) (hn : 0 < n) (hx : 0 < xs.length) :
    ∃ x ∈ xs, (xs.rtake n).head? = some x := by
  obtain ⟨x, rest, h⟩ := List.exists_cons_of_length_pos
    (by rw [length_rtake]; omega : 0 < (xs.rtake n).length)
  have hm : x ∈ xs.rtake n := h ▸ List.mem_cons_self
  exact ⟨x, List.mem_of_mem_drop hm, by rw [h, List.head?_cons]⟩

end Lists

namespace Scan

theorem recent_step (p : Params α) (s : Scan α) (entry : Annotated α × Nat) (pivot : Pivot)
    (hp : pivot ≠ .unchanged) :
    (step p s entry).recent pivot =
      if entry.1.pivot = pivot then
        (s.recent pivot ++ [spotOf p.price entry]).rtake p.count.toNat
      else s.recent pivot := by
  cases hc : entry.1.pivot <;> cases pivot <;> simp_all [step, recent]

-- A scan keeps the last pivots of each kind.
theorem recent_foldl_step (p : Params α) (pivot : Pivot) (hp : pivot ≠ .unchanged)
    (entries : List (Annotated α × Nat)) :
    (entries.foldl (step p) ⟨[], []⟩).recent pivot =
      (spots p.price pivot entries).rtake p.count.toNat := by
  induction entries using List.reverseRecOn with
  | nil => cases pivot <;> simp [recent, spots]
  | append_singleton entries entry ih =>
      rw [List.foldl_append, List.foldl_cons, List.foldl_nil, recent_step p _ entry pivot hp, ih]
      by_cases h : entry.1.pivot = pivot
      · simp [spots, h, rtake_rtake_concat]
      · simp [spots, h]

end Scan

theorem spots_append (price : ZonePrice) (pivot : Pivot) (xs ys : List (Annotated α × Nat)) :
    spots price pivot (xs ++ ys) = spots price pivot xs ++ spots price pivot ys := by
  simp only [spots, List.filter_append, List.map_append]

theorem map_price_spots_zipIdx (price : ZonePrice) (pivot : Pivot) (candles : List (Annotated α))
    (offset : Nat) :
    (spots price pivot (candles.zipIdx offset)).map Spot.price =
      (candles.filter (·.pivot = pivot)).map (priceOf price) := by
  have h := List.zipIdx_map_fst offset candles
  calc (spots price pivot (candles.zipIdx offset)).map Spot.price
    _ = ((candles.zipIdx offset).map Prod.fst |>.filter (·.pivot = pivot)).map (priceOf price) := by
      simp only [spots, List.map_map, List.filter_map]
      rfl
    _ = (candles.filter (·.pivot = pivot)).map (priceOf price) := by rw [h]

theorem position_of_mem_spots_zipIdx {price : ZonePrice} {pivot : Pivot}
    {candles : List (Annotated α)} {offset : Nat} {spot : Spot α}
    (h : spot ∈ spots price pivot (candles.zipIdx offset)) :
    offset ≤ spot.position ∧ spot.position < offset + candles.length := by
  obtain ⟨⟨c, position⟩, hm, rfl⟩ := List.mem_map.mp h
  have hz := List.mem_zipIdx (List.mem_of_mem_filter hm)
  exact ⟨hz.1, by have := hz.2.1; simpa [spotOf, Nat.add_comm] using this⟩

-- The prices that a zone is judged by, as spots.
theorem lastPrices_eq (price : ZonePrice) (count : Nat) (pivot : Pivot)
    (zone : List (Annotated α)) (offset : Nat) :
    lastPrices price count pivot zone =
      ((spots price pivot (zone.zipIdx offset)).rtake count).map Spot.price := by
  simp only [lastPrices, List.rtake, List.map_drop, map_price_spots_zipIdx]
  rw [← map_price_spots_zipIdx price pivot zone offset, List.length_map]

-- The zone of an index ends where the scan ends: it is what the scan reads, less what comes before
-- the zone's start.
theorem take_eq_append_zone (p : Params α) (candles : List (Annotated α)) (index : Nat)
    (h : InRange p candles.length index) :
    ∃ front, candles.take (candles.length - p.reach) = front ++ zone p candles index ∧
      index = front.length + p.back.toNat + p.window.toNat := by
  obtain ⟨hlo, hhi⟩ := h
  refine ⟨candles.take (index - p.back.toNat - p.window.toNat), ?_, ?_⟩
  · have hlen : candles.length - p.reach =
        (index - p.back.toNat - p.window.toNat) + (candles.length - index - p.window.toNat) := by
      unfold Params.reach; omega
    rw [hlen, List.take_add, zone]
  · rw [List.length_take]
    omega

section Firing

variable [Scalar α]

namespace Scan

variable {p : Params α} {recent : List (Spot α)} {index : Nat} {oldest : Spot α}

theorem fires_of_length_lt (crossed : α → Bool) (h : recent.length < p.count.toNat) :
    fires p recent index crossed = false := by
  rw [fires, if_pos h]

theorem fires_of_reached (crossed : α → Bool) (hlen : p.count.toNat ≤ recent.length)
    (hhead : recent.head? = some oldest)
    (hreach : index ≤ oldest.position + p.back.toNat + p.window.toNat) :
    fires p recent index crossed =
      (flatAverage? (recent.map Spot.price) p.count.toNat p.width).any crossed := by
  rw [fires, if_neg (Nat.not_lt.mpr hlen), hhead, Option.any_some, decide_eq_true hreach,
    Bool.true_and]

theorem fires_of_past (crossed : α → Bool) (hhead : recent.head? = some oldest)
    (hpast : oldest.position + p.back.toNat + p.window.toNat < index) :
    fires p recent index crossed = false := by
  rw [fires, hhead, Option.any_some, decide_eq_false (Nat.not_le.mpr hpast), Bool.false_and,
    ite_self]

end Scan

theorem flatAverage?_eq_none_of_length_ne {values : List α} {count : Nat} (width : α)
    (h : values.length ≠ count) : flatAverage? values count width = none := by
  simp [flatAverage?, h]

section Zone

variable (p : Params α) (start : Nat) (before within : List (Spot α)) (crossed : α → Bool)

-- Enough pivots from the start of a zone on are the last ones of all.
theorem fires_append_of_le (hcount : p.count.toNat ≠ 0) (hw : p.count.toNat ≤ within.length)
    (hpos : ∀ spot ∈ within, start ≤ spot.position) :
    Scan.fires p ((before ++ within).rtake p.count.toNat) (start + p.back.toNat + p.window.toNat)
        crossed =
      (flatAverage? ((within.rtake p.count.toNat).map Spot.price) p.count.toNat p.width).any
        crossed := by
  have hlast : (before ++ within).rtake p.count.toNat = within.rtake p.count.toNat := by
    simp [rtake_append, Nat.sub_eq_zero_of_le hw]
  have hlen : (within.rtake p.count.toNat).length = p.count.toNat := by
    rw [length_rtake, Nat.min_eq_left hw]
  obtain ⟨oldest, hm, hhead⟩ := exists_head?_rtake within _ (Nat.pos_of_ne_zero hcount) (by omega)
  have hreach := hpos oldest hm
  rw [hlast]
  exact Scan.fires_of_reached crossed hlen.ge hhead (by omega)

-- If there are too few, the oldest kept one lies before the start, unless even all are too few.
theorem fires_append_of_lt (hw : within.length < p.count.toNat)
    (hpos : ∀ spot ∈ before, spot.position < start) :
    Scan.fires p ((before ++ within).rtake p.count.toNat) (start + p.back.toNat + p.window.toNat)
      crossed = false := by
  by_cases hall : p.count.toNat ≤ before.length + within.length
  · obtain ⟨oldest, hm, hhead⟩ := exists_head?_rtake before (p.count.toNat - within.length)
      (by omega) (by omega)
    have hpast := hpos oldest hm
    have hkept : ((before ++ within).rtake p.count.toNat).head? = some oldest := by
      rw [rtake_append, List.head?_append, hhead, Option.some_or]
    exact Scan.fires_of_past crossed hkept (by omega)
  · apply Scan.fires_of_length_lt
    rw [length_rtake, List.length_append]
    omega

end Zone

theorem fires_append_zone (p : Params α) (hcount : p.count.toNat ≠ 0) (pivot : Pivot)
    (front zone : List (Annotated α)) (crossed : α → Bool) :
    Scan.fires p ((spots p.price pivot (front ++ zone).zipIdx).rtake p.count.toNat)
        (front.length + p.back.toNat + p.window.toNat) crossed =
      (level? p pivot zone).any crossed := by
  have hbefore : ∀ spot ∈ spots p.price pivot front.zipIdx, spot.position < front.length :=
    fun spot hs => by simpa using (position_of_mem_spots_zipIdx hs).2
  have hwithin : ∀ spot ∈ spots p.price pivot (zone.zipIdx (0 + front.length)),
      front.length ≤ spot.position :=
    fun spot hs => by simpa using (position_of_mem_spots_zipIdx hs).1
  rw [List.zipIdx_append, spots_append, level?, lastPrices_eq _ _ _ _ (0 + front.length)]
  by_cases hw : p.count.toNat ≤ (spots p.price pivot (zone.zipIdx (0 + front.length))).length
  · exact fires_append_of_le p front.length _ _ crossed hcount hw hwithin
  · rw [fires_append_of_lt p front.length _ _ crossed (by omega) hbefore,
      flatAverage?_eq_none_of_length_ne, Option.any_none]
    rw [List.length_map, length_rtake]
    omega

theorem level?_zone_any (p : Params α) (valid : p.Valid) (candles : List (Annotated α))
    (index : Nat) (h : InRange p candles.length index) (pivot : Pivot) (hp : pivot ≠ .unchanged)
    (crossed : α → Bool) :
    (level? p pivot (zone p candles index)).any crossed =
      Scan.fires p ((Scan.of p candles).recent pivot) index crossed := by
  have hcount : p.count.toNat ≠ 0 := fun hz => valid.2.1 (UInt64.toNat_inj.mp hz)
  obtain ⟨front, htake, hindex⟩ := take_eq_append_zone p candles index h
  have hrecent : (Scan.of p candles).recent pivot =
      (spots p.price pivot (front ++ zone p candles index).zipIdx).rtake p.count.toNat := by
    rw [← htake]
    exact Scan.recent_foldl_step p pivot hp _
  rw [hrecent, ← fires_append_zone p hcount pivot front (zone p candles index) crossed, ← hindex]

end Firing

end Candlestick.Breakout

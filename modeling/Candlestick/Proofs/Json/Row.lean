import Candlestick.Proofs.Json.Records

namespace Candlestick

open Json (Value Spells Writable)

theorem Json.write_inj {v w : Value} (hv : Writable v) (hw : Writable w) :
    v.write = w.write ↔ v = w := by
  refine ⟨fun h => ?_, congrArg Value.write⟩
  have hread := Json.read?_write hv
  rw [h, Json.read?_write hw] at hread
  exact (Option.some.inj hread).symm

theorem Json.ofDouble_inj {x y : Float} (hx : x.isFinite = true) (hy : y.isFinite = true) :
    Value.ofDouble x = Value.ofDouble y ↔ x = y := by
  refine ⟨fun h => ?_, congrArg Value.ofDouble⟩
  have hread := Json.real?_ofDouble hx
  rw [h, Json.real?_ofDouble hy] at hread
  exact (Option.some.inj hread).symm

theorem Json.ofNat_inj {m n : Nat} : Value.ofNat m = Value.ofNat n ↔ m = n := by
  refine ⟨fun h => ?_, congrArg Value.ofNat⟩
  have hdigits : Decimal.digits m = Decimal.digits n :=
    congrArg Decimal.Numeral.whole (Value.number.inj h)
  rw [← Decimal.ofDigits_digits m, hdigits, Decimal.ofDigits_digits]

theorem Instant.toJson_inj {t u : Instant} : t.toJson = u.toJson ↔ t = u := by
  refine ⟨fun h => ?_, congrArg Instant.toJson⟩
  have hread := t.ofJson?_toJson
  rw [h, u.ofJson?_toJson] at hread
  exact (Option.some.inj hread).symm

theorem Signal.ordinal_inj {s t : Signal} : s.ordinal = t.ordinal ↔ s = t := by
  cases s <;> cases t <;> decide

theorem Pivot.ordinal_inj {p q : Pivot} : p.ordinal = q.ordinal ↔ p = q := by
  cases p <;> cases q <;> decide

-- What stands in a column.
inductive Cell where
  | time (t : Instant)
  | real (x : Float)
  | ordinal (n : UInt64)

-- A number that is not finite has no value that is read, but its column is there.
def Cell.ShownBy : Cell → Value → Prop
  | time t, v => Instant.ofJson? v = some t
  | real x, v => if x.isFinite then v.real? = some x else v = .null
  | ordinal n, v => v.count? = some n

theorem Cell.shownBy_toJson (t : Instant) : (time t).ShownBy t.toJson := t.ofJson?_toJson

theorem Cell.shownBy_ofDouble (x : Float) : (real x).ShownBy (.ofDouble x) := by
  rw [ShownBy]
  split
  · exact Json.real?_ofDouble ‹_›
  · exact Json.ofDouble_of_not_isFinite (by simpa using ‹¬ x.isFinite = true›)

theorem Cell.shownBy_ofNat (n : UInt64) : (ordinal n).ShownBy (.ofNat n.toNat) :=
  Json.count?_ofNat n

namespace Annotated

-- The columns of a line.
def cells (c : Annotated Float) : List Cell :=
  [.time c.candle.time, .real c.candle.opening, .real c.candle.high, .real c.candle.low,
    .real c.candle.close, .real c.candle.volume, .real c.ema, .ordinal (.ofNat c.trend.ordinal),
    .ordinal (.ofNat c.breakout.ordinal), .ordinal (.ofNat c.pivot.ordinal)]

theorem writable_toRow (c : Annotated Float) : Writable c.toRow := by
  apply Json.writable_array
  simp [Value.ofNat, Writable, Decimal.isWhole_digits, Decimal.Numeral.ofNat]

theorem shownBy_toRow (c : Annotated Float) :
    ∃ items, c.toRow = .array items ∧ items.length = 10 ∧
      List.Forall₂ Cell.ShownBy c.cells items := by
  have hordinal {n : Nat} (hn : n < UInt64.size) :
      (Cell.ordinal (.ofNat n)).ShownBy (.ofNat n) := by
    have hshown := Cell.shownBy_ofNat (.ofNat n)
    rwa [UInt64.toNat_ofNat_of_lt' hn] at hshown
  have hsignal (s : Signal) : (Cell.ordinal (.ofNat s.ordinal)).ShownBy (.ofNat s.ordinal) :=
    hordinal (by cases s <;> decide)
  have hpivot (p : Pivot) : (Cell.ordinal (.ofNat p.ordinal)).ShownBy (.ofNat p.ordinal) :=
    hordinal (by cases p <;> decide)
  refine ⟨_, rfl, rfl, ?_⟩
  simp only [cells, List.forall₂_cons, List.forall₂_nil_left_iff, Cell.shownBy_toJson,
    Cell.shownBy_ofDouble, hsignal, hpivot, true_and]

theorem toRow_inj {c d : Annotated Float} (hc : c.finite = true) (hd : d.finite = true) :
    c.toRow = d.toRow ↔ c = d := by
  obtain ⟨⟨time, opening, high, low, close, volume⟩, ema, trend, breakout, pivot⟩ := c
  obtain ⟨⟨time', opening', high', low', close', volume'⟩, ema', trend', breakout', pivot'⟩ := d
  simp only [finite, Candle.finite, Bool.and_eq_true] at hc hd
  obtain ⟨⟨⟨⟨⟨ho, hh⟩, hl⟩, hcl⟩, hv⟩, he⟩ := hc
  obtain ⟨⟨⟨⟨⟨ho', hh'⟩, hl'⟩, hcl'⟩, hv'⟩, he'⟩ := hd
  simp [toRow, Instant.toJson_inj, Json.ofDouble_inj, Json.ofNat_inj, Signal.ordinal_inj,
    Pivot.ordinal_inj, and_assoc, *]

-- A line says everything of an annotated candle, the sign of a zero and a leap second too, and it
-- has ten columns whatever the numbers are.
theorem rows_tell_apart :
    (∀ c d : Annotated Float, c.finite = true → d.finite = true →
      (c.toRow.write = d.toRow.write ↔ c = d)) ∧
      ∀ c : Annotated Float, ∃ items : List Value,
        Json.read? c.toRow.write = some (.array items) ∧
          Spells (.array items) c.toRow.write.toList ∧ items.length = 10 ∧
            List.Forall₂ Cell.ShownBy c.cells items := by
  constructor
  · intro c d hc hd
    rw [Json.write_inj c.writable_toRow d.writable_toRow, toRow_inj hc hd]
  · intro c
    obtain ⟨items, hitems, hlength, hshown⟩ := c.shownBy_toRow
    have hwritable := c.writable_toRow
    rw [hitems] at hwritable ⊢
    refine ⟨items, Json.read?_write hwritable, ?_, hlength, hshown⟩
    rw [Value.write, String.toList_ofList]
    exact Json.spells_render _ hwritable

-- Two candles at a leap second that differ in the sign of a zero.
theorem rows_tell_apart_zeros :
    let leap : Instant := ⟨59, 1500000000, by decide, by decide, by decide, by decide⟩
    let c : Annotated Float := ⟨⟨leap, 1.0, 2.0, 0.5, 1.5, 100.0⟩, 0.0, .noChange, .bearish, .low⟩
    let d : Annotated Float := ⟨⟨leap, 1.0, 2.0, 0.5, 1.5, 100.0⟩, -0.0, .noChange, .bearish, .low⟩
    c.finite = true ∧ d.finite = true ∧ c.toRow.write ≠ d.toRow.write := by
  intro leap c d
  have hc : c.finite = true := by decide +kernel
  have hd : d.finite = true := by decide +kernel
  refine ⟨hc, hd, fun h => ?_⟩
  have hema : (0.0 : Float).toBits = (-0.0 : Float).toBits :=
    congrArg (fun c : Annotated Float => c.ema.toBits) ((rows_tell_apart.1 c d hc hd).mp h)
  exact absurd hema (by decide +kernel)

end Annotated

end Candlestick

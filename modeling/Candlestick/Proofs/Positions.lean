import Candlestick.Positions
import Mathlib.Algebra.Order.Ring.Nat

namespace Candlestick

open Word (Stretch)

variable {α : Type}

namespace KeyLevels

theorem tooNear_iff {window index : UInt64} {candles : List (Candle α)}
    (hlength : candles.length < UInt64.size) :
    TooNear window (Word.length candles) index ↔
      ¬(window.toNat ≤ index.toNat ∧ index.toNat + window.toNat < candles.length) := by
  rw [TooNear, UInt64.lt_iff_toNat_lt, UInt64.le_iff_toNat_le, Word.toNat_length hlength,
    Word.toNat_saturatingAdd]
  omega

theorem exists_stretch {window index : UInt64} {length : Nat} (hlength : length < UInt64.size)
    (hlo : window.toNat ≤ index.toNat) (hhi : index.toNat + window.toNat < length) :
    ∃ s, stretch window index = .ok s ∧
      s.Spans (index.toNat - window.toNat) (index.toNat + window.toNat) length := by
  obtain ⟨start, hstart, hstartNat⟩ := Word.exists_sub hlo
  obtain ⟨stop, hstop, hstopNat⟩ := Word.exists_add (hhi.trans hlength)
  refine ⟨⟨start, stop⟩, ?_, hstartNat, hstopNat, by omega, hhi.le⟩
  rw [stretch, hstart, hstop]
  rfl

theorem pivotInWords_of_near [Scalar α] (k : KeyLevels α) {candles : List (Candle α)}
    (hlength : candles.length < UInt64.size) {index : UInt64}
    (h : TooNear k.params.window (Word.length candles) index) :
    k.pivotInWords candles index = .ok .unchanged ∧
      k.pivotAt candles index.toNat = .unchanged := by
  rw [pivotInWords, if_pos h, pivotAt, pivotOf, dif_neg ((tooNear_iff hlength).mp h)]
  exact ⟨rfl, rfl⟩

theorem pivotInWords_of_stretch [Scalar α] (k : KeyLevels α) {candles : List (Candle α)}
    (hlength : candles.length < UInt64.size) {index : UInt64}
    (h : ¬TooNear k.params.window (Word.length candles) index) :
    k.pivotInWords candles index = .ok (k.pivotAt candles index.toNat) ∧
      index.toNat < candles.length ∧
        ∃ s, stretch k.params.window index = .ok s ∧
          s.Spans (index.toNat - k.params.window.toNat) (index.toNat + k.params.window.toNat)
            candles.length := by
  have hwithin := not_not.mp ((tooNear_iff hlength).not.mp h)
  have hindex : index.toNat < candles.length := by omega
  have hwidth : index.toNat + k.params.window.toNat - (index.toNat - k.params.window.toNat) =
      2 * k.params.window.toNat := by omega
  obtain ⟨s, hs, hspans⟩ := exists_stretch hlength hwithin.1 hwithin.2
  refine ⟨?_, hindex, s, hs, hspans⟩
  rw [pivotInWords, if_neg h, Word.entry, dif_pos hindex, hs, pivotAt, pivotOf, dif_pos hwithin]
  simp only [bind, Except.bind, Word.slice_of_spans hspans, hwidth]
  rfl

end KeyLevels

namespace Breakout

-- The sums of the guard are compared with positions that are less than the largest word, so that it
-- does not matter that they stop there.
theorem tooNear_iff [Scalar α] {p : Params α} (valid : p.Valid) {index : UInt64}
    {candles : List (Annotated α)} (hlength : candles.length < UInt64.size - 1) :
    TooNear p (Word.length candles) index ↔ ¬InRange p candles.length index.toNat := by
  have hreach := valid.2.2.1
  rw [Params.reach] at hreach
  rw [TooNear, InRange, UInt64.lt_iff_toNat_lt, UInt64.le_iff_toNat_le,
    Word.toNat_length (by omega), Word.toNat_saturatingAdd, Word.toNat_saturatingAdd]
  omega

-- A zone ends as far from the end of its list as a signal reaches, whatever the index.
theorem exists_stretch {p : Params α} {length index : UInt64}
    (h : InRange p length.toNat index.toNat) :
    ∃ s, stretch p length index = .ok s ∧
      s.Spans (index.toNat - p.back.toNat - p.window.toNat) (length.toNat - p.reach)
        length.toNat := by
  obtain ⟨hlo, hhi⟩ := h
  have hlength := length.toNat_lt_size
  obtain ⟨back, hback, hbackNat⟩ :=
    Word.exists_sub (show p.back.toNat ≤ index.toNat by omega)
  obtain ⟨start, hstart, hstartNat⟩ :=
    Word.exists_sub (show p.window.toNat ≤ back.toNat by omega)
  obtain ⟨after, hafter, hafterNat⟩ :=
    Word.exists_sub (show index.toNat ≤ length.toNat by omega)
  obtain ⟨count, hcount, hcountNat⟩ :=
    Word.exists_sub (show p.window.toNat ≤ after.toNat by omega)
  obtain ⟨stop, hstop, hstopNat⟩ :=
    Word.exists_add (show start.toNat + count.toNat < UInt64.size by omega)
  rw [Params.reach]
  refine ⟨⟨start, stop⟩, ?_, ?_, ?_, by omega, Nat.sub_le _ _⟩
  · simp only [stretch, hback, hstart, hafter, hcount, hstop, bind, Except.bind]
    rfl
  · rw [hstartNat, hbackNat]
  · rw [hstopNat]
    omega

variable [Scalar α]

theorem signalInWords_of_near (b : Breakout α) {candles : List (Annotated α)}
    (hlength : candles.length < UInt64.size - 1) {index : UInt64}
    (h : TooNear b.params (Word.length candles) index) :
    b.signalInWords candles index = .ok .noChange ∧
      b.signalAt candles index.toNat = .noChange := by
  rw [signalInWords, if_pos h, signalAt, dif_neg ((tooNear_iff b.valid hlength).mp h)]
  exact ⟨rfl, rfl⟩

theorem signalInWords_of_stretch (b : Breakout α) {candles : List (Annotated α)}
    (hlength : candles.length < UInt64.size - 1) {index : UInt64}
    (h : ¬TooNear b.params (Word.length candles) index) :
    b.signalInWords candles index = .ok (b.signalAt candles index.toNat) ∧
      index.toNat < candles.length ∧
        ∃ s, stretch b.params (Word.length candles) index = .ok s ∧
          s.Spans (index.toNat - b.params.back.toNat - b.params.window.toNat)
            (candles.length - b.params.reach) candles.length ∧
          s.within (Word.length candles) = s := by
  have hrange := not_not.mp ((tooNear_iff b.valid hlength).not.mp h)
  have hindex := lt_of_inRange b.valid hrange
  have hlengthNat := Word.toNat_length (show candles.length < UInt64.size by omega)
  have hin : InRange b.params (Word.length candles).toNat index.toNat := by rwa [hlengthNat]
  obtain ⟨s, hs, hspans⟩ := exists_stretch hin
  have hwithin : s.within (Word.length candles) = s :=
    Stretch.within_eq_self (hspans.stop_eq.trans_le hspans.stop_le)
  rw [hlengthNat] at hspans
  have hwidth : candles.length - b.params.reach -
      (index.toNat - b.params.back.toNat - b.params.window.toNat) =
        candles.length - index.toNat - b.params.window.toNat := by
    obtain ⟨hlo, hhi⟩ := hrange
    rw [Params.reach]
    omega
  refine ⟨?_, hindex, s, hs, hspans, hwithin⟩
  rw [signalInWords, if_neg h, hs, signalAt, dif_pos hrange]
  simp only [bind, Except.bind, hwithin, Word.slice_of_spans hspans, hwidth, Word.entry,
    dif_pos hindex, zone]
  rfl

end Breakout

section

variable [Scalar α]

-- No step that a pivot or a signal takes is a fault, at whatever index. Where the guard lets an
-- index pass, it is one of the list, and the stretch that is looked at lies in the list; the zone
-- of a signal ends at one place for all indices, and the end of the list never cuts it off.
theorem positions_stay_in_words (k : KeyLevels α) (b : Breakout α) (candles : List (Candle α))
    (marked : List (Annotated α)) (hcandles : candles.length < 2 ^ 63)
    (hmarked : marked.length < 2 ^ 63) (index : UInt64) :
    (k.pivotInWords candles index = .ok (k.pivotAt candles index.toNat) ∧
      if KeyLevels.TooNear k.params.window (Word.length candles) index then
        k.pivotAt candles index.toNat = .unchanged
      else
        index.toNat < candles.length ∧
          ∃ s, KeyLevels.stretch k.params.window index = .ok s ∧
            s.Spans (index.toNat - k.params.window.toNat) (index.toNat + k.params.window.toNat)
              candles.length) ∧
      b.signalInWords marked index = .ok (b.signalAt marked index.toNat) ∧
      if Breakout.TooNear b.params (Word.length marked) index then
        b.signalAt marked index.toNat = .noChange
      else
        index.toNat < marked.length ∧
          ∃ s, Breakout.stretch b.params (Word.length marked) index = .ok s ∧
            s.Spans (index.toNat - b.params.back.toNat - b.params.window.toNat)
              (marked.length - b.params.back.toNat - 2 * b.params.window.toNat) marked.length ∧
            s.within (Word.length marked) = s := by
  have hwords : 2 ^ 63 < UInt64.size - 1 := by decide
  have hcandles' : candles.length < UInt64.size := by omega
  have hmarked' : marked.length < UInt64.size - 1 := by omega
  constructor
  · split <;> rename_i h
    · obtain ⟨hrun, hpivot⟩ := KeyLevels.pivotInWords_of_near k hcandles' h
      exact ⟨hpivot ▸ hrun, hpivot⟩
    · exact KeyLevels.pivotInWords_of_stretch k hcandles' h
  · split <;> rename_i h
    · obtain ⟨hrun, hsignal⟩ := Breakout.signalInWords_of_near b hmarked' h
      exact ⟨hsignal ▸ hrun, hsignal⟩
    · rw [Nat.sub_sub marked.length]
      exact Breakout.signalInWords_of_stretch b hmarked' h

-- Indices that their guards just let pass: the window of the one ends with the last candle, and the
-- zone of the other is empty.
theorem positions_stay_in_words_end :
    let k : KeyLevels Rat := ⟨⟨1, 0⟩, by decide +kernel⟩
    let b : Breakout Rat := ⟨⟨1, 1, 1, 0, .close⟩, k, by decide +kernel⟩
    let candles : List (Candle Rat) := [5, 4, 3, 2, 1].map fun p => ⟨.epoch, p, p, p, p, 0⟩
    let marked : List (Annotated Rat) := (candles.take 4).map Candle.annotated
    candles.length < 2 ^ 63 ∧ marked.length < 2 ^ 63 ∧ k.pivotInWords candles 3 = .ok .low ∧
      (∃ s, KeyLevels.stretch 1 3 = .ok s ∧ s.Spans 2 4 5) ∧
      b.signalInWords marked 3 = .ok .noChange ∧
      ∃ s, Breakout.stretch b.params 4 3 = .ok s ∧ s.Spans 1 1 4 ∧ s.within 4 = s := by
  intro k b candles marked
  have hcandles : candles.length < 2 ^ 63 := by decide +kernel
  have hmarked : marked.length < 2 ^ 63 := by decide +kernel
  obtain ⟨⟨hpivot, hwindow⟩, hsignal, hzone⟩ :=
    positions_stay_in_words k b candles marked hcandles hmarked 3
  rw [if_neg (by decide +kernel)] at hwindow hzone
  refine ⟨hcandles, hmarked, hpivot.trans ?_, hwindow.2, hsignal.trans ?_, hzone.2⟩
  · decide +kernel
  · decide +kernel

end

end Candlestick

import Candlestick.Proofs.Settings.Gates
import Candlestick.Proofs.Sheet

namespace Candlestick

section Reading

variable {V : Type} [Datum V] (e : Encoding V)

theorem ZonePrice.ofDatum?_text (p : ZonePrice) : ofDatum? (e.simple (.text p.name)) = some p := by
  rw [ofDatum?, e.label?_text]
  cases p <;> decide

theorem Ema.Params.ofDatum?_record (p : Ema.Params) : ofDatum? (e.ofRecord p.record) = some p := by
  simp [ofDatum?, Encoding.ofRecord, record, e.fields?_record, Fields.orDefault, Fields.value?,
    e.count?_count]

theorem KeyLevels.Params.ofDatum?_record {p : KeyLevels.Params Float} (h : p.Valid) :
    ofDatum? (e.ofRecord p.record) = some p := by
  obtain ⟨-, hfinite, -⟩ := h
  simp [ofDatum?, Encoding.ofRecord, record, e.fields?_record, Fields.orDefault, Fields.value?,
    e.count?_count, e.real?_real hfinite]

theorem Breakout.Params.ofDatum?_record {p : Breakout.Params Float} (h : p.Valid) :
    ofDatum? (e.ofRecord p.record) = some p := by
  obtain ⟨-, -, -, hfinite, -⟩ := h
  simp [ofDatum?, Encoding.ofRecord, record, e.fields?_record, Fields.orDefault, Fields.value?,
    e.count?_count, e.real?_real hfinite, ZonePrice.ofDatum?_text]

theorem Settings.ofDatum?_sheet {s : Settings} (hlevels : s.keyLevels.Valid)
    (hbreakout : s.breakout.Valid) : ofDatum? (e.ofSheet (Part.whole.sheet s)) = some s := by
  simp [ofDatum?, Encoding.ofSheet, Part.sheet, e.fields?_record, Fields.orDefault, Fields.value?,
    Ema.Params.ofDatum?_record, KeyLevels.Params.ofDatum?_record e hlevels,
    Breakout.Params.ofDatum?_record e hbreakout]

end Reading

theorem ZonePrice.isPlainText_name (p : ZonePrice) : IsPlainText p.name := by
  cases p <;> decide

theorem Ema.Params.plain_record (p : Ema.Params) : p.record.Plain where
  bare := by simp only [record, List.forall_mem_cons]; decide
  plain := by simp [record, Simple.Plain]
  nodup := by simp [record]

theorem KeyLevels.Params.plain_record {p : KeyLevels.Params Float} (h : p.Valid) :
    p.record.Plain where
  bare := by simp only [record, List.forall_mem_cons]; decide
  plain := by
    have hfinite : p.epsilon.isFinite = true := h.2.1
    simp [record, Simple.Plain, hfinite]
  nodup := by simp [record]

theorem Breakout.Params.plain_record {p : Breakout.Params Float} (h : p.Valid) :
    p.record.Plain where
  bare := by simp only [record, List.forall_mem_cons]; decide
  plain := by
    have hfinite : p.width.isFinite = true := h.2.2.2.1
    simp [record, Simple.Plain, hfinite, p.price.isPlainText_name]
  nodup := by simp [record]

namespace Part

variable {part : Part} {value : part.Value}

theorem ofDatum?_sheet {V : Type} [Datum V] (e : Encoding V) (h : part.check value = .ok ()) :
    part.ofDatum? (e.ofSheet (part.sheet value)) = some value := by
  cases part with
  | whole =>
      obtain ⟨-, hlevels, hbreakout⟩ := (check_whole_eq_ok_iff value).mp h
      exact Settings.ofDatum?_sheet e hlevels hbreakout
  | ema => exact Ema.Params.ofDatum?_record e value
  | keyLevels => exact KeyLevels.Params.ofDatum?_record e (Checked.check_eq_ok_iff.mp h)
  | breakout => exact Breakout.Params.ofDatum?_record e (Checked.check_eq_ok_iff.mp h)

theorem plain_sheet (h : part.check value = .ok ()) : (part.sheet value).Plain := by
  cases part with
  | whole =>
      obtain ⟨-, hlevels, hbreakout⟩ := (check_whole_eq_ok_iff value).mp h
      refine .tables ?_ ?_ (by simp)
      · simp only [List.forall_mem_cons]
        decide
      · simp [value.ema.plain_record, KeyLevels.Params.plain_record hlevels,
          Breakout.Params.plain_record hbreakout]
  | ema => exact .single value.plain_record
  | keyLevels => exact .single (KeyLevels.Params.plain_record (Checked.check_eq_ok_iff.mp h))
  | breakout => exact .single (Breakout.Params.plain_record (Checked.check_eq_ok_iff.mp h))

end Part

end Candlestick

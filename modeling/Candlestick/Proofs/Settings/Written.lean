import Candlestick.Proofs.Json.Sheet
import Candlestick.Proofs.Settings.Sheet
import Candlestick.Proofs.Toml.Document

namespace Candlestick

namespace Part

variable {part : Part} {value : part.Value} {text : String} {format : Format}

theorem render_toml_eq_ok_iff :
    part.render value .toml = .ok text ↔ Toml.write? (part.sheet value) = some text := by
  rw [render]
  cases Toml.write? (part.sheet value) <;> simp

theorem render_eq_error_iff {e : SettingsError} :
    part.render value format = .error e ↔
      format = .toml ∧ Toml.write? (part.sheet value) = none ∧ e = .parse "TOML 직렬화 실패: " := by
  cases format with
  | json => simp [render]
  | toml =>
      rw [render]
      cases Toml.write? (part.sheet value) <;> simp [eq_comm]

theorem parse?_render (hvalid : part.check value = .ok ())
    (h : part.render value format = .ok text) : part.parse? text format = some value := by
  cases format with
  | json =>
      obtain rfl := Except.ok.inj h
      rw [parse?, Json.read?_writePretty_ofSheet (plain_sheet hvalid)]
      exact ofDatum?_sheet Json.encoding hvalid
  | toml =>
      rw [parse?, Toml.read?_write? (plain_sheet hvalid) (render_toml_eq_ok_iff.mp h)]
      exact ofDatum?_sheet Toml.encoding hvalid

-- A document in TOML begins with the name of a field, or with that of a table in brackets.
theorem parse?_json_of_render_toml (h : part.render value .toml = .ok text) :
    part.parse? text .json = none := by
  have hread : Json.read? text = none := by
    obtain ⟨s, hs, rfl⟩ := Option.map_eq_some_iff.mp (render_toml_eq_ok_iff.mp h)
    cases part with
    | whole =>
        obtain ⟨rest, rfl⟩ := Toml.exists_of_renderTables?_cons hs
        exact Json.read?_bracket_of_isForeign (c := 'e') (d := 'm') (by decide) (by decide)
          (String.toList_ofList ..)
    | ema =>
        obtain ⟨rest, rfl⟩ := Toml.exists_of_renderRecord?_cons hs
        exact Json.read?_of_isForeign (c := 'p') (d := 'e') (by decide) (String.toList_ofList ..)
    | keyLevels =>
        obtain ⟨rest, rfl⟩ := Toml.exists_of_renderRecord?_cons hs
        exact Json.read?_of_isForeign (c := 'n') (d := 'e') (by decide) (String.toList_ofList ..)
    | breakout =>
        obtain ⟨rest, rfl⟩ := Toml.exists_of_renderRecord?_cons hs
        exact Json.read?_of_isForeign (c := 'b') (d := 'a') (by decide) (String.toList_ofList ..)
  rw [parse?, hread]
  rfl

theorem read?_none_render (hvalid : part.check value = .ok ())
    (h : part.render value format = .ok text) : part.read? text none = some value := by
  have hparse := parse?_render hvalid h
  cases format with
  | json => rw [read?, hparse]; rfl
  | toml => rw [read?, parse?_json_of_render_toml h, hparse]; rfl

-- What is written is loaded again, in its own format and without one.
theorem load_render (hvalid : part.check value = .ok ())
    (h : part.render value format = .ok text) :
    part.load text (some format) = .ok value ∧ part.load text none = .ok value :=
  ⟨load_eq_ok_iff.mpr ⟨parse?_render hvalid h, hvalid⟩,
    load_eq_ok_iff.mpr ⟨read?_none_render hvalid h, hvalid⟩⟩

end Part

-- Counts that TOML has integers for.
def Settings.CountsFit (s : Settings) : Prop :=
  s.ema.period.toNat < Toml.integerBound ∧ s.keyLevels.window.toNat < Toml.integerBound ∧
    s.breakout.back.toNat < Toml.integerBound ∧ s.breakout.window.toNat < Toml.integerBound ∧
      s.breakout.count.toNat < Toml.integerBound

theorem Settings.write?_eq_none_iff (s : Settings) :
    Toml.write? (Part.whole.sheet s) = none ↔ ¬ s.CountsFit := by
  have hcount (n : UInt64) : (Toml.renderSimple? (.count n)).isSome =
      decide (n.toNat < Toml.integerBound) := by
    rw [Toml.renderSimple?]
    split <;> simp_all
  have hreal (x : Float) : (Toml.renderSimple? (.real x)).isSome = true := rfl
  have htext (t : String) : (Toml.renderSimple? (.text t)).isSome = true := rfl
  have hwrite : Toml.write? (Part.whole.sheet s) = (Toml.renderTables? [("ema", s.ema.record),
      ("key_levels", s.keyLevels.record), ("breakout", s.breakout.record)]).map String.ofList := rfl
  rw [hwrite, Option.map_eq_none_iff, ← Option.not_isSome_iff_eq_none, Toml.isSome_renderTables?]
  simp only [List.all_cons, List.all_nil, Toml.isSome_renderRecord?, Ema.Params.record,
    KeyLevels.Params.record, Breakout.Params.record, hcount, hreal, htext, CountsFit]
  simp

theorem Settings.render_of_fits {s : Settings} {format : Format}
    (h : format = .json ∨ s.CountsFit) : ∃ text, Part.whole.render s format = .ok text := by
  cases hrender : Part.whole.render s format with
  | ok text => exact ⟨text, rfl⟩
  | error e =>
      obtain ⟨rfl, hwrite, -⟩ := Part.render_eq_error_iff.mp hrender
      exact absurd (h.resolve_left (by decide)) (s.write?_eq_none_iff.mp hwrite)

theorem Settings.render_of_not_fits {s : Settings} {format : Format}
    (h : ¬(format = .json ∨ s.CountsFit)) :
    Part.whole.render s format = .error (.parse "TOML 직렬화 실패: ") := by
  obtain ⟨hjson, hcounts⟩ := not_or.mp h
  cases format with
  | json => contradiction
  | toml => exact Part.render_eq_error_iff.mpr ⟨rfl, s.write?_eq_none_iff.mpr hcounts, rfl⟩

end Candlestick

import Candlestick.Breakout
import Candlestick.Ema

namespace Candlestick

structure Settings where
  ema : Ema.Params
  keyLevels : KeyLevels.Params Float
  breakout : Breakout.Params Float

def Settings.standard : Settings := ⟨.standard, .standard, .standard⟩

-- Of several sections that are not valid the first is reported.
instance : Checked Settings where
  Valid s := s.ema.Valid ∧ s.keyLevels.Valid ∧ s.breakout.Valid
  refusal? s :=
    Checked.refusal? s.ema <|> Checked.refusal? s.keyLevels <|> Checked.refusal? s.breakout
  refusal?_eq_none {s} := by
    simp only [Option.orElse_eq_orElse, Option.orElse_eq_or, Option.or_eq_none_iff,
      Checked.refusal?_eq_none]
    rfl

-- What a document can hold: all settings, or the parameters of one analysis.
inductive Part where
  | whole
  | ema
  | keyLevels
  | breakout
  deriving DecidableEq, Repr

namespace Part

abbrev Value : Part → Type
  | whole => Settings
  | ema => Ema.Params
  | keyLevels => KeyLevels.Params Float
  | breakout => Breakout.Params Float

def of (settings : Settings) : (part : Part) → part.Value
  | whole => settings
  | ema => settings.ema
  | keyLevels => settings.keyLevels
  | breakout => settings.breakout

instance : (part : Part) → Checked part.Value
  | whole => inferInstanceAs (Checked Settings)
  | ema => inferInstanceAs (Checked Ema.Params)
  | keyLevels => inferInstanceAs (Checked (KeyLevels.Params Float))
  | breakout => inferInstanceAs (Checked (Breakout.Params Float))

def check (part : Part) (value : part.Value) : Except SettingsError Unit := Checked.check value

end Part

end Candlestick

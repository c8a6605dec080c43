import Candlestick.Json.Reader
import Candlestick.Json.Sheet
import Candlestick.Settings.Document
import Candlestick.Toml.Reader
import Candlestick.Toml.Writer

namespace Candlestick

inductive Format where
  | json
  | toml
  deriving DecidableEq, Repr

namespace Part

def parse? (part : Part) (text : String) : Format → Option part.Value
  | .json => do part.ofDatum? (← Json.read? text)
  | .toml => do part.ofDatum? (← Toml.read? text)

private def parseFailure : Format → SettingsError
  | .json => .parse "JSON 파싱 실패: "
  | .toml => .parse "TOML 파싱 실패: "

def parse (part : Part) (text : String) (format : Format) : Except SettingsError part.Value :=
  match part.parse? text format with
  | some value => .ok value
  | none => .error (parseFailure format)

-- Without a format, a text that is no settings in JSON is taken for TOML.
def parseAny (part : Part) (text : String) (format? : Option Format) :
    Except SettingsError part.Value :=
  match format? with
  | some format => part.parse text format
  | none =>
    match part.parse? text .json with
    | some value => .ok value
    | none => part.parse text .toml

def load (part : Part) (text : String) (format? : Option Format) :
    Except SettingsError part.Value := do
  let value ← part.parseAny text format?
  part.check value
  return value

def render (part : Part) (value : part.Value) : Format → Except SettingsError String
  | .json => .ok (Json.Value.ofSheet (part.sheet value)).writePretty
  | .toml =>
    match Toml.write? (part.sheet value) with
    | some text => .ok text
    | none => .error (.parse "TOML 직렬화 실패: ")

end Part

end Candlestick

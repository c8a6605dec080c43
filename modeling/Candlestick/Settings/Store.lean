import Candlestick.Files
import Candlestick.Settings.Text

namespace Candlestick

namespace Format

def ofPath? (path : String) : Option Format :=
  match Path.extension? path with
  | some "json" => some json
  | some "toml" => some toml
  | _ => none

def ofPath (path : String) : Except SettingsError Format :=
  match ofPath? path with
  | some format => .ok format
  | none => .error (.file ("파일 형식을 감지할 수 없음: " ++ path))

end Format

namespace Part

def loadFile (part : Part) (files : Files) (path : String) (format? : Option Format) :
    Except SettingsError part.Value := do
  let format ← format?.elim (Format.ofPath path) .ok
  match files.read path with
  | .error e => .error (.file ("파일 읽기 실패: " ++ e.message))
  | .ok text => part.load text (some format)

-- The text that is saved in a file: in TOML, if nothing tells the format.
def savedText (part : Part) (value : part.Value) (path : String) (format? : Option Format) :
    Except SettingsError String := do
  part.check value
  part.render value ((format? <|> Format.ofPath? path).getD .toml)

-- The result, and the files after it.
def save (part : Part) (value : part.Value) (files : Files) (path : String)
    (format? : Option Format) : Except SettingsError Unit × Files :=
  match part.savedText value path format? with
  | .error e => (.error e, files)
  | .ok text =>
    let (result, files) := files.write path text
    (result.mapError fun e => .file ("파일 쓰기 실패: " ++ e.message), files)

-- The files after a save that succeeds.
def saveFile (part : Part) (value : part.Value) (files : Files) (path : String)
    (format? : Option Format) : Except SettingsError Files :=
  let (result, files) := part.save value files path format?
  result.map fun _ => files

end Part

end Candlestick

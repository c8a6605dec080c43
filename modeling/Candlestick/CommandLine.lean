import Candlestick.Json.Records
import Candlestick.Runner
import Candlestick.Settings.Store
import Candlestick.Source.Archive

namespace Candlestick.CommandLine

structure Outcome where
  succeeded : Bool
  lines : List String
  deriving DecidableEq, Repr

namespace Outcome

def stdout (o : Outcome) : String := String.join (o.lines.map (· ++ "\n"))

def exitCode (o : Outcome) : Nat := if o.succeeded then 0 else 1

end Outcome

def supported : String := "지원되는 알고리즘: " ++ ", ".intercalate (Algorithm.all.map Algorithm.message)

def usage : List String :=
  ["사용법: run_analysis <알고리즘> <캔들_파일.json> [설정_파일_경로]", supported]

def readCandles (files : Files) (path : String) : Except String (List (Candle Float)) :=
  match files.read path with
  | .error e => .error ("캔들 파일 읽기 실패: " ++ path ++ " - " ++ e.message)
  | .ok text =>
    match (Json.read? text).bind Candle.listOfJson? with
    | some candles => .ok candles
    | none => .error ("캔들 파일 파싱 실패: " ++ path ++ " - ")

-- The standard settings, unless there is a file for them.
def readSettings (files : Files) : Option String → Except String Settings
  | none => .ok .standard
  | some path =>
    match Part.whole.loadFile files path none with
    | .ok settings => .ok settings
    | .error e => .error e.message

def levelList (levels : List Float) : String :=
  "[" ++ ", ".intercalate (levels.map Decimal.Style.listing.write) ++ "]"

-- A line for each candle; after a key-level analysis, the levels and the one nearest to the last
-- close.
def report (output : Output Float) : List String :=
  output.labelled.map (·.toRow.write) ++
    match output with
    | .candles _ => []
    | .keyLevels r =>
      let (levels, percentage) := r.nearest 100 1
      ["키 레벨: " ++ levelList r.levels,
        "마지막 종가와 가까운 레벨: " ++ levelList levels ++ " (" ++ Decimal.writeNat percentage ++ "%)"]

def ticker (path : String) : String := (Path.stem? path).getD "LOCAL"

-- The candles of a file stand in an archive of their own, under the name of the file.
def archive (path : String) (candles : List (Candle Float)) : Archive Float :=
  (Archive.empty "file").withSeries (ticker path) candles

-- They are asked for from the time of the first to that of the last.
def request (algorithm : Algorithm) (path : String) (first last : Candle Float) : Request :=
  .of (ticker path) first.time last.time .daily algorithm

-- A file without candles is not analysed.
def analyse (files : Files) (algorithm : Algorithm) (path : String) (settings : Settings) :
    Except String (List String) := do
  let candles ← readCandles files path
  match candles.head?, candles.getLast? with
  | some first, some last =>
    let result : Except AnalysisError (List String) := do
      let runner ← Runner.ofSettings settings (.feed (archive path candles).toFeed)
      return report (← (runner.run (request algorithm path first last) .fresh).1)
    result.mapError AnalysisError.message
  | _, _ => return []

-- The algorithm is looked at first, then the settings, and then the candles.
def perform (files : Files) (algorithm path : String) (settings? : Option String) :
    Except String (List String) := do
  let algorithm ← Algorithm.ofText algorithm
  let settings ← readSettings files settings?
  analyse files algorithm path settings

def holds (word : List Char) : List Char → Bool
  | [] => word.isEmpty
  | c :: rest => word.isPrefixOf (c :: rest) || holds word rest

-- What may help against a failure, as far as its text tells.
def hints (failure : String) : List String :=
  let mentions (word : String) := holds word.toList failure.toList
  if mentions "지원되지 않는 알고리즘" then [supported]
  else if mentions "파싱" then ["해결 방법: 파일 형식이 올바른지 확인하세요."]
  else if mentions "유효성 검사" || mentions "잘못된 파라미터" then
    ["해결 방법: 설정 값이 유효 범위 내에 있는지 확인하세요."]
  else []

-- Arguments after the third are not looked at.
def run (arguments : List String) (files : Files) : Outcome :=
  match arguments with
  | algorithm :: path :: rest =>
    match perform files algorithm path rest.head? with
    | .ok lines => ⟨true, lines⟩
    | .error failure => ⟨false, ("분석 실패: " ++ failure) :: hints failure⟩
  | _ => ⟨false, usage⟩

end Candlestick.CommandLine

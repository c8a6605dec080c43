namespace Candlestick

-- No candidate answers a request; the names of all candidates, in their order.
structure NoMatch where
  names : List String
  deriving DecidableEq, Repr

def NoMatch.message (e : NoMatch) : String :=
  "요청과 일치하는 핸들러가 없습니다. 등록된 후보: [" ++ ", ".intercalate e.names ++ "]"

-- Why prices could not be had.
inductive FetchError where
  | failed (reason : String)
  | noMatch (cause : NoMatch)
  deriving DecidableEq, Repr

def FetchError.message : FetchError → String
  | failed reason => reason
  | noMatch cause => cause.message

-- Why settings could not be loaded or saved.
inductive SettingsError where
  | file (reason : String)
  | parse (reason : String)
  | invalid (reason : String)
  deriving DecidableEq, Repr

def SettingsError.message : SettingsError → String
  | file reason => "설정 파일 오류: " ++ reason
  | parse reason => "설정 파싱 오류: " ++ reason
  | invalid reason => "설정 유효성 검사 오류: " ++ reason

inductive AnalysisError where
  | noMatch (cause : NoMatch)
  -- the shape that a caller declared, and the one that the result has
  | mismatch (declared actual : String)
  | cancelled (stage : String)
  | fetch (cause : FetchError)
  | parameters (reason : String)
  deriving DecidableEq, Repr

namespace AnalysisError

def message : AnalysisError → String
  | noMatch cause => cause.message
  | mismatch declared actual => "결과 형태 불일치: 선언=" ++ declared ++ ", 실제=" ++ actual
  | cancelled stage => "취소됨: " ++ stage
  | fetch cause => "가격 조회 실패: " ++ cause.message
  | parameters reason => "잘못된 파라미터: " ++ reason

def isCancelled : AnalysisError → Bool
  | cancelled _ => true
  | _ => false

-- The message of the error behind this one; only a fetch has one.
def source? : AnalysisError → Option String
  | fetch cause => some cause.message
  | _ => none

def ofSettings (e : SettingsError) : AnalysisError := parameters e.message

end AnalysisError

end Candlestick

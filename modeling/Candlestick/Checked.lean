import Candlestick.Error

namespace Candlestick

-- Parameters that can be wrong, and what is said of those that are.
class Checked (P : Type) where
  Valid : P → Prop
  refusal? : P → Option String
  refusal?_eq_none {p : P} : refusal? p = none ↔ Valid p

namespace Checked

variable {P A : Type} [Checked P]

def check (p : P) : Except SettingsError Unit :=
  match refusal? p with
  | none => .ok ()
  | some reason => .error (.invalid reason)

theorem check_eq_ok_iff {p : P} : check p = .ok () ↔ Valid p := by
  rw [check, ← refusal?_eq_none]
  cases refusal? p <;> simp

-- Parameters that are not valid make no analysis.
def build (p : P) (make : Valid p → A) : Except AnalysisError A :=
  match h : check p with
  | .ok () => .ok (make (check_eq_ok_iff.mp h))
  | .error cause => .error (.ofSettings cause)

end Checked

end Candlestick

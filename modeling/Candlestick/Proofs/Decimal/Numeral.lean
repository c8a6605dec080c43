import Candlestick.Decimal.Numeral
import Candlestick.Proofs.Decimal.Digits

namespace Candlestick.Decimal.Numeral

def signText (negative : Bool) : List Char := if negative then ['-'] else []

def fractionText (ds : List Digit) : List Char := if ds.isEmpty then [] else '.' :: chars ds

def exponentText (plus : Bool) : Option Int → List Char
  | none => []
  | some e => 'e' :: if 0 ≤ e ∧ plus then '+' :: intText e else intText e

theorem render_eq (plus : Bool) (n : Numeral) :
    n.render plus = signText n.negative ++
      (chars n.whole ++ (fractionText n.fraction ++ exponentText plus n.exponent)) := by
  rw [← List.append_assoc, ← List.append_assoc]
  rfl

theorem render_ofNat (plus : Bool) (n : Nat) : (ofNat n).render plus = natText n := by
  simp [render_eq, ofNat, signText, fractionText, exponentText, natText]

-- Neither a fraction nor an exponent begins with a digit.
theorem endsDigits_exponentText (plus : Bool) (e? : Option Int) {rest : List Char}
    (h : EndsDigits rest) : EndsDigits (exponentText plus e? ++ rest) := by
  cases e? with
  | none => exact h
  | some e => exact endsDigits_cons (by decide)

theorem endsDigits_fractionText (ds : List Digit) {rest : List Char} (h : EndsDigits rest) :
    EndsDigits (fractionText ds ++ rest) := by
  cases ds with
  | nil => exact h
  | cons d ds => exact endsDigits_cons (by decide)

-- What a numeral begins with.
def IsLead (c : Char) : Prop := c = '-' ∨ ∃ d : Digit, c = d.char

@[elab_as_elim]
theorem IsLead.elim {motive : Char → Prop} {c : Char} (h : IsLead c) (hminus : motive '-')
    (hdigit : ∀ d : Digit, motive d.char) : motive c := by
  rcases h with rfl | ⟨d, rfl⟩
  · exact hminus
  · exact hdigit d

theorem exists_render_eq_cons (plus : Bool) {n : Numeral} (h : IsWhole n.whole) :
    ∃ c rest, n.render plus = c :: rest ∧ IsLead c := by
  obtain ⟨d, ds, hd⟩ := List.exists_cons_of_ne_nil h.1
  rw [render_eq, hd]
  cases n.negative with
  | true => exact ⟨'-', _, rfl, .inl rfl⟩
  | false => exact ⟨d.char, _, rfl, .inr ⟨d, rfl⟩⟩

end Candlestick.Decimal.Numeral

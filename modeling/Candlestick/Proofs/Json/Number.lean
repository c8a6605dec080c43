import Candlestick.Json.Reader
import Candlestick.Proofs.Decimal.Numeral

namespace Candlestick.Json

open Decimal Numeral

-- No character that could belong to a number follows.
def EndsNumber (rest : List Char) : Prop :=
  ∀ c ∈ rest.head?, Digit.ofChar? c = none ∧ c ≠ '.' ∧ c ≠ 'e' ∧ c ≠ 'E'

theorem endsNumber_nil : EndsNumber [] := by simp [EndsNumber]

theorem EndsNumber.endsDigits {rest : List Char} (h : EndsNumber rest) : EndsDigits rest :=
  fun c hc => (h c hc).1

theorem readExponentDigits?_natText (negative : Bool) (n : Nat) {rest : List Char}
    (h : EndsDigits rest) :
    readExponentDigits? negative (natText n ++ rest) =
      some (some (if negative then -(n : Int) else n), rest) := by
  rw [readExponentDigits?, natText, takeDigits_chars_append _ h]
  simp [digits_ne_nil, ofDigits_digits]

theorem readExponent?_exponentText (e? : Option Int) {rest : List Char} (h : EndsNumber rest) :
    readExponent? (exponentText true e? ++ rest) = some (e?, rest) := by
  cases e? with
  | none =>
      cases rest with
      | nil => rfl
      | cons c rest =>
          obtain ⟨-, -, he, hE⟩ := h c rfl
          simp [exponentText, readExponent?, he, hE]
  | some e =>
      by_cases he : 0 ≤ e
      · have htext : exponentText true (some e) ++ rest =
            'e' :: '+' :: (natText e.natAbs ++ rest) := by
          simp [exponentText, he, intText, Int.not_lt.mpr he]
        rw [htext, readExponent?, if_pos (.inl rfl), readExponentDigits?_natText _ _ h.endsDigits]
        simp [Int.natAbs_of_nonneg he]
      · have htext : exponentText true (some e) ++ rest =
            'e' :: '-' :: (natText e.natAbs ++ rest) := by
          simp [exponentText, he, intText, Int.not_le.mp he]
        rw [htext, readExponent?, if_pos (.inl rfl), readExponentDigits?_natText _ _ h.endsDigits]
        have habs : -(e.natAbs : Int) = e := by omega
        simp only [if_true, habs]

theorem readFraction?_fractionText (ds : List Digit) {rest : List Char} (h : EndsDigits rest)
    (hdot : ∀ c ∈ rest.head?, c ≠ '.') :
    readFraction? (fractionText ds ++ rest) = some (ds, rest) := by
  cases ds with
  | nil =>
      cases rest with
      | nil => rfl
      | cons c rest =>
          have hc : c ≠ '.' := hdot c rfl
          simp [fractionText, readFraction?, hc]
  | cons d ds =>
      have htext : fractionText (d :: ds) ++ rest = '.' :: (chars (d :: ds) ++ rest) := rfl
      rw [htext, readFraction?, takeDigits_chars_append _ h]
      rfl

theorem readUnsigned?_append (negative : Bool) {whole : List Digit} (hwhole : IsWhole whole)
    (fraction : List Digit) (e? : Option Int) {rest : List Char} (h : EndsNumber rest) :
    readUnsigned? negative
      (chars whole ++ (fractionText fraction ++ (exponentText true e? ++ rest))) =
        some (⟨negative, whole, fraction, e?⟩, rest) := by
  have hexponent := endsDigits_exponentText true e? h.endsDigits
  have hdot : ∀ c ∈ (exponentText true e? ++ rest).head?, c ≠ '.' := by
    cases e? with
    | none => exact fun c hc => (h c hc).2.1
    | some e => simp [exponentText]
  have hlead : (whole.isEmpty || (whole.head? = some Digit.zero && 1 < whole.length)) = false := by
    obtain ⟨hne, hzero⟩ := hwhole
    by_cases hhead : whole.head? = some Digit.zero
    · simp [hne, hzero hhead]
    · simp [hne, hhead]
  rw [readUnsigned?, takeDigits_chars_append _ (endsDigits_fractionText _ hexponent)]
  simp only [hlead]
  simp [readFraction?_fractionText _ hexponent hdot, readExponent?_exponentText _ h]

theorem readNumber?_render {n : Numeral} (hn : IsWhole n.whole) {rest : List Char}
    (h : EndsNumber rest) : readNumber? (n.render true ++ rest) = some (n, rest) := by
  rw [render_eq]
  simp only [List.append_assoc]
  obtain ⟨negative, whole, fraction, e?⟩ := n
  have hunsigned := readUnsigned?_append negative hn fraction e? h
  cases negative with
  | true => exact hunsigned
  | false =>
      obtain ⟨d, ds, rfl⟩ := List.exists_cons_of_ne_nil hn.1
      have hminus : d.char ≠ '-' := d.char_ne (by decide)
      rw [← hunsigned]
      simp [signText, chars, readNumber?, hminus]

end Candlestick.Json

import Candlestick.Decimal.Digits
import Mathlib.Algebra.Order.Ring.Nat
import Mathlib.Tactic.Ring

namespace Candlestick.Decimal

-- Something that is no digit follows, or nothing.
def EndsDigits (rest : List Char) : Prop := ∀ c ∈ rest.head?, Digit.ofChar? c = none

theorem endsDigits_cons {c : Char} {rest : List Char} (h : Digit.ofChar? c = none) :
    EndsDigits (c :: rest) := by
  simpa [EndsDigits] using h

namespace Digit

theorem ofChar?_char (d : Digit) : ofChar? d.char = some d := by
  revert d
  decide

theorem char_ne (d : Digit) {c : Char} (h : ofChar? c = none) : d.char ≠ c := by
  rintro rfl
  rw [ofChar?_char] at h
  contradiction

end Digit

theorem takeDigits_chars_append (ds : List Digit) {rest : List Char} (h : EndsDigits rest) :
    takeDigits (chars ds ++ rest) = (ds, rest) := by
  induction ds with
  | nil =>
      cases rest with
      | nil => rfl
      | cons c rest =>
          have hc : Digit.ofChar? c = none := h c (by simp)
          simp [chars, takeDigits, hc]
  | cons d ds ih =>
      have hcons : chars (d :: ds) ++ rest = d.char :: (chars ds ++ rest) := rfl
      rw [hcons, takeDigits, Digit.ofChar?_char]
      simp only [ih]

-- The number that digits spell after others have spelled `n`.
private theorem foldl_eq (n : Nat) (ds : List Digit) :
    ds.foldl (fun n d => 10 * n + d.val) n = n * 10 ^ ds.length + ofDigits ds := by
  induction ds generalizing n with
  | nil => simp [ofDigits]
  | cons d ds ih =>
      have hrest : ofDigits (d :: ds) = (10 * 0 + d.val) * 10 ^ ds.length + ofDigits ds := ih _
      rw [List.foldl_cons, ih, hrest, List.length_cons]
      ring

theorem ofDigits_cons (d : Digit) (ds : List Digit) :
    ofDigits (d :: ds) = d.val * 10 ^ ds.length + ofDigits ds := by
  have h : ofDigits (d :: ds) = (10 * 0 + d.val) * 10 ^ ds.length + ofDigits ds := foldl_eq _ ds
  rw [h]
  ring

theorem ofDigits_append (xs ys : List Digit) :
    ofDigits (xs ++ ys) = ofDigits xs * 10 ^ ys.length + ofDigits ys := by
  rw [ofDigits, List.foldl_append]
  exact foldl_eq _ ys

@[simp] theorem ofDigits_replicate_zero (n : Nat) : ofDigits (List.replicate n Digit.zero) = 0 := by
  induction n with
  | zero => rfl
  | succ n ih => rw [List.replicate_succ, ofDigits_cons, ih]; simp [Digit.zero]

theorem ofDigits_lt (ds : List Digit) : ofDigits ds < 10 ^ ds.length := by
  induction ds with
  | nil => simp [ofDigits]
  | cons d ds ih =>
      have hd : d.val ≤ 9 := by omega
      have hle := Nat.mul_le_mul_right (10 ^ ds.length) hd
      rw [ofDigits_cons, List.length_cons, pow_succ]
      omega

theorem ofDigits_digits (n : Nat) : ofDigits (digits n) = n := by
  induction n using Nat.strongRecOn with
  | ind n ih =>
      rw [digits]
      split
      · simp [ofDigits]
      · rw [ofDigits_append, ih (n / 10) (by omega)]
        simp only [List.length_singleton, pow_one, ofDigits, List.foldl_cons, List.foldl_nil]
        omega

theorem digits_ne_nil (n : Nat) : digits n ≠ [] := by
  rw [digits]
  split <;> simp

theorem head?_digits_ne_zero {n : Nat} (h : n ≠ 0) : (digits n).head? ≠ some Digit.zero := by
  induction n using Nat.strongRecOn with
  | ind n ih =>
      rw [digits]
      split
      · simpa [Digit.zero] using h
      · have hhead := ih (n / 10) (by omega) (by omega)
        have hsome : (digits (n / 10)).head?.isSome := List.isSome_head?.mpr (digits_ne_nil _)
        rwa [List.head?_append, Option.or_of_isSome hsome]

theorem pow_length_digits_le {n : Nat} (h : n ≠ 0) : 10 ^ ((digits n).length - 1) ≤ n := by
  induction n using Nat.strongRecOn with
  | ind n ih =>
      rw [digits]
      split
      · simpa [Nat.one_le_iff_ne_zero] using h
      · have hpos := List.length_pos_iff.mpr (digits_ne_nil (n / 10))
        have hle := ih (n / 10) (by omega) (by omega)
        have hsucc : 10 ^ (digits (n / 10)).length = 10 ^ ((digits (n / 10)).length - 1) * 10 := by
          rw [← pow_succ, Nat.sub_add_cancel hpos]
        rw [List.length_append, List.length_singleton, Nat.add_sub_cancel, hsucc]
        omega

theorem lt_pow_length_digits (n : Nat) : n < 10 ^ (digits n).length := by
  have h := ofDigits_lt (digits n)
  rwa [ofDigits_digits] at h

theorem length_digits_le {width n : Nat} (hwidth : 0 < width) (h : n < 10 ^ width) :
    (digits n).length ≤ width := by
  by_cases hn : n = 0
  · subst hn
    have hone : (digits 0).length = 1 := by
      rw [digits]
      rfl
    omega
  · have hlt := Nat.lt_of_le_of_lt (pow_length_digits_le hn) h
    have hexponent := (Nat.pow_lt_pow_iff_right (by decide : 1 < 10)).mp hlt
    omega

@[simp] theorem length_lastDigits (width n : Nat) : (lastDigits width n).length = width := by
  induction width generalizing n with
  | zero => rfl
  | succ width ih => simp [lastDigits, ih]

theorem ofDigits_lastDigits {width n : Nat} (h : n < 10 ^ width) :
    ofDigits (lastDigits width n) = n := by
  induction width generalizing n with
  | zero =>
      have hzero : n = 0 := by simpa using h
      subst hzero
      rfl
  | succ width ih =>
      have hdiv : n / 10 < 10 ^ width := by
        rw [pow_succ] at h
        omega
      rw [lastDigits, ofDigits_append, ih hdiv]
      simp only [List.length_singleton, pow_one, ofDigits, List.foldl_cons, List.foldl_nil]
      omega

theorem ofDigits_padded (width n : Nat) : ofDigits (padded width n) = n := by
  rw [padded, ofDigits_append, ofDigits_replicate_zero, ofDigits_digits]
  simp

theorem padded_ne_nil (width n : Nat) : padded width n ≠ [] := by
  simp [padded, digits_ne_nil]

theorem length_padded_le {width n : Nat} (hwidth : 0 < width) (h : n < 10 ^ width) :
    (padded width n).length ≤ width := by
  have hle := length_digits_le hwidth h
  rw [padded, List.length_append, List.length_replicate]
  omega

-- Digits that may stand in front of a point: at least one, and no zero before another.
def IsWhole (ds : List Digit) : Prop := ds ≠ [] ∧ (ds.head? = some Digit.zero → ds.length = 1)

theorem isWhole_zero : IsWhole [Digit.zero] := ⟨by simp, fun _ => rfl⟩

theorem isWhole_of_head?_ne_zero {ds : List Digit} (hne : ds ≠ [])
    (h : ds.head? ≠ some Digit.zero) : IsWhole ds :=
  ⟨hne, fun hz => absurd hz h⟩

theorem isWhole_digits (n : Nat) : IsWhole (digits n) := by
  by_cases h : n = 0
  · subst h
    exact ⟨digits_ne_nil 0, fun _ => by rw [digits]; rfl⟩
  · exact isWhole_of_head?_ne_zero (digits_ne_nil n) (head?_digits_ne_zero h)

end Candlestick.Decimal

import Candlestick.Json.Quoted
import Mathlib.Tactic.Common

namespace Candlestick.Json.Quoted

open Candlestick.Text

-- A code point in front of what the reader makes of the rest.
def ahead (n : Nat) (r : Option (List Nat × List Char)) : Option (List Nat × List Char) :=
  r.map fun (points, rest) => (n :: points, rest)

theorem codePoints?_letter {x c : Char} (hx : x ≠ 'u') (h : unescape? x = some c) (t : List Char) :
    codePoints? ('\\' :: x :: t) = ahead c.toNat (codePoints? t) := by
  rw [codePoints?.eq_4 _ _ (by simp [hx]), h]
  cases codePoints? t <;> rfl

theorem codePoints?_hex {a b c d : Char} {n : Nat} (h : takeHex? 4 [a, b, c, d] = some (n, []))
    (t : List Char) :
    codePoints? ('\\' :: 'u' :: a :: b :: c :: d :: t) = ahead n (codePoints? t) := by
  rw [codePoints?, h]
  cases codePoints? t <;> rfl

theorem codePoints?_plain {c : Char} (hmark : c ≠ '"') (hslash : c ≠ '\\') (h : ¬ c.toNat < 32)
    (t : List Char) : codePoints? (c :: t) = ahead c.toNat (codePoints? t) := by
  rw [codePoints?.eq_5 _ _ hmark (by simp [hslash]) (by simp [hslash])]
  simp only [h, hslash]
  cases codePoints? t <;> rfl

-- Control characters are written as four hexadecimal digits.
theorem takeHex?_hexChars {n : Nat} (h : n < 32) : takeHex? 4 (hexChars 4 n) = some (n, []) := by
  have hall : ∀ m < 32, takeHex? 4 (hexChars 4 m) = some (m, []) := by decide
  exact hall n h

theorem codePoints?_escape_append (c : Char) (t : List Char) :
    codePoints? (escape c ++ t) = ahead c.toNat (codePoints? t) := by
  rw [escape]
  split_ifs with hmark hslash _ _ _ _ _ hcontrol
  case neg => exact codePoints?_plain hmark hslash hcontrol t
  rotate_right
  · exact codePoints?_hex (takeHex?_hexChars hcontrol) t
  -- the other characters have a letter each
  all_goals
    subst_vars
    exact codePoints?_letter (by decide) rfl t

theorem codePoints?_flatMap_escape (s rest : List Char) :
    codePoints? (s.flatMap escape ++ '"' :: rest) = some (s.map Char.toNat, rest) := by
  induction s with
  | nil => rw [List.flatMap_nil, List.nil_append, codePoints?, List.map_nil]
  | cons c s ih =>
      rw [List.flatMap_cons, List.append_assoc, codePoints?_escape_append, ih]
      rfl

-- No character is a half of a surrogate pair.
theorem pair?_map_toNat (s : List Char) : pair? (s.map Char.toNat) = some s := by
  induction s with
  | nil => rfl
  | cons c s ih =>
      have hvalid : c.toNat < 0xD800 ∨ 0xDFFF < c.toNat ∧ c.toNat < 0x110000 := c.valid
      have hhigh : ¬(0xD800 ≤ c.toNat ∧ c.toNat < 0xDC00) := by omega
      have hlow : ¬(0xDC00 ≤ c.toNat ∧ c.toNat < 0xE000) := by omega
      rw [List.map_cons, pair?.eq_def]
      simp only [hhigh, hlow, if_false, ih, Char.ofNat_toNat]
      rfl

theorem read?_flatMap_escape (s rest : List Char) :
    read? (s.flatMap escape ++ '"' :: rest) = some (some (String.ofList s), rest) := by
  rw [read?, codePoints?_flatMap_escape]
  simp [pair?_map_toNat]

end Candlestick.Json.Quoted

import Candlestick.Proofs.Decimal.Numeral
import Candlestick.Toml.Literal
import Mathlib.Data.List.TakeDrop

namespace Candlestick.Toml

-- A run of characters ends before the first that is of another kind.
theorem span_append {p : Char → Bool} {s rest : List Char} (hs : ∀ c ∈ s, p c = true)
    (hrest : ∀ c ∈ rest.head?, p c = false) : (s ++ rest).span p = (s, rest) := by
  rw [List.span_eq_takeWhile_dropWhile, List.takeWhile_append_of_pos hs,
    List.dropWhile_append_of_pos hs]
  cases rest with
  | nil => simp
  | cons c rest => simp [hrest c rfl]

namespace Literal

open Decimal Numeral

-- No digit and no underscore follows.
def EndsRun (rest : List Char) : Prop := ∀ c ∈ rest.head?, Digit.ofChar? c = none ∧ c ≠ '_'

theorem endsRun_nil : EndsRun [] := by simp [EndsRun]

theorem endsRun_cons {c : Char} {rest : List Char} (h : Digit.ofChar? c = none) (hc : c ≠ '_') :
    EndsRun (c :: rest) := by
  simpa [EndsRun] using ⟨h, hc⟩

theorem takeRun?_cons (d : Digit) {rest : List Char} (h : rest.head? ≠ some '_') :
    takeRun? Digit.ofChar? (d.char :: rest) =
      if rest.head?.any fun c => (Digit.ofChar? c).isSome then
        (takeRun? Digit.ofChar? rest).map fun (ds, rest) => (d :: ds, rest)
      else some ([d], rest) := by
  rw [takeRun?.eq_3 _ _ _ (by rintro t rfl; simp at h), Digit.ofChar?_char]
  cases takeRun? Digit.ofChar? rest <;> rfl

theorem takeRun?_chars_append {ds : List Digit} (hne : ds ≠ []) {rest : List Char}
    (h : EndsRun rest) : takeRun? Digit.ofChar? (chars ds ++ rest) = some (ds, rest) := by
  induction ds with
  | nil => contradiction
  | cons d ds ih =>
      have hcons : chars (d :: ds) ++ rest = d.char :: (chars ds ++ rest) := rfl
      rw [hcons]
      cases ds with
      | nil =>
          cases rest with
          | nil => rw [takeRun?_cons d (by simp [chars])]; simp [chars]
          | cons c rest =>
              obtain ⟨hdigit, hc⟩ := h c rfl
              rw [takeRun?_cons d (by simpa [chars] using hc)]
              simp [chars, hdigit]
      | cons e ds =>
          have hunderscore : e.char ≠ '_' := e.char_ne (by decide)
          rw [takeRun?_cons d (by simpa [chars] using hunderscore), ih (by simp)]
          simp [chars, Digit.ofChar?_char]

theorem takeWhole?_chars_append {ds : List Digit} (hds : IsWhole ds) {rest : List Char}
    (h : EndsRun rest) : takeWhole? (chars ds ++ rest) = some (ds, rest) := by
  obtain ⟨hne, hzero⟩ := hds
  rw [takeWhole?, takeRun?_chars_append hne h]
  by_cases hhead : ds.head? = some Digit.zero
  · simp [hzero hhead]
  · simp [hhead]

theorem takeSign_append (negative : Bool) {ds : List Digit} (hne : ds ≠ []) (rest : List Char) :
    takeSign (signText negative ++ (chars ds ++ rest)) = (negative, chars ds ++ rest) := by
  cases negative with
  | true => rfl
  | false =>
      obtain ⟨d, ds, rfl⟩ := List.exists_cons_of_ne_nil hne
      have hminus : d.char ≠ '-' := d.char_ne (by decide)
      have hplus : d.char ≠ '+' := d.char_ne (by decide)
      simp [signText, chars, takeSign, hminus, hplus]

-- The letters behind a zero that tell of another base.
def IsBaseLetter (c : Char) : Prop := c = 'x' ∨ c = 'o' ∨ c = 'b'

private theorem second_ne (negative : Bool) {ds : List Digit} (hne : ds ≠ []) {c : Char}
    (hc : Digit.ofChar? c = none) {rest : List Char} (hrest : rest.head? ≠ some c) :
    (signText negative ++ (chars ds ++ rest)).tail.head? ≠ some c := by
  obtain ⟨d, ds, rfl⟩ := List.exists_cons_of_ne_nil hne
  cases negative with
  | true => simpa [signText, chars] using d.char_ne hc
  | false =>
      cases ds with
      | nil => simpa [signText, chars] using hrest
      | cons e ds => simpa [signText, chars] using e.char_ne hc

theorem integer?_append (negative : Bool) {ds : List Digit} (hds : IsWhole ds) {rest : List Char}
    (h : EndsRun rest) (hbase : ∀ c, IsBaseLetter c → rest.head? ≠ some c) :
    integer? (signText negative ++ (chars ds ++ rest)) =
      if rest.isEmpty then bounded? (if negative then -(ofDigits ds : Int) else ofDigits ds)
      else none := by
  have hsecond : ∀ c, IsBaseLetter c →
      (signText negative ++ (chars ds ++ rest)).tail.head? ≠ some c := by
    intro c hc
    refine second_ne negative hds.1 ?_ (hbase c hc)
    rcases hc with rfl | rfl | rfl <;> rfl
  have hsign := takeSign_append negative hds.1 rest
  unfold integer?
  split
  · rename_i t ht
    simp [ht, IsBaseLetter] at hsecond
  · rename_i t ht
    simp [ht, IsBaseLetter] at hsecond
  · rename_i t ht
    simp [ht, IsBaseLetter] at hsecond
  · rw [hsign]
    simp [takeWhole?_chars_append hds h]

-- Numerals as they are written for counts and settings: without an exponent.
theorem render_of_exponent_eq_none {n : Numeral} (h : n.exponent = none) :
    n.render false = signText n.negative ++ (chars n.whole ++ fractionText n.fraction) := by
  rw [render_eq, h, exponentText, List.append_nil]

theorem endsRun_fractionText (ds : List Digit) : EndsRun (fractionText ds) := by
  cases ds with
  | nil => exact endsRun_nil
  | cons d ds => exact endsRun_cons (by decide) (by decide)

theorem head?_fractionText_ne (ds : List Digit) {c : Char} (h : c ≠ '.') :
    (fractionText ds).head? ≠ some c := by
  cases ds with
  | nil => simp [fractionText]
  | cons d ds => simpa [fractionText] using h.symm

theorem integer?_render {n : Numeral} (hwhole : IsWhole n.whole) (hexponent : n.exponent = none) :
    integer? (n.render false) =
      if n.fraction.isEmpty then
        bounded? (if n.negative then -(ofDigits n.whole : Int) else ofDigits n.whole)
      else none := by
  have hbase : ∀ c, IsBaseLetter c → (fractionText n.fraction).head? ≠ some c := by
    intro c hc
    apply head?_fractionText_ne
    rcases hc with rfl | rfl | rfl <;> decide
  rw [render_of_exponent_eq_none hexponent,
    integer?_append n.negative hwhole (endsRun_fractionText _) hbase]
  cases n.fraction <;> rfl

theorem decimal?_render {n : Numeral} (hwhole : IsWhole n.whole) (hfraction : n.fraction ≠ [])
    (hexponent : n.exponent = none) (hinf : n.toDouble.isInf = false) :
    decimal? (n.render false) = some n.toDouble := by
  obtain ⟨negative, whole, fraction, exponent⟩ := n
  obtain rfl : exponent = none := hexponent
  have htake : takeFraction? (fractionText fraction) = some (fraction, []) := by
    have htext : fractionText fraction = '.' :: (chars fraction ++ []) := by
      simpa [fractionText] using hfraction
    rw [htext, takeFraction?, takeRun?_chars_append hfraction endsRun_nil]
  rw [render_of_exponent_eq_none rfl, decimal?, takeSign_append negative hwhole.1]
  simp only [takeWhole?_chars_append hwhole (endsRun_fractionText fraction), Option.bind_eq_bind,
    Option.bind_some, htake, takeExponent?]
  have hpoint : isWhole ⟨negative, whole, fraction, none⟩ = false := by
    simpa [isWhole] using hfraction
  simp [hpoint, hinf]

-- Such numerals are made of digits, a point and a sign, and the sign stands in front.
structure IsNumeral (s : List Char) : Prop where
  mem : ∀ c ∈ s, c = '-' ∨ c = '.' ∨ ∃ d : Digit, c = d.char
  sign : '-' ∉ s.tail

theorem exists_of_mem_chars {ds : List Digit} {c : Char} (h : c ∈ chars ds) :
    ∃ d : Digit, c = d.char := by
  obtain ⟨d, -, rfl⟩ := List.mem_map.mp h
  exact ⟨d, rfl⟩

theorem point_or_digit_of_mem {whole fraction : List Digit} {c : Char}
    (h : c ∈ chars whole ++ fractionText fraction) : c = '.' ∨ ∃ d : Digit, c = d.char := by
  rcases List.mem_append.mp h with h | h
  · exact .inr (exists_of_mem_chars h)
  · rw [fractionText] at h
    split at h
    · contradiction
    · rcases List.mem_cons.mp h with rfl | h
      · exact .inl rfl
      · exact .inr (exists_of_mem_chars h)

theorem isNumeral_render {n : Numeral} (hexponent : n.exponent = none) :
    IsNumeral (n.render false) := by
  have hminus : '-' ∉ chars n.whole ++ fractionText n.fraction := by
    intro h
    obtain h | ⟨d, hd⟩ := point_or_digit_of_mem h
    · exact absurd h (by decide)
    · exact d.char_ne (by decide) hd.symm
  rw [render_of_exponent_eq_none hexponent]
  cases n.negative with
  | true =>
      refine ⟨?_, hminus⟩
      intro c hc
      rcases List.mem_cons.mp hc with rfl | hc
      · exact .inl rfl
      · exact .inr (point_or_digit_of_mem hc)
  | false =>
      exact ⟨fun c hc => .inr (point_or_digit_of_mem hc),
        fun h => hminus (List.mem_of_mem_tail h)⟩

theorem IsNumeral.not_mem {s : List Char} (h : IsNumeral s) {c : Char}
    (hc : Digit.ofChar? c = none) (hsign : c ≠ '-') (hpoint : c ≠ '.') : c ∉ s := by
  intro hmem
  obtain hs | hp | ⟨d, hd⟩ := h.mem c hmem
  · exact hsign hs
  · exact hpoint hp
  · exact d.char_ne hc hd.symm

theorem isDate_eq_false {s : List Char} (h : '-' ∉ s.tail) : isDate s = false := by
  unfold isDate
  split
  · rename_i year a b c d hyear hdrop
    have hmem : '-' ∈ s.drop 4 := by simp [hdrop]
    have htail : s.drop 4 = s.tail.drop 3 := by rw [List.drop_tail]
    exact absurd (List.mem_of_mem_drop (htail ▸ hmem)) h
  · rfl

theorem isClock_eq_false (zoned : Bool) {s : List Char} (h : ':' ∉ s) :
    isClock zoned s = false := by
  unfold isClock
  split
  · simp at h
  · rfl

theorem IsNumeral.isMoment_eq_false {s : List Char} (h : IsNumeral s) : isMoment s = false := by
  have hcolon : ':' ∉ s := h.not_mem (by decide) (by decide) (by decide)
  have htake : '-' ∉ (s.take 10).tail := by
    rw [List.tail_take_eq_take_tail]
    exact fun hmem => h.sign (List.mem_of_mem_take hmem)
  rw [isMoment, isDate_eq_false h.sign, isClock_eq_false false hcolon, isDate_eq_false htake]
  rfl

theorem IsNumeral.bool?_eq_none {s : List Char} (h : IsNumeral s) : bool? s = none := by
  have he : 'e' ∉ s := h.not_mem (by decide) (by decide) (by decide)
  have htrue : s ≠ "true".toList := fun hs => he (by simp [hs])
  have hfalse : s ≠ "false".toList := fun hs => he (by simp [hs])
  rw [bool?, if_neg htrue, if_neg hfalse]

theorem read?_of_isNumeral {s : List Char} (h : IsNumeral s) :
    read? s = (plain? s).map fun v => (v, []) := by
  have hword : ∀ c ∈ s, isWordChar c = true := by
    intro c hc
    obtain rfl | rfl | ⟨d, rfl⟩ := h.mem c hc
    · decide
    · decide
    · clear hc
      revert d
      decide
  have hspan : (s ++ []).span isWordChar = (s, []) := span_append hword (by simp)
  rw [List.append_nil] at hspan
  rw [read?, hspan]
  simp [isDate_eq_false h.sign, h.isMoment_eq_false]

theorem plain?_natText {n : Nat} (h : n < integerBound) :
    plain? (natText n) = some (.integer n) := by
  have hinteger : integer? ((Numeral.ofNat n).render false) = some (n : Int) := by
    have hbounded : bounded? (n : Int) = some (n : Int) := by
      rw [bounded?, if_pos]
      omega
    rw [integer?_render (isWhole_digits n) rfl]
    simpa [Numeral.ofNat, ofDigits_digits] using hbounded
  rw [plain?, ← render_ofNat false, (isNumeral_render rfl).bool?_eq_none, hinteger]
  rfl

theorem plain?_render {n : Numeral} (hwhole : IsWhole n.whole) (hfraction : n.fraction ≠ [])
    (hexponent : n.exponent = none) (hinf : n.toDouble.isInf = false) :
    plain? (n.render false) = some (.real n.toDouble) := by
  have hinteger : integer? (n.render false) = none := by
    rw [integer?_render hwhole hexponent]
    simp [hfraction]
  rw [plain?, (isNumeral_render hexponent).bool?_eq_none, hinteger,
    decimal?_render hwhole hfraction hexponent hinf]
  rfl

end Literal

end Candlestick.Toml

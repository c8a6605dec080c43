import Candlestick.Proofs.Json.Spelling

namespace Candlestick

namespace Decimal

theorem Digit.char_of_ofChar? {c : Char} {d : Digit} (h : ofChar? c = some d) : d.char = c := by
  rw [ofChar?] at h
  split at h
  · rename_i hc
    obtain rfl := Option.some.inj h
    have hnat : 48 + (c.toNat - 48) = c.toNat := by omega
    rw [char, hnat, Char.ofNat_toNat]
  · contradiction

theorem takeDigits_eq_iff {s : List Char} {ds : List Digit} {t : List Char} :
    takeDigits s = (ds, t) ↔ s = chars ds ++ t ∧ EndsDigits t := by
  constructor
  · intro h
    induction s generalizing ds with
    | nil =>
        obtain ⟨rfl, rfl⟩ := Prod.mk.inj h
        exact ⟨rfl, by simp [EndsDigits]⟩
    | cons c s ih =>
        rw [takeDigits] at h
        split at h
        · rename_i d hd
          obtain ⟨rfl, rfl⟩ := Prod.mk.inj h
          obtain ⟨hs, hends⟩ := ih rfl
          refine ⟨?_, hends⟩
          rw [← Digit.char_of_ofChar? hd]
          exact congrArg (d.char :: ·) hs
        · rename_i hc
          obtain ⟨rfl, rfl⟩ := Prod.mk.inj h
          exact ⟨rfl, endsDigits_cons hc⟩
  · rintro ⟨rfl, h⟩
    exact takeDigits_chars_append ds h

-- The end of what is left is that of what stands behind it.
theorem EndsDigits.append {t rest : List Char} (h : EndsDigits t)
    (hrest : t = [] → EndsDigits rest) : EndsDigits (t ++ rest) := by
  cases t with
  | nil => exact hrest rfl
  | cons c t => exact h

theorem takeDigits_append {s : List Char} {ds : List Digit} {t rest : List Char}
    (h : takeDigits s = (ds, t)) (hrest : t = [] → EndsDigits rest) :
    takeDigits (s ++ rest) = (ds, t ++ rest) := by
  obtain ⟨rfl, hends⟩ := takeDigits_eq_iff.mp h
  rw [List.append_assoc]
  exact takeDigits_chars_append ds (hends.append hrest)

end Decimal

namespace Json

open Decimal

section Numbers

variable {s t rest : List Char}

theorem readFraction?_append {ds : List Digit} (h : readFraction? s = some (ds, t))
    (hrest : t = [] → EndsNumber rest) : readFraction? (s ++ rest) = some (ds, t ++ rest) := by
  cases s with
  | nil =>
      obtain ⟨rfl, rfl⟩ := Prod.mk.inj (Option.some.inj h)
      exact readFraction?_fractionText [] (hrest rfl).endsDigits fun c hc => (hrest rfl c hc).2.1
  | cons c s =>
      by_cases hc : c = '.'
      · subst hc
        obtain ⟨ds', t', htake⟩ : ∃ ds t, takeDigits s = (ds, t) := ⟨_, _, rfl⟩
        simp only [readFraction?, htake, Option.ite_none_left_eq_some, Option.some.injEq,
          Prod.mk.injEq] at h
        obtain ⟨hne, rfl, rfl⟩ := h
        simp [readFraction?, takeDigits_append htake fun ht => (hrest ht).endsDigits, hne]
      · rw [List.cons_append]
        rw [readFraction?.eq_2 _ (by simp [hc])] at h ⊢
        obtain ⟨rfl, rfl⟩ := Prod.mk.inj (Option.some.inj h)
        rfl

theorem readExponentDigits?_append {negative : Bool} {e? : Option Int}
    (h : readExponentDigits? negative s = some (e?, t)) (hrest : t = [] → EndsNumber rest) :
    readExponentDigits? negative (s ++ rest) = some (e?, t ++ rest) := by
  obtain ⟨ds, t', htake⟩ : ∃ ds t, takeDigits s = (ds, t) := ⟨_, _, rfl⟩
  simp only [readExponentDigits?, htake, Option.ite_none_left_eq_some, Option.some.injEq,
    Prod.mk.injEq] at h
  obtain ⟨hne, rfl, rfl⟩ := h
  simp [readExponentDigits?, takeDigits_append htake fun ht => (hrest ht).endsDigits, hne]

theorem readExponent?_append {e? : Option Int} (h : readExponent? s = some (e?, t))
    (hrest : t = [] → EndsNumber rest) : readExponent? (s ++ rest) = some (e?, t ++ rest) := by
  cases s with
  | nil =>
      obtain ⟨rfl, rfl⟩ := Prod.mk.inj (Option.some.inj h)
      exact readExponent?_exponentText none (hrest rfl)
  | cons c s =>
      by_cases hc : c = 'e' ∨ c = 'E'
      · cases s with
        | nil => simp [readExponent?, hc, readExponentDigits?, takeDigits] at h
        | cons d s =>
            by_cases hminus : d = '-'
            · subst hminus
              simp only [readExponent?, if_pos hc, List.cons_append] at h ⊢
              exact readExponentDigits?_append h hrest
            by_cases hplus : d = '+'
            · subst hplus
              simp only [readExponent?, if_pos hc, List.cons_append] at h ⊢
              exact readExponentDigits?_append h hrest
            · rw [readExponent?.eq_3 _ _ (by simp [hminus]) (by simp [hplus]), if_pos hc] at h
              rw [List.cons_append, List.cons_append,
                readExponent?.eq_3 _ _ (by simp [hminus]) (by simp [hplus]), if_pos hc]
              exact readExponentDigits?_append h hrest
      · have hnone (r : List Char) : readExponent? (c :: r) = some (none, c :: r) := by
          unfold readExponent?
          simp [hc]
        rw [hnone] at h
        obtain ⟨rfl, rfl⟩ := Prod.mk.inj (Option.some.inj h)
        exact hnone _

theorem isWhole_iff {whole : List Digit} : IsWhole whole ↔
    (whole.isEmpty || (whole.head? = some Digit.zero && 1 < whole.length)) = false := by
  cases whole with
  | nil => simp [IsWhole]
  | cons d ds => simp [IsWhole, Nat.pos_iff_ne_zero]

theorem readUnsigned?_eq_some_iff {negative : Bool} {n : Numeral} :
    readUnsigned? negative s = some (n, t) ↔ ∃ whole t₁ fraction t₂ e?,
      takeDigits s = (whole, t₁) ∧ IsWhole whole ∧ readFraction? t₁ = some (fraction, t₂) ∧
        readExponent? t₂ = some (e?, t) ∧ n = ⟨negative, whole, fraction, e?⟩ := by
  obtain ⟨whole, t₁, hwhole⟩ : ∃ ds t, takeDigits s = (ds, t) := ⟨_, _, rfl⟩
  have hread : readUnsigned? negative s =
      if whole.isEmpty || (whole.head? = some Digit.zero && 1 < whole.length) then none
      else (readFraction? t₁).bind fun p => (readExponent? p.2).bind fun q =>
        some (⟨negative, whole, p.1, q.1⟩, q.2) := by
    rw [readUnsigned?, hwhole]
    simp only
    split <;> rfl
  rw [hread, Option.ite_none_left_eq_some, Bool.not_eq_true, ← isWhole_iff]
  constructor
  · simp only [Option.bind_eq_some_iff, Option.some.injEq, Prod.mk.injEq, Prod.exists]
    rintro ⟨hlead, fraction, t₂, hfraction, e?, _, hexponent, rfl, rfl⟩
    exact ⟨whole, t₁, fraction, t₂, e?, hwhole, hlead, hfraction, hexponent, rfl⟩
  · rintro ⟨_, _, fraction, t₂, e?, htake, hlead, hfraction, hexponent, rfl⟩
    obtain ⟨rfl, rfl⟩ := Prod.mk.inj (hwhole.symm.trans htake)
    simp [hlead, hfraction, hexponent]

theorem readUnsigned?_append_of {negative : Bool} {n : Numeral}
    (h : readUnsigned? negative s = some (n, t)) (hrest : t = [] → EndsNumber rest) :
    readUnsigned? negative (s ++ rest) = some (n, t ++ rest) := by
  obtain ⟨whole, t₁, fraction, t₂, e?, hwhole, hlead, hfraction, hexponent, rfl⟩ :=
    readUnsigned?_eq_some_iff.mp h
  have hsecond : t₂ = [] → EndsNumber rest := by
    rintro rfl
    obtain ⟨rfl, rfl⟩ := Prod.mk.inj (Option.some.inj hexponent)
    exact hrest rfl
  have hfirst : t₁ = [] → EndsNumber rest := by
    rintro rfl
    obtain ⟨rfl, rfl⟩ := Prod.mk.inj (Option.some.inj hfraction)
    exact hsecond rfl
  exact readUnsigned?_eq_some_iff.mpr ⟨whole, _, fraction, _, e?,
    takeDigits_append hwhole fun ht => (hfirst ht).endsDigits, hlead,
    readFraction?_append hfraction hsecond, readExponent?_append hexponent hrest, rfl⟩

theorem readNumber?_append {n : Numeral} (h : readNumber? s = some (n, t))
    (hrest : t = [] → EndsNumber rest) : readNumber? (s ++ rest) = some (n, t ++ rest) := by
  cases s with
  | nil => simp [readNumber?, readUnsigned?, takeDigits] at h
  | cons c s =>
      by_cases hminus : c = '-'
      · subst hminus
        exact readUnsigned?_append_of h hrest
      · rw [readNumber?.eq_2 _ (by simp [hminus])] at h
        rw [readNumber?.eq_2 _ (by simp [hminus])]
        exact readUnsigned?_append_of h hrest

theorem isLead_of_readNumber? {n : Numeral} (h : readNumber? s = some (n, t)) :
    ∃ c r, s = c :: r ∧ Numeral.IsLead c := by
  cases s with
  | nil => simp [readNumber?, readUnsigned?, takeDigits] at h
  | cons c s =>
      refine ⟨c, s, rfl, ?_⟩
      by_cases hminus : c = '-'
      · exact .inl hminus
      · rw [readNumber?.eq_2 _ (by simp [hminus])] at h
        obtain ⟨whole, t₁, -, -, -, hwhole, hlead, -⟩ := readUnsigned?_eq_some_iff.mp h
        obtain ⟨hs, -⟩ := takeDigits_eq_iff.mp hwhole
        cases whole with
        | nil => exact absurd rfl hlead.1
        | cons d ds => exact .inr ⟨d, (List.cons.inj hs).1⟩

end Numbers

section Texts

open Quoted

variable {s t rest : List Char}

theorem codePoints?_append {points : List Nat} (h : codePoints? s = some (points, t)) :
    codePoints? (s ++ rest) = some (points, t ++ rest) := by
  fun_induction codePoints? s generalizing points t with
  | case1 => contradiction
  | case2 r =>
      obtain ⟨rfl, rfl⟩ := Prod.mk.inj (Option.some.inj h)
      rw [List.cons_append, codePoints?]
  | case3 a b c d r ih =>
      simp only [Option.bind_eq_bind, Option.bind_eq_some_iff, Option.pure_def, Option.some.injEq,
        Prod.exists, Prod.mk.injEq] at h
      obtain ⟨n, _, hhex, points', t', hr, rfl, rfl⟩ := h
      simp [codePoints?, hhex, ih hr]
  | case4 c r hne ih =>
      simp only [Option.bind_eq_bind, Option.bind_eq_some_iff, Option.pure_def, Option.some.injEq,
        Prod.exists, Prod.mk.injEq] at h
      obtain ⟨d, hletter, points', t', hr, rfl, rfl⟩ := h
      have hu : c ≠ 'u' := by
        rintro rfl
        simp [unescape?] at hletter
      rw [List.cons_append, List.cons_append, codePoints?_letter hu hletter, ih hr]
      rfl
  | case5 => simp at h
  | case6 c r hmark hhex hslash jp hplain =>
      rename_i ih
      simp only [jp, Option.bind_eq_bind, Option.bind_eq_some_iff, Option.pure_def,
        Option.some.injEq, Prod.exists, Prod.mk.injEq] at h
      obtain ⟨points', t', hr, rfl, rfl⟩ := h
      simp only [Bool.or_eq_true, decide_eq_true_eq, not_or] at hplain
      rw [List.cons_append, codePoints?_plain hmark hplain.2 hplain.1, ih hr]
      rfl

theorem quoted_read?_append {text : Text} (h : Quoted.read? s = some (text, t)) :
    Quoted.read? (s ++ rest) = some (text, t ++ rest) := by
  simp only [Quoted.read?, Option.bind_eq_bind, Option.bind_eq_some_iff, Option.pure_def,
    Option.some.injEq, Prod.exists, Prod.mk.injEq] at h
  obtain ⟨points, t', hpoints, rfl, rfl⟩ := h
  simp [Quoted.read?, codePoints?_append hpoints]

end Texts

-- The blanks in front of what follows them are the same with more behind.
theorem skipBlanks_append_of_eq_cons {s : List Char} {c : Char} {r : List Char}
    (h : skipBlanks s = c :: r) (rest : List Char) : skipBlanks (s ++ rest) = c :: (r ++ rest) := by
  have hne : (s.dropWhile isBlank).isEmpty = false := by
    rw [skipBlanks] at h
    rw [h]
    rfl
  rw [skipBlanks, List.dropWhile_append, hne]
  rw [skipBlanks] at h
  rw [h]
  rfl

-- Something stands behind a value in an array or an object.
theorem ends_of_skipBlanks {t : List Char} {c : Char} {r rest : List Char}
    (h : skipBlanks t = c :: r) : t = [] → EndsNumber rest := by
  rintro rfl
  simp [skipBlanks] at h

theorem readValue?_append_of_eq_cons {s : List Char} {c : Char} {r : List Char}
    (h : skipBlanks s = c :: r) (fuel : Nat) (rest : List Char) :
    readValue? fuel (s ++ rest) = readValue? fuel (c :: (r ++ rest)) := by
  rw [← readValue?_skipBlanks, skipBlanks_append_of_eq_cons h]

theorem readItems?_nil (fuel : Nat) : readItems? fuel [] = none := by
  rcases fuel with _ | _ | fuel <;> rfl

theorem readMembers?_nil (fuel : Nat) : readMembers? fuel [] = none := by
  cases fuel <;> rfl

-- Items do not begin with the mark that closes them, and nor do members, whatever stands behind.
theorem head?_skipBlanks_append {s : List Char} {close : Char} (hne : skipBlanks s ≠ [])
    (h : (skipBlanks s).head? ≠ some close) (rest : List Char) :
    (skipBlanks (s ++ rest)).head? ≠ some close := by
  obtain ⟨c, r, hc⟩ := List.exists_cons_of_ne_nil hne
  rw [skipBlanks_append_of_eq_cons hc]
  rwa [hc] at h

section Nested

variable {fuel : Nat} {s r t : List Char}

-- What is read inside brackets: nothing, or the items up to the closing one.
theorem readValue?_array_iff {v : Value} (hs : skipBlanks s = '[' :: r) :
    readValue? (fuel + 1) s = some (v, t) ↔
      (skipBlanks r = ']' :: t ∧ v = .array []) ∨
        ((skipBlanks r).head? ≠ some ']' ∧
          ∃ items, readItems? fuel r = some (items, t) ∧ v = .array items) := by
  rw [readValue?, hs, ← readItems?_skipBlanks]
  simp only
  rcases skipBlanks r with _ | ⟨c, r⟩
  · simp [readItems?_nil]
  by_cases hc : c = ']'
  · simp [hc, eq_comm (a := v), and_comm]
  · simp [hc, eq_comm (a := v)]

theorem readValue?_object_iff {v : Value} (hs : skipBlanks s = '{' :: r) :
    readValue? (fuel + 1) s = some (v, t) ↔
      (skipBlanks r = '}' :: t ∧ v = .object []) ∨
        ((skipBlanks r).head? ≠ some '}' ∧
          ∃ members, readMembers? fuel r = some (members, t) ∧ v = .object members) := by
  rw [readValue?, hs, ← readMembers?_skipBlanks]
  simp only
  rcases skipBlanks r with _ | ⟨c, r⟩
  · simp [readMembers?_nil]
  by_cases hc : c = '}'
  · simp [hc, eq_comm (a := v), and_comm]
  · simp [hc, eq_comm (a := v)]

theorem readItems?_iff {items : List Value} :
    readItems? (fuel + 1) s = some (items, t) ↔
      ∃ item after, readValue? fuel s = some (item, after) ∧
        ((skipBlanks after = ']' :: t ∧ items = [item]) ∨
          ∃ r items', skipBlanks after = ',' :: r ∧ readItems? fuel r = some (items', t) ∧
            items = item :: items') := by
  simp only [readItems?, Option.bind_eq_bind, Option.bind_eq_some_iff, Prod.exists]
  refine exists_congr fun item => exists_congr fun after => and_congr_right fun _ => ?_
  rcases skipBlanks after with _ | ⟨c, r⟩
  · simp
  by_cases hclose : c = ']'
  · simp [hclose, eq_comm (a := items), and_comm]
  by_cases hcomma : c = ','
  · simp [hcomma, Option.bind_eq_some_iff, eq_comm (a := items)]
  · simp [hclose, hcomma]

theorem readMembers?_iff {members : List (Text × Value)} :
    readMembers? (fuel + 1) s = some (members, t) ↔
      ∃ r, skipBlanks s = '"' :: r ∧ ∃ name gap, Quoted.read? r = some (name, gap) ∧
        ∃ r₁, skipBlanks gap = ':' :: r₁ ∧ ∃ value after, readValue? fuel r₁ = some (value, after) ∧
          ((skipBlanks after = '}' :: t ∧ members = [(name, value)]) ∨
            ∃ r₂ members', skipBlanks after = ',' :: r₂ ∧
              readMembers? fuel r₂ = some (members', t) ∧ members = (name, value) :: members') := by
  rw [readMembers?]
  rcases skipBlanks s with _ | ⟨c, r⟩
  · simp
  by_cases hmark : c = '"'
  · subst hmark
    simp only [Option.bind_eq_bind, Option.bind_eq_some_iff, Prod.exists, List.cons.injEq, true_and,
      exists_eq_left']
    refine exists_congr fun name => exists_congr fun gap => and_congr_right fun _ => ?_
    rcases skipBlanks gap with _ | ⟨c, r₁⟩
    · simp
    by_cases hcolon : c = ':'
    · subst hcolon
      simp only [Option.bind_eq_some_iff, Prod.exists, List.cons.injEq, true_and, exists_eq_left']
      refine exists_congr fun value => exists_congr fun after => and_congr_right fun _ => ?_
      rcases skipBlanks after with _ | ⟨c, r₂⟩
      · simp
      by_cases hclose : c = '}'
      · simp [hclose, eq_comm (a := members), and_comm]
      by_cases hcomma : c = ','
      · simp [hcomma, Option.bind_eq_some_iff, eq_comm (a := members)]
      · simp [hclose, hcomma]
    · simp [hcolon]
  · simp [hmark]

end Nested

-- By recursion on the fuel, as the reader goes. Only a number needs to know what stands behind it.
mutual

theorem readValue?_append : (fuel : Nat) → {s : List Char} → {v : Value} → {t : List Char} →
    readValue? fuel s = some (v, t) → (rest : List Char) → (t = [] → EndsNumber rest) →
      {more : Nat} → fuel ≤ more → readValue? more (s ++ rest) = some (v, t ++ rest)
  | 0, _, _, _, h, _, _, _, _ => nomatch h
  | fuel + 1, s, v, t, h, rest, hrest, more + 1, hmore => by
      have hfuel : fuel ≤ more := Nat.le_of_succ_le_succ hmore
      have hvalue := h
      rw [readValue?] at h
      split at h
      case h_1 r heq | h_2 r heq | h_3 r heq =>
        obtain ⟨rfl, rfl⟩ := Prod.mk.inj (Option.some.inj h)
        rw [readValue?_append_of_eq_cons heq]
        rfl
      case h_4 r heq =>
        obtain ⟨⟨text, t'⟩, htext, he⟩ := Option.map_eq_some_iff.mp h
        obtain ⟨rfl, rfl⟩ := Prod.mk.inj he
        rw [readValue?, skipBlanks_append_of_eq_cons heq]
        simp only [quoted_read?_append htext]
        rfl
      case h_5 r heq =>
        rw [readValue?_array_iff (skipBlanks_append_of_eq_cons heq rest)]
        obtain ⟨hclose, rfl⟩ | ⟨hhead, items, hitems, rfl⟩ := (readValue?_array_iff heq).mp hvalue
        · exact .inl ⟨skipBlanks_append_of_eq_cons hclose rest, rfl⟩
        · have hne : skipBlanks r ≠ [] := by
            intro hnil
            rw [← readItems?_skipBlanks, hnil, readItems?_nil] at hitems
            contradiction
          exact .inr ⟨head?_skipBlanks_append hne hhead rest, items,
            readItems?_append fuel hitems rest hfuel, rfl⟩
      case h_6 r heq =>
        rw [readValue?_object_iff (skipBlanks_append_of_eq_cons heq rest)]
        obtain ⟨hclose, rfl⟩ | ⟨hhead, members, hmembers, rfl⟩ :=
          (readValue?_object_iff heq).mp hvalue
        · exact .inl ⟨skipBlanks_append_of_eq_cons hclose rest, rfl⟩
        · have hne : skipBlanks r ≠ [] := by
            intro hnil
            rw [← readMembers?_skipBlanks, hnil, readMembers?_nil] at hmembers
            contradiction
          exact .inr ⟨head?_skipBlanks_append hne hhead rest, members,
            readMembers?_append fuel hmembers rest hfuel, rfl⟩
      case h_7 =>
        obtain ⟨⟨n, t'⟩, hn, he⟩ := Option.map_eq_some_iff.mp h
        obtain ⟨rfl, rfl⟩ := Prod.mk.inj he
        obtain ⟨c, r, hc, hlead⟩ := isLead_of_readNumber? hn
        rw [readValue?_append_of_eq_cons hc, readValue?_number more hlead, ← List.cons_append, ← hc,
          readNumber?_append hn hrest]
        rfl

theorem readItems?_append : (fuel : Nat) → {s : List Char} → {items : List Value} →
    {t : List Char} → readItems? fuel s = some (items, t) → (rest : List Char) →
      {more : Nat} → fuel ≤ more → readItems? more (s ++ rest) = some (items, t ++ rest)
  | 0, _, _, _, h, _, _, _ => nomatch h
  | fuel + 1, s, items, t, h, rest, more + 1, hmore => by
      have hfuel : fuel ≤ more := Nat.le_of_succ_le_succ hmore
      obtain ⟨item, after, hitem, h⟩ := readItems?_iff.mp h
      have hread {c : Char} {r : List Char} (heq : skipBlanks after = c :: r) :
          readValue? more (s ++ rest) = some (item, after ++ rest) :=
        readValue?_append fuel hitem rest (ends_of_skipBlanks heq) hfuel
      rw [readItems?_iff]
      obtain ⟨heq, rfl⟩ | ⟨r, items', heq, hitems, rfl⟩ := h
      · exact ⟨item, _, hread heq, .inl ⟨skipBlanks_append_of_eq_cons heq rest, rfl⟩⟩
      · have hmoreItems := readItems?_append fuel hitems rest hfuel
        exact ⟨item, _, hread heq,
          .inr ⟨_, items', skipBlanks_append_of_eq_cons heq rest, hmoreItems, rfl⟩⟩

theorem readMembers?_append : (fuel : Nat) → {s : List Char} → {members : List (Text × Value)} →
    {t : List Char} → readMembers? fuel s = some (members, t) → (rest : List Char) →
      {more : Nat} → fuel ≤ more → readMembers? more (s ++ rest) = some (members, t ++ rest)
  | 0, _, _, _, h, _, _, _ => nomatch h
  | fuel + 1, s, members, t, h, rest, more + 1, hmore => by
      have hfuel : fuel ≤ more := Nat.le_of_succ_le_succ hmore
      obtain ⟨r, hmark, name, gap, hname, r₁, hcolon, value, after, hvalue, h⟩ :=
        readMembers?_iff.mp h
      have hread {c : Char} {r : List Char} (heq : skipBlanks after = c :: r) :
          readValue? more (r₁ ++ rest) = some (value, after ++ rest) :=
        readValue?_append fuel hvalue rest (ends_of_skipBlanks heq) hfuel
      rw [readMembers?_iff]
      refine ⟨_, skipBlanks_append_of_eq_cons hmark rest, name, _, quoted_read?_append hname, _,
        skipBlanks_append_of_eq_cons hcolon rest, ?_⟩
      obtain ⟨heq, rfl⟩ | ⟨r₂, members', heq, hmembers, rfl⟩ := h
      · exact ⟨value, _, hread heq, .inl ⟨skipBlanks_append_of_eq_cons heq rest, rfl⟩⟩
      · have hmoreMembers := readMembers?_append fuel hmembers rest hfuel
        exact ⟨value, _, hread heq,
          .inr ⟨_, members', skipBlanks_append_of_eq_cons heq rest, hmoreMembers, rfl⟩⟩

end

end Json

end Candlestick

import Candlestick.Proofs.Toml.Quoted
import Candlestick.Proofs.Toml.Value

namespace Candlestick.Toml

open Quoted

variable {s t rest : List Char}

theorem span_eq_iff {p : Char → Bool} {word : List Char} :
    s.span p = (word, t) ↔
      s = word ++ t ∧ (∀ c ∈ word, p c = true) ∧ ∀ c ∈ t.head?, p c = false := by
  constructor
  · intro h
    rw [List.span_eq_takeWhile_dropWhile, Prod.mk.injEq] at h
    obtain ⟨rfl, rfl⟩ := h
    refine ⟨List.takeWhile_append_dropWhile.symm, List.all_eq_true.mp List.all_takeWhile, ?_⟩
    intro c hc
    have hnot := List.head?_dropWhile_not p s
    rw [hc] at hnot
    simpa using hnot
  · rintro ⟨rfl, hword, ht⟩
    exact span_append hword ht

theorem span_append_of {p : Char → Bool} {word : List Char} (h : s.span p = (word, t))
    (hends : ∀ c ∈ (t ++ rest).head?, p c = false) :
    (s ++ rest).span p = (word, t ++ rest) := by
  obtain ⟨rfl, hword, -⟩ := span_eq_iff.mp h
  rw [List.append_assoc]
  exact span_append hword hends

theorem skipBlanks_append_of_ne_nil (h : skipBlanks s ≠ []) (rest : List Char) :
    skipBlanks (s ++ rest) = skipBlanks s ++ rest := by
  have hne : (s.dropWhile isBlank).isEmpty = false := List.isEmpty_eq_false_iff.mpr h
  rw [skipBlanks, List.dropWhile_append, hne]
  rfl

section Ends

-- What continues no word and no text between marks, and is not the time of a date.
structure Ends (rest : List Char) : Prop where
  word : ∀ c ∈ rest.head?, Literal.isWordChar c = false
  mark : ∀ c ∈ rest.head?, c ≠ '"' ∧ c ≠ '\x27'
  clock : Literal.startsClock rest = false

-- The characters that stand behind a value and the blanks behind it.
def IsStop (c : Char) : Prop :=
  c = '#' ∨ c = '\n' ∨ c = '\r' ∨ c = ',' ∨ c = ']' ∨ c = '\x7d'

theorem IsStop.ends {c : Char} (h : IsStop c) :
    Literal.isWordChar c = false ∧ (c ≠ '"' ∧ c ≠ '\x27') ∧ Decimal.isDigit c = false := by
  rcases h with rfl | rfl | rfl | rfl | rfl | rfl <;> decide

theorem exists_of_startsClock (h : Literal.startsClock s = true) :
    ∃ a b t, s = ' ' :: a :: b :: ':' :: t ∧ Decimal.isDigit a = true ∧
      Decimal.isDigit b = true := by
  unfold Literal.startsClock at h
  split at h
  · rename_i a b t
    obtain ⟨ha, hb⟩ := Bool.and_eq_true_iff.mp h
    exact ⟨a, b, t, rfl, ha, hb⟩
  · contradiction

theorem isBlank_iff {c : Char} : isBlank c = true ↔ c = ' ' ∨ c = '\t' := by
  simp [isBlank]

theorem ends_of_skipBlanks (h : ∀ c ∈ (skipBlanks s).head?, IsStop c) : Ends s := by
  have hhead : ∀ c ∈ s.head?, isBlank c = true ∨ IsStop c := by
    intro c hc
    obtain ⟨t, rfl⟩ := List.head?_eq_some_iff.mp hc
    cases hblank : isBlank c with
    | true => exact .inl rfl
    | false =>
        rw [skipBlanks_cons hblank] at h
        exact .inr (h c rfl)
  refine ⟨fun c hc => ?_, fun c hc => ?_, ?_⟩
  · rcases hhead c hc with hblank | hstop
    · rcases isBlank_iff.mp hblank with rfl | rfl <;> decide
    · exact hstop.ends.1
  · rcases hhead c hc with hblank | hstop
    · rcases isBlank_iff.mp hblank with rfl | rfl <;> decide
    · exact hstop.ends.2.1
  · rw [← Bool.not_eq_true]
    intro hclock
    obtain ⟨a, b, t, rfl, ha, -⟩ := exists_of_startsClock hclock
    have hblank : isBlank a = false := by
      rw [← Bool.not_eq_true]
      rintro hblank
      rcases isBlank_iff.mp hblank with rfl | rfl <;> exact absurd ha (by decide)
    have hskip : skipBlanks (' ' :: a :: b :: ':' :: t) = a :: b :: ':' :: t :=
      skipBlanks_cons hblank _
    have hstop : IsStop a := h a (by rw [hskip]; rfl)
    exact Bool.false_ne_true (hstop.ends.2.2.symm.trans ha)

end Ends

namespace Literal

theorem startsClock_append (h : startsClock s = true) (rest : List Char) :
    startsClock (s ++ rest) = true := by
  obtain ⟨a, b, t, rfl, ha, hb⟩ := exists_of_startsClock h
  simp [startsClock, ha, hb]

theorem read?_of_span {word : List Char} (h : s.span isWordChar = (word, t)) :
    read? s =
      if isDate word && startsClock t then
        if isClock true ((t.drop 1).span isWordChar).1 then
          some (.moment, ((t.drop 1).span isWordChar).2)
        else none
      else if isMoment word then some (.moment, t)
      else (plain? word).map fun v => (v, t) := by
  rw [read?, h]

-- A word goes to its end, and after a date a time may follow.
theorem read?_append_of {v : Value} (h : read? s = some (v, t)) (hends : Ends (t ++ rest)) :
    read? (s ++ rest) = some (v, t ++ rest) := by
  obtain ⟨word, after, hspan⟩ : ∃ word after, s.span isWordChar = (word, after) := ⟨_, _, rfl⟩
  rw [read?_of_span hspan] at h
  split at h
  · rename_i hclock
    obtain ⟨hdate, hstarts⟩ := Bool.and_eq_true_iff.mp hclock
    obtain ⟨a, b, u, rfl, -⟩ := exists_of_startsClock hstarts
    obtain ⟨clock, behind, htime⟩ :
        ∃ clock behind, (a :: b :: ':' :: u).span isWordChar = (clock, behind) := ⟨_, _, rfl⟩
    rw [List.drop_one, List.tail_cons, htime] at h
    obtain ⟨hisClock, he⟩ := Option.ite_none_right_eq_some.mp h
    obtain ⟨rfl, rfl⟩ := Prod.mk.inj (Option.some.inj he)
    have hword : (s ++ rest).span isWordChar = (word, ' ' :: (a :: b :: ':' :: u ++ rest)) :=
      span_append_of hspan (by simp [show isWordChar ' ' = false by decide])
    have hstarts' : startsClock (' ' :: (a :: b :: ':' :: u ++ rest)) = true :=
      startsClock_append hstarts rest
    rw [read?_of_span hword, hdate, hstarts', List.drop_one, List.tail_cons,
      span_append_of htime hends.word]
    exact if_pos hisClock
  · have ht : after = t := by
      split at h
      · exact (Prod.mk.inj (Option.some.inj h)).2
      · obtain ⟨_, -, hv⟩ := Option.map_eq_some_iff.mp h
        exact (Prod.mk.inj hv).2
    subst ht
    rw [read?_of_span (span_append_of hspan hends.word), hends.clock, Bool.and_false]
    rw [if_neg Bool.false_ne_true]
    split at h
    · rename_i hmoment
      obtain ⟨rfl, -⟩ := Prod.mk.inj (Option.some.inj h)
      rw [if_pos hmoment]
    · rename_i hmoment
      obtain ⟨_, hv, he⟩ := Option.map_eq_some_iff.mp h
      obtain ⟨rfl, -⟩ := Prod.mk.inj he
      rw [if_neg hmoment, hv]
      rfl

theorem read?_of_not_word {c : Char} (hc : isWordChar c = false) (s : List Char) :
    read? (c :: s) = none := by
  have hspan : (c :: s).span isWordChar = ([], c :: s) := by
    rw [span_eq_iff]
    simp [hc]
  rw [read?_of_span hspan]
  rfl

end Literal

section Keys

theorem readKey?_append_of {key : String} (h : readKey? s = some (key, t))
    (hends : t = [] → ∀ c ∈ rest.head?, isKeyChar c = false) :
    readKey? (s ++ rest) = some (key, t ++ rest) := by
  unfold readKey? at h
  split at h
  · obtain ⟨⟨text, t'⟩, htext, he⟩ := Option.map_eq_some_iff.mp h
    obtain ⟨rfl, rfl⟩ := Prod.mk.inj he
    rw [List.cons_append, readKey?, basic?_append_of htext rest]
    rfl
  · obtain ⟨⟨text, t'⟩, htext, he⟩ := Option.map_eq_some_iff.mp h
    obtain ⟨rfl, rfl⟩ := Prod.mk.inj he
    rw [List.cons_append, readKey?, literal?_append_of htext rest]
    rfl
  · rename_i hdouble hsingle
    obtain ⟨word, after, hspan⟩ : ∃ word after, s.span isKeyChar = (word, after) := ⟨_, _, rfl⟩
    simp only [hspan, Option.ite_none_left_eq_some, Option.some.injEq, Prod.mk.injEq] at h
    obtain ⟨hne, rfl, rfl⟩ := h
    have hmore : (s ++ rest).span isKeyChar = (word, after ++ rest) := by
      apply span_append_of hspan
      cases after with
      | nil => exact hends rfl
      | cons c after => exact (span_eq_iff.mp hspan).2.2
    obtain ⟨c, r, rfl⟩ : ∃ c r, s = c :: r := by
      apply List.exists_cons_of_ne_nil
      rintro rfl
      obtain ⟨rfl, -⟩ := Prod.mk.inj hspan
      contradiction
    have hc : c ≠ '"' ∧ c ≠ '\x27' := by
      constructor <;> rintro rfl
      · exact hdouble r rfl
      · exact hsingle r rfl
    rw [List.cons_append] at hmore ⊢
    rw [readKey?.eq_3 _ (by simp [hc]) (by simp [hc]), hmore]
    exact if_neg hne

theorem readKey?_nil : readKey? [] = none := rfl

-- Something stands behind a path wherever one is read.
theorem readPath?_append_of {room : Nat} {path : List String} (h : readPath? room s = some (path, t))
    (ht : t ≠ []) (rest : List Char) : readPath? room (s ++ rest) = some (path, t ++ rest) := by
  induction room generalizing s path t with
  | zero => contradiction
  | succ room ih =>
      simp only [readPath?, Option.bind_eq_bind, Option.bind_eq_some_iff, Prod.exists] at h
      obtain ⟨key, after, hkey, h⟩ := h
      have hs : skipBlanks s ≠ [] := by
        intro hs
        rw [hs, readKey?_nil] at hkey
        contradiction
      have hblanks : skipBlanks after ≠ [] := by
        intro hnil
        rw [hnil] at h
        obtain ⟨-, rfl⟩ := Prod.mk.inj (Option.some.inj h)
        exact ht rfl
      have hafter : after ≠ [] := by
        rintro rfl
        exact hblanks rfl
      have hmore : readKey? (skipBlanks s ++ rest) = some (key, after ++ rest) :=
        readKey?_append_of hkey fun hnil => absurd hnil hafter
      rw [readPath?, skipBlanks_append_of_ne_nil hs, hmore]
      simp only [Option.bind_eq_bind, Option.bind_some, skipBlanks_append_of_ne_nil hblanks]
      split at h
      · rename_i r heq
        simp only [Option.bind_eq_some_iff, Option.pure_def, Option.some.injEq, Prod.mk.injEq,
          Prod.exists] at h
        obtain ⟨path', t', hpath, rfl, rfl⟩ := h
        simp only [heq, List.cons_append, ih hpath ht]
        rfl
      · rename_i hdot
        obtain ⟨rfl, rfl⟩ := Prod.mk.inj (Option.some.inj h)
        split
        · rename_i r heq
          obtain ⟨c, r', hr'⟩ := List.exists_cons_of_ne_nil hblanks
          rw [hr', List.cons_append] at heq
          obtain ⟨rfl, -⟩ := List.cons.inj heq
          exact absurd hr' (hdot r')
        · rfl

end Keys

section Gaps

-- A carriage return is looked at with what follows it, every other character by itself.
theorem skipGap?_cons (comment : Bool) {c : Char} (hc : c ≠ '\r') (s : List Char) :
    skipGap? comment (c :: s) =
      if c = '\n' then skipGap? false s
      else if comment then if isTextChar c then skipGap? true s else none
      else if isBlank c then skipGap? false s
      else if c = '#' then skipGap? true s
      else some (c :: s) :=
  skipGap?.eq_3 _ _ _ (by simp [hc])

theorem skipGap?_append_of {comment : Bool} {c : Char} {r : List Char}
    (h : skipGap? comment s = some (c :: r)) (hc : c ≠ '\r') (rest : List Char) :
    skipGap? comment (s ++ rest) = some (c :: (r ++ rest)) := by
  fun_induction skipGap? comment s
  case case1 | case6 => contradiction
  case case2 => simp at h
  case case3 ih =>
    rw [List.cons_append, List.cons_append, skipGap?]
    exact ih h
  case case4 ih =>
    rw [List.cons_append, skipGap?_cons _ (by decide)]
    exact ih h
  case case5 d s _ hbreak hchar ih =>
    have hd : d ≠ '\r' := by
      rintro rfl
      contradiction
    rw [List.cons_append, skipGap?_cons _ hd, if_neg hbreak, if_pos rfl, if_pos hchar]
    exact ih h
  case case7 d s _ hbreak hcomment hblank ih =>
    have hd : d ≠ '\r' := by
      rintro rfl
      contradiction
    rw [List.cons_append, skipGap?_cons _ hd, if_neg hbreak, if_neg hcomment, if_pos hblank]
    exact ih h
  case case8 hcomment _ _ _ ih =>
    rw [List.cons_append, skipGap?_cons _ (by decide), if_neg (by decide), if_neg hcomment]
    exact ih h
  case case9 d s _ hbreak hcomment hblank hhash =>
    obtain ⟨rfl, rfl⟩ := List.cons.inj (Option.some.inj h)
    rw [List.cons_append, skipGap?_cons _ hc, if_neg hbreak, if_neg hcomment, if_neg hblank,
      if_neg hhash]

theorem skipGap?_skipBlanks (s : List Char) : skipGap? false (skipBlanks s) = skipGap? false s := by
  induction s with
  | nil => rfl
  | cons c s ih =>
      cases hc : isBlank c with
      | false => rw [skipBlanks_cons hc]
      | true =>
          have hskip : skipBlanks (c :: s) = skipBlanks s := by simp [skipBlanks, hc]
          have hne : c ≠ '\r' ∧ c ≠ '\n' := by
            rcases isBlank_iff.mp hc with rfl | rfl <;> decide
          rw [hskip, ih, skipGap?_cons _ hne.1, if_neg hne.2, if_neg Bool.false_ne_true, if_pos hc]

-- A gap begins like the end of a line, if it does not end at once.
theorem exists_stop_of_skipGap? {c : Char} {r : List Char} (h : skipGap? false s = some (c :: r))
    (hc : IsStop c) : ∃ d r', skipBlanks s = d :: r' ∧ IsStop d := by
  rw [← skipGap?_skipBlanks] at h
  obtain ⟨d, r', hs⟩ : ∃ d r', skipBlanks s = d :: r' := by
    apply List.exists_cons_of_ne_nil
    intro hnil
    simp [hnil, skipGap?] at h
  refine ⟨d, r', hs, ?_⟩
  rw [hs] at h
  by_cases hreturn : d = '\r'
  · exact .inr (.inr (.inl hreturn))
  by_cases hbreak : d = '\n'
  · exact .inr (.inl hbreak)
  by_cases hhash : d = '#'
  · exact .inl hhash
  have hblank : isBlank d = false := by
    have hhead := List.head?_dropWhile_not isBlank s
    rw [show s.dropWhile isBlank = d :: r' from hs] at hhead
    simpa using hhead
  rw [skipGap?_cons _ hreturn, if_neg hbreak, if_neg Bool.false_ne_true, hblank,
    if_neg Bool.false_ne_true, if_neg hhash] at h
  obtain ⟨rfl, -⟩ := List.cons.inj (Option.some.inj h)
  exact hc

theorem ends_append {c : Char} {r : List Char} (h : skipBlanks s = c :: r) (hc : IsStop c)
    (rest : List Char) : Ends (s ++ rest) := by
  apply ends_of_skipBlanks
  rw [skipBlanks_append_of_ne_nil (by simp [h]), h]
  simpa using hc

end Gaps

section Values

-- A value does not begin with a blank, nor with a carriage return.
theorem exists_of_readValue? {fuel room : Nat} {v : Value}
    (h : readValue? fuel room s = some (v, t)) :
    ∃ c r, s = c :: r ∧ isBlank c = false ∧ c ≠ '\r' := by
  rcases fuel with _ | fuel
  · contradiction
  rcases s with _ | ⟨c, s⟩
  · contradiction
  have hword (hc : Literal.isWordChar c = false ∧ c ≠ '[' ∧ c ≠ '\x7b' ∧ c ≠ '"' ∧ c ≠ '\x27') :
      False := by
    rw [readValue?.eq_6 _ _ _ (by simp [hc]) (by simp [hc]) (by simp [hc]) (by simp [hc]),
      Literal.read?_of_not_word hc.1] at h
    contradiction
  refine ⟨c, s, rfl, ?_, ?_⟩
  · rw [← Bool.not_eq_true]
    intro hblank
    rcases isBlank_iff.mp hblank with rfl | rfl <;> exact hword (by decide)
  · rintro rfl
    exact hword (by decide)

theorem exists_of_readItems? {fuel room : Nat} {items : List Value}
    (h : readItems? fuel room s = some (items, t)) : ∃ c r, s = c :: r ∧ c ≠ '\r' := by
  rcases fuel with _ | fuel
  · contradiction
  simp only [readItems?, Option.bind_eq_bind, Option.bind_eq_some_iff, Prod.exists] at h
  obtain ⟨item, after, hitem, -⟩ := h
  obtain ⟨c, r, hs, -, hc⟩ := exists_of_readValue? hitem
  exact ⟨c, r, hs, hc⟩

theorem ne_nil_of_readEntries? {fuel room : Nat} {ds : List Definition}
    (h : readEntries? fuel room s = some (ds, t)) : s ≠ [] := by
  rintro rfl
  cases fuel <;> contradiction

-- What an array is read as: nothing between its brackets, or the items up to the closing one.
theorem readValue?_array_iff {fuel room : Nat} {v : Value} :
    readValue? (fuel + 1) room ('[' :: s) = some (v, t) ↔
      ¬room ≤ 1 ∧ ∃ gap, skipGap? false s = some gap ∧
        ((gap = ']' :: t ∧ v = .array []) ∨
          (gap.head? ≠ some ']' ∧
            ∃ items, readItems? fuel (room - 1) gap = some (items, t) ∧ v = .array items)) := by
  rw [readValue?]
  by_cases hroom : room ≤ 1
  · simp [hroom]
  cases skipGap? false s with
  | none => simp [hroom]
  | some gap =>
      rcases gap with _ | ⟨c, r⟩
      · simp [hroom, Option.bind_eq_some_iff, eq_comm (a := v)]
      by_cases hc : c = ']'
      · simp [hroom, hc, eq_comm (a := v), and_comm]
      · simp [hroom, hc, Option.bind_eq_some_iff, eq_comm (a := v)]

theorem readValue?_table_iff {fuel room : Nat} {v : Value} :
    readValue? (fuel + 1) room ('\x7b' :: s) = some (v, t) ↔
      ¬room ≤ 1 ∧ ((skipBlanks s = '\x7d' :: t ∧ v = .table []) ∨
        ((skipBlanks s).head? ≠ some '\x7d' ∧
          ∃ ds, readEntries? fuel (room - 1) (skipBlanks s) = some (ds, t) ∧
            inlineTable? ds = some v)) := by
  rw [readValue?]
  by_cases hroom : room ≤ 1
  · simp [hroom]
  rcases skipBlanks s with _ | ⟨c, r⟩
  · simp [hroom, Option.bind_eq_some_iff]
  by_cases hc : c = '\x7d'
  · simp [hroom, hc, eq_comm (a := v), and_comm]
  · simp [hroom, hc, Option.bind_eq_some_iff]

theorem readValue?_literal (fuel room : Nat) {c : Char} (s : List Char)
    (hc : c ≠ '[' ∧ c ≠ '\x7b' ∧ c ≠ '"' ∧ c ≠ '\x27') :
    readValue? (fuel + 1) room (c :: s) = Literal.read? (c :: s) :=
  readValue?.eq_6 _ _ _ (by simp [hc]) (by simp [hc]) (by simp [hc]) (by simp [hc])

theorem readItems?_iff {fuel room : Nat} {items : List Value} :
    readItems? (fuel + 1) room s = some (items, t) ↔
      ∃ item after, readValue? fuel room s = some (item, after) ∧
        ∃ gap, skipGap? false after = some gap ∧
          ((gap = ']' :: t ∧ items = [item]) ∨
            ∃ r gap', gap = ',' :: r ∧ skipGap? false r = some gap' ∧
              ((gap' = ']' :: t ∧ items = [item]) ∨
                (gap'.head? ≠ some ']' ∧ ∃ items', readItems? fuel room gap' = some (items', t) ∧
                  items = item :: items'))) := by
  simp only [readItems?, Option.bind_eq_bind, Option.bind_eq_some_iff, Prod.exists]
  refine exists_congr fun item => exists_congr fun after => and_congr_right fun _ =>
    exists_congr fun gap => and_congr_right fun _ => ?_
  rcases gap with _ | ⟨c, r⟩
  · simp
  by_cases hclose : c = ']'
  · simp [hclose, eq_comm (a := items), and_comm]
  by_cases hcomma : c = ','
  · subst hcomma
    cases hgap : skipGap? false r with
    | none => simp [hgap]
    | some gap' =>
        rcases gap' with _ | ⟨c', r'⟩
        · simp [hgap, Option.bind_eq_some_iff, eq_comm (a := items)]
        by_cases hclose' : c' = ']'
        · simp [hgap, hclose', eq_comm (a := items), and_comm]
        · simp [hgap, hclose', Option.bind_eq_some_iff, eq_comm (a := items)]
  · simp [hclose, hcomma]

theorem readEntries?_iff {fuel room : Nat} {ds : List Definition} :
    readEntries? (fuel + 1) room s = some (ds, t) ↔
      ∃ path r, readKeys? s = some (path, '=' :: r) ∧
        ∃ value after, readValue? fuel room (skipBlanks r) = some (value, after) ∧
          ((skipBlanks after = '\x7d' :: t ∧ ds = [⟨path, value⟩]) ∨
            ∃ r' ds', skipBlanks after = ',' :: r' ∧ readEntries? fuel room r' = some (ds', t) ∧
              ds = ⟨path, value⟩ :: ds') := by
  rw [readEntries?]
  cases readKeys? s with
  | none => simp
  | some p =>
      obtain ⟨path, s'⟩ := p
      rcases s' with _ | ⟨c, r⟩
      · simp
      by_cases hc : c = '='
      · subst hc
        simp only [Option.bind_eq_bind, Option.bind_some, Option.bind_eq_some_iff, Prod.exists,
          Option.some.injEq, Prod.mk.injEq, List.cons.injEq, true_and, and_assoc, exists_and_left,
          exists_eq_left']
        refine exists_congr fun value => exists_congr fun after => and_congr_right fun _ => ?_
        rcases skipBlanks after with _ | ⟨c, r'⟩
        · simp
        by_cases hclose : c = '\x7d'
        · simp [hclose, eq_comm (a := ds), and_comm]
        by_cases hcomma : c = ','
        · simp [hcomma, Option.bind_eq_some_iff, eq_comm (a := ds)]
        · simp [hclose, hcomma]
      · simp [hc]

-- By recursion on the fuel, as the reader goes.
mutual

theorem readValue?_append_of : (fuel : Nat) → {room : Nat} → {s : List Char} → {v : Value} →
    {t : List Char} → readValue? fuel room s = some (v, t) → {rest : List Char} →
      Ends (t ++ rest) → {more : Nat} → fuel ≤ more →
        readValue? more room (s ++ rest) = some (v, t ++ rest)
  | 0, _, _, _, _, h, _, _, _, _ => nomatch h
  | fuel + 1, room, s, v, t, h, rest, hends, more + 1, hmore => by
      have hfuel : fuel ≤ more := Nat.le_of_succ_le_succ hmore
      obtain ⟨c, r, rfl, -⟩ := exists_of_readValue? h
      rw [List.cons_append]
      by_cases hbracket : c = '['
      · subst hbracket
        obtain ⟨hroom, gap, hgap, h⟩ := readValue?_array_iff.mp h
        rw [readValue?_array_iff]
        obtain ⟨rfl, rfl⟩ | ⟨hclose, items, hitems, rfl⟩ := h
        · exact ⟨hroom, _, skipGap?_append_of hgap (by decide) rest, .inl ⟨rfl, rfl⟩⟩
        · obtain ⟨d, r', rfl, hd⟩ := exists_of_readItems? hitems
          have hread := readItems?_append_of fuel hitems rest hfuel
          exact ⟨hroom, _, skipGap?_append_of hgap hd rest, .inr ⟨hclose, items, hread, rfl⟩⟩
      by_cases hbrace : c = '\x7b'
      · subst hbrace
        obtain ⟨hroom, h⟩ := readValue?_table_iff.mp h
        rw [readValue?_table_iff]
        obtain ⟨hnone, rfl⟩ | ⟨hclose, ds, hds, hv⟩ := h
        · rw [skipBlanks_append_of_ne_nil (by simp [hnone]), hnone]
          exact ⟨hroom, .inl ⟨rfl, rfl⟩⟩
        · have hne := ne_nil_of_readEntries? hds
          have hread := readEntries?_append_of fuel hds rest hfuel
          have hhead : (skipBlanks r ++ rest).head? = (skipBlanks r).head? := by
            obtain ⟨d, r', hr'⟩ := List.exists_cons_of_ne_nil hne
            rw [hr']
            rfl
          rw [skipBlanks_append_of_ne_nil hne, hhead]
          exact ⟨hroom, .inr ⟨hclose, ds, hread, hv⟩⟩
      by_cases hmark : c = '"' ∨ c = '\x27'
      · have hquoted (r : List Char) (fuel : Nat) : readValue? (fuel + 1) room (c :: r) =
            (Quoted.read? (c :: r)).map fun (t, rest) => (.text (String.ofList t), rest) := by
          rcases hmark with rfl | rfl <;> rw [readValue?]
        rw [hquoted] at h
        obtain ⟨⟨text, t'⟩, htext, he⟩ := Option.map_eq_some_iff.mp h
        obtain ⟨rfl, rfl⟩ := Prod.mk.inj he
        have hread := Quoted.read?_append_of htext hends.mark
        rw [List.cons_append] at hread
        rw [hquoted, hread]
        rfl
      · rw [not_or] at hmark
        rw [readValue?_literal _ _ _ ⟨hbracket, hbrace, hmark⟩] at h ⊢
        exact Literal.read?_append_of h hends

theorem readItems?_append_of : (fuel : Nat) → {room : Nat} → {s : List Char} →
    {items : List Value} → {t : List Char} → readItems? fuel room s = some (items, t) →
      (rest : List Char) → {more : Nat} → fuel ≤ more →
        readItems? more room (s ++ rest) = some (items, t ++ rest)
  | 0, _, _, _, _, h, _, _, _ => nomatch h
  | fuel + 1, room, s, items, t, h, rest, more + 1, hmore => by
      have hfuel : fuel ≤ more := Nat.le_of_succ_le_succ hmore
      obtain ⟨item, after, hitem, gap, hgap, h⟩ := readItems?_iff.mp h
      -- Either way, a mark stands behind the item.
      have hread {c : Char} {r : List Char} (heq : gap = c :: r) (hc : IsStop c ∧ c ≠ '\r') :
          readValue? more room (s ++ rest) = some (item, after ++ rest) ∧
            skipGap? false (after ++ rest) = some (c :: (r ++ rest)) := by
        subst heq
        obtain ⟨d, r', hafter, hd⟩ := exists_stop_of_skipGap? hgap hc.1
        exact ⟨readValue?_append_of fuel hitem (ends_append hafter hd rest) hfuel,
          skipGap?_append_of hgap hc.2 rest⟩
      rw [readItems?_iff]
      obtain ⟨heq, rfl⟩ | ⟨r, gap', heq, hgap', h⟩ := h
      · obtain ⟨hvalue, hskip⟩ := hread heq (by simp [IsStop])
        exact ⟨item, _, hvalue, _, hskip, .inl ⟨rfl, rfl⟩⟩
      · obtain ⟨hvalue, hskip⟩ := hread heq (by simp [IsStop])
        refine ⟨item, _, hvalue, _, hskip, .inr ⟨r ++ rest, ?_⟩⟩
        obtain ⟨rfl, rfl⟩ | ⟨hclose, items', hitems, rfl⟩ := h
        · exact ⟨_, rfl, skipGap?_append_of hgap' (by decide) rest, .inl ⟨rfl, rfl⟩⟩
        · obtain ⟨d, r', rfl, hd⟩ := exists_of_readItems? hitems
          have hmoreItems := readItems?_append_of fuel hitems rest hfuel
          exact ⟨_, rfl, skipGap?_append_of hgap' hd rest, .inr ⟨hclose, items', hmoreItems, rfl⟩⟩

theorem readEntries?_append_of : (fuel : Nat) → {room : Nat} → {s : List Char} →
    {ds : List Definition} → {t : List Char} → readEntries? fuel room s = some (ds, t) →
      (rest : List Char) → {more : Nat} → fuel ≤ more →
        readEntries? more room (s ++ rest) = some (ds, t ++ rest)
  | 0, _, _, _, _, h, _, _, _ => nomatch h
  | fuel + 1, room, s, ds, t, h, rest, more + 1, hmore => by
      have hfuel : fuel ≤ more := Nat.le_of_succ_le_succ hmore
      obtain ⟨path, r, hpath, value, after, hvalue, h⟩ := readEntries?_iff.mp h
      have hne : skipBlanks r ≠ [] := by
        obtain ⟨c, r', hr', -⟩ := exists_of_readValue? hvalue
        simp [hr']
      have hkeys : readKeys? (s ++ rest) = some (path, '=' :: (r ++ rest)) :=
        readPath?_append_of hpath (by simp) rest
      -- Either way, a mark stands behind the value.
      have hread {c : Char} {r' : List Char} (heq : skipBlanks after = c :: r') (hc : IsStop c) :
          readValue? more room (skipBlanks (r ++ rest)) = some (value, after ++ rest) ∧
            skipBlanks (after ++ rest) = c :: (r' ++ rest) := by
        rw [skipBlanks_append_of_ne_nil hne, skipBlanks_append_of_ne_nil (by simp [heq]), heq]
        exact ⟨readValue?_append_of fuel hvalue (ends_append heq hc rest) hfuel, rfl⟩
      rw [readEntries?_iff]
      obtain ⟨heq, rfl⟩ | ⟨r', ds', heq, hds, rfl⟩ := h
      · obtain ⟨hmoreValue, hskip⟩ := hread heq (by simp [IsStop])
        exact ⟨path, _, hkeys, value, _, hmoreValue, .inl ⟨hskip, rfl⟩⟩
      · obtain ⟨hmoreValue, hskip⟩ := hread heq (by simp [IsStop])
        have hmoreEntries := readEntries?_append_of fuel hds rest hfuel
        exact ⟨path, _, hkeys, value, _, hmoreValue, .inr ⟨_, ds', hskip, hmoreEntries, rfl⟩⟩

end

end Values

end Candlestick.Toml

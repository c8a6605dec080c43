import Candlestick.Toml.Quoted
import Mathlib.Tactic.Common

namespace Candlestick.Toml.Quoted

variable {s text t : List Char}

-- A letter behind a backslash is no blank, ends no line and starts no code point.
theorem plain_of_unescape? {c d : Char} (h : unescape? c = some d) :
    isBlank c = false ∧ takeLineEnd? (c :: t) = none ∧ c ≠ 'u' ∧ c ≠ 'U' := by
  have hc : c = '"' ∨ c = '\\' ∨ c = 'b' ∨ c = 'f' ∨ c = 'n' ∨ c = 'r' ∨ c = 't' := by
    by_contra hne
    simp only [not_or] at hne
    simp [unescape?, hne] at h
  rcases hc with rfl | rfl | rfl | rfl | rfl | rfl | rfl <;> exact ⟨by decide, rfl, by decide⟩

theorem basic?_append_of (h : basic? s = some (text, t)) (rest : List Char) :
    basic? (s ++ rest) = some (text, t ++ rest) := by
  fun_induction basic? s generalizing text t
  case case1 => contradiction
  case case2 r =>
    obtain ⟨rfl, rfl⟩ := Prod.mk.inj (Option.some.inj h)
    rw [List.cons_append, basic?]
  case case3 ih | case4 ih =>
    simp only [Option.bind_eq_bind, Option.bind_eq_some_iff, Option.pure_def, Option.some.injEq,
      Prod.exists, Prod.mk.injEq] at h
    obtain ⟨d, hd, text', t', hr, rfl, rfl⟩ := h
    simp [basic?, hd, ih hr]
  case case5 c r _ _ ih =>
    simp only [Option.bind_eq_bind, Option.bind_eq_some_iff, Option.pure_def, Option.some.injEq,
      Prod.exists, Prod.mk.injEq] at h
    obtain ⟨d, hd, text', t', hr, rfl, rfl⟩ := h
    obtain ⟨-, -, hu, hU⟩ := plain_of_unescape? (t := []) hd
    rw [List.cons_append, List.cons_append, basic?.eq_5 _ _ (by simp [hu]) (by simp [hU]), hd,
      Option.bind_eq_bind, Option.bind_some, ih hr]
    rfl
  case case6 => simp at h
  case case7 c r hmark _ _ _ jp hplain ih =>
    simp only [jp, Option.bind_eq_bind, Option.bind_eq_some_iff, Option.pure_def,
      Option.some.injEq, Prod.exists, Prod.mk.injEq] at h
    obtain ⟨text', t', hr, rfl, rfl⟩ := h
    simp only [Bool.or_eq_true, decide_eq_true_eq, Bool.not_eq_true', not_or,
      Bool.not_eq_false] at hplain
    obtain ⟨hslash, hchar⟩ := hplain
    rw [List.cons_append, basic?.eq_6 _ _ hmark (by simp [hslash]) (by simp [hslash])
      (by simp [hslash]), ih hr]
    simp [hslash, hchar]

theorem literal?_append_of (h : literal? s = some (text, t)) (rest : List Char) :
    literal? (s ++ rest) = some (text, t ++ rest) := by
  fun_induction literal? s generalizing text t
  case case1 => contradiction
  case case2 r =>
    obtain ⟨rfl, rfl⟩ := Prod.mk.inj (Option.some.inj h)
    rw [List.cons_append, literal?]
  case case3 => simp at h
  case case4 c r hmark jp hchar ih =>
    simp only [jp, Option.bind_eq_bind, Option.bind_eq_some_iff, Option.pure_def,
      Option.some.injEq, Prod.exists, Prod.mk.injEq] at h
    obtain ⟨text', t', hr, rfl, rfl⟩ := h
    rw [List.cons_append, literal?.eq_3 _ _ hmark, ih hr]
    simp [hchar]

-- With no mark behind, the marks that belong to a text are the same ones.
theorem closing_append_of {mark : Char} (h : closing mark s = (text, t)) {rest : List Char}
    (hmark : (t ++ rest).head? ≠ some mark) : closing mark (s ++ rest) = (text, t ++ rest) := by
  obtain ⟨rfl, rfl⟩ := Prod.mk.inj h
  rcases s with _ | ⟨a, _ | ⟨b, s⟩⟩
  · cases rest with
    | nil => rfl
    | cons r rest =>
        have hr : r ≠ mark := by simpa using hmark
        simp [closing, hr]
  · by_cases ha : a = mark
    · cases rest with
      | nil =>
          simp only [List.append_nil]
          rfl
      | cons r rest =>
          have hr : r ≠ mark := by simpa [ha] using hmark
          simp [closing, ha, hr]
    · simp [closing, ha]
  · have htake : (a :: b :: s ++ rest).take 2 = (a :: b :: s).take 2 := rfl
    have hle : (((a :: b :: s).take 2).takeWhile (· = mark)).length ≤ (a :: b :: s).length :=
      Nat.le_trans (List.takeWhile_prefix _).length_le (List.length_take_le' _ _)
    rw [closing, htake, List.drop_append_of_le_length hle]

section LineEnds

theorem takeLineEnd?_append_of {r : List Char} (h : takeLineEnd? s = some r) (rest : List Char) :
    takeLineEnd? (s ++ rest) = some (r ++ rest) := by
  unfold takeLineEnd? at h
  split at h
  · obtain rfl := Option.some.inj h
    rfl
  · obtain rfl := Option.some.inj h
    rfl
  · contradiction

theorem takeLineEnd?_dropWhile_append_of
    (h : (takeLineEnd? (s.dropWhile isBlank)).isSome = true) (rest : List Char) :
    (takeLineEnd? ((s ++ rest).dropWhile isBlank)).isSome = true := by
  obtain ⟨r, hr⟩ := Option.isSome_iff_exists.mp h
  have hne : (s.dropWhile isBlank).isEmpty = false := by
    rw [List.isEmpty_eq_false_iff]
    intro hnil
    rw [hnil] at hr
    contradiction
  rw [List.dropWhile_append, hne]
  simp [takeLineEnd?_append_of hr]

-- A text of more than half a line end shows whether it starts with one.
theorem skipFirstLineEnd_append {rest : List Char} (hnil : s ≠ []) (hhalf : s ≠ ['\r']) :
    skipFirstLineEnd (s ++ rest) = skipFirstLineEnd s ++ rest := by
  cases hend : takeLineEnd? s with
  | some r => simp [skipFirstLineEnd, hend, takeLineEnd?_append_of hend]
  | none =>
      have hmore : takeLineEnd? (s ++ rest) = none := by
        rcases s with _ | ⟨a, _ | ⟨b, s⟩⟩
        · contradiction
        · have ha : a ≠ '\r' := by simpa using hhalf
          have hbreak : a ≠ '\n' := by
            rintro rfl
            contradiction
          simp [takeLineEnd?, ha, hbreak]
        · have hbreak : a ≠ '\n' := by
            rintro rfl
            contradiction
          have hreturn : a = '\r' → b ≠ '\n' := by
            rintro rfl rfl
            contradiction
          rw [List.cons_append, List.cons_append, takeLineEnd?.eq_3 _ (by simp [hbreak])]
          rintro r hr
          simp only [List.cons.injEq] at hr
          exact hreturn hr.1 hr.2.1
      simp [skipFirstLineEnd, hend, hmore]

end LineEnds

section Long

variable {joining : Bool} {rest : List Char}

-- A text that does not start with two marks does not with more behind it either, if nothing there
-- makes two of one.
theorem append_ne_marks {mark : Char} (hnil : s ≠ []) (h : ∀ r, s ≠ mark :: mark :: r)
    (hone : s = [mark] → rest.head? ≠ some mark) (r : List Char) :
    s ++ rest ≠ mark :: mark :: r := by
  rcases s with _ | ⟨a, _ | ⟨b, s⟩⟩
  · contradiction
  · rintro heq
    simp only [List.cons_append, List.nil_append, List.cons.injEq] at heq
    obtain ⟨rfl, rfl⟩ := heq
    exact hone rfl rfl
  · rintro heq
    simp only [List.cons_append, List.cons.injEq] at heq
    obtain ⟨rfl, rfl, -⟩ := heq
    exact h _ rfl

theorem longBasic?_plain (joining : Bool) {c : Char} {r : List Char} (hslash : c ≠ '\\')
    (hreturn : c ≠ '\r') (hmark : ∀ r', c = '"' → r ≠ '"' :: '"' :: r') :
    longBasic? joining (c :: r) =
      if joining && (isBlank c || c = '\n') then longBasic? true r
      else if !(isTextChar c || c = '\n') then none
      else (longBasic? false r).map fun (s, rest) => (c :: s, rest) := by
  rw [longBasic?.eq_7 _ _ _ hmark (by simp [hreturn]) (by simp [hslash]) (by simp [hslash])
    (by simp [hslash])]
  simp only [hslash, decide_false, Bool.false_or]
  cases longBasic? false r <;> rfl

theorem longBasic?_append_of (h : longBasic? joining s = some (text, t))
    (hmark : (t ++ rest).head? ≠ some '"') :
    longBasic? joining (s ++ rest) = some (text, t ++ rest) := by
  fun_induction longBasic? joining s generalizing text t
  case case1 | case10 => contradiction
  case case2 joining r =>
    rw [List.cons_append, List.cons_append, List.cons_append, longBasic?,
      closing_append_of (Option.some.inj h) hmark]
  case case3 r ih =>
    rw [List.cons_append, List.cons_append, longBasic?, ih h hmark]
    rfl
  case case4 joining r hjoining ih =>
    simp only [Option.bind_eq_bind, Option.bind_eq_some_iff, Option.pure_def, Option.some.injEq,
      Prod.exists, Prod.mk.injEq] at h
    obtain ⟨text', t', hr, rfl, rfl⟩ := h
    simp [longBasic?, hjoining, ih hr hmark]
  case case5 ih | case6 ih =>
    simp only [Option.bind_eq_bind, Option.bind_eq_some_iff, Option.pure_def, Option.some.injEq,
      Prod.exists, Prod.mk.injEq] at h
    obtain ⟨d, hd, text', t', hr, rfl, rfl⟩ := h
    simp [longBasic?, hd, ih hr hmark]
  case case7 joining c r _ _ hend ih =>
    have hu : c ≠ 'u' ∧ c ≠ 'U' := by
      constructor <;> rintro rfl <;> simp [isBlank, takeLineEnd?] at hend
    have hmore := takeLineEnd?_dropWhile_append_of hend rest
    rw [List.cons_append] at hmore
    rw [List.cons_append, List.cons_append, longBasic?.eq_6 _ _ _ (by simp [hu]) (by simp [hu]),
      if_pos hmore]
    exact ih h hmark
  case case8 joining c r _ _ hend ih =>
    simp only [Option.bind_eq_bind, Option.bind_eq_some_iff, Option.pure_def, Option.some.injEq,
      Prod.exists, Prod.mk.injEq] at h
    obtain ⟨d, hd, text', t', hr, rfl, rfl⟩ := h
    obtain ⟨hblank, hbreak, hu, hU⟩ := plain_of_unescape? (t := r ++ rest) hd
    have hmore : ¬(takeLineEnd? ((c :: (r ++ rest)).dropWhile isBlank)).isSome = true := by
      simp [hblank, hbreak]
    rw [List.cons_append, List.cons_append, longBasic?.eq_6 _ _ _ (by simp [hu]) (by simp [hU]),
      if_neg hmore, hd, Option.bind_eq_bind, Option.bind_some, ih hr hmark]
    rfl
  case case9 joining c r _ _ _ _ _ hskip ih =>
    have hc : c ≠ '\\' ∧ c ≠ '\r' ∧ c ≠ '"' := by
      refine ⟨?_, ?_, ?_⟩ <;> rintro rfl <;> simp [isBlank] at hskip
    rw [List.cons_append, longBasic?_plain _ hc.1 hc.2.1 (by simp [hc.2.2]), if_pos hskip]
    exact ih h hmark
  case case11 joining c r hquote _ _ _ _ hskip hchar ih =>
    simp only [Option.bind_eq_bind, Option.bind_eq_some_iff, Option.pure_def, Option.some.injEq,
      Prod.exists, Prod.mk.injEq] at h
    obtain ⟨text', t', hr, rfl, rfl⟩ := h
    obtain ⟨hslash, hplain⟩ := Bool.or_eq_false_iff.mp (Bool.not_eq_true _ ▸ hchar)
    have hreturn : c ≠ '\r' := by
      rintro rfl
      contradiction
    have hopen (r' : List Char) (hc : c = '"') : r ++ rest ≠ '"' :: '"' :: r' := by
      refine append_ne_marks ?_ (fun r' => hquote r' hc) ?_ r' <;> rintro rfl <;> contradiction
    rw [List.cons_append, longBasic?_plain _ (by simpa using hslash) hreturn hopen, if_neg hskip,
      hplain, ih hr hmark]
    rfl

theorem longLiteral?_append_of (h : longLiteral? s = some (text, t))
    (hmark : (t ++ rest).head? ≠ some '\x27') :
    longLiteral? (s ++ rest) = some (text, t ++ rest) := by
  fun_induction longLiteral? s generalizing text t
  case case1 => contradiction
  case case2 r =>
    rw [List.cons_append, List.cons_append, List.cons_append, longLiteral?,
      closing_append_of (Option.some.inj h) hmark]
  case case3 r ih =>
    simp only [Option.bind_eq_bind, Option.bind_eq_some_iff, Option.pure_def, Option.some.injEq,
      Prod.exists, Prod.mk.injEq] at h
    obtain ⟨text', t', hr, rfl, rfl⟩ := h
    simp [longLiteral?, ih hr hmark]
  case case4 => simp at h
  case case5 c r hquote _ jp hchar ih =>
    simp only [jp, Option.bind_eq_bind, Option.bind_eq_some_iff, Option.pure_def,
      Option.some.injEq, Prod.exists, Prod.mk.injEq] at h
    obtain ⟨text', t', hr, rfl, rfl⟩ := h
    have hreturn : c ≠ '\r' := by
      rintro rfl
      contradiction
    have hopen (r' : List Char) (hc : c = '\x27') : r ++ rest ≠ '\x27' :: '\x27' :: r' := by
      refine append_ne_marks ?_ (fun r' => hquote r' hc) ?_ r' <;> rintro rfl <;> contradiction
    rw [List.cons_append, longLiteral?.eq_4 _ _ hopen (by simp [hreturn]), ih hr hmark]
    simp [hchar]

end Long

-- The end of a text shows if no mark of either kind follows it.
theorem read?_append_of (h : read? s = some (text, t)) {rest : List Char}
    (hmark : ∀ c ∈ (t ++ rest).head?, c ≠ '"' ∧ c ≠ '\x27') :
    read? (s ++ rest) = some (text, t ++ rest) := by
  have hdouble : (t ++ rest).head? ≠ some '"' := fun hc => (hmark _ hc).1 rfl
  have hsingle : (t ++ rest).head? ≠ some '\x27' := fun hc => (hmark _ hc).2 rfl
  unfold read? at h
  split at h
  · rename_i r
    rw [List.cons_append, List.cons_append, List.cons_append, read?,
      skipFirstLineEnd_append, longBasic?_append_of h hdouble] <;> rintro rfl <;> contradiction
  · rename_i r hthree
    have hopen (r' : List Char) : r ++ rest ≠ '"' :: '"' :: r' := by
      refine append_ne_marks (by rintro rfl; contradiction) hthree ?_ r'
      rintro rfl
      obtain ⟨rfl, rfl⟩ := Prod.mk.inj (Option.some.inj h)
      exact hdouble
    rw [List.cons_append, read?.eq_2 _ hopen]
    exact basic?_append_of h rest
  · rename_i r
    rw [List.cons_append, List.cons_append, List.cons_append, read?,
      skipFirstLineEnd_append, longLiteral?_append_of h hsingle] <;> rintro rfl <;> contradiction
  · rename_i r hthree
    have hopen (r' : List Char) : r ++ rest ≠ '\x27' :: '\x27' :: r' := by
      refine append_ne_marks (by rintro rfl; contradiction) hthree ?_ r'
      rintro rfl
      obtain ⟨rfl, rfl⟩ := Prod.mk.inj (Option.some.inj h)
      exact hsingle
    rw [List.cons_append, read?.eq_4 _ hopen]
    exact literal?_append_of h rest
  · contradiction

end Candlestick.Toml.Quoted

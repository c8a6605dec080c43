import Candlestick.Json.Writer
import Candlestick.Proofs.Json.Number
import Candlestick.Proofs.Json.Quoted
import Mathlib.Data.List.DropRight

namespace Candlestick.Json

open Decimal

def AllBlank (s : List Char) : Prop := ∀ c ∈ s, isBlank c = true

theorem allBlank_nil : AllBlank [] := by simp [AllBlank]

-- What is read as a text after an opening mark, up to the closing one.
def SpellsText (t : Text) (s : List Char) : Prop :=
  ∀ rest, Quoted.read? (s ++ rest) = some (t, rest)

mutual

def Spells : Value → List Char → Prop
  | .null, s => s = "null".toList
  | .bool b, s => s = (if b then "true" else "false").toList
  | .number n, s => IsWhole n.whole ∧ s = n.render true
  | .text t, s => ∃ body, s = '"' :: body ∧ SpellsText t body
  | .array items, s => ∃ body, s = '[' :: body ++ [']'] ∧ SpellsItems items body
  | .object members, s => ∃ body, s = '{' :: body ++ ['}'] ∧ SpellsMembers members body

-- A comma stands between an item and the next.
def SpellsItems : List Value → List Char → Prop
  | [], s => AllBlank s
  | v :: rest, s => ∃ before value after tail, s = before ++ (value ++ (after ++ tail)) ∧
      AllBlank before ∧ Spells v value ∧ AllBlank after ∧
        ((rest = [] ∧ tail = []) ∨
          (rest ≠ [] ∧ ∃ further, tail = ',' :: further ∧ SpellsItems rest further))

def SpellsMembers : List (Text × Value) → List Char → Prop
  | [], s => AllBlank s
  | (name, v) :: rest, s => ∃ before key gap between value after tail,
      s = before ++ '"' :: (key ++ (gap ++ ':' :: (between ++ (value ++ (after ++ tail))))) ∧
        AllBlank before ∧ SpellsText name key ∧ AllBlank gap ∧ AllBlank between ∧ Spells v value ∧
          AllBlank after ∧ ((rest = [] ∧ tail = []) ∨
            (rest ≠ [] ∧ ∃ further, tail = ',' :: further ∧ SpellsMembers rest further))

end

-- A value does not begin with a blank, nor with what closes an array or an object.
theorem Spells.exists_eq_cons {v : Value} {s : List Char} (h : Spells v s) :
    ∃ c rest, s = c :: rest ∧ isBlank c = false ∧ c ≠ ']' ∧ c ≠ '}' := by
  cases v with
  | null => exact ⟨'n', _, h, by decide⟩
  | bool b => cases b <;> exact ⟨_, _, h, by decide⟩
  | number n =>
      obtain ⟨hn, rfl⟩ := h
      obtain ⟨c, rest, hs, hc⟩ := n.exists_render_eq_cons true hn
      exact ⟨c, rest, hs, hc.elim (by decide) (by decide)⟩
  | text t =>
      obtain ⟨body, rfl, -⟩ := h
      exact ⟨'"', body, rfl, by decide⟩
  | array items =>
      obtain ⟨body, rfl, -⟩ := h
      exact ⟨'[', _, rfl, by decide⟩
  | object members =>
      obtain ⟨body, rfl, -⟩ := h
      exact ⟨'{', _, rfl, by decide⟩

theorem skipBlanks_append {blanks : List Char} (h : AllBlank blanks) (s : List Char) :
    skipBlanks (blanks ++ s) = skipBlanks s := by
  rw [skipBlanks, List.dropWhile_append_of_pos h]
  rfl

theorem skipBlanks_cons {c : Char} (h : isBlank c = false) (s : List Char) :
    skipBlanks (c :: s) = c :: s := by
  simp [skipBlanks, h]

theorem skipBlanks_skipBlanks (s : List Char) : skipBlanks (skipBlanks s) = skipBlanks s :=
  List.dropWhile_idempotent _ _

theorem readValue?_skipBlanks (fuel : Nat) (s : List Char) :
    readValue? fuel (skipBlanks s) = readValue? fuel s := by
  cases fuel with
  | zero => rfl
  | succ fuel => rw [readValue?, readValue?, skipBlanks_skipBlanks]

theorem readItems?_skipBlanks (fuel : Nat) (s : List Char) :
    readItems? fuel (skipBlanks s) = readItems? fuel s := by
  cases fuel with
  | zero => rfl
  | succ fuel => rw [readItems?, readItems?, readValue?_skipBlanks]

theorem readMembers?_skipBlanks (fuel : Nat) (s : List Char) :
    readMembers? fuel (skipBlanks s) = readMembers? fuel s := by
  cases fuel with
  | zero => rfl
  | succ fuel => rw [readMembers?, readMembers?, skipBlanks_skipBlanks]

-- What stands behind a value in an array or an object.
def AfterValue (c : Char) : Prop := c = ',' ∨ c = ']' ∨ c = '}'

theorem skipBlanks_afterValue {after : List Char} (h : AllBlank after) {c : Char}
    (hc : AfterValue c) (rest : List Char) : skipBlanks (after ++ c :: rest) = c :: rest := by
  rw [skipBlanks_append h]
  rcases hc with rfl | rfl | rfl <;> rfl

theorem endsNumber_blank {b : Char} (h : isBlank b = true) (rest : List Char) :
    EndsNumber (b :: rest) := by
  intro d hd
  obtain rfl : b = d := by simpa using hd
  simp only [isBlank, Bool.or_eq_true, decide_eq_true_eq] at h
  rcases h with ((rfl | rfl) | rfl) | rfl <;> decide

theorem endsNumber_allBlank {after : List Char} (h : AllBlank after) : EndsNumber after := by
  cases after with
  | nil => exact endsNumber_nil
  | cons b after => exact endsNumber_blank (h b (by simp)) after

theorem endsNumber_afterValue {after : List Char} (h : AllBlank after) {c : Char}
    (hc : AfterValue c) (rest : List Char) : EndsNumber (after ++ c :: rest) := by
  cases after with
  | nil =>
      intro d hd
      obtain rfl : c = d := by simpa using hd
      rcases hc with rfl | rfl | rfl <;> decide
  | cons b after => exact endsNumber_blank (h b (by simp)) _

-- What a first character leads to.
theorem readValue?_number (fuel : Nat) {c : Char}
    (h : Numeral.IsLead c) (rest : List Char) :
    readValue? (fuel + 1) (c :: rest) =
      (readNumber? (c :: rest)).map fun (n, rest) => (.number n, rest) := by
  obtain ⟨hblank, hn, ht, hf, hmark, hbracket, hbrace⟩ :
      isBlank c = false ∧ c ≠ 'n' ∧ c ≠ 't' ∧ c ≠ 'f' ∧ c ≠ '"' ∧ c ≠ '[' ∧ c ≠ '{' :=
    h.elim (by decide) (by decide)
  rw [readValue?, skipBlanks_cons hblank]
  simp [hn, ht, hf, hmark, hbracket, hbrace]

theorem readValue?_array (fuel : Nat) {s : List Char} (h : (skipBlanks s).head? ≠ some ']') :
    readValue? (fuel + 1) ('[' :: s) =
      (readItems? fuel s).map fun (items, rest) => (.array items, rest) := by
  rw [readValue?, skipBlanks_cons (by decide)]
  simp only
  split
  · simp_all
  · rw [readItems?_skipBlanks]

theorem readValue?_object (fuel : Nat) {s : List Char} (h : (skipBlanks s).head? ≠ some '}') :
    readValue? (fuel + 1) ('{' :: s) =
      (readMembers? fuel s).map fun (members, rest) => (.object members, rest) := by
  rw [readValue?, skipBlanks_cons (by decide)]
  simp only
  split
  · simp_all
  · rw [readMembers?_skipBlanks]

theorem readValue?_append_blanks (fuel : Nat) {blanks : List Char} (h : AllBlank blanks)
    (s : List Char) : readValue? fuel (blanks ++ s) = readValue? fuel s := by
  rw [← readValue?_skipBlanks, skipBlanks_append h, readValue?_skipBlanks]

theorem readValue?_between {fuel : Nat} {v : Value} {before value after : List Char}
    (h : ∀ {rest}, EndsNumber rest → readValue? fuel (value ++ rest) = some (v, rest))
    (hbefore : AllBlank before) (hafter : AllBlank after) {c : Char} (hc : AfterValue c)
    (rest : List Char) :
    readValue? fuel (before ++ (value ++ (after ++ c :: rest))) = some (v, after ++ c :: rest) := by
  rw [readValue?_append_blanks fuel hbefore]
  exact h (endsNumber_afterValue hafter hc rest)

-- The reader goes along a spelling token by token. Each character of the spelling allows for two
-- calls; `rest` is what stands behind the spelling.
mutual

theorem readValue?_of_spells : (v : Value) → {s : List Char} → Spells v s → (fuel : Nat) →
    2 * s.length ≤ fuel → {rest : List Char} → EndsNumber rest →
      readValue? fuel (s ++ rest) = some (v, rest)
  | v, s, h, 0, hfuel, _, _ => by
      obtain ⟨c, t, rfl, -⟩ := h.exists_eq_cons
      simp at hfuel
  | .null, _, rfl, fuel + 1, _, _, _ => rfl
  | .bool b, _, rfl, fuel + 1, _, _, _ => by
      cases b <;> rfl
  | .number n, _, ⟨hn, rfl⟩, fuel + 1, _, rest, hrest => by
      obtain ⟨c, t, hs, hc⟩ := n.exists_render_eq_cons true hn
      rw [hs, List.cons_append, readValue?_number fuel hc, ← List.cons_append, ← hs,
        readNumber?_render hn hrest]
      rfl
  | .text t, _, ⟨body, rfl, hbody⟩, fuel + 1, _, rest, _ => by
      rw [List.cons_append, readValue?, skipBlanks_cons (by decide)]
      simp only [hbody rest]
      rfl
  | .array [], _, ⟨body, rfl, hbody⟩, fuel + 1, _, rest, _ => by
      rw [List.cons_append, List.cons_append, List.append_assoc, readValue?,
        skipBlanks_cons (by decide)]
      simp only [List.singleton_append, skipBlanks_afterValue hbody (.inr (.inl rfl))]
  | .array (item :: items), _, ⟨body, rfl, hbody⟩, fuel + 1, hfuel, rest, _ => by
      have hitems := readItems?_of_spells (item :: items) (by simp) hbody fuel
        (by simp at hfuel; omega) rest
      have hhead : (skipBlanks (body ++ ']' :: rest)).head? ≠ some ']' := by
        obtain ⟨before, value, after, tail, rfl, hbefore, hvalue, -⟩ := hbody
        obtain ⟨c, t, rfl, hc, hne, -⟩ := hvalue.exists_eq_cons
        simp [List.append_assoc, skipBlanks_append hbefore, skipBlanks_cons hc, hne]
      rw [List.cons_append, List.cons_append, List.append_assoc, List.singleton_append,
        readValue?_array fuel hhead, hitems]
      rfl
  | .object [], _, ⟨body, rfl, hbody⟩, fuel + 1, _, rest, _ => by
      rw [List.cons_append, List.cons_append, List.append_assoc, readValue?,
        skipBlanks_cons (by decide)]
      simp only [List.singleton_append, skipBlanks_afterValue hbody (.inr (.inr rfl))]
  | .object (member :: members), _, ⟨body, rfl, hbody⟩, fuel + 1, hfuel, rest, _ => by
      have hmembers := readMembers?_of_spells (member :: members) (by simp) hbody fuel
        (by simp at hfuel; omega) rest
      have hhead : (skipBlanks (body ++ '}' :: rest)).head? ≠ some '}' := by
        obtain ⟨before, key, gap, between, value, after, tail, rfl, hbefore, -⟩ := hbody
        simp [List.append_assoc, skipBlanks_append hbefore, skipBlanks_cons (c := '"') (by decide)]
      rw [List.cons_append, List.cons_append, List.append_assoc, List.singleton_append,
        readValue?_object fuel hhead, hmembers]
      rfl

theorem readItems?_of_spells : (items : List Value) → items ≠ [] → {s : List Char} →
    SpellsItems items s → (fuel : Nat) → 2 * s.length < fuel → (rest : List Char) →
      readItems? fuel (s ++ ']' :: rest) = some (items, rest)
  | v :: items, _, _, ⟨before, value, after, tail, rfl, hbefore, hvalue, hafter, htail⟩, fuel + 1,
      hfuel, rest => by
      simp only [List.length_append] at hfuel
      have hread {c : Char} (hc : AfterValue c) (t : List Char) :=
        readValue?_between (readValue?_of_spells v hvalue fuel (by omega)) hbefore hafter hc t
      simp only [List.append_assoc]
      rw [readItems?]
      obtain ⟨rfl, rfl⟩ | ⟨hne, further, rfl, hfurther⟩ := htail
      · rw [List.nil_append, hread (.inr (.inl rfl))]
        simp [skipBlanks_afterValue hafter (c := ']') (.inr (.inl rfl))]
      · have hitems := readItems?_of_spells items hne hfurther fuel
          (by simp at hfuel; omega) rest
        rw [List.cons_append, hread (.inl rfl)]
        simp [skipBlanks_afterValue hafter (c := ',') (.inl rfl), hitems]

theorem readMembers?_of_spells : (members : List (Text × Value)) → members ≠ [] → {s : List Char} →
    SpellsMembers members s → (fuel : Nat) → 2 * s.length < fuel → (rest : List Char) →
      readMembers? fuel (s ++ '}' :: rest) = some (members, rest)
  | (name, v) :: members, _, _, ⟨before, key, gap, between, value, after, tail, rfl, hbefore, hkey,
      hgap, hbetween, hvalue, hafter, htail⟩, fuel + 1, hfuel, rest => by
      simp only [List.length_append, List.length_cons] at hfuel
      have hread {c : Char} (hc : AfterValue c) (t : List Char) :=
        readValue?_between (readValue?_of_spells v hvalue fuel (by omega)) hbetween hafter hc t
      have hcolon (t : List Char) : skipBlanks (gap ++ ':' :: t) = ':' :: t := by
        rw [skipBlanks_append hgap]
        rfl
      simp only [List.append_assoc, List.cons_append]
      rw [readMembers?, skipBlanks_append hbefore, skipBlanks_cons (by decide)]
      simp only [hkey _, Option.bind_eq_bind, Option.bind_some, hcolon]
      obtain ⟨rfl, rfl⟩ | ⟨hne, further, rfl, hfurther⟩ := htail
      · rw [List.nil_append, hread (.inr (.inr rfl))]
        simp [skipBlanks_afterValue hafter (c := '}') (.inr (.inr rfl))]
      · have hmembers := readMembers?_of_spells members hne hfurther fuel
          (by simp at hfuel; omega) rest
        rw [List.cons_append, hread (.inl rfl)]
        simp [skipBlanks_afterValue hafter (c := ',') (.inl rfl), hmembers]

end

end Candlestick.Json

import Candlestick.Proofs.Json.Spelling

namespace Candlestick.Json

open Decimal Value

theorem read?_of_spells {v : Value} {s : List Char} (h : Spells v s) :
    read? (String.ofList s) = some v := by
  have hvalue := readValue?_of_spells v h (2 * s.length + 2) (by omega) endsNumber_nil
  rw [List.append_nil] at hvalue
  rw [read?, String.toList_ofList]
  simp only [hvalue, Option.bind_eq_bind, Option.bind_some]
  rfl

-- The values that can be written: texts are strings, and numbers have digits that may stand in
-- front.
mutual

def Writable : Value → Prop
  | .null => True
  | .bool _ => True
  | .number n => IsWhole n.whole
  | .text t => t.isSome
  | .array items => WritableItems items
  | .object members => WritableMembers members

def WritableItems : List Value → Prop
  | [] => True
  | v :: rest => Writable v ∧ WritableItems rest

def WritableMembers : List (Text × Value) → Prop
  | [] => True
  | (name, v) :: rest => name.isSome ∧ Writable v ∧ WritableMembers rest

end

theorem spellsText_flatMap_escape (s : String) :
    SpellsText (some s) (s.toList.flatMap Quoted.escape ++ ['"']) := by
  intro rest
  rw [List.append_assoc, List.singleton_append, Quoted.read?_flatMap_escape, String.ofList_toList]

theorem allBlank_newLine (depth : Nat) : AllBlank ('\n' :: List.replicate (2 * depth) ' ') := by
  intro c hc
  rcases List.mem_cons.mp hc with rfl | hc
  · rfl
  · rw [List.eq_of_mem_replicate hc]
    rfl

-- The line of an item, and that of a member.
theorem layOutItems_cons_cons (depth : Nat) (v w : Value) (rest : List Value) :
    layOutItems depth (v :: w :: rest) =
      '\n' :: List.replicate (2 * depth) ' ' ++ v.layOut depth ++
        ',' :: layOutItems depth (w :: rest) :=
  rfl

theorem layOutMembers_singleton (depth : Nat) (name : String) (v : Value) :
    layOutMembers depth [(some name, v)] =
      '\n' :: List.replicate (2 * depth) ' ' ++ Quoted.write name.toList ++
        ':' :: ' ' :: v.layOut depth :=
  rfl

theorem layOutMembers_cons_cons (depth : Nat) (name : String) (v : Value) (m : Text × Value)
    (rest : List (Text × Value)) :
    layOutMembers depth ((some name, v) :: m :: rest) =
      layOutMembers depth [(some name, v)] ++ ',' :: layOutMembers depth (m :: rest) :=
  rfl

-- `close` is the line break between the last item and the mark that closes the array.
mutual

theorem spells_layOut (depth : Nat) : (v : Value) → Writable v → Spells v (v.layOut depth)
  | .null, _ => rfl
  | .bool _, _ => rfl
  | .number _, h => ⟨h, rfl⟩
  | .text (some s), _ => ⟨_, rfl, spellsText_flatMap_escape s⟩
  | .array [], _ => ⟨[], rfl, allBlank_nil⟩
  | .array (v :: rest), h =>
      ⟨_, rfl, spellsItems_layOutItems (depth + 1) (v :: rest) (by simp) h (allBlank_newLine depth)⟩
  | .object [], _ => ⟨[], rfl, allBlank_nil⟩
  | .object (m :: rest), h =>
      ⟨_, rfl,
        spellsMembers_layOutMembers (depth + 1) (m :: rest) (by simp) h (allBlank_newLine depth)⟩

theorem spellsItems_layOutItems (depth : Nat) : (items : List Value) → items ≠ [] →
    WritableItems items → {close : List Char} → AllBlank close →
      SpellsItems items (layOutItems depth items ++ close)
  | [v], _, ⟨hv, _⟩, close, hclose =>
      ⟨_, _, close, [], by rw [List.append_nil, ← List.append_assoc]; rfl,
        allBlank_newLine depth,
        spells_layOut depth v hv, hclose, .inl ⟨rfl, rfl⟩⟩
  | v :: w :: rest, _, ⟨hv, hrest⟩, close, hclose =>
      ⟨_, _, [], _, by simp [layOutItems_cons_cons],
        allBlank_newLine depth, spells_layOut depth v hv, allBlank_nil,
        .inr ⟨by simp, _, rfl, spellsItems_layOutItems depth (w :: rest) (by simp) hrest hclose⟩⟩

theorem spellsMembers_layOutMembers (depth : Nat) : (members : List (Text × Value)) →
    members ≠ [] → WritableMembers members → {close : List Char} → AllBlank close →
      SpellsMembers members (layOutMembers depth members ++ close)
  | [(some name, v)], _, ⟨_, hv, _⟩, close, hclose => by
      refine ⟨_, _, [], [' '], _, close, [], ?_, allBlank_newLine depth,
        spellsText_flatMap_escape name, allBlank_nil, by simp [AllBlank, isBlank],
        spells_layOut depth v hv, hclose, .inl ⟨rfl, rfl⟩⟩
      simp [layOutMembers_singleton, Quoted.write]
  | (some name, v) :: m :: rest, _, ⟨_, hv, hrest⟩, close, hclose => by
      refine ⟨_, _, [], [' '], _, [], _, ?_, allBlank_newLine depth,
        spellsText_flatMap_escape name, allBlank_nil, by simp [AllBlank, isBlank],
        spells_layOut depth v hv, allBlank_nil, .inr ⟨by simp, _, rfl,
          spellsMembers_layOutMembers depth (m :: rest) (by simp) hrest hclose⟩⟩
      simp [layOutMembers_cons_cons, layOutMembers_singleton, Quoted.write]

end

-- What is laid out reads back.
theorem read?_writePretty {v : Value} (h : Writable v) : read? v.writePretty = some v :=
  read?_of_spells (spells_layOut 0 v h)

-- Two characters that begin no value, and no blanks in front of one.
def IsForeign (c d : Char) : Prop :=
  isBlank c = false ∧ Digit.ofChar? c = none ∧ c ∉ ['-', '"', '[', '{'] ∧
    (c, d) ∉ [('n', 'u'), ('t', 'r'), ('f', 'a')]

instance (c d : Char) : Decidable (IsForeign c d) := inferInstanceAs (Decidable (_ ∧ _ ∧ _ ∧ _))

section Foreign

variable {c d : Char}

theorem readValue?_of_isForeign (fuel : Nat) (h : IsForeign c d) (rest : List Char) :
    readValue? fuel (c :: d :: rest) = none := by
  obtain ⟨hblank, hdigit, hmark, hword⟩ := h
  simp only [List.mem_cons, List.not_mem_nil, or_false, not_or, Prod.mk.injEq, not_and]
    at hmark hword
  obtain ⟨hminus, hquote, hbracket, hbrace⟩ := hmark
  obtain ⟨hn, ht, hf⟩ := hword
  have hnumber : readNumber? (c :: d :: rest) = none := by
    rw [readNumber?.eq_2 _ (by simp [hminus]), readUnsigned?, takeDigits, hdigit]
    rfl
  cases fuel with
  | zero => rfl
  | succ fuel =>
      rw [readValue?, skipBlanks_cons hblank]
      simp only
      split
      case h_7 =>
          rw [hnumber]
          rfl
      all_goals simp_all

theorem read?_of_isForeign (h : IsForeign c d) {text : String} {rest : List Char}
    (htext : text.toList = c :: d :: rest) : read? text = none := by
  rw [read?, htext]
  simp only [readValue?_of_isForeign _ h, Option.bind_eq_bind, Option.bind_none]

-- Nor is it the first item of an array.
theorem read?_bracket_of_isForeign (h : IsForeign c d) (hclose : c ≠ ']') {text : String}
    {rest : List Char} (htext : text.toList = '[' :: c :: d :: rest) : read? text = none := by
  have hhead : (skipBlanks (c :: d :: rest)).head? ≠ some ']' := by
    simpa [skipBlanks_cons h.1] using hclose
  have hitems (fuel : Nat) : readItems? fuel (c :: d :: rest) = none := by
    cases fuel with
    | zero => rfl
    | succ fuel =>
        rw [readItems?, readValue?_of_isForeign _ h]
        rfl
  rw [read?, htext, readValue?_array _ hhead, hitems]
  rfl

end Foreign

end Candlestick.Json

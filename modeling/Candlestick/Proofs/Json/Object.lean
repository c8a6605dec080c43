import Candlestick.Proofs.Json.Locality
import Candlestick.Proofs.Json.Sheet

namespace Candlestick.Json

-- A text that is a value by itself.
def ReadsAs (v : Value) (s : List Char) : Prop := read? (String.ofList s) = some v

section Texts

variable {β : Type} (Says : β → List Char → Prop)

-- A name between marks, a colon, and what is said under the name.
inductive MemberText : String × β → List Char → Prop where
  | mk {name : String} {b : β} {before key gap value : List Char} (hbefore : AllBlank before)
      (hkey : SpellsText (some name) key) (hgap : AllBlank gap) (hvalue : Says b value) :
      MemberText (name, b) (before ++ '"' :: (key ++ (gap ++ ':' :: value)))

inductive MembersText : List (String × β) → List Char → Prop where
  | last {entry : String × β} {s : List Char} (h : MemberText Says entry s) : MembersText [entry] s
  | more {entry : String × β} {s : List Char} (h : MemberText Says entry s)
      {entries : List (String × β)} {t : List Char} (hrest : MembersText entries t) :
      MembersText (entry :: entries) (s ++ ',' :: t)

inductive ObjectText : List (String × β) → List Char → Prop where
  | empty {before gap after : List Char} (hbefore : AllBlank before) (hgap : AllBlank gap)
      (hafter : AllBlank after) : ObjectText [] (before ++ '{' :: (gap ++ '}' :: after))
  | members {before after : List Char} (hbefore : AllBlank before)
      {entries : List (String × β)} {s : List Char} (h : MembersText Says entries s)
      (hafter : AllBlank after) : ObjectText entries (before ++ '{' :: (s ++ '}' :: after))

end Texts

theorem skipBlanks_eq_nil_iff {s : List Char} : skipBlanks s = [] ↔ AllBlank s := by
  rw [skipBlanks, List.dropWhile_eq_nil_iff]
  rfl

theorem readsAs_iff {v : Value} {s : List Char} :
    ReadsAs v s ↔
      ∃ after, readValue? (2 * s.length + 2) s = some (v, after) ∧ AllBlank after := by
  simp only [ReadsAs, read?, String.toList_ofList, Option.bind_eq_bind, Option.bind_eq_some_iff,
    Prod.exists, Option.ite_none_right_eq_some, Option.some.injEq, List.isEmpty_iff,
    skipBlanks_eq_nil_iff]
  constructor
  · rintro ⟨_, after, h, hafter, rfl⟩
    exact ⟨after, h, hafter⟩
  · rintro ⟨after, h, hafter⟩
    exact ⟨v, after, h, hafter, rfl⟩

-- Inside an object a text is the value that it is by itself.
theorem ReadsAs.exists_readValue? {v : Value} {s : List Char} (h : ReadsAs v s) {fuel : Nat}
    (hfuel : 2 * s.length + 2 ≤ fuel) {c : Char} (hc : AfterValue c) (rest : List Char) :
    ∃ after, readValue? fuel (s ++ c :: rest) = some (v, after ++ c :: rest) ∧
      AllBlank after := by
  obtain ⟨after, hread, hafter⟩ := readsAs_iff.mp h
  have hends : EndsNumber (c :: rest) := endsNumber_afterValue allBlank_nil hc rest
  exact ⟨after, readValue?_append _ hread _ (fun _ => hends) hfuel, hafter⟩

section Reading

variable {β : Type} {Says : β → List Char → Prop} {value : β → Value}
  (hreads : ∀ b s, Says b s → ReadsAs (value b) s)

theorem MemberText.length_pos {entry : String × β} {s : List Char} (h : MemberText Says entry s) :
    0 < s.length := by
  cases h
  simp

theorem MemberText.head?_ne {entry : String × β} {s : List Char} (h : MemberText Says entry s)
    (rest : List Char) : (skipBlanks (s ++ rest)).head? ≠ some '}' := by
  obtain ⟨hbefore, -, -, -⟩ := h
  rw [List.append_assoc, skipBlanks_append hbefore, List.cons_append, skipBlanks_cons (by decide)]
  simp

include hreads

-- What a reader of members meets in the first, up to what stands behind its value.
theorem MemberText.exists_reads {entry : String × β} {s : List Char} (h : MemberText Says entry s)
    {fuel : Nat} (hfuel : 2 * s.length ≤ fuel + 1) {c : Char} (hc : AfterValue c)
    (rest : List Char) :
    ∃ r gap r₁ after, skipBlanks (s ++ c :: rest) = '"' :: r ∧
      Quoted.read? r = some (some entry.1, gap) ∧ skipBlanks gap = ':' :: r₁ ∧
        readValue? fuel r₁ = some (value entry.2, after) ∧ skipBlanks after = c :: rest := by
  obtain @⟨name, b, before, key, gap, text, hbefore, hkey, hgap, hvalue⟩ := h
  simp only [List.length_append, List.length_cons] at hfuel
  obtain ⟨after, hread, hafter⟩ :=
    (hreads _ _ hvalue).exists_readValue? (show 2 * text.length + 2 ≤ fuel by omega) hc rest
  refine ⟨key ++ (gap ++ ':' :: (text ++ c :: rest)), gap ++ ':' :: (text ++ c :: rest),
    text ++ c :: rest, after ++ c :: rest, ?_, hkey _, ?_, hread,
    skipBlanks_afterValue hafter hc rest⟩
  · simp only [List.append_assoc, List.cons_append]
    rw [skipBlanks_append hbefore, skipBlanks_cons (by decide)]
  · rw [skipBlanks_append hgap, skipBlanks_cons (by decide)]

theorem readMembers?_membersText {entries : List (String × β)} {s : List Char}
    (h : MembersText Says entries s) {fuel : Nat} (hfuel : 2 * s.length ≤ fuel)
    (rest : List Char) :
    readMembers? fuel (s ++ '}' :: rest) =
      some (entries.map fun entry => (some entry.1, value entry.2), rest) := by
  induction h generalizing fuel with
  | last h =>
      have hpos := h.length_pos
      obtain ⟨fuel, rfl⟩ := Nat.exists_eq_add_one.mpr (show 0 < fuel by omega)
      obtain ⟨r, gap, r₁, after, hmark, hname, hcolon, hvalue, hafter⟩ :=
        h.exists_reads hreads hfuel (.inr (.inr rfl)) rest
      exact readMembers?_iff.mpr
        ⟨r, hmark, _, gap, hname, r₁, hcolon, _, after, hvalue, .inl ⟨hafter, rfl⟩⟩
  | @more entry s h entries t hrest ih =>
      simp only [List.length_append, List.length_cons] at hfuel
      obtain ⟨fuel, rfl⟩ := Nat.exists_eq_add_one.mpr (show 0 < fuel by omega)
      have hlater := ih (show 2 * t.length ≤ fuel by omega)
      obtain ⟨r, gap, r₁, after, hmark, hname, hcolon, hvalue, hafter⟩ :=
        h.exists_reads hreads (show 2 * s.length ≤ fuel + 1 by omega) (.inl rfl)
          (t ++ '}' :: rest)
      rw [List.append_assoc, List.cons_append]
      exact readMembers?_iff.mpr ⟨r, hmark, _, gap, hname, r₁, hcolon, _, after, hvalue,
        .inr ⟨_, _, hafter, hlater, rfl⟩⟩

-- An object reads as the record of its entries.
theorem ObjectText.readsAs {entries : List (String × β)} {s : List Char}
    (h : ObjectText Says entries s) :
    ReadsAs (.record (entries.map fun entry => (entry.1, value entry.2))) s := by
  have hbrace (t : List Char) : skipBlanks ('{' :: t) = '{' :: t := skipBlanks_cons (by decide) t
  rw [readsAs_iff]
  cases h with
  | @empty before gap after hbefore hgap hafter =>
      refine ⟨after, ?_, hafter⟩
      rw [readValue?_append_blanks _ hbefore]
      exact (readValue?_object_iff (hbrace _)).mpr
        (.inl ⟨skipBlanks_afterValue hgap (.inr (.inr rfl)) after, rfl⟩)
  | @members before after hbefore _ s h hafter =>
      refine ⟨after, ?_, hafter⟩
      have hhead : (skipBlanks (s ++ '}' :: after)).head? ≠ some '}' := by
        cases h with
        | last h => exact h.head?_ne _
        | more h hrest =>
            rw [List.append_assoc]
            exact h.head?_ne _
      have hread := readMembers?_membersText hreads h
        (show 2 * s.length ≤ 2 * (before ++ '{' :: (s ++ '}' :: after)).length + 1 by
          simp; omega) after
      rw [readValue?_append_blanks _ hbefore]
      refine (readValue?_object_iff (hbrace _)).mpr (.inr ⟨hhead, _, hread, ?_⟩)
      rw [Value.record, List.map_map]
      rfl

end Reading

section Documents

-- What stands for a value at the top of a document: an object of such texts as are values, for a
-- section, or any text that is the value.
inductive EntryText : Value → List Char → Prop where
  | object {entries : List (String × Value)} {s : List Char} (h : ObjectText ReadsAs entries s) :
      EntryText (.record entries) s
  | value {v : Value} {s : List Char} (h : ReadsAs v s) : EntryText v s

abbrev DocumentText (entries : List (String × Value)) (s : List Char) : Prop :=
  ObjectText EntryText entries s

theorem map_entry_id (entries : List (String × Value)) :
    (entries.map fun entry => (entry.1, id entry.2)) = entries :=
  List.map_id _

theorem EntryText.readsAs {v : Value} {s : List Char} (h : EntryText v s) : ReadsAs v s := by
  cases h with
  | @object entries _ h =>
      rw [← map_entry_id entries]
      exact h.readsAs fun _ _ h => h
  | value h => exact h

-- A document reads as the record of its entries.
theorem DocumentText.read? {entries : List (String × Value)} {s : List Char}
    (h : DocumentText entries s) : read? (String.ofList s) = some (.record entries) := by
  rw [← map_entry_id entries]
  exact ObjectText.readsAs (fun _ _ h => EntryText.readsAs h) h

-- The texts that spell a record token by token are documents, too.
theorem Spells.readsAs {v : Value} {s : List Char} (h : Spells v s) {before after : List Char}
    (hbefore : AllBlank before) (hafter : AllBlank after) : ReadsAs v (before ++ (s ++ after)) := by
  refine readsAs_iff.mpr ⟨after, ?_, hafter⟩
  rw [readValue?_append_blanks _ hbefore]
  exact readValue?_of_spells v h _ (by simp; omega) (endsNumber_allBlank hafter)

theorem membersText_of_spells {entries : List (String × Value)} (hne : entries ≠ [])
    {s : List Char} (h : SpellsMembers (entries.map member) s) :
    MembersText EntryText entries s := by
  induction entries generalizing s with
  | nil => contradiction
  | cons entry entries ih =>
      obtain ⟨before, key, gap, between, value, after, tail, rfl, hbefore, hkey, hgap, hbetween,
        hvalue, hafter, htail⟩ := h
      have hmember : MemberText EntryText entry
          (before ++ '"' :: (key ++ (gap ++ ':' :: (between ++ (value ++ after))))) :=
        .mk hbefore hkey hgap (.value (hvalue.readsAs hbetween hafter))
      obtain ⟨hnil, rfl⟩ | ⟨hcons, further, rfl, hfurther⟩ := htail
      · obtain rfl := List.map_eq_nil_iff.mp hnil
        simpa using MembersText.last hmember
      · have hrest := ih (fun hnil => hcons (List.map_eq_nil_iff.mpr hnil)) hfurther
        simpa using MembersText.more hmember hrest

theorem documentText_of_spells {entries : List (String × Value)} {s : List Char}
    (h : Spells (.record entries) s) : DocumentText entries s := by
  obtain ⟨body, rfl, hbody⟩ := h
  rw [List.cons_append]
  cases entries with
  | nil => exact .empty allBlank_nil hbody allBlank_nil
  | cons entry entries =>
      exact .members allBlank_nil (membersText_of_spells (by simp) hbody) allBlank_nil

end Documents

end Candlestick.Json

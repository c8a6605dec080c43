import Candlestick.Proofs.Toml.Locality
import Candlestick.Proofs.Toml.Table
import Mathlib.Data.List.DropRight

namespace Candlestick.Toml

open Quoted

def AllBlank (s : List Char) : Prop := ∀ c ∈ s, isBlank c = true

-- What may stand behind the last word of a line.
def IsComment (s : List Char) : Prop :=
  s = [] ∨ ∃ body, s = '#' :: body ∧ ∀ c ∈ body, isTextChar c = true

-- A line is broken in front of the next. The last one need not be.
def IsBreak (s rest : List Char) : Prop := s = ['\n'] ∨ s = ['\r', '\n'] ∨ (s = [] ∧ rest = [])

def EndsLine (s rest : List Char) : Prop :=
  ∃ blanks comment brk, s = blanks ++ (comment ++ brk) ∧ AllBlank blanks ∧ IsComment comment ∧
    IsBreak brk rest

-- The lines of a document: entries in front of the first header, and headers with their entries.
inductive LinesText : List (String × Value) → NamedTables → List Char → Prop where
  | nil : LinesText [] [] []
  | blank {s rest : List Char} (hend : EndsLine s rest) {top : List (String × Value)}
      {tables : NamedTables} (h : LinesText top tables rest) : LinesText top tables (s ++ rest)
  | entry {name : String} {v : Value} {before key gap between value after rest : List Char}
      (hbefore : AllBlank before) (hkey : SpellsKey name key) (hgap : AllBlank gap)
      (hbetween : AllBlank between) (hvalue : ReadsAs v value) (hend : EndsLine after rest)
      {top : List (String × Value)} {tables : NamedTables} (h : LinesText top tables rest) :
      LinesText ((name, v) :: top) tables
        (before ++ (key ++ (gap ++ '=' :: (between ++ (value ++ (after ++ rest))))))
  | header {name : String} {before left key right after rest : List Char}
      (hbefore : AllBlank before) (hleft : AllBlank left) (hkey : SpellsKey name key)
      (hright : AllBlank right) (hend : EndsLine after rest) {entries : List (String × Value)}
      {tables : NamedTables} (h : LinesText entries tables rest) :
      LinesText [] ((name, entries) :: tables)
        (before ++ '[' :: (left ++ (key ++ (right ++ ']' :: (after ++ rest)))))

-- A document in which no name is used twice.
structure DocumentText (top : List (String × Value)) (tables : NamedTables) (s : List Char) :
    Prop where
  lines : LinesText top tables s
  names_nodup : (top.map Prod.fst ++ tables.map Prod.fst).Nodup
  keys_nodup : ∀ table ∈ tables, (table.2.map Prod.fst).Nodup

variable {s t rest : List Char} {name : String} {v : Value}

section Parts

theorem allBlank_nil : AllBlank [] := by simp [AllBlank]

theorem skipBlanks_append {blanks : List Char} (h : AllBlank blanks) (s : List Char) :
    skipBlanks (blanks ++ s) = skipBlanks s := by
  rw [skipBlanks, List.dropWhile_append_of_pos h]
  rfl

theorem skipBlanks_skipBlanks (s : List Char) : skipBlanks (skipBlanks s) = skipBlanks s :=
  List.dropWhile_idempotent _ _

-- The end of a line is the end of the text, a comment or a line break.
theorem EndsLine.skipBlanks_append (h : EndsLine s rest) :
    (skipBlanks (s ++ rest) = [] ∧ rest = []) ∨
      ∃ c r, skipBlanks (s ++ rest) = c :: r ∧ (c = '#' ∨ c = '\n' ∨ c = '\r') ∧ s ≠ [] := by
  obtain ⟨blanks, comment, brk, rfl, hblanks, hcomment, hbreak⟩ := h
  rw [List.append_assoc, Toml.skipBlanks_append hblanks]
  obtain rfl | ⟨body, rfl, -⟩ := hcomment
  · obtain rfl | rfl | ⟨rfl, rfl⟩ := hbreak
    · exact .inr ⟨'\n', _, skipBlanks_cons (by decide) _, by simp⟩
    · exact .inr ⟨'\r', _, skipBlanks_cons (by decide) _, by simp⟩
    · exact .inl ⟨rfl, rfl⟩
  · exact .inr ⟨'#', _, skipBlanks_cons (by decide) _, by simp⟩

theorem EndsLine.ends (h : EndsLine s rest) : Ends (s ++ rest) := by
  apply ends_of_skipBlanks
  obtain ⟨hnil, -⟩ | ⟨c, r, hc, hstop, -⟩ := h.skipBlanks_append
  · simp [hnil]
  · rw [hc]
    rintro d hd
    obtain rfl : c = d := by simpa using hd
    rcases hstop with rfl | rfl | rfl <;> simp [IsStop]

theorem endLine?_skipBlanks (s : List Char) : endLine? (skipBlanks s) = endLine? s := by
  rw [endLine?, endLine?, skipBlanks_skipBlanks]

theorem EndsLine.endLine? (h : EndsLine s rest) : endLine? (s ++ rest) = some rest := by
  obtain ⟨blanks, comment, brk, rfl, hblanks, hcomment, hbreak⟩ := h
  have hclose : Toml.endLine? (brk ++ rest) = some rest := by
    obtain rfl | rfl | ⟨rfl, rfl⟩ := hbreak <;> rfl
  rw [← endLine?_skipBlanks, List.append_assoc, Toml.skipBlanks_append hblanks, endLine?_skipBlanks]
  obtain rfl | ⟨body, rfl, hbody⟩ := hcomment
  · exact hclose
  · have hskip : skipComment (skipBlanks ('#' :: body ++ brk ++ rest)) = brk ++ rest := by
      rw [List.append_assoc, List.cons_append, skipBlanks_cons (by decide), skipComment,
        List.dropWhile_append_of_pos hbody]
      obtain rfl | rfl | ⟨rfl, rfl⟩ := hbreak
      · simp [isTextChar]
      · simp [isTextChar]
      · rfl
    rw [Toml.endLine?, hskip]
    obtain rfl | rfl | ⟨rfl, rfl⟩ := hbreak <;> rfl

-- How a key begins, and nothing else that stands at the front of a line.
def IsKeyStart (c : Char) : Prop := isKeyChar c = true ∨ c = '"' ∨ c = '\x27'

instance (c : Char) : Decidable (IsKeyStart c) := inferInstanceAs (Decidable (_ ∨ _))

theorem IsKeyStart.ne {c d : Char} (h : IsKeyStart c) (hd : ¬IsKeyStart d) : c ≠ d := by
  rintro rfl
  exact hd h

theorem IsKeyStart.isBlank {c : Char} (h : IsKeyStart c) : isBlank c = false := by
  simp [Quoted.isBlank, h.ne (d := ' ') (by decide), h.ne (d := '\t') (by decide)]

theorem SpellsKey.exists_eq_cons (h : SpellsKey name s) : ∃ c r, s = c :: r ∧ IsKeyStart c := by
  rcases s with _ | ⟨c, r⟩
  · contradiction
  refine ⟨c, r, rfl, ?_⟩
  by_contra hc
  simp only [IsKeyStart, not_or, Bool.not_eq_true] at hc
  have hnone : readKey? (c :: r) = none := by
    rw [readKey?.eq_3 _ (by simp [hc]) (by simp [hc]), List.span_eq_takeWhile_dropWhile]
    simp [hc]
  rw [SpellsKey, hnone] at h
  contradiction

theorem SpellsKey.skipBlanks_append (h : SpellsKey name s) (rest : List Char) :
    skipBlanks (s ++ rest) = s ++ rest := by
  obtain ⟨c, r, rfl, hc⟩ := h.exists_eq_cons
  exact skipBlanks_cons hc.isBlank _

-- With blanks in front it begins no header of a list.
theorem SpellsKey.head?_append_ne {left : List Char} (h : SpellsKey name s) (hleft : AllBlank left)
    (rest : List Char) : (left ++ (s ++ rest)).head? ≠ some '[' := by
  rcases left with _ | ⟨b, left⟩
  · obtain ⟨c, r, rfl, hc⟩ := h.exists_eq_cons
    simpa using hc.ne (d := '[') (by decide)
  · rcases isBlank_iff.mp (hleft b (by simp)) with rfl | rfl <;> simp

theorem readKeys?_of_readKey? (h : readKey? (skipBlanks s) = some (name, t))
    (hdot : (skipBlanks t).head? ≠ some '.') : readKeys? s = some ([name], skipBlanks t) := by
  have hroom : depthLimit - 1 = 78 + 1 := rfl
  rw [readKeys?, hroom, readPath?, h]
  simp only [Option.bind_eq_bind, Option.bind_some]
  split
  · rename_i r hr
    simp [hr] at hdot
  · rfl

-- A key with blanks around it, up to what stands behind, is a path by itself.
theorem SpellsKey.readKeys? {before key gap : List Char} (h : SpellsKey name key)
    (hbefore : AllBlank before) (hgap : AllBlank gap) {c : Char} (hc : c = '=' ∨ c = ']')
    (rest : List Char) :
    readKeys? (before ++ (key ++ (gap ++ c :: rest))) = some ([name], c :: rest) := by
  have hskip : skipBlanks (gap ++ c :: rest) = c :: rest := by
    rw [Toml.skipBlanks_append hgap]
    rcases hc with rfl | rfl <;> rfl
  have hends : ∀ d ∈ (gap ++ c :: rest).head?, isKeyChar d = false := by
    intro d hd
    rcases gap with _ | ⟨b, gap⟩
    · obtain rfl : c = d := by simpa using hd
      rcases hc with rfl | rfl <;> decide
    · obtain rfl : b = d := by simpa using hd
      rcases isBlank_iff.mp (hgap b (by simp)) with rfl | rfl <;> decide
  have hread : readKey? (skipBlanks (before ++ (key ++ (gap ++ c :: rest)))) =
      some (name, gap ++ c :: rest) := by
    rw [Toml.skipBlanks_append hbefore, h.skipBlanks_append]
    exact readKey?_append_of h fun _ => hends
  rw [readKeys?_of_readKey? hread, hskip]
  rw [hskip]
  rcases hc with rfl | rfl <;> simp

theorem ReadsAs.readDefinition? {key gap between value after : List Char} (h : ReadsAs v value)
    (hkey : SpellsKey name key) (hgap : AllBlank gap) (hbetween : AllBlank between)
    (hend : EndsLine after rest) :
    readDefinition? (key ++ (gap ++ '=' :: (between ++ (value ++ (after ++ rest))))) =
      some (⟨[name], v⟩, rest) := by
  have hkeys : readKeys? ([] ++ (key ++ (gap ++ '=' :: (between ++ (value ++ (after ++ rest)))))) =
      some ([name], '=' :: (between ++ (value ++ (after ++ rest)))) :=
    hkey.readKeys? allBlank_nil hgap (.inl rfl) _
  have hskip : skipBlanks (between ++ (value ++ (after ++ rest))) = value ++ (after ++ rest) := by
    rw [Toml.skipBlanks_append hbetween]
    obtain ⟨c, r, rfl, hc, -⟩ := exists_of_readValue? h
    exact skipBlanks_cons hc _
  have hread : Toml.readValue? (2 * (value ++ (after ++ rest)).length + 2) depthLimit
      (value ++ (after ++ rest)) = some (v, [] ++ (after ++ rest)) :=
    readValue?_append_of _ h hend.ends (by simp)
  rw [List.nil_append] at hkeys hread
  rw [Toml.readDefinition?, hkeys]
  simp only [Option.bind_eq_bind, Option.bind_some, hskip, hread, hend.endLine?, Option.pure_def]

theorem SpellsKey.readHeader? {left key right after : List Char} (h : SpellsKey name key)
    (hleft : AllBlank left) (hright : AllBlank right) (hend : EndsLine after rest) :
    readHeader? false (left ++ (key ++ (right ++ ']' :: (after ++ rest)))) =
      some (⟨false, [name]⟩, rest) := by
  rw [Toml.readHeader?, h.readKeys? hleft hright (.inr rfl)]
  simp only [Option.bind_eq_bind, Option.bind_some, hend.endLine?, Option.pure_def]

end Parts

section Lines

-- A text that reads as some lines, given fuel enough.
def ReadsLines (s : List Char) (ds : List Definition) (tables : Tables) : Prop :=
  ∀ fuel, s.length < fuel → readLines? fuel s = some (ds, tables)

namespace ReadsLines

variable {ds : List Definition} {tables : Tables}

theorem nil : ReadsLines [] [] [] := by
  rintro (_ | fuel) hfuel
  · simp at hfuel
  · rfl

theorem blank (h : ReadsLines rest ds tables) (hend : EndsLine s rest) :
    ReadsLines (s ++ rest) ds tables := by
  rintro (_ | fuel) hfuel
  · simp at hfuel
  rw [readLines?]
  obtain ⟨hnil, rfl⟩ | ⟨c, r, hc, hstop, hs⟩ := hend.skipBlanks_append
  · rw [hnil]
    exact h 1 (by simp)
  · have hline : endLine? (c :: r) = some rest := by
      rw [← hc, endLine?_skipBlanks]
      exact hend.endLine?
    have hlength : 0 < s.length := List.length_pos_of_ne_nil hs
    have hrest : readLines? fuel rest = some (ds, tables) := h fuel (by simp at hfuel; omega)
    rw [hc]
    rcases hstop with rfl | rfl | rfl <;> simp [hline, hrest]

theorem definition (h : ReadsLines rest ds tables) {before : List Char} (hbefore : AllBlank before)
    {c : Char} (hc : IsKeyStart c) {d : Definition}
    (hd : readDefinition? (c :: t) = some (d, rest)) (hlength : rest.length ≤ t.length) :
    ReadsLines (before ++ c :: t) (d :: ds) tables := by
  rintro (_ | fuel) hfuel
  · simp at hfuel
  have hrest : readLines? fuel rest = some (ds, tables) := h fuel (by simp at hfuel; omega)
  have hbracket := hc.ne (d := '[') (by decide)
  have hcomment := hc.ne (d := '#') (by decide)
  have hbreak := hc.ne (d := '\n') (by decide)
  have hreturn := hc.ne (d := '\r') (by decide)
  rw [readLines?, Toml.skipBlanks_append hbefore, skipBlanks_cons hc.isBlank]
  simp [hbracket, hcomment, hbreak, hreturn, hd, hrest]

theorem header (h : ReadsLines rest ds tables) {before : List Char} (hbefore : AllBlank before)
    (ht : t.head? ≠ some '[') {hd : Header} (hread : readHeader? false t = some (hd, rest))
    (hlength : rest.length ≤ t.length) :
    ReadsLines (before ++ '[' :: t) [] ((hd, ds) :: tables) := by
  rintro (_ | fuel) hfuel
  · simp at hfuel
  have hrest : readLines? fuel rest = some (ds, tables) := h fuel (by simp at hfuel; omega)
  rw [readLines?, Toml.skipBlanks_append hbefore, skipBlanks_cons (by decide)]
  rcases t with _ | ⟨c, t⟩
  · simp [hread, hrest]
  · have hc : c ≠ '[' := by simpa using ht
    simp [hc, hread, hrest]

end ReadsLines

theorem LinesText.readsLines {top : List (String × Value)} {tables : NamedTables}
    (h : LinesText top tables s) : ReadsLines s (lineDefinitions top) (tableHeaders tables) := by
  induction h with
  | nil => exact .nil
  | blank hend h ih => exact ih.blank hend
  | entry hbefore hkey hgap hbetween hvalue hend h ih =>
      have hread := hvalue.readDefinition? hkey hgap hbetween hend
      obtain ⟨c, r, rfl, hc⟩ := hkey.exists_eq_cons
      exact ih.definition hbefore hc hread (by simp; omega)
  | header hbefore hleft hkey hright hend h ih =>
      have hread := hkey.readHeader? hleft hright hend
      refine ih.header hbefore ?_ hread (by simp; omega)
      exact hkey.head?_append_ne hleft _

-- Lines do not begin with a mark for the order of bytes, since no key does.
theorem ReadsLines.skipMark_eq {ds : List Definition} {tables : Tables}
    (h : ReadsLines s ds tables) : skipMark s = s := by
  unfold skipMark
  split
  · rename_i rest
    have hkey : readKey? ('\ufeff' :: rest) = none := by
      rw [readKey?.eq_3 _ (by simp) (by simp), List.span_eq_takeWhile_dropWhile]
      simp [isKeyChar]
    have hline : readDefinition? ('\ufeff' :: rest) = none := by
      have hroom : depthLimit - 1 = 78 + 1 := rfl
      rw [readDefinition?, readKeys?, hroom, readPath?, skipBlanks_cons (by decide), hkey]
      rfl
    have hlines := h _ (Nat.lt_succ_self _)
    rw [readLines?, skipBlanks_cons (by decide)] at hlines
    simp [hline] at hlines
  · rfl

-- A document reads as the table of its entries and its tables.
theorem DocumentText.read? {top : List (String × Value)} {tables : NamedTables}
    (h : DocumentText top tables s) :
    read? (String.ofList s) =
      some (.table (top ++ tables.map fun (name, entries) => (name, .table entries))) := by
  have hlines := h.lines.readsLines
  rw [Toml.read?, String.toList_ofList, hlines.skipMark_eq]
  simp only [hlines _ (Nat.lt_succ_self _), Option.bind_eq_bind, Option.bind_some]
  exact document?_eq h.names_nodup h.keys_nodup

end Lines

end Candlestick.Toml

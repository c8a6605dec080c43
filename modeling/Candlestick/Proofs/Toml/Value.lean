import Candlestick.Proofs.Sheet
import Candlestick.Proofs.Toml.Literal

namespace Candlestick

theorem IsBareName.exists_eq_cons {name : String} (h : IsBareName name) :
    ∃ c rest, name.toList = c :: rest ∧ Toml.isKeyChar c = true := by
  obtain ⟨c, rest, hname⟩ := List.exists_cons_of_ne_nil (mt String.toList_eq_nil_iff.mp h.1)
  exact ⟨c, rest, hname, List.all_eq_true.mp h.2 c (by simp [hname])⟩

namespace Toml

open Decimal

theorem isKeyChar_ne {c : Char} (h : isKeyChar c = true) {d : Char} (hd : isKeyChar d = false) :
    c ≠ d := by
  rintro rfl
  rw [h] at hd
  contradiction

theorem skipBlanks_cons {c : Char} (h : Quoted.isBlank c = false) (s : List Char) :
    skipBlanks (c :: s) = c :: s := by
  simp [skipBlanks, h]

def SpellsKey (name : String) (s : List Char) : Prop := readKey? s = some (name, [])

def ReadsAs (v : Value) (s : List Char) : Prop :=
  readValue? (2 * s.length + 2) depthLimit s = some (v, [])

theorem spellsKey_of_isBareName {name : String} (h : IsBareName name) :
    SpellsKey name name.toList := by
  have hspan : (name.toList ++ []).span isKeyChar = (name.toList, []) :=
    span_append (List.all_eq_true.mp h.2) (by simp)
  rw [List.append_nil] at hspan
  obtain ⟨c, t, hname, hc⟩ := h.exists_eq_cons
  have hdouble := isKeyChar_ne hc (d := '"') (by decide)
  have hsingle := isKeyChar_ne hc (d := '\x27') (by decide)
  rw [SpellsKey, readKey?.eq_3 _ (by simp [hname, hdouble]) (by simp [hname, hsingle]), hspan]
  simp [h.1]

theorem basic?_of_plain {s : List Char}
    (h : ∀ c ∈ s, Quoted.isTextChar c = true ∧ c ≠ '"' ∧ c ≠ '\\') :
    Quoted.basic? (s ++ ['"']) = some (s, []) := by
  induction s with
  | nil => rw [List.nil_append, Quoted.basic?]
  | cons c s ih =>
      obtain ⟨hchar, hmark, hslash⟩ := h c (by simp)
      rw [List.cons_append, Quoted.basic?.eq_6 _ _ hmark (by simp [hslash]) (by simp [hslash])
        (by simp [hslash]), ih (fun d hd => h d (by simp [hd]))]
      simp [hchar, hslash]

theorem readsAs_text {s : String} (h : IsPlainText s) :
    ReadsAs (.text s) ('"' :: (s.toList ++ ['"'])) := by
  obtain ⟨c, t, hs⟩ := List.exists_cons_of_ne_nil (mt String.toList_eq_nil_iff.mp h.1)
  have hall : ∀ d ∈ s.toList, Quoted.isTextChar d = true ∧ d ≠ '"' ∧ d ≠ '\\' := by
    simpa [and_assoc] using h.2
  have hmark : c ≠ '"' := (hall c (by simp [hs])).2.1
  have hread : Quoted.read? ('"' :: (s.toList ++ ['"'])) = some (s.toList, []) := by
    rw [← basic?_of_plain hall, hs, List.cons_append]
    simp [Quoted.read?, hmark]
  rw [ReadsAs, readValue?, hread]
  simp

theorem readsAs_numeral {n : Numeral} (hwhole : IsWhole n.whole) (hexponent : n.exponent = none)
    {v : Value} (hv : Literal.plain? (n.render false) = some v) : ReadsAs v (n.render false) := by
  obtain ⟨c, t, hs, hc⟩ := n.exists_render_eq_cons false hwhole
  obtain ⟨hbracket, hbrace, hdouble, hsingle⟩ : c ≠ '[' ∧ c ≠ '\x7b' ∧ c ≠ '"' ∧ c ≠ '\x27' :=
    hc.elim (by decide) (by decide)
  have hread : Literal.read? (n.render false) = some (v, []) := by
    rw [Literal.read?_of_isNumeral (Literal.isNumeral_render hexponent), hv]
    rfl
  rw [hs] at hread ⊢
  rw [ReadsAs, readValue?]
  · exact hread
  all_goals simp [hbracket, hbrace, hdouble, hsingle]

end Toml

end Candlestick

import Candlestick.Proofs.Json.Written
import Mathlib.Data.List.Infix

namespace Candlestick.Json

open Value

theorem renderItems_cons_cons (v w : Value) (rest : List Value) :
    renderItems (v :: w :: rest) = v.render ++ ',' :: renderItems (w :: rest) :=
  rfl

theorem renderMembers_singleton (name : String) (v : Value) :
    renderMembers [(some name, v)] = Quoted.write name.toList ++ ':' :: v.render :=
  rfl

theorem renderMembers_cons_cons (name : Text) (v : Value) (m : Text × Value)
    (rest : List (Text × Value)) :
    renderMembers ((name, v) :: m :: rest) =
      renderMembers [(name, v)] ++ ',' :: renderMembers (m :: rest) := by
  simp [renderMembers]

-- Along the recursion of the writer, with nothing where the grammar allows blanks.
mutual

theorem spells_render : (v : Value) → Writable v → Spells v v.render
  | .null, _ => rfl
  | .bool _, _ => rfl
  | .number _, h => ⟨h, rfl⟩
  | .text (some s), _ => ⟨_, rfl, spellsText_flatMap_escape s⟩
  | .array items, h => ⟨_, rfl, spellsItems_renderItems items h⟩
  | .object members, h => ⟨_, rfl, spellsMembers_renderMembers members h⟩

theorem spellsItems_renderItems : (items : List Value) → WritableItems items →
    SpellsItems items (renderItems items)
  | [], _ => allBlank_nil
  | [v], ⟨hv, _⟩ =>
      ⟨[], v.render, [], [], by simp [renderItems], allBlank_nil, spells_render v hv, allBlank_nil,
        .inl ⟨rfl, rfl⟩⟩
  | v :: w :: rest, ⟨hv, hrest⟩ =>
      ⟨[], v.render, [], _, renderItems_cons_cons v w rest, allBlank_nil, spells_render v hv,
        allBlank_nil, .inr ⟨by simp, _, rfl, spellsItems_renderItems (w :: rest) hrest⟩⟩

theorem spellsMembers_renderMembers : (members : List (Text × Value)) → WritableMembers members →
    SpellsMembers members (renderMembers members)
  | [], _ => allBlank_nil
  | [(some name, v)], ⟨_, hv, _⟩ => by
      refine ⟨[], _, [], [], v.render, [], [], ?_, allBlank_nil, spellsText_flatMap_escape name,
        allBlank_nil, allBlank_nil, spells_render v hv, allBlank_nil, .inl ⟨rfl, rfl⟩⟩
      simp [renderMembers_singleton, Quoted.write]
  | (some name, v) :: m :: rest, ⟨_, hv, hrest⟩ => by
      refine ⟨[], _, [], [], v.render, [], _, ?_, allBlank_nil, spellsText_flatMap_escape name,
        allBlank_nil, allBlank_nil, spells_render v hv, allBlank_nil,
        .inr ⟨by simp, _, rfl, spellsMembers_renderMembers (m :: rest) hrest⟩⟩
      simp [renderMembers_cons_cons, renderMembers_singleton, Quoted.write]

end

-- What is written reads back.
theorem read?_write {v : Value} (h : Writable v) : read? v.write = some v :=
  read?_of_spells (spells_render v h)

-- The text of an item stands in that of its array, and so does the text of a member.
theorem render_infix_renderItems {v : Value} {items : List Value} (h : v ∈ items) :
    v.render <:+: renderItems items := by
  induction items with
  | nil => simp at h
  | cons w rest ih =>
      cases rest with
      | nil =>
          obtain rfl : v = w := by simpa using h
          exact List.infix_rfl
      | cons u rest =>
          rw [renderItems_cons_cons]
          rcases List.mem_cons.mp h with rfl | hrest
          · exact (List.prefix_append _ _).isInfix
          · exact (ih hrest).trans ((List.suffix_cons _ _).trans (List.suffix_append _ _)).isInfix

theorem render_infix_renderMembers {name : String} {v : Value} {members : List (Text × Value)}
    (h : (some name, v) ∈ members) : v.render <:+: renderMembers members := by
  have hsingle : v.render <:+: renderMembers [(some name, v)] :=
    ((List.suffix_cons _ _).trans (List.suffix_append _ _)).isInfix
  induction members with
  | nil => simp at h
  | cons m rest ih =>
      cases rest with
      | nil =>
          obtain rfl : (some name, v) = m := by simpa using h
          exact hsingle
      | cons m' rest =>
          rw [renderMembers_cons_cons]
          rcases List.mem_cons.mp h with rfl | hrest
          · exact hsingle.trans (List.prefix_append _ _).isInfix
          · exact (ih hrest).trans ((List.suffix_cons _ _).trans (List.suffix_append _ _)).isInfix

theorem render_infix_array {v : Value} {items : List Value} (h : v ∈ items) :
    v.render <:+: (Value.array items).render :=
  (render_infix_renderItems h).trans ⟨['['], [']'], rfl⟩

theorem render_infix_record {name : String} {v : Value} {fields : List (String × Value)}
    (h : (name, v) ∈ fields) : v.render <:+: (Value.record fields).render :=
  (render_infix_renderMembers (List.mem_map.mpr ⟨(name, v), h, rfl⟩)).trans ⟨['{'], ['}'], rfl⟩

end Candlestick.Json

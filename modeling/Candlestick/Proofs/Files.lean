import Candlestick.Files
import Mathlib.Tactic.Common

namespace Candlestick

theorem bind_eq_ok_iff {ε α β : Type} {x : Except ε α} {f : α → Except ε β} {b : β} :
    (x >>= f) = .ok b ↔ ∃ a, x = .ok a ∧ f a = .ok b := by
  cases x <;> simp [bind, Except.bind]

theorem mapError_eq_ok_iff {ε ε' α : Type} {f : ε → ε'} {x : Except ε α} {a : α} :
    x.mapError f = .ok a ↔ x = .ok a := by
  cases x with
  | error e => exact ⟨nofun, nofun⟩
  | ok b => constructor <;> exact fun h => congrArg Except.ok (Except.ok.inj h)

def Place.ofPath (path : String) : Place := (Path.steps path).foldl Place.step (Place.start path)

namespace Files

variable {files files' : Files} {place next : Place} {path text name : String}

section Leading

theorem eq_step_of_follow (h : follow place name = .ok next) : next = place.step name := by
  unfold follow at h
  split at h
  · contradiction
  · exact (Except.ok.inj h).symm

theorem enter_eq_ok_iff :
    files.enter place name = .ok next ↔
      follow place name = .ok next ∧ files.get? next = some .directory := by
  unfold enter
  rw [bind_eq_ok_iff]
  constructor
  · rintro ⟨p, hp, hget⟩
    split at hget <;> simp_all
  · rintro ⟨hfollow, hget⟩
    exact ⟨next, hfollow, by rw [hget]⟩

-- A path leads through directories to a place where a file may stand.
def Leads (files : Files) (path : String) (place : Place) : Prop :=
  Path.isOfDirectory path = false ∧
    ∃ base, files.base path = .ok base ∧ follow base (Path.lastStep path) = .ok place

theorem eq_foldl_of_foldlM_enter {steps : List String}
    (h : steps.foldlM files.enter place = .ok next) : next = steps.foldl Place.step place := by
  induction steps generalizing place with
  | nil => exact (Except.ok.inj h).symm
  | cons name steps ih =>
      rw [List.foldlM_cons, bind_eq_ok_iff] at h
      obtain ⟨p, hp, hrest⟩ := h
      rw [ih hrest, eq_step_of_follow (enter_eq_ok_iff.mp hp).1, List.foldl_cons]

theorem base_eq_ok_iff {base : Place} :
    files.base path = .ok base ↔ fault? path = none ∧
      (Path.steps path).dropLast.foldlM files.enter (Place.start path) = .ok base := by
  rw [Files.base]
  cases fault? path <;> simp

theorem step_lastStep (path : String) :
    ((Path.steps path).dropLast.foldl Place.step (Place.start path)).step (Path.lastStep path) =
      .ofPath path := by
  rw [Path.lastStep, Place.ofPath]
  cases hlast : (Path.steps path).getLast? with
  | none => simp [List.getLast?_eq_none_iff.mp hlast, Place.step]
  | some name =>
      obtain ⟨through, hsteps⟩ := List.getLast?_eq_some_iff.mp hlast
      rw [hsteps, List.dropLast_concat, List.foldl_append, Option.getD_some]
      rfl

-- Where that is does not depend on the files.
theorem Leads.eq_ofPath (h : files.Leads path place) : place = .ofPath path := by
  obtain ⟨-, base, hbase, hfollow⟩ := h
  have hplace := eq_step_of_follow hfollow
  rwa [eq_foldl_of_foldlM_enter (base_eq_ok_iff.mp hbase).2, step_lastStep] at hplace

theorem target_eq_ok_iff :
    files.target path = .ok place ↔
      files.Leads path place ∧ files.get? place ≠ some .directory := by
  unfold target Leads
  rw [bind_eq_ok_iff]
  constructor
  · rintro ⟨base, hbase, h⟩
    split at h
    · contradiction
    · rename_i hform
      obtain ⟨next, hnext, h⟩ := bind_eq_ok_iff.mp h
      split at h
      · contradiction
      · rename_i hget
        obtain rfl := Except.ok.inj h
        exact ⟨⟨by simpa using hform, base, hbase, hnext⟩, hget⟩
  · rintro ⟨⟨hform, base, hbase, hplace⟩, hget⟩
    refine ⟨base, hbase, ?_⟩
    rw [hform, hplace]
    simp only [bind, Except.bind, Bool.false_eq_true, if_false]

theorem write_eq_ok_iff :
    files.write path text = (.ok (), files') ↔
      ∃ place, files.Leads path place ∧ files.get? place ≠ some .directory ∧
        files' = files.put place (.file (.text text)) := by
  simp only [← and_assoc, ← target_eq_ok_iff]
  unfold write
  cases files.target path <;> simp [eq_comm]

-- A write that fails has changed nothing.
theorem snd_write_of_error {e : FileError} (h : (files.write path text).1 = .error e) :
    (files.write path text).2 = files := by
  unfold write at h ⊢
  cases htarget : files.target path with
  | error cause => rfl
  | ok place =>
      rw [htarget] at h
      contradiction

theorem read_eq_ok_iff :
    files.read path = .ok text ↔
      ∃ place, files.Leads path place ∧ files.get? place = some (.file (.text text)) := by
  unfold read Leads
  rw [bind_eq_ok_iff]
  constructor
  · rintro ⟨base, hbase, h⟩
    obtain ⟨place, hfollow, h⟩ := bind_eq_ok_iff.mp h
    split at h
    · contradiction
    · rename_i content hget
      split at h
      · contradiction
      · rename_i hform
        cases content with
        | binary => contradiction
        | text t =>
            obtain rfl := Except.ok.inj h
            exact ⟨place, ⟨by simpa using hform, base, hbase, hfollow⟩, hget⟩
    · contradiction
  · rintro ⟨place, ⟨hform, base, hbase, hfollow⟩, hget⟩
    refine ⟨base, hbase, bind_eq_ok_iff.mpr ⟨place, hfollow, ?_⟩⟩
    simp only [hget, hform]
    rfl

end Leading

theorem get?_put {entry : Entry} (h : place.isStanding = false) (other : Place) :
    (files.put place entry).get? other =
      if other = place then some entry else files.get? other := by
  by_cases hother : other = place
  · subst hother
    simp [get?, put, h]
  · have hne : (other == place) = false := by simpa using hother
    rw [if_neg hother]
    simp [get?, put, List.lookup_cons, hne]

-- A text has been written at a place.
structure Wrote (files files' : Files) (place : Place) (text : String) : Prop where
  before : files.get? place ≠ some .directory
  after : files'.get? place = some (.file (.text text))
  others : ∀ other, other ≠ place → files'.get? other = files.get? other

theorem wrote_put (text : String) (h : files.get? place ≠ some .directory) :
    files.Wrote (files.put place (.file (.text text))) place text := by
  have hstanding : place.isStanding = false := by
    by_contra hs
    exact h (by simp [get?, hs])
  refine ⟨h, ?_, fun other hother => ?_⟩
  · rw [get?_put hstanding, if_pos rfl]
  · rw [get?_put hstanding, if_neg hother]

namespace Wrote

variable (h : files.Wrote files' place text)

include h

theorem get?_eq_directory_iff (other : Place) :
    files'.get? other = some .directory ↔ files.get? other = some .directory := by
  by_cases hother : other = place
  · subst hother
    simp [h.after, h.before]
  · rw [h.others other hother]

theorem leads_iff {other : String} {target : Place} :
    files'.Leads other target ↔ files.Leads other target := by
  have henter : ∀ p name q, files'.enter p name = .ok q ↔ files.enter p name = .ok q := by
    intro p name q
    rw [enter_eq_ok_iff, enter_eq_ok_iff, h.get?_eq_directory_iff]
  have hsteps : ∀ (steps : List String) p q,
      steps.foldlM files'.enter p = .ok q ↔ steps.foldlM files.enter p = .ok q := by
    intro steps
    induction steps with
    | nil => exact fun p q => Iff.rfl
    | cons name steps ih =>
        intro p q
        simp only [List.foldlM_cons, bind_eq_ok_iff, henter, ih]
  simp only [Leads, base_eq_ok_iff, hsteps]

theorem read_eq_ok_iff {other : String} (hother : Place.ofPath other ≠ place) (t : String) :
    files'.read other = .ok t ↔ files.read other = .ok t := by
  rw [Files.read_eq_ok_iff, Files.read_eq_ok_iff]
  refine exists_congr fun target => ?_
  rw [h.leads_iff]
  refine and_congr_right fun hleads => ?_
  rw [h.others target (hleads.eq_ofPath ▸ hother)]

theorem read_eq {other : String} (hother : files.Leads other place) :
    files'.read other = .ok text :=
  Files.read_eq_ok_iff.mpr ⟨place, h.leads_iff.mpr hother, h.after⟩

end Wrote

end Files

end Candlestick

import Candlestick.Proofs.Settings.Saving

namespace Candlestick.Store

-- What is to be saved, where, and in which format.
structure Save where
  part : Part
  value : part.Value
  path : String
  format? : Option Format

inductive Step where
  | save (save : Save)
  | load (part : Part) (path : String) (format? : Option Format)

namespace Save

def text (save : Save) : Except SettingsError String :=
  save.part.savedText save.value save.path save.format?

def outcome (save : Save) (files : Files) : Except SettingsError Unit × Files :=
  save.part.save save.value files save.path save.format?

def place (save : Save) : Place := .ofPath save.path

-- The format that is asked for, or that the path shows.
def told? (save : Save) : Option Format := save.format? <|> Format.ofPath? save.path

end Save

namespace Step

-- The files after a step.
def perform (files : Files) : Step → Files
  | save s => (s.outcome files).2
  | load .. => files

-- Whether a step writes at a place.
def Writes (files : Files) (place : Place) : Step → Prop
  | save s => s.place = place ∧ (s.outcome files).1 = .ok ()
  | load .. => False

end Step

def run (files : Files) (steps : List Step) : Files := steps.foldl Step.perform files

-- No step writes at a place.
def Untouched (place : Place) : Files → List Step → Prop
  | _, [] => True
  | files, step :: rest => ¬ step.Writes files place ∧ Untouched place (step.perform files) rest

-- In a run, a save that succeeds between some steps and others, none of which writes at its place
-- afterwards.
structure IsLast (files : Files) (before : List Step) (save : Save) (after : List Step) : Prop where
  saved : (save.outcome (run files before)).1 = .ok ()
  untouched : Untouched save.place (run files (before ++ [.save save])) after

section Steps

variable {files files' : Files} {save : Save} {step : Step} {place : Place}

theorem perform_of_outcome_eq_error {e : SettingsError} (h : (save.outcome files).1 = .error e) :
    (Step.save save).perform files = files :=
  Part.snd_save_of_error h

-- A save that succeeds leaves a text in its file that is loaded again.
theorem exists_read_of_outcome (h : (save.outcome files).1 = .ok ()) :
    ∃ text, files.Wrote ((Step.save save).perform files) save.place text ∧
      ((Step.save save).perform files).read save.path = .ok text ∧
        save.part.load text (some (Part.savedFormat save.path save.format?)) = .ok save.value ∧
          save.part.load text none = .ok save.value :=
  Part.exists_read_of_save (Prod.ext h rfl)

-- A step that does not write at the place of a path leaves what is read there.
theorem read_perform_iff {path : String} (h : ¬ step.Writes files (.ofPath path)) (text : String) :
    (step.perform files).read path = .ok text ↔ files.read path = .ok text := by
  cases step with
  | load part path format? => rfl
  | save s =>
      cases houtcome : (s.outcome files).1 with
      | error e => rw [perform_of_outcome_eq_error houtcome]
      | ok =>
          obtain ⟨written, hwrote, -⟩ := exists_read_of_outcome houtcome
          exact hwrote.read_eq_ok_iff (fun he => h ⟨he.symm, houtcome⟩) text

theorem read_run_iff {path : String} {steps : List Step}
    (h : Untouched (.ofPath path) files steps) (text : String) :
    (run files steps).read path = .ok text ↔ files.read path = .ok text := by
  induction steps generalizing files with
  | nil => rfl
  | cons step steps ih =>
      obtain ⟨hstep, hrest⟩ := h
      exact (ih hrest).trans (read_perform_iff hstep text)

end Steps

theorem IsLast.loads {files : Files} {before after : List Step} {save : Save}
    (h : IsLast files before save after) {format : Format} (htold : save.told? = some format) :
    save.part.loadFile (run files (before ++ .save save :: after)) save.path save.format? =
        .ok save.value ∧
      ∃ text, (run files (before ++ .save save :: after)).read save.path = .ok text ∧
        save.part.load text none = .ok save.value := by
  obtain ⟨text, -, hread, hload, hany⟩ := exists_read_of_outcome h.saved
  have hrun : run files (before ++ .save save :: after) =
      run (run files (before ++ [.save save])) after := by
    rw [run, run, run, ← List.foldl_append, List.append_assoc, List.singleton_append]
  have hstate : run files (before ++ [.save save]) =
      (Step.save save).perform (run files before) := by
    rw [run, run, List.foldl_append]
    rfl
  have hkept : (run files (before ++ .save save :: after)).read save.path = .ok text := by
    rw [hrun, read_run_iff h.untouched, hstate]
    exact hread
  have hformat : Part.savedFormat save.path save.format? = format := by
    have htold' : (save.format? <|> Format.ofPath? save.path) = some format := htold
    rw [Part.savedFormat, htold', Option.getD_some]
  refine ⟨?_, text, hkept, hany⟩
  rw [Part.loadFile_of_read htold hkept, ← hformat, hload]

-- Loads and saves that fail change nothing, a save that succeeds changes its own place, and after
-- any run the last save to a place is loaded from there, in its format and without one.
theorem last_saves_kept :
    (∀ files part path format?, (Step.load part path format?).perform files = files) ∧
      (∀ files (save : Save) e, (save.outcome files).1 = .error e →
        (Step.save save).perform files = files) ∧
      (∀ files (save : Save) e, save.text = .error e → save.outcome files = (.error e, files)) ∧
      (∀ files files' (save : Save), save.outcome files = (.ok (), files') →
        (Step.save save).perform files = files' ∧
          (∀ place, place ≠ save.place → files'.get? place = files.get? place) ∧
            ∀ path, Place.ofPath path ≠ save.place → ∀ text,
              files'.read path = .ok text ↔ files.read path = .ok text) ∧
      ∀ files before (save : Save) after, IsLast files before save after →
        save.told?.isSome = true →
          save.part.loadFile (run files (before ++ .save save :: after)) save.path save.format? =
              .ok save.value ∧
            ∃ text, (run files (before ++ .save save :: after)).read save.path = .ok text ∧
              save.part.load text none = .ok save.value := by
  refine ⟨fun _ _ _ _ => rfl, fun _ _ _ h => perform_of_outcome_eq_error h,
    fun files _ _ h => Part.save_of_savedText_eq_error h files, ?_, ?_⟩
  · intro files files' save h
    have hperform : (Step.save save).perform files = files' := congrArg Prod.snd h
    obtain ⟨text, hwrote, -⟩ := exists_read_of_outcome (congrArg Prod.fst h)
    rw [hperform] at hwrote
    exact ⟨hperform, hwrote.others, fun path hpath => hwrote.read_eq_ok_iff hpath⟩
  · intro files before save after h htold
    obtain ⟨format, hformat⟩ := Option.isSome_iff_exists.mp htold
    exact h.loads hformat

-- A save of settings that are not valid, in front of a save to the same file and behind it.
theorem last_saves_kept_standard :
    let faulty : Save := ⟨.whole, ⟨⟨0⟩, .standard, .standard⟩, "settings.json", none⟩
    let save : Save := ⟨.whole, .standard, "settings.json", none⟩
    let after := [Step.load .whole "settings.json" none, .save faulty,
      .save ⟨.whole, .standard, "other.toml", none⟩]
    (∃ e, faulty.text = .error e ∧ (Step.save faulty).perform .empty = .empty) ∧
      (∃ files', save.outcome .empty = (.ok (), files') ∧
        (Step.save save).perform .empty = files') ∧
      IsLast .empty [.save faulty] save after ∧ save.told?.isSome = true ∧
      Part.whole.loadFile (run .empty (.save faulty :: .save save :: after)) "settings.json" none =
        .ok .standard := by
  intro faulty save after
  obtain ⟨-, herror, htext, hok, hlast⟩ := last_saves_kept
  have hvalid := Settings.check_standard
  have hwritable : Files.empty.Writable "settings.json" := Files.writable_of_isOk (by decide)
  have hfits : Part.savedFormat "settings.json" none = .json ∨ Settings.standard.CountsFit :=
    .inl (by decide)
  obtain ⟨text, hrender⟩ := Settings.render_of_fits hfits
  obtain ⟨files', hsaved⟩ : ∃ files', save.outcome .empty = (.ok (), files') :=
    Part.save_of_writable hwritable ((Part.savedText_of_check hvalid _ _).trans hrender)
  obtain ⟨e, he⟩ : ∃ e, faulty.text = .error e := ⟨_, rfl⟩
  have hrefused (files : Files) : (faulty.outcome files).1 = .error e :=
    congrArg Prod.fst (htext files faulty e he)
  have hkept := herror .empty faulty e (hrefused .empty)
  have hrun : run .empty [.save faulty] = .empty := hkept
  have hislast : IsLast .empty [.save faulty] save after := by
    refine ⟨by rw [hrun, hsaved], ?_⟩
    refine ⟨id, ?_, ?_, trivial⟩
    · rintro ⟨-, hwritten⟩
      cases (hrefused _).symm.trans hwritten
    · rintro ⟨hplace, -⟩
      exact absurd hplace (by decide)
  exact ⟨⟨e, he, hkept⟩, ⟨files', hsaved, (hok .empty files' save hsaved).1⟩, hislast, by decide,
    (hlast .empty [.save faulty] save after hislast (by decide)).1⟩

end Candlestick.Store

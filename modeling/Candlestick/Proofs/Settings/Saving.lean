import Candlestick.Proofs.Files
import Candlestick.Proofs.Settings.Written
import Candlestick.Settings.Store

namespace Candlestick

-- Whatever is written there, the path takes it.
def Files.Writable (files : Files) (path : String) : Prop :=
  ∀ text, (files.write path text).1 = .ok ()

theorem Files.writable_of_isOk {files : Files} {path : String}
    (h : (files.target path).isOk = true) : files.Writable path := by
  intro text
  cases htarget : files.target path with
  | error e =>
      rw [htarget] at h
      contradiction
  | ok place => rw [Files.write, htarget]

theorem Files.Writable.exists_read {files : Files} {path : String} (h : files.Writable path)
    (text : String) :
    ∃ files', files.write path text = (.ok (), files') ∧ files'.read path = .ok text := by
  have hwrite : files.write path text = (.ok (), (files.write path text).2) := Prod.ext (h text) rfl
  obtain ⟨place, hleads, hget, hput⟩ := Files.write_eq_ok_iff.mp hwrite
  refine ⟨_, hwrite, ?_⟩
  rw [hput]
  exact (Files.wrote_put text hget).read_eq hleads

namespace Part

variable {part : Part} {value : part.Value} {files files' : Files} {path text : String}
  {format? : Option Format}

-- The format that a text is saved in.
def savedFormat (path : String) (format? : Option Format) : Format :=
  (format? <|> Format.ofPath? path).getD .toml

theorem savedText_of_check (h : part.check value = .ok ()) (path : String)
    (format? : Option Format) :
    part.savedText value path format? = part.render value (savedFormat path format?) := by
  rw [savedText, h]
  rfl

theorem savedText_eq_ok_iff :
    part.savedText value path format? = .ok text ↔
      part.check value = .ok () ∧ part.render value (savedFormat path format?) = .ok text := by
  rw [savedText, bind_eq_ok_iff]
  constructor
  · rintro ⟨_, hcheck, hrender⟩
    exact ⟨hcheck, hrender⟩
  · rintro ⟨hcheck, hrender⟩
    exact ⟨(), hcheck, hrender⟩

theorem save_eq_ok_iff :
    part.save value files path format? = (.ok (), files') ↔
      ∃ text, part.savedText value path format? = .ok text ∧
        files.write path text = (.ok (), files') := by
  unfold save
  cases part.savedText value path format? with
  | error e => simp
  | ok text => simp [Prod.ext_iff, mapError_eq_ok_iff]

-- The file is not reached unless there is a text to save.
theorem save_of_savedText_eq_error {e : SettingsError}
    (h : part.savedText value path format? = .error e) (files : Files) :
    part.save value files path format? = (.error e, files) := by
  rw [save, h]

-- Whatever a save fails for, the files are what they were.
theorem snd_save_of_error {e : SettingsError}
    (h : (part.save value files path format?).1 = .error e) :
    (part.save value files path format?).2 = files := by
  cases htext : part.savedText value path format? with
  | error cause => rw [save_of_savedText_eq_error htext]
  | ok text =>
      unfold save at h ⊢
      rw [htext] at h ⊢
      cases hresult : (files.write path text).1 with
      | error cause => exact Files.snd_write_of_error hresult
      | ok =>
          simp only [hresult] at h
          contradiction

theorem saveFile_eq_ok_iff :
    part.saveFile value files path format? = .ok files' ↔
      part.save value files path format? = (.ok (), files') := by
  rw [saveFile]
  rcases part.save value files path format? with ⟨_ | _, after⟩ <;> simp [Except.map]

theorem loadFile_of_read {format : Format}
    (hformat : (format? <|> Format.ofPath? path) = some format)
    (hread : files.read path = .ok text) :
    part.loadFile files path format? = part.load text (some format) := by
  have htold : format?.elim (Format.ofPath path) .ok = .ok format := by
    cases format? with
    | some f => simpa using hformat
    | none =>
        have hpath : Format.ofPath? path = some format := by simpa using hformat
        rw [Option.elim, Format.ofPath, hpath]
  rw [loadFile, htold]
  simp only [bind, Except.bind, hread]

theorem loadFile_undetected (files : Files) (h : Format.ofPath? path = none) :
    part.loadFile files path none = .error (.file ("파일 형식을 감지할 수 없음: " ++ path)) := by
  rw [loadFile, Option.elim, Format.ofPath, h]
  rfl

theorem save_of_writable (h : files.Writable path)
    (htext : part.savedText value path format? = .ok text) :
    ∃ files', part.save value files path format? = (.ok (), files') :=
  ⟨_, save_eq_ok_iff.mpr ⟨text, htext, Prod.ext (h text) rfl⟩⟩

-- What a save has left in its file: a text that is loaded in the format of the save and without
-- any format.
theorem exists_read_of_save (h : part.save value files path format? = (.ok (), files')) :
    ∃ text, files.Wrote files' (.ofPath path) text ∧ files'.read path = .ok text ∧
      part.load text (some (savedFormat path format?)) = .ok value ∧
        part.load text none = .ok value := by
  obtain ⟨text, htext, hwrite⟩ := save_eq_ok_iff.mp h
  obtain ⟨hvalid, hrender⟩ := savedText_eq_ok_iff.mp htext
  obtain ⟨hload, hany⟩ := load_render hvalid hrender
  obtain ⟨place, hleads, hget, rfl⟩ := Files.write_eq_ok_iff.mp hwrite
  have hwrote := Files.wrote_put text hget
  exact ⟨text, hleads.eq_ofPath ▸ hwrote, hwrote.read_eq hleads, hload, hany⟩

theorem loadFile_of_save {format : Format}
    (hformat : (format? <|> Format.ofPath? path) = some format)
    (h : part.save value files path format? = (.ok (), files')) :
    part.loadFile files' path format? = .ok value := by
  obtain ⟨text, -, hread, hload, -⟩ := exists_read_of_save h
  have hsaved : savedFormat path format? = format := by rw [savedFormat, hformat, Option.getD_some]
  rw [loadFile_of_read hformat hread, ← hsaved, hload]

end Part

-- Without a format, valid settings are saved if the path is for JSON or TOML has integers for their
-- counts, and loaded again if the path shows the format.
theorem Settings.saved_and_loaded_by_path {s : Settings} (hvalid : Part.whole.check s = .ok ())
    {files : Files} {path : String} (hwritable : files.Writable path) :
    ((∃ files', Part.whole.saveFile s files path none = .ok files') ↔
        Format.ofPath? path = some .json ∨ s.CountsFit) ∧
      (¬(Format.ofPath? path = some .json ∨ s.CountsFit) →
        Part.whole.saveFile s files path none = .error (.parse "TOML 직렬화 실패: ")) ∧
      ∀ files', Part.whole.saveFile s files path none = .ok files' →
        Part.whole.loadFile files' path none =
          match Format.ofPath? path with
          | some _ => .ok s
          | none => .error (.file ("파일 형식을 감지할 수 없음: " ++ path)) := by
  have hformat : Part.savedFormat path none = .json ↔ Format.ofPath? path = some .json := by
    rw [Part.savedFormat]
    cases Format.ofPath? path <;> simp
  have hsaved := Part.savedText_of_check hvalid path none
  rw [← hformat]
  refine ⟨⟨?_, ?_⟩, ?_, ?_⟩
  · rintro ⟨files', h⟩
    by_contra hfits
    obtain ⟨text, htext, -⟩ := Part.save_eq_ok_iff.mp (Part.saveFile_eq_ok_iff.mp h)
    rw [hsaved, render_of_not_fits hfits] at htext
    contradiction
  · intro hfits
    obtain ⟨text, htext⟩ := render_of_fits hfits
    obtain ⟨files', hsave⟩ := Part.save_of_writable hwritable (hsaved.trans htext)
    exact ⟨files', Part.saveFile_eq_ok_iff.mpr hsave⟩
  · intro hfits
    have hrender := hsaved.trans (render_of_not_fits hfits)
    rw [Part.saveFile, Part.save_of_savedText_eq_error hrender]
    rfl
  · intro files' h
    cases hpath : Format.ofPath? path with
    | none => exact Part.loadFile_undetected files' hpath
    | some format =>
        exact Part.loadFile_of_save (by simpa using hpath) (Part.saveFile_eq_ok_iff.mp h)

theorem Settings.standard_saved_and_loaded :
    Part.whole.check Settings.standard = .ok () ∧ Files.empty.Writable "settings.json" ∧
      ∃ files', Part.whole.saveFile .standard .empty "settings.json" none = .ok files' ∧
        Part.whole.loadFile files' "settings.json" none = .ok .standard := by
  have hwritable : Files.empty.Writable "settings.json" := Files.writable_of_isOk (by decide)
  have hpath : Format.ofPath? "settings.json" = some .json := by decide
  obtain ⟨hsave, -, hload⟩ := Settings.saved_and_loaded_by_path check_standard hwritable
  obtain ⟨files', hfiles⟩ := hsave.mpr (.inl hpath)
  have hloaded := hload files' hfiles
  rw [hpath] at hloaded
  exact ⟨check_standard, hwritable, files', hfiles, hloaded⟩

-- A path without an extension takes settings that are not found there again, and a path for TOML
-- does not take all of them.
theorem Settings.not_all_saved_and_loaded :
    (¬ ∀ (s : Settings) (files : Files) (path : String), Part.whole.check s = .ok () →
      files.Writable path →
        ∃ files', Part.whole.saveFile s files path none = .ok files' ∧
          Part.whole.loadFile files' path none = .ok s) ∧
      ¬ ∀ (s : Settings) (files : Files) (path : String), Part.whole.check s = .ok () →
        files.Writable path → Format.ofPath? path = some .toml →
          ∃ files', Part.whole.saveFile s files path none = .ok files' := by
  constructor
  · intro h
    have hwritable : Files.empty.Writable "settings" := Files.writable_of_isOk (by decide)
    obtain ⟨files', -, hload⟩ := h .standard .empty "settings" check_standard hwritable
    rw [Part.loadFile_undetected files' (by decide)] at hload
    contradiction
  · intro h
    let s : Settings := ⟨⟨0x8000000000000000⟩, .standard, .standard⟩
    have hvalid := (Part.check_whole_eq_ok_iff s).mpr (by decide +kernel)
    have hwritable : Files.empty.Writable "settings.toml" := Files.writable_of_isOk (by decide)
    obtain ⟨files', hsave⟩ := h s .empty "settings.toml" hvalid hwritable (by decide)
    obtain ⟨text, htext, -⟩ := Part.save_eq_ok_iff.mp (Part.saveFile_eq_ok_iff.mp hsave)
    have hformat : Part.savedFormat "settings.toml" none = .toml := by decide
    have hrender : Part.whole.render s .toml = .error (.parse "TOML 직렬화 실패: ") :=
      render_of_not_fits (by simp [s, CountsFit, Toml.integerBound])
    rw [Part.savedText_of_check hvalid, hformat, hrender] at htext
    contradiction

end Candlestick

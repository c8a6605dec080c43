import Candlestick.Proofs.Settings.Validity
import Candlestick.Settings.Text

namespace Candlestick

-- A section fails, and those before it pass.
inductive Settings.Fails (s : Settings) : SettingsError → Prop where
  | ema {cause : SettingsError} (h : Part.ema.check s.ema = .error cause) : s.Fails cause
  | keyLevels {cause : SettingsError} (hema : Part.ema.check s.ema = .ok ())
      (h : Part.keyLevels.check s.keyLevels = .error cause) : s.Fails cause
  | breakout {cause : SettingsError} (hema : Part.ema.check s.ema = .ok ())
      (hlevels : Part.keyLevels.check s.keyLevels = .ok ())
      (h : Part.breakout.check s.breakout = .error cause) : s.Fails cause

namespace Settings

variable {s : Settings} {cause : SettingsError}

theorem check_whole_eq (s : Settings) :
    Part.whole.check s =
      (Part.ema.check s.ema).bind fun _ =>
        (Part.keyLevels.check s.keyLevels).bind fun _ => Part.breakout.check s.breakout := by
  have hrefusal : Checked.refusal? s =
      (Checked.refusal? s.ema <|> Checked.refusal? s.keyLevels <|> Checked.refusal? s.breakout) :=
    rfl
  change Checked.check s = (Checked.check s.ema).bind fun _ =>
    (Checked.check s.keyLevels).bind fun _ => Checked.check s.breakout
  simp only [Checked.check, hrefusal]
  cases Checked.refusal? s.ema <;> cases Checked.refusal? s.keyLevels <;> rfl

theorem fails_iff : s.Fails cause ↔ Part.whole.check s = .error cause := by
  rw [check_whole_eq]
  constructor
  · intro h
    cases h with
    | ema h => rw [h]; rfl
    | keyLevels hema h => rw [hema, h]; rfl
    | breakout hema hlevels h => rw [hema, hlevels, h]; rfl
  · intro h
    cases hema : Part.ema.check s.ema with
    | error e =>
        rw [hema] at h
        exact .ema (hema.trans h)
    | ok =>
        cases hlevels : Part.keyLevels.check s.keyLevels with
        | error e =>
            rw [hema, hlevels] at h
            exact .keyLevels hema (hlevels.trans h)
        | ok =>
            rw [hema, hlevels] at h
            exact .breakout hema hlevels h

theorem check_or_fails (s : Settings) : Part.whole.check s = .ok () ∨ ∃ cause, s.Fails cause := by
  cases h : Part.whole.check s with
  | ok => exact .inl rfl
  | error cause => exact .inr ⟨cause, fails_iff.mpr h⟩

-- What fails is found before anything is built.
theorem ofSettings_of_fails (h : s.Fails cause) (source : Source Float) :
    Runner.ofSettings s source = .error (.parameters cause.message) := by
  have hcheck : Checked.check s = .error cause := fails_iff.mp h
  rw [Runner.ofSettings, hcheck]
  rfl

theorem exists_ofSettings_eq_ok_iff (s : Settings) (source : Source Float) :
    (∃ runner, Runner.ofSettings s source = .ok runner) ↔ Part.whole.check s = .ok () := by
  constructor
  · rintro ⟨runner, hr⟩
    rcases s.check_or_fails with h | ⟨cause, hfails⟩
    · exact h
    · cases hr.symm.trans (ofSettings_of_fails hfails source)
  · intro h
    obtain ⟨ema, keyLevels, breakout, hr, -⟩ := Runner.ofSettings_of_check h source
    exact ⟨_, hr⟩

theorem ofSettings_eq_error_iff (s : Settings) (source : Source Float) (e : AnalysisError) :
    Runner.ofSettings s source = .error e ↔
      ∃ cause, s.Fails cause ∧ e = .parameters cause.message := by
  constructor
  · intro he
    rcases s.check_or_fails with h | ⟨cause, hfails⟩
    · obtain ⟨runner, hr⟩ := (exists_ofSettings_eq_ok_iff s source).mpr h
      cases hr.symm.trans he
    · exact ⟨cause, hfails, Except.error.inj (he.symm.trans (ofSettings_of_fails hfails source))⟩
  · rintro ⟨cause, hfails, rfl⟩
    exact ofSettings_of_fails hfails source

theorem check_eq_ok_iff_exists_builds (s : Settings) (k : KeyLevels Float) :
    Part.whole.check s = .ok () ↔
      (∃ e, Ema.build s.ema = .ok e) ∧ (∃ l, KeyLevels.build s.keyLevels = .ok l) ∧
        ∃ b, Breakout.build s.breakout k = .ok b := by
  have hema : (∃ e, Ema.build s.ema = .ok e) ↔ s.ema.Valid := Checked.exists_build_eq_ok_iff _
  have hlevels : (∃ l, KeyLevels.build s.keyLevels = .ok l) ↔ s.keyLevels.Valid :=
    Checked.exists_build_eq_ok_iff _
  have hbreakout : (∃ b, Breakout.build s.breakout k = .ok b) ↔ s.breakout.Valid :=
    Checked.exists_build_eq_ok_iff _
  rw [Part.check_whole_eq_ok_iff, hema, hlevels, hbreakout]

end Settings

namespace Part

variable {part : Part} {text : String} {format? : Option Format} {value : part.Value}

-- What a text says in a format; without one, what it says in JSON, or else in TOML.
def read? (part : Part) (text : String) : Option Format → Option part.Value
  | some format => part.parse? text format
  | none => part.parse? text .json <|> part.parse? text .toml

theorem read?_none_eq_none_iff :
    part.read? text none = none ↔
      part.parse? text .json = none ∧ part.parse? text .toml = none := by
  rw [read?]
  cases part.parse? text .json <;> simp

theorem parse_of_parse?_eq_some {format : Format} (h : part.parse? text format = some value) :
    part.parse text format = .ok value := by
  rw [parse, h]

theorem parse_of_parse?_eq_none {format : Format} (h : part.parse? text format = none) :
    ∃ reason, part.parse text format = .error (.parse reason) := by
  rw [parse, h]
  cases format <;> exact ⟨_, rfl⟩

theorem parseAny_of_read?_eq_some (h : part.read? text format? = some value) :
    part.parseAny text format? = .ok value := by
  cases format? with
  | some format => exact parse_of_parse?_eq_some h
  | none =>
      rw [read?] at h
      rw [parseAny]
      cases hjson : part.parse? text .json with
      | some other =>
          rw [hjson] at h
          exact congrArg Except.ok (Option.some.inj h)
      | none =>
          rw [hjson] at h
          exact parse_of_parse?_eq_some h

theorem parseAny_of_read?_eq_none (h : part.read? text format? = none) :
    ∃ reason, part.parseAny text format? = .error (.parse reason) := by
  cases format? with
  | some format => exact parse_of_parse?_eq_none h
  | none =>
      obtain ⟨hjson, htoml⟩ := read?_none_eq_none_iff.mp h
      rw [parseAny, hjson]
      exact parse_of_parse?_eq_none htoml

-- What is read is checked, and a value that does not pass is not read in another way.
theorem load_of_read?_eq_some (h : part.read? text format? = some value) :
    part.load text format? = (part.check value).map fun _ => value := by
  rw [load, parseAny_of_read?_eq_some h]
  cases hcheck : part.check value <;>
    simp [bind, Except.bind, Except.map, pure, Except.pure, hcheck]

theorem load_of_read?_eq_none (h : part.read? text format? = none) :
    ∃ reason, part.load text format? = .error (.parse reason) := by
  obtain ⟨reason, hparse⟩ := parseAny_of_read?_eq_none h
  exact ⟨reason, by rw [load, hparse]; rfl⟩

theorem load_eq_ok_iff :
    part.load text format? = .ok value ↔
      part.read? text format? = some value ∧ part.check value = .ok () := by
  cases h : part.read? text format? with
  | none =>
      obtain ⟨reason, hload⟩ := load_of_read?_eq_none h
      simp [hload]
  | some other =>
      rw [load_of_read?_eq_some h]
      cases hcheck : part.check other with
      | error cause =>
          refine iff_of_false (by simp [Except.map]) ?_
          rintro ⟨ho, hpass⟩
          obtain rfl := Option.some.inj ho
          cases hcheck.symm.trans hpass
      | ok =>
          constructor
          · intro he
            obtain rfl := Except.ok.inj he
            exact ⟨rfl, hcheck⟩
          · rintro ⟨ho, -⟩
            exact congrArg Except.ok (Option.some.inj ho)

theorem load_eq_parse_iff :
    (∃ reason, part.load text format? = .error (.parse reason)) ↔
      part.read? text format? = none := by
  cases h : part.read? text format? with
  | none => exact iff_of_true (load_of_read?_eq_none h) rfl
  | some value =>
      rw [load_of_read?_eq_some h]
      refine iff_of_false ?_ (by simp)
      rintro ⟨reason, he⟩
      cases hcheck : part.check value with
      | ok => simp [hcheck, Except.map] at he
      | error cause =>
          obtain ⟨violation, -, rfl⟩ := Checked.check_eq_error_iff.mp hcheck
          simp [hcheck, Except.map] at he

theorem load_eq_error_iff_of_read?_eq_some {cause : SettingsError}
    (h : part.read? text format? = some value) :
    part.load text format? = .error cause ↔ part.check value = .error cause := by
  rw [load_of_read?_eq_some h]
  cases part.check value <;> simp [Except.map]

end Part

-- Settings make a runner if they pass their check, and so does each section an analysis. What is
-- loaded has passed; what is not loaded either cannot be read in the format at all, or is read and
-- does not pass, and then no other format is tried.
theorem Settings.gates_agree :
    (∀ (s : Settings) (source : Source Float) (k : KeyLevels Float),
      ((∃ runner, Runner.ofSettings s source = .ok runner) ↔ Part.whole.check s = .ok ()) ∧
        (Part.whole.check s = .ok () ↔
          (∃ e, Ema.build s.ema = .ok e) ∧ (∃ l, KeyLevels.build s.keyLevels = .ok l) ∧
            ∃ b, Breakout.build s.breakout k = .ok b) ∧
        (∀ cause, Part.whole.check s = .error cause ↔ s.Fails cause) ∧
        ∀ e, Runner.ofSettings s source = .error e ↔
          ∃ cause, s.Fails cause ∧ e = .parameters cause.message) ∧
      (∀ text format? s, Part.whole.load text format? = .ok s →
        ∀ source, ∃ runner, Runner.ofSettings s source = .ok runner) ∧
      ∀ (part : Part) (text : String) (format? : Option Format),
        (∀ value, part.load text format? = .ok value ↔
          part.read? text format? = some value ∧ part.check value = .ok ()) ∧
        ((∃ reason, part.load text format? = .error (.parse reason)) ↔
          match format? with
          | some format => part.parse? text format = none
          | none => part.parse? text .json = none ∧ part.parse? text .toml = none) ∧
        (∀ cause, part.load text format? = .error cause →
          (∃ reason, cause = .parse reason) ∨ ∃ reason, cause = .invalid reason) ∧
        ∀ value cause, part.parse? text .json = some value → part.check value = .error cause →
          part.load text none = .error cause := by
  refine ⟨fun s source k => ⟨exists_ofSettings_eq_ok_iff s source,
    check_eq_ok_iff_exists_builds s k, fun cause => fails_iff.symm,
    ofSettings_eq_error_iff s source⟩, ?_,
    fun part text format? => ⟨fun value => Part.load_eq_ok_iff, ?_, ?_, ?_⟩⟩
  · intro text format? s hload source
    exact (exists_ofSettings_eq_ok_iff s source).mpr (Part.load_eq_ok_iff.mp hload).2
  · rw [Part.load_eq_parse_iff]
    cases format? with
    | some format => rfl
    | none => exact Part.read?_none_eq_none_iff
  · intro cause hload
    cases hread : part.read? text format? with
    | none =>
        obtain ⟨reason, hparse⟩ := Part.load_of_read?_eq_none hread
        exact .inl ⟨reason, Except.error.inj (hload.symm.trans hparse)⟩
    | some value =>
        have hcheck := (Part.load_eq_error_iff_of_read?_eq_some hread).mp hload
        obtain ⟨violation, -, rfl⟩ := Checked.check_eq_error_iff.mp hcheck
        exact .inr ⟨_, rfl⟩
  · intro value cause hjson hcheck
    have hread : part.read? text none = some value := by rw [Part.read?, hjson]; rfl
    exact (Part.load_eq_error_iff_of_read?_eq_some hread).mpr hcheck

end Candlestick

import Candlestick.Runner

namespace Candlestick

namespace Checked

variable {P A : Type} [Checked P] {p : P} {cause : SettingsError}

theorem check_eq_error_iff :
    check p = .error cause ↔ ∃ reason, refusal? p = some reason ∧ cause = .invalid reason := by
  rw [check]
  cases refusal? p <;> simp [eq_comm]

theorem build_of_valid (h : Valid p) (make : Valid p → A) : build p make = .ok (make h) := by
  have hok := check_eq_ok_iff.mpr h
  unfold build
  split
  · rfl
  · next hcheck => cases hok.symm.trans hcheck

theorem build_of_check_eq_error (h : check p = .error cause) (make : Valid p → A) :
    build p make = .error (.ofSettings cause) := by
  unfold build
  split
  · next hok => cases h.symm.trans hok
  · next hcheck => rw [Except.error.inj (hcheck.symm.trans h)]

theorem exists_build_eq_ok_iff (make : Valid p → A) : (∃ a, build p make = .ok a) ↔ Valid p := by
  constructor
  · rintro ⟨a, ha⟩
    cases hcheck : check p with
    | ok => exact check_eq_ok_iff.mp hcheck
    | error cause => cases ha.symm.trans (build_of_check_eq_error hcheck make)
  · intro h
    exact ⟨make h, build_of_valid h make⟩

end Checked

theorem Part.check_whole_eq_ok_iff (settings : Settings) :
    Part.whole.check settings = .ok () ↔
      settings.ema.Valid ∧ settings.keyLevels.Valid ∧ settings.breakout.Valid :=
  Checked.check_eq_ok_iff

-- The settings that stand in where there is no file are valid.
theorem Settings.check_standard : Part.whole.check .standard = .ok () :=
  (Part.check_whole_eq_ok_iff .standard).mpr (by decide +kernel)

-- A runner for all three algorithms, over one source.
def Runner.sharing {α : Type} [Scalar α] (source : Source α) (ema : Ema) (keyLevels : KeyLevels α)
    (breakout : Breakout α) : Runner α :=
  ⟨[⟨source, .ema ema⟩, ⟨source, .keyLevels keyLevels⟩, ⟨source, .breakout breakout⟩]⟩

theorem Runner.ofSettings_of_check {settings : Settings} (h : Part.whole.check settings = .ok ())
    (source : Source Float) :
    ∃ (ema : Ema) (keyLevels : KeyLevels Float) (breakout : Breakout Float),
      Runner.ofSettings settings source = .ok (Runner.sharing source ema keyLevels breakout) ∧
        ema.params = settings.ema ∧ keyLevels.params = settings.keyLevels ∧
          breakout.params = settings.breakout ∧ breakout.pivots = keyLevels := by
  obtain ⟨he, hk, hb⟩ := (Part.check_whole_eq_ok_iff settings).mp h
  let keyLevels : KeyLevels Float := ⟨settings.keyLevels, hk⟩
  have hcheck : Checked.check settings = .ok () := h
  have hema : Ema.build settings.ema = .ok ⟨settings.ema, he⟩ := Checked.build_of_valid he _
  have hlevels : KeyLevels.build settings.keyLevels = .ok keyLevels := Checked.build_of_valid hk _
  have hbreakout : Breakout.build settings.breakout keyLevels =
      .ok ⟨settings.breakout, keyLevels, hb⟩ := Checked.build_of_valid hb _
  refine ⟨⟨settings.ema, he⟩, keyLevels, ⟨settings.breakout, keyLevels, hb⟩, ?_, rfl, rfl, rfl, rfl⟩
  rw [Runner.ofSettings, hcheck, hema, hlevels]
  change Breakout.build settings.breakout keyLevels >>= _ = _
  rw [hbreakout]
  rfl

end Candlestick

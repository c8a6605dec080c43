import Candlestick.Proofs.Analysis.Range
import Candlestick.Proofs.Settings.Validity

namespace Candlestick

section

variable {α : Type} [Scalar α]

namespace Runner

theorem resolve_eq (r : Runner α) (request : Request) :
    r.resolve request =
      match r.analyses.find? fun a => request.algorithm = a.algorithm with
      | some a => .ok a
      | none => .error (.noMatch ⟨r.analyses.map fun a => a.algorithm.message⟩) := by
  have hfind : r.resolver.rules.find? (·.accepts request) =
      (r.analyses.find? fun a => request.algorithm = a.algorithm).map RangeAnalysis.rule :=
    List.find?_map
  have hnames : r.resolver.names = r.analyses.map fun a => a.algorithm.message :=
    List.map_map
  rw [resolve, Resolver.resolve, hfind, hnames]
  cases r.analyses.find? fun a => request.algorithm = a.algorithm <;> rfl

theorem mem_of_resolve_eq_ok {r : Runner α} {request : Request} {a : RangeAnalysis α}
    (h : r.resolve request = .ok a) : a ∈ r.analyses ∧ a.algorithm = request.algorithm := by
  rw [resolve_eq] at h
  split at h
  · rename_i b hf
    obtain rfl := Except.ok.inj h
    have hmatch := List.find?_some hf
    exact ⟨List.mem_of_find?_eq_some hf, (of_decide_eq_true hmatch).symm⟩
  · exact absurd h (by simp)

theorem run_of_resolve_eq_ok {r : Runner α} {request : Request} {a : RangeAnalysis α}
    (h : r.resolve request = .ok a) (token : Token) : r.run request token = a.run request token := by
  rw [run, h]

theorem isOf_of_run_eq_ok {r : Runner α} {request : Request} {token : Token} {output : Output α}
    (h : (r.run request token).1 = .ok output) :
    ∃ a ∈ r.analyses, ∃ candles, (a.source.fetch request.query).result = .ok candles ∧
      output.IsOf request.algorithm candles := by
  cases hr : r.resolve request with
  | error e => simp [run, hr] at h
  | ok a =>
      obtain ⟨hmem, halg⟩ := mem_of_resolve_eq_ok hr
      rw [run_of_resolve_eq_ok hr] at h
      obtain ⟨candles, hfetch, hout⟩ := RangeAnalysis.isOf_of_run_eq_ok h
      exact ⟨a, hmem, candles, hfetch, halg ▸ hout⟩

theorem runAs_plain_of_run_eq_ok {r : Runner α} {request : Request} {token : Token}
    {output : Output α} (h : (r.run request token).1 = .ok output) :
    (r.runAs .plain request token).1 = .ok (output.labelled.map Annotated.candle) := by
  have hmap : (r.runAs .plain request token).1 = (r.run request token).1.map fun output =>
    (output.narrow? .plain).getD (Shape.empty α .plain) := rfl
  rw [hmap, h]
  rfl

-- No algorithm is left without an analysis.
theorem resolve_sharing (source : Source α) (ema : Ema) (keyLevels : KeyLevels α)
    (breakout : Breakout α) (request : Request) :
    ∃ analysis, (sharing source ema keyLevels breakout).resolve request = .ok ⟨source, analysis⟩ ∧
      analysis.algorithm = request.algorithm := by
  rw [resolve_eq]
  cases h : request.algorithm with
  | ema => exact ⟨.ema ema, rfl, rfl⟩
  | keyLevels => exact ⟨.keyLevels keyLevels, rfl, rfl⟩
  | breakout => exact ⟨.breakout breakout, rfl, rfl⟩

theorem exists_run_sharing_eq_ok (source : Source α) (ema : Ema) (keyLevels : KeyLevels α)
    (breakout : Breakout α) {request : Request} {token : Token} {candles : List (Candle α)}
    (hfetch : (source.fetch request.query).result = .ok candles)
    (hpass : (token.after (source.fetch request.query)).cancelled = false) :
    ∃ output, ((sharing source ema keyLevels breakout).run request token).1 = .ok output := by
  obtain ⟨analysis, hr, -⟩ := resolve_sharing source ema keyLevels breakout request
  refine ⟨analysis.output candles, ?_⟩
  rw [run_of_resolve_eq_ok hr, RangeAnalysis.run_of_fetch_eq_ok hfetch, Analysis.run_eq]
  simp [hpass]

end Runner

end

-- Settings that pass their check make a runner. It has an output for whatever is fetched without a
-- cancellation, and every output of it has the fetched candles and no labels but those of the
-- analysis that was asked for.
theorem Runner.outputs_keep_candles {settings : Settings}
    (h : Part.whole.check settings = .ok ()) (source : Source Float) :
    ∃ runner, Runner.ofSettings settings source = .ok runner ∧
      (∀ request token candles, (source.fetch request.query).result = .ok candles →
        (token.after (source.fetch request.query)).cancelled = false →
          ∃ output, (runner.run request token).1 = .ok output) ∧
      ∀ request token output, (runner.run request token).1 = .ok output →
        ∃ candles, (source.fetch request.query).result = .ok candles ∧
          (runner.runAs .plain request token).1 = .ok candles ∧
            output.IsOf request.algorithm candles := by
  obtain ⟨ema, keyLevels, breakout, hr, -⟩ := Runner.ofSettings_of_check h source
  refine ⟨_, hr, ?_, ?_⟩
  · intro request token candles hfetch hpass
    exact exists_run_sharing_eq_ok source ema keyLevels breakout hfetch hpass
  · intro request token output ho
    obtain ⟨a, ha, candles, hfetch, hout⟩ := Runner.isOf_of_run_eq_ok ho
    have hsource : a.source = source := by
      simp only [Runner.sharing, List.mem_cons, List.not_mem_nil, or_false] at ha
      rcases ha with rfl | rfl | rfl <;> rfl
    rw [hsource] at hfetch
    refine ⟨candles, hfetch, ?_, hout⟩
    rw [Runner.runAs_plain_of_run_eq_ok ho, hout.candles]

-- A series with a peak, whose averages and whose levels are asked for.
theorem Runner.outputs_keep_candles_peak :
    let candles : List (Candle Float) :=
      [1, 2, 3, 9, 3, 2, 1, 4].map fun x => ⟨.epoch, x, x + 1, x - 1, x, 100⟩
    let source : Source Float := .feed ⟨"desk", fun _ => true, fun _ => .of (.ok candles)⟩
    let request := Request.of "BRK.B" .epoch .epoch .daily
    Part.whole.check Settings.standard = .ok () ∧
      ∃ runner, Runner.ofSettings .standard source = .ok runner ∧
        (∃ output, (runner.run (request .ema) .fresh).1 = .ok output ∧
          (runner.runAs .plain (request .ema) .fresh).1 = .ok candles ∧
            output.IsOf .ema candles) ∧
        ∃ output, (runner.run (request .keyLevels) .fresh).1 = .ok output ∧
          output.IsOf .keyLevels candles ∧ output.labelled.map Annotated.pivot =
            [.unchanged, .unchanged, .unchanged, .high, .unchanged, .unchanged, .unchanged,
              .unchanged] := by
  intro candles source request
  have hcheck := Settings.check_standard
  have hpeak : ∀ valid, ((⟨.standard, valid⟩ : KeyLevels Float).labelled candles).map
      Annotated.pivot = [.unchanged, .unchanged, .unchanged, .high, .unchanged, .unchanged,
        .unchanged, .unchanged] := by
    decide +kernel
  refine ⟨hcheck, ?_⟩
  obtain ⟨runner, hr, hgives, hkeeps⟩ := Runner.outputs_keep_candles hcheck source
  have houtput (algorithm : Algorithm) :
      ∃ output, (runner.run (request algorithm) .fresh).1 = .ok output ∧
        (runner.runAs .plain (request algorithm) .fresh).1 = .ok candles ∧
          output.IsOf algorithm candles := by
    obtain ⟨output, hrun⟩ := hgives (request algorithm) .fresh candles rfl rfl
    obtain ⟨fetched, hfetch, hplain, hof⟩ := hkeeps (request algorithm) .fresh output hrun
    obtain rfl := Except.ok.inj hfetch
    exact ⟨output, hrun, hplain, hof⟩
  refine ⟨runner, hr, houtput .ema, ?_⟩
  obtain ⟨output, hrun, -, hof⟩ := houtput .keyLevels
  refine ⟨output, hrun, hof, ?_⟩
  obtain ⟨ema, keyLevels, breakout, ho, -, hparams, -⟩ := Runner.ofSettings_of_check hcheck source
  obtain rfl := Except.ok.inj (hr.symm.trans ho)
  have hlevels : (RangeAnalysis.run ⟨source, .keyLevels keyLevels⟩ (request .keyLevels) .fresh).1 =
      .ok (.keyLevels (keyLevels.result candles)) := by
    rw [RangeAnalysis.run_of_fetch_eq_ok rfl, Analysis.run_eq]
    rfl
  obtain rfl := Except.ok.inj (hrun.symm.trans hlevels)
  obtain ⟨_, valid⟩ := keyLevels
  obtain rfl := hparams
  exact hpeak valid

end Candlestick
